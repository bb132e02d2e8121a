import Chalkboard.Engine.Computer
import Chalkboard.Proofs.Engine.Calls

/-!
# Commands that are carried out

While nothing replaces the host and no deadline passes, each command that was begun is on its way:
it waits for the host, or for its answer, or it has the right result (`Computer.Carries`). Every
move keeps this for all commands at once (`Computer.Executing.step`), whatever the order in which
callers, bridge and worker go on. The host is spawned, and the engine loaded, at most once.
-/

namespace Chalkboard

/-- The call that a job waits for. -/
def Job.call? : Job → Option Nat
  | .starting call _ | .sending call => some call
  | .done _ => none

/-- The move belongs to a caller, the bridge or the worker. -/
def Move.Proper : Move → Prop
  | .bridge action => action.Proper
  | .serve | .begin _ | .proceed _ => True

/-- The command that a move begins. -/
def Move.command? : Move → Option Command
  | .begin command => some command
  | .bridge _ | .serve | .proceed _ => none

/-- No command is a handshake. -/
theorem Command.request_ne_init (c : Command) : c.request ≠ .init := by
  unfold Command.request Intent.request
  cases c.intent.kind <;> nofun

namespace Computer

variable {σ : Type} {setup : BridgeSetup} {f : Computation} {s : Computer Nat} {m : Move}

/-- Several moves, one after the other. -/
def run (setup : BridgeSetup) (e : Engine σ) (s : Computer σ) (moves : List Move) : Computer σ :=
  moves.foldl (step setup e) s

/-! ## Every move -/

/-- The invariant of a computer whose engine computes `f`. -/
structure Sound (setup : BridgeSetup) (f : Computation) (s : Computer Nat) : Prop where
  bridge : s.bridge.Sound setup f
  worker : s.worker.Steady

theorem Sound.steady_workerOf (hs : s.Sound setup f) (g : Nat) : (s.workerOf g).Steady := by
  unfold workerOf
  split
  · exact hs.worker
  · exact Worker.steady_start _

theorem nextRequest?_cases (hs : s.Sound setup f) {g : Nat} {q : HostRequest}
    (hnext : s.nextRequest? = some (g, q)) :
    s.bridge.connection = some g ∧
      ∃ h requests, s.bridge.host? g = some h ∧ h.requests = q :: requests := by
  unfold nextRequest? at hnext
  split at hnext
  · cases hnext
  · next g' hg =>
    rw [if_neg (by simp [(hs.steady_workerOf g').stopped])] at hnext
    obtain ⟨h, hh, hhead⟩ := Option.bind_eq_some_iff.1 hnext
    obtain ⟨q', hq, heq⟩ := Option.map_eq_some_iff.1 hhead
    cases heq
    obtain ⟨requests, hrequests⟩ := List.head?_eq_some_iff.1 hq
    exact ⟨hg, h, requests, hh, hrequests⟩

theorem serve_of_none (setup : BridgeSetup) (e : Engine σ) {s : Computer σ}
    (h : s.nextRequest? = none) : s.serve setup e = s := by
  unfold serve
  rw [h]

/-- The worker of a sound computer replies to the next request. -/
theorem serve_of_next (hs : s.Sound setup f) {g : Nat} {q : HostRequest}
    (hnext : s.nextRequest? = some (g, q)) :
    s.serve setup (.ofFunction f) =
      { s with
        bridge := s.bridge.updateHost g fun h => h.served ((s.workerOf g).sayings f q)
        worker := ⟨if (s.workerOf g).loaded then s.worker.engine else s.worker.engine + 1, true,
          none, false, []⟩
        generation := g } := by
  have hengine : (s.workerOf g).engine = s.worker.engine := by
    unfold workerOf
    split <;> rfl
  unfold serve
  rw [hnext]
  dsimp only
  rw [Worker.serve_of_steady (hs.steady_workerOf g), hengine]
  dsimp only
  rw [if_neg (by simp), List.append_nil, ← Bridge.run_served setup]

theorem Sound.served (hs : s.Sound setup f) :
    (s.serve setup (.ofFunction f)).Sound setup f := by
  cases hnext : s.nextRequest? with
  | none =>
    rw [serve_of_none setup _ hnext]
    exact hs
  | some x =>
    obtain ⟨g, q⟩ := x
    obtain ⟨hg, h, requests, hh, hq⟩ := nextRequest?_cases hs hnext
    rw [serve_of_next hs hnext]
    exact ⟨hs.bridge.served hg hh hq _, ⟨rfl, rfl, rfl⟩⟩

/-- The job waits for a call that has not finished, or for nothing. -/
def Stuck (b : Bridge) (j : Job) : Prop :=
  ∀ n answer, j.call? = some n → b.calls[n]? ≠ some (.finished answer)

theorem proceedJob_of_stuck (setup : BridgeSetup) {b : Bridge} {j : Job} (h : Stuck b j) :
    proceedJob setup b j = (b, j) := by
  cases j with
  | starting call command =>
    unfold proceedJob
    dsimp only
    split
    · next answer hc => exact absurd hc (h call _ rfl)
    · next e hc => exact absurd hc (h call _ rfl)
    · rfl
  | sending call =>
    unfold proceedJob
    dsimp only
    split
    · next answer hc => exact absurd hc (h call _ rfl)
    · rfl
  | done result => rfl

/-- A job that goes on sends its request, or is done. -/
theorem proceedJob_of_not_stuck (setup : BridgeSetup) {b : Bridge} {j : Job} (h : ¬Stuck b j) :
    (∃ call command, j = .starting call command ∧
      proceedJob setup b j =
        (b.step setup (.begin (.send command.request command.toJson)), .sending b.calls.length)) ∨
      ∃ result, proceedJob setup b j = (b, .done result) := by
  unfold Stuck at h
  push Not at h
  obtain ⟨n, answer, hn, hc⟩ := h
  cases j with
  | starting call command =>
    cases hn
    unfold proceedJob
    dsimp only
    rw [hc]
    cases answer with
    | ok answer => exact .inl ⟨_, command, rfl, rfl⟩
    | error e => exact .inr ⟨_, rfl⟩
  | sending call =>
    cases hn
    unfold proceedJob
    dsimp only
    rw [hc]
    exact .inr ⟨_, rfl⟩
  | done result => cases hn

/-- A job sends its request, or leaves the bridge as it is. -/
theorem proceedJob_cases (setup : BridgeSetup) (b : Bridge) (j : Job) :
    (∃ command : Command, proceedJob setup b j =
      (b.step setup (.begin (.send command.request command.toJson)), .sending b.calls.length)) ∨
      (proceedJob setup b j).1 = b := by
  by_cases hj : Stuck b j
  · right
    rw [proceedJob_of_stuck setup hj]
  · rcases proceedJob_of_not_stuck setup hj with ⟨call, command, -, hgo⟩ | ⟨result, hgo⟩
    · exact .inl ⟨command, hgo⟩
    · right
      rw [hgo]

theorem proceed_of_job {job : Nat} {j : Job} (h : s.jobs[job]? = some j) :
    s.proceed setup job =
      { s with
        bridge := (proceedJob setup s.bridge j).1
        jobs := s.jobs.set job (proceedJob setup s.bridge j).2 } := by
  unfold proceed
  rw [h]

theorem proceed_of_none {job : Nat} (h : s.jobs[job]? = none) : s.proceed setup job = s := by
  unfold proceed
  rw [h]

/-- A job that goes on sends its request and changes its state, or changes no more than its state. -/
theorem proceed_cases (setup : BridgeSetup) (s : Computer Nat) (job : Nat) :
    ∃ jobs, (∃ command : Command, s.proceed setup job =
      { s with
        bridge := s.bridge.step setup (.begin (.send command.request command.toJson))
        jobs }) ∨ s.proceed setup job = { s with jobs } := by
  cases hjob : s.jobs[job]? with
  | none =>
    refine ⟨s.jobs, .inr ?_⟩
    rw [proceed_of_none hjob]
  | some j =>
    refine ⟨s.jobs.set job (proceedJob setup s.bridge j).2, ?_⟩
    rw [proceed_of_job hjob]
    rcases proceedJob_cases setup s.bridge j with ⟨command, hgo⟩ | hsame
    · left
      refine ⟨command, ?_⟩
      rw [hgo]
    · right
      rw [hsame]

theorem Sound.step (hinj : Function.Injective setup.requestId) (hs : s.Sound setup f)
    (hm : m.Proper) : (s.step setup (.ofFunction f) m).Sound setup f := by
  cases m with
  | bridge action => exact ⟨hs.bridge.step hinj hm, hs.worker⟩
  | serve => exact hs.served
  | begin command => exact ⟨hs.bridge.step hinj (a := .begin .init) trivial, hs.worker⟩
  | proceed job =>
    change (s.proceed setup job).Sound setup f
    obtain ⟨jobs, ⟨command, hgo⟩ | hgo⟩ := proceed_cases setup s job
    · rw [hgo]
      have hsend := hs.bridge.step hinj (a := .begin (.send command.request command.toJson)) trivial
      exact ⟨hsend, hs.worker⟩
    · rw [hgo]
      exact ⟨hs.bridge, hs.worker⟩

theorem sound_run (hinj : Function.Injective setup.requestId) (f : Computation)
    {moves : List Move} (hmoves : ∀ m ∈ moves, m.Proper) :
    ((start 0).run setup (.ofFunction f) moves).Sound setup f :=
  List.foldlRecOn (motive := Sound setup f) moves _
    ⟨Bridge.sound_initial setup f, Worker.steady_start 0⟩ fun _ hs m hm => hs.step hinj (hmoves m hm)

/-! ## Commands -/

/-- The result is what the function has for the command. -/
def Yields (f : Computation) (c : Command) (result : Except BridgeError CommandResult) : Prop :=
  match f c.request c.toJson with
  | .ok answer => result = resultOfAnswer (.ok answer)
  | .error message => ∃ id, result = .error (.hostRejected id message)

/-- A job carries a command: it waits for the host, or for the answer to its request, or has the
result. -/
inductive Carries (f : Computation) (b : Bridge) (c : Command) : Job → Prop
  | starting (call : Nat) (h : b.Hosted call) : Carries f b c (.starting call c)
  | sending (call : Nat) (id : RequestId) (h : b.Fetches f call ⟨c.request, id, c.toJson⟩) :
      Carries f b c (.sending call)
  | done (result : Except BridgeError CommandResult) (h : Yields f c result) :
      Carries f b c (.done result)

theorem yields_outcome (f : Computation) (c : Command) (id : RequestId) :
    Yields f c (resultOfAnswer (outcome f ⟨c.request, id, c.toJson⟩)) := by
  unfold Yields outcome
  dsimp only
  rw [if_neg c.request_ne_init]
  cases f c.request c.toJson with
  | ok answer => rfl
  | error message => exact ⟨id, rfl⟩

/-- An action that is not about the call of a job keeps what the job carries. -/
theorem Carries.step (hinj : Function.Injective setup.requestId) {b : Bridge} {a : BridgeAction}
    {c : Command} {j : Job} (hb : b.Sound setup f) (hconnected : b.connection ≠ none)
    (ha : a.Calm) (htimely : b.Timely a) (hleft : ∀ n, j.call? = some n → a ≠ .abandon n)
    (h : Carries f b c j) : Carries f (b.step setup a) c j := by
  cases h with
  | starting call h => exact .starting call (h.step hb hconnected ha htimely (hleft call rfl))
  | sending call id h =>
    exact .sending call id (h.step hinj hb hconnected ha htimely (hleft call rfl))
  | done result h => exact .done result h

/-- So does the worker. -/
theorem Carries.served {c : Command} {j : Job} (hs : s.Sound setup f)
    (h : Carries f s.bridge c j) :
    Carries f (s.serve setup (.ofFunction f)).bridge c j := by
  cases hnext : s.nextRequest? with
  | none =>
    rw [serve_of_none setup _ hnext]
    exact h
  | some x =>
    obtain ⟨g, q⟩ := x
    obtain ⟨hg, host, requests, hh, hq⟩ := nextRequest?_cases hs hnext
    rw [serve_of_next hs hnext]
    cases h with
    | starting call h => exact .starting call h
    | sending call id h =>
      exact .sending call id (h.imp_right fun h => h.served hs.bridge hg hh hq _)
    | done result h => exact .done result h

/-- What a call has to do with decides how its job goes on. -/
theorem finished_of_hosted {b : Bridge} {n : Nat} {answer : Answer} (h : b.Hosted n)
    (hc : b.calls[n]? = some (.finished answer)) : answer = .ok .null := by
  rcases h with h | h
  · cases h.symm.trans hc
    rfl
  · rw [Bridge.Undecided, Ledger.purpose?_of_getElem? (l := b.ledger) hc] at h
    cases h

theorem finished_of_fetches {b : Bridge} {n : Nat} {r : HostRequest} {answer : Answer}
    (h : b.Fetches f n r) (hc : b.calls[n]? = some (.finished answer)) : answer = outcome f r := by
  rcases h with h | h
  · cases h.symm.trans hc
    rfl
  · cases h with
    | underway hstands =>
      obtain ⟨-, p, hwaiting⟩ := hstands
      cases hwaiting.symm.trans hc
    | answered hanswered => cases hanswered.symm.trans hc

/-- A job that goes on carries its command further. -/
theorem Carries.proceed (hinj : Function.Injective setup.requestId) {b : Bridge} {c : Command}
    {j : Job} (hb : b.Sound setup f) (hconnected : b.connection ≠ none)
    (h : Carries f b c j) :
    Carries f (proceedJob setup b j).1 c (proceedJob setup b j).2 := by
  cases h with
  | starting call h =>
    unfold proceedJob
    dsimp only
    split
    · obtain ⟨g, hg⟩ := Option.ne_none_iff_exists'.1 hconnected
      exact .sending b.calls.length _ (hb.fetches_send hinj hg c.request c.toJson)
    · next hc => cases finished_of_hosted h hc
    · exact .starting call h
  | sending call id h =>
    unfold proceedJob
    dsimp only
    split
    · next answer hc =>
      rw [finished_of_fetches h hc]
      exact .done _ (yields_outcome f c id)
    · exact .sending call id h
  | done result h => exact .done result h

/-! ## While commands are carried out -/

/-- The commands that were begun from the job `first` on are on their way, and the host of the
bridge carries on. -/
structure Executing (setup : BridgeSetup) (f : Computation) (first : Nat)
    (commands : List Command) (s : Computer Nat) : Prop where
  sound : s.Sound setup f
  connected : s.bridge.connection ≠ none
  fine : s.bridge.status.phase ≠ .error
  length : s.jobs.length = first + commands.length
  carries : ∀ i c, commands[i]? = some c →
    ∃ j, s.jobs[first + i]? = some j ∧ Carries f s.bridge c j

/-- The move neither replaces nor stops the host, finds no deadline that has passed, and ends no
call of a job from `first` on. -/
def Undisturbed (first : Nat) (s : Computer Nat) : Move → Prop
  | .bridge action =>
    action.Calm ∧ s.bridge.Timely action ∧
      ∀ i j n, first ≤ i → s.jobs[i]? = some j → j.call? = some n → action ≠ .abandon n
  | .serve | .begin _ | .proceed _ => True

/-- All moves of a run are undisturbed. -/
def Quiet (setup : BridgeSetup) (e : Engine Nat) (first : Nat) : Computer Nat → List Move → Prop
  | _, [] => True
  | s, m :: moves => Undisturbed first s m ∧ Quiet setup e first (s.step setup e m) moves

variable {first : Nat} {commands : List Command}

theorem quiet_of_forall {e : Engine Nat} {moves : List Move}
    (h : ∀ m ∈ moves, ∀ s, Undisturbed first s m) (s : Computer Nat) :
    Quiet setup e first s moves := by
  induction moves generalizing s with
  | nil => trivial
  | cons m moves ih =>
    exact ⟨h m (List.mem_cons_self ..) s, ih (fun x hx => h x (List.mem_cons_of_mem _ hx)) _⟩

theorem Executing.action (hinj : Function.Injective setup.requestId)
    (hs : Executing setup f first commands s) {a : BridgeAction} (ha : a.Calm)
    (htimely : s.bridge.Timely a)
    (hleft : ∀ i j n, first ≤ i → s.jobs[i]? = some j → j.call? = some n → a ≠ .abandon n) :
    Executing setup f first commands { s with bridge := s.bridge.step setup a } where
  sound := ⟨hs.sound.bridge.step hinj ha.proper, hs.sound.worker⟩
  connected := by
    obtain ⟨g, hg⟩ := Option.ne_none_iff_exists'.1 hs.connected
    have hkept := (hs.sound.bridge.healthy_calm hg ha).1
    change (s.bridge.step setup a).connection ≠ none
    rw [hkept]
    nofun
  fine := hs.sound.bridge.fine_step hs.connected hs.fine ha htimely
  length := hs.length
  carries i c hc := by
    obtain ⟨j, hj, hcarries⟩ := hs.carries i c hc
    refine ⟨j, hj, hcarries.step hinj hs.sound.bridge hs.connected ha htimely ?_⟩
    intro n hn
    exact hleft (first + i) j n (Nat.le_add_right _ _) hj hn

theorem Executing.serve (hs : Executing setup f first commands s) :
    Executing setup f first commands (s.serve setup (.ofFunction f)) := by
  have hsound := hs.sound.served
  have hcarries : ∀ i c, commands[i]? = some c →
      ∃ j, s.jobs[first + i]? = some j ∧
        Carries f (s.serve setup (.ofFunction f)).bridge c j := by
    intro i c hc
    obtain ⟨j, hj, h⟩ := hs.carries i c hc
    exact ⟨j, hj, h.served hs.sound⟩
  cases hnext : s.nextRequest? with
  | none =>
    rw [serve_of_none setup _ hnext]
    exact hs
  | some x =>
    obtain ⟨g, q⟩ := x
    rw [serve_of_next hs.sound hnext] at hsound hcarries ⊢
    exact ⟨hsound, hs.connected, hs.fine, hs.length, hcarries⟩

/-- Another command begins. -/
theorem Executing.begin (hinj : Function.Injective setup.requestId)
    (hs : Executing setup f first commands s) (c : Command) :
    Executing setup f first (commands ++ [c]) (s.begin setup c) := by
  have hbase := hs.action hinj (a := .begin .init) trivial nofun nofun
  refine ⟨⟨hbase.sound.bridge, hs.sound.worker⟩, hbase.connected, hbase.fine, ?_, ?_⟩
  · change (s.jobs ++ [_]).length = first + (commands ++ [c]).length
    rw [List.length_append, List.length_append, hs.length, Nat.add_assoc]
    rfl
  · intro i c' hc'
    change ∃ j, (s.jobs ++ [Job.starting s.bridge.calls.length c])[first + i]? = some j ∧ _
    rw [List.getElem?_append] at hc'
    split at hc'
    · next hlt =>
      obtain ⟨j, hj, hcarries⟩ := hbase.carries i c' hc'
      refine ⟨j, ?_, hcarries⟩
      rw [List.getElem?_append_left (by rw [hs.length]; omega)]
      exact hj
    · next hle =>
      -- this is the new command, whose call for the host is over at once
      rw [List.getElem?_singleton] at hc'
      split at hc'
      · next hzero =>
        cases hc'
        refine ⟨.starting s.bridge.calls.length c, ?_, .starting _ (.inl ?_)⟩
        · rw [show first + i = s.jobs.length by rw [hs.length]; omega]
          exact List.getElem?_concat_length ..
        · change (s.bridge.step setup (.begin .init)).calls[s.bridge.calls.length]? = _
          obtain ⟨answer, hanswer, hstep⟩ := Bridge.begin_init_of_not_idle setup
            (hs.sound.bridge.not_idle hs.connected)
          rw [hstep, hanswer hs.fine]
          exact List.getElem?_concat_length ..
      · cases hc'

/-- A job goes on. -/
theorem Executing.proceed (hinj : Function.Injective setup.requestId)
    (hs : Executing setup f first commands s) (job : Nat) :
    Executing setup f first commands (s.proceed setup job) := by
  cases hjob : s.jobs[job]? with
  | none =>
    rw [proceed_of_none hjob]
    exact hs
  | some j =>
    have hbase : Executing setup f first commands
        { s with bridge := (proceedJob setup s.bridge j).1 } := by
      rcases proceedJob_cases setup s.bridge j with ⟨command, hproceed⟩ | hsame
      · rw [hproceed]
        exact hs.action hinj (a := .begin (.send command.request command.toJson)) trivial nofun
          nofun
      · rw [hsame]
        exact hs
    rw [proceed_of_job hjob]
    refine ⟨⟨hbase.sound.bridge, hs.sound.worker⟩, hbase.connected, hbase.fine, ?_, ?_⟩
    · change (s.jobs.set job _).length = first + commands.length
      rw [List.length_set, hs.length]
    · intro i c hc
      change ∃ j', (s.jobs.set job _)[first + i]? = some j' ∧ _
      obtain ⟨j', hj', hcarries'⟩ := hbase.carries i c hc
      by_cases heq : job = first + i
      · -- this is the job that goes on
        subst heq
        obtain ⟨j₀, hj₀, hcarries⟩ := hs.carries i c hc
        cases hjob.symm.trans hj₀
        refine ⟨(proceedJob setup s.bridge j).2, ?_,
          hcarries.proceed hinj hs.sound.bridge hs.connected⟩
        exact List.getElem?_set_self (List.getElem?_eq_some_iff.1 hjob).1
      · refine ⟨j', ?_, hcarries'⟩
        rw [List.getElem?_set_ne heq]
        exact hj'

/-- Every undisturbed move keeps all commands on their way. -/
theorem Executing.step (hinj : Function.Injective setup.requestId)
    (hs : Executing setup f first commands s) (hm : Undisturbed first s m) :
    Executing setup f first (commands ++ m.command?.toList)
      (s.step setup (.ofFunction f) m) := by
  cases m with
  | bridge action =>
    obtain ⟨hcalm, htimely, hleft⟩ := hm
    rw [Move.command?, Option.toList_none, List.append_nil]
    exact hs.action hinj hcalm htimely hleft
  | serve =>
    rw [Move.command?, Option.toList_none, List.append_nil]
    exact hs.serve
  | begin command => exact hs.begin hinj command
  | proceed job =>
    rw [Move.command?, Option.toList_none, List.append_nil]
    exact hs.proceed hinj job

/-- The commands that a run begins, in order. -/
def begun (moves : List Move) : List Command :=
  moves.filterMap Move.command?

theorem Executing.run (hinj : Function.Injective setup.requestId) {moves : List Move}
    (hs : Executing setup f first commands s) (hmoves : Quiet setup (.ofFunction f) first s moves) :
    Executing setup f first (commands ++ begun moves) (s.run setup (.ofFunction f) moves) := by
  induction moves generalizing s commands with
  | nil =>
    rw [begun, List.filterMap_nil, List.append_nil]
    exact hs
  | cons m moves ih =>
    have hrest := ih (hs.step hinj hmoves.1) hmoves.2
    rw [List.append_assoc] at hrest
    have hbegun : begun (m :: moves) = m.command?.toList ++ begun moves := by
      unfold begun
      cases hm : m.command? with
      | none => rw [List.filterMap_cons_none hm]; rfl
      | some c => rw [List.filterMap_cons_some hm]; rfl
    rw [hbegun]
    exact hrest

/-! ## The first command -/

/-- The bridge is idle and can start a host, or shows that it is ready and has a host. -/
def Available (setup : BridgeSetup) (s : Computer Nat) : Prop :=
  s.bridge.status.phase = .idle ∧ setup.refusal (s.bridge.generation + 1) = none ∨
    s.bridge.status.phase = .ready ∧ s.bridge.connection ≠ none

theorem executing_of_ready (hs : s.Sound setup f) (hready : s.bridge.status.phase = .ready)
    (hconnected : s.bridge.connection ≠ none) : Executing setup f s.jobs.length [] s := by
  refine ⟨hs, hconnected, by rw [hready]; nofun, rfl, ?_⟩
  intro i c hc
  cases hc

/-- The first command starts the host if it has to. -/
theorem executing_begin (hinj : Function.Injective setup.requestId) (hs : s.Sound setup f)
    (ha : s.Available setup) (c : Command) :
    Executing setup f s.jobs.length [c] (s.begin setup c) := by
  rcases ha with ⟨hidle, hspawn⟩ | ⟨hready, hconnected⟩
  · obtain ⟨board, hboard, hstep⟩ := Bridge.begin_init_of_idle_eq setup hidle
    have hsound := hs.bridge.step hinj (a := .begin .init) trivial
    obtain ⟨⟨hg, hgeneration⟩, -, id, hhandled⟩ :=
      Bridge.handled_started (b := { s.bridge with board }) f hinj hs.bridge.counted hspawn
    have hstatus := Bridge.status_started (b := { s.bridge with board }) hs.bridge.counted hspawn
    rw [← hstep] at hg hgeneration hhandled hstatus
    refine ⟨⟨hsound, hs.worker⟩, ?_, ?_, ?_, ?_⟩
    · change (s.bridge.step setup (.begin .init)).connection ≠ none
      rw [hg]
      exact Option.some_ne_none _
    · change (s.bridge.step setup (.begin .init)).status.phase ≠ .error
      rw [hstatus, Bridge.status, hboard]
      exact fun h => Phase.noConfusion h
    · exact List.length_append
    · intro i c' hc'
      obtain ⟨rfl, rfl⟩ : i = 0 ∧ c' = c := by
        rw [List.getElem?_singleton] at hc'
        split at hc'
        · next hzero => exact ⟨hzero, (Option.some.inj hc').symm⟩
        · cases hc'
      refine ⟨.starting s.bridge.calls.length c', List.getElem?_concat_length ..,
        .starting _ (.inr ?_)⟩
      change (s.bridge.step setup (.begin .init)).Undecided s.bridge.calls.length
      rw [Bridge.Undecided, hgeneration]
      exact hhandled.purpose?_eq
  · exact (executing_of_ready hs hready hconnected).begin hinj c

/-! ## One host, loaded once -/

/-- No more than the given number of hosts were spawned, and the engine was loaded as often as
given, or once more by the worker of the connected host. -/
structure Frugal (hosts loads : Nat) (s : Computer Nat) : Prop where
  hosts : s.bridge.spawned.length ≤ hosts
  loads : s.worker.engine = loads ∨
    s.worker.engine = loads + 1 ∧ s.worker.loaded = true ∧
      s.bridge.connection = some s.generation

variable {hosts loads : Nat}

/-- While the host stays, no other is spawned. -/
theorem spawned_calm {b : Bridge} {a : BridgeAction} (hidle : b.status.phase ≠ .idle)
    (ha : a.Calm) : (b.step setup a).spawned = b.spawned := by
  rcases b.spawned_step setup a with ⟨-, hs⟩ | ⟨hgeneration, -⟩
  · exact hs
  · rw [Bridge.generation_calm hidle ha] at hgeneration
    omega

theorem Frugal.action (hs : s.Sound setup f) (hconnected : s.bridge.connection ≠ none)
    {a : BridgeAction} (ha : a.Calm) (h : s.Frugal hosts loads) :
    Frugal hosts loads { s with bridge := s.bridge.step setup a } where
  hosts := by
    change (s.bridge.step setup a).spawned.length ≤ hosts
    rw [spawned_calm (hs.bridge.not_idle hconnected) ha]
    exact h.hosts
  loads := by
    rcases h.loads with hloads | ⟨hloads, hloaded, hg⟩
    · exact .inl hloads
    · exact .inr ⟨hloads, hloaded, (hs.bridge.healthy_calm hg ha).1⟩

/-- The worker loads the engine for its first request only. -/
theorem Frugal.serve (hs : s.Sound setup f) (h : s.Frugal hosts loads) :
    Frugal hosts loads (s.serve setup (.ofFunction f)) := by
  cases hnext : s.nextRequest? with
  | none =>
    rw [serve_of_none setup _ hnext]
    exact h
  | some x =>
    obtain ⟨g, q⟩ := x
    obtain ⟨hg, -⟩ := nextRequest?_cases hs hnext
    rw [serve_of_next hs hnext]
    constructor
    · change (s.bridge.updateHost g _).spawned.length ≤ hosts
      rw [Bridge.spawned_updateHost s.bridge g (f := fun h => h.served _) fun _ => rfl]
      exact h.hosts
    · rcases h.loads with hloads | ⟨hloads, hloaded, hconnected⟩
      · -- the worker may be a new one, and then loads the engine once more
        dsimp only
        split
        · exact .inl hloads
        · exact .inr ⟨by rw [hloads], rfl, hg⟩
      · have hsame : s.generation = g := Option.some.inj (hconnected.symm.trans hg)
        have hworker : s.workerOf g = s.worker := if_pos hsame
        dsimp only
        rw [hworker, if_pos hloaded]
        exact .inr ⟨hloads, rfl, hg⟩

theorem Frugal.step (hs : Executing setup f first commands s) (hm : Undisturbed first s m)
    (h : s.Frugal hosts loads) : Frugal hosts loads (s.step setup (.ofFunction f) m) := by
  cases m with
  | bridge action => exact h.action hs.sound hs.connected hm.1
  | serve => exact h.serve hs.sound
  | begin command =>
    have hbase := h.action hs.sound hs.connected (a := .begin .init) trivial
    exact ⟨hbase.hosts, hbase.loads⟩
  | proceed job =>
    change Frugal hosts loads (s.proceed setup job)
    obtain ⟨jobs, ⟨command, hgo⟩ | hgo⟩ := proceed_cases setup s job
    · rw [hgo]
      have hsend := h.action hs.sound hs.connected
        (a := .begin (.send command.request command.toJson)) trivial
      exact ⟨hsend.hosts, hsend.loads⟩
    · rw [hgo]
      exact ⟨h.hosts, h.loads⟩

theorem Frugal.run (hinj : Function.Injective setup.requestId) {moves : List Move}
    (hs : Executing setup f first commands s) (hmoves : Quiet setup (.ofFunction f) first s moves)
    (h : s.Frugal hosts loads) : Frugal hosts loads (s.run setup (.ofFunction f) moves) := by
  induction moves generalizing s commands with
  | nil => exact h
  | cons m moves ih => exact ih (hs.step hinj hmoves.1) hmoves.2 (h.step hs hmoves.1)

/-- The first command spawns at most one host and loads nothing. -/
theorem frugal_begin (setup : BridgeSetup) (s : Computer Nat) (c : Command) :
    Frugal (s.bridge.spawned.length + 1) s.worker.engine (s.begin setup c) := by
  refine ⟨?_, .inl rfl⟩
  change (s.bridge.step setup (.begin .init)).spawned.length ≤ _
  rcases s.bridge.spawned_step setup (.begin .init) with ⟨-, hs⟩ | ⟨-, hs | hs⟩
  · rw [hs]
    exact Nat.le_succ _
  · rw [hs]
    exact Nat.le_succ _
  · rw [hs, List.length_append]
    exact Nat.le_refl _

end Computer

end Chalkboard
