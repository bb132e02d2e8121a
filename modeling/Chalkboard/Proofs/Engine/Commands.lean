import Chalkboard.Proofs.Engine.Completion

/-!
# Commands on the engine

To carry out commands on an engine that computes a function is to apply the function to each of them
(`Computer.executeAll_map`), in whatever order callers, bridge and worker go on: the first command
may start the host and wait for it while later ones overtake it.

The bridge has to be available. A bridge that shows that it is ready has its host if it was never
shut down (`Computer.available_of_ready`). A shutdown that comes between the answer to a handshake
and its caller leaves the bridge ready without a host, and then every command is refused
(`Computer.executeAll_after_shutdown`).
-/

namespace Chalkboard

namespace Bridge

variable {setup : BridgeSetup} {f : Computation} {b : Bridge} {a : BridgeAction} {n : Nat}

/-! ## A ready bridge has its host -/

/-- Without a host the bridge does not show that it is ready, and nobody will say so. -/
def Manned (b : Bridge) : Prop :=
  b.connection = none → b.status.phase ≠ .ready ∧ ∀ n, ¬b.Undecided n

/-- A host that cannot be started leaves an error, and nobody waits for its handshake. -/
theorem manned_started (hcounted : b.Counted)
    (hdated : ∀ n g, b.ledger.purpose? n = some (.handshake g) → g ≤ b.generation) :
    (b.started setup).Manned := by
  intro hnone
  cases hrefusal : setup.refusal (b.generation + 1) with
  | none =>
    rw [started_of_spawned hcounted hrefusal] at hnone
    cases hnone
  | some e =>
    rw [started_of_refused hrefusal]
    refine ⟨?_, fun n hn => ?_⟩
    · change (publish _ .error e.message).status.phase ≠ .ready
      rw [phase_publish]
      nofun
    · rcases Ledger.purpose?_append (l := b.ledger) hn with hbefore | ⟨-, hnew⟩
      · exact absurd (hdated n _ hbefore) (Nat.not_succ_le_self _)
      · cases hnew

/-- An action that leaves connection and generation as they are keeps this, if it shows nothing
where there is no host. -/
theorem Manned.of_keeps (h : b.Manned) (ha : ¬Rewires a)
    (hstatus : b.connection = none → (b.step setup a).status = b.status) :
    (b.step setup a).Manned := by
  intro hnone
  have hk := keeps_step setup b ha
  rw [hk.connection] at hnone
  obtain ⟨hready, hundecided⟩ := h hnone
  refine ⟨hstatus hnone ▸ hready, fun n hn => ?_⟩
  rw [Undecided, hk.generation] at hn
  by_cases hbegin : ∃ request, a = .begin request
  · obtain ⟨request, rfl⟩ := hbegin
    rcases purpose?_begin hn with hbefore | ⟨-, hanswer | ⟨-, hgeneration⟩⟩
    · exact hundecided n hbefore
    · cases hanswer
    · -- a handshake that begins is for a new host
      rw [hk.generation] at hgeneration
      omega
  · exact hundecided n (purpose?_before (fun request heq => hbegin ⟨request, heq⟩) hn)

theorem Sound.manned_init (hb : b.Sound setup f) (h : b.Manned) :
    (b.step setup (.begin .init)).Manned := by
  by_cases hidle : b.status.phase = .idle
  · obtain ⟨board, -, hstep⟩ := begin_init_of_idle_eq setup hidle
    rw [hstep]
    exact manned_started (b := { b with board }) hb.counted hb.dated
  · obtain ⟨answer, -, hstep⟩ := begin_init_of_not_idle setup hidle
    rw [hstep]
    intro hnone
    obtain ⟨hready, hundecided⟩ := h hnone
    refine ⟨hready, fun n hn => ?_⟩
    rcases Ledger.purpose?_append (l := b.ledger) hn with hbefore | ⟨-, hnew⟩
    · exact hundecided n hbefore
    · cases hnew

theorem Sound.manned_restart (hb : b.Sound setup f) : (b.step setup (.begin .restart)).Manned := by
  change (started setup (b.vacated setup)).Manned
  apply manned_started (hb.counted.vacated setup)
  intro n g hn
  rw [ledger_vacated, purpose?_cleared] at hn
  rw [generation_vacated]
  exact hb.dated n g hn

/-- No action but a shutdown leaves the bridge without its host and ready. -/
theorem Sound.manned_step (hb : b.Sound setup f) (h : b.Manned) (ha : a.Proper)
    (hshutdown : a ≠ .shutdown) (hdrop : a ≠ .drop) : (b.step setup a).Manned := by
  cases a with
  | begin request =>
    cases request with
    | init => exact hb.manned_init h
    | restart => exact hb.manned_restart
    | send kind payload => exact h.of_keeps id fun _ => status_ask b kind payload
  | abandon call => exact h.of_keeps id fun _ => status_abandon b call
  | resume call => exact h.of_keeps id fun hnone => status_resume ((h hnone).2 call)
  | expire call => exact h.of_keeps id fun hnone => status_expire ((h hnone).2 call)
  | dispatch generation =>
    refine h.of_keeps id fun hnone => ?_
    -- the hosts that are left are not listened to
    have hdeaf : b.Deaf := by
      intro host hhost
      rw [← Bool.not_eq_true]
      intro hlistening
      have hconnected := hb.attached host hhost hlistening
      rw [hnone] at hconnected
      cases hconnected
    exact congrArg status (hdeaf.dispatch_eq generation)
  | elapse ms => exact h.of_keeps id fun _ => rfl
  | shutdown => exact absurd rfl hshutdown
  | drop => exact absurd rfl hdrop
  | _ => exact ha.elim

end Bridge

namespace Computer

open Bridge (sampleSetup injective_sampleSetup)

variable {setup : BridgeSetup} {f : Computation} {s : Computer Nat} {m : Move}

theorem Sound.manned_step (hs : s.Sound setup f) (h : s.bridge.Manned) (hm : m.Proper)
    (hshutdown : m ≠ .bridge .shutdown) (hdrop : m ≠ .bridge .drop) :
    (s.step setup (.ofFunction f) m).bridge.Manned := by
  cases m with
  | bridge action =>
    refine hs.bridge.manned_step h hm ?_ ?_
    · rintro rfl
      exact hshutdown rfl
    · rintro rfl
      exact hdrop rfl
  | serve =>
    change (s.serve setup (.ofFunction f)).bridge.Manned
    cases hnext : s.nextRequest? with
    | none =>
      rw [serve_of_none setup _ hnext]
      exact h
    | some x =>
      rw [serve_of_next hs hnext]
      exact h
  | begin command => exact hs.bridge.manned_step (a := .begin .init) h trivial nofun nofun
  | proceed job =>
    change (s.proceed setup job).bridge.Manned
    obtain ⟨jobs, ⟨command, hgo⟩ | hgo⟩ := proceed_cases setup s job
    · rw [hgo]
      exact hs.bridge.manned_step (a := .begin (.send command.request command.toJson)) h trivial
        nofun nofun
    · rw [hgo]
      exact h

theorem manned_run (hinj : Function.Injective setup.requestId) (f : Computation)
    {history : List Move} (hhistory : ∀ m ∈ history, m.Proper)
    (hshutdown : .bridge .shutdown ∉ history) (hdrop : .bridge .drop ∉ history) :
    ((start 0).run setup (.ofFunction f) history).bridge.Manned := by
  induction history using List.reverseRecOn with
  | nil => exact fun _ => ⟨nofun, nofun⟩
  | append_singleton history m ih =>
    simp only [List.mem_append, List.mem_singleton, not_or] at hhistory hshutdown hdrop
    have hbefore := fun m hm => hhistory m (.inl hm)
    rw [run, List.foldl_append]
    exact (sound_run hinj f hbefore).manned_step (ih hbefore hshutdown.1 hdrop.1)
      (hhistory m (.inr rfl)) (Ne.symm hshutdown.2) (Ne.symm hdrop.2)

/-- A bridge that was never shut down is available if it shows that it is ready. -/
theorem available_of_ready (hinj : Function.Injective setup.requestId) (f : Computation)
    {history : List Move} (hhistory : ∀ m ∈ history, m.Proper)
    (hshutdown : .bridge .shutdown ∉ history) (hdrop : .bridge .drop ∉ history)
    (hready : ((start 0).run setup (.ofFunction f) history).bridge.status.phase = .ready) :
    ((start 0).run setup (.ofFunction f) history).Available setup :=
  .inr ⟨hready, fun hnone => (manned_run hinj f hhistory hshutdown hdrop hnone).1 hready⟩

/-! ## Every run -/

/-- What became of commands that were begun in the state `s` and after: whoever has a result has the
right one; all have one once nothing goes on by itself, which only so many moves are away; and at
most one host was spawned, and the engine loaded at most once. -/
structure CarriedOut (setup : BridgeSetup) (f : Computation) (s : Computer Nat)
    (commands : List Command) (s' : Computer Nat) : Prop where
  length : s'.jobs.length = s.jobs.length + commands.length
  yields : ∀ i c result, commands[i]? = some c → s'.result? (s.jobs.length + i) = some result →
    Yields f c result
  finishes : s'.AtRest setup (.ofFunction f) → ∀ i c, commands[i]? = some c →
    ∃ result, s'.result? (s.jobs.length + i) = some result
  bounded : ∀ moves, Busy setup (.ofFunction f) s' moves → moves.length ≤ s'.remaining
  hosts : s'.bridge.spawned.length ≤ s.bridge.spawned.length + 1
  loads : s'.worker.engine ≤ s.worker.engine + 1

theorem Executing.carriedOut (hinj : Function.Injective setup.requestId) {s' : Computer Nat}
    {commands : List Command} (hs : Executing setup f s.jobs.length commands s')
    (hfrugal : Frugal (s.bridge.spawned.length + 1) s.worker.engine s') :
    CarriedOut setup f s commands s' where
  length := hs.length
  yields i c result hc hresult := by
    obtain ⟨j, hj, hcarries⟩ := hs.carries i c hc
    cases hj.symm.trans (result?_eq_some_iff.1 hresult)
    cases hcarries with
    | done _ h => exact h
  finishes hrest i c hc := by
    obtain ⟨hrested, hqueued⟩ := hs.rested hrest
    obtain ⟨result, hresult, -⟩ := hs.result_of_rested hrested hqueued hc
    exact ⟨result, hresult⟩
  bounded _ := hs.length_le_remaining hinj
  hosts := hfrugal.hosts
  loads := by rcases hfrugal.loads with hloads | ⟨hloads, -⟩ <;> omega

/-! ## The call for several commands -/

/-- A bridge without a host gives the worker nothing to take. -/
theorem keeps_serveAll (setup : BridgeSetup) (e : Engine Nat) (h : s.bridge.connection = none)
    (fuel : Nat) : Keeps s (serveAll setup e fuel s) := by
  cases fuel with
  | zero => exact keeps_rest setup s
  | succ fuel =>
    have hnone : (s.rest setup).nextRequest? = none := by
      unfold nextRequest?
      rw [(keeps_rest setup s).connection, h]
    unfold serveAll
    dsimp only
    rw [hnone]
    exact keeps_rest setup s

/-- The call carries out all commands. -/
theorem Sound.executeAll (hinj : Function.Injective setup.requestId)
    (htimeout : 0 < setup.settings.timeoutMs.toNat) (hs : s.Sound setup f)
    (hpunctual : s.bridge.Punctual) (ha : s.Available setup) (commands : List Command) :
    List.Forall₂ (Yields f) commands (s.executeAll setup (.ofFunction f) commands).2 ∧
      (s.executeAll setup (.ofFunction f) commands).1.bridge.spawned.length ≤
        s.bridge.spawned.length + 1 ∧
      (s.executeAll setup (.ofFunction f) commands).1.worker.engine ≤ s.worker.engine + 1 := by
  cases commands with
  | cons c cs =>
    exact ((onTime_launch hinj htimeout hs hpunctual ha c).foldl_launch hinj htimeout cs).complete
      hinj htimeout
  | nil =>
    change List.Forall₂ (Yields f) [] [] ∧
      (Computer.complete setup (.ofFunction f) s).bridge.spawned.length ≤ _ ∧
      (Computer.complete setup (.ofFunction f) s).worker.engine ≤ _
    refine ⟨.nil, ?_⟩
    -- there is nothing to carry out, but what is under way goes on
    rcases ha with ⟨hidle, -⟩ | ⟨hready, hconnected⟩
    · have hkeeps := (keeps_serveAll setup (.ofFunction f) (hs.bridge.idle hidle) s.workload).trans
        (keeps_complete setup (.ofFunction f) s)
      rw [hkeeps.spawned, hkeeps.worker]
      exact ⟨Nat.le_succ _, Nat.le_succ _⟩
    · have hexecuting := executing_of_ready hs hready hconnected
      have hontime : OnTime setup f s.jobs.length [] s.bridge.spawned.length s.worker.engine s :=
        ⟨hexecuting, hpunctual, Nat.le_refl _, .inl rfl⟩
      obtain ⟨-, hhosts, hloads⟩ := hontime.complete hinj htimeout
      exact ⟨hhosts.trans (Nat.le_succ _), hloads⟩

/-! ## A ready bridge without a host -/

/-- What is said of a request when there is no host. -/
def noHost : BridgeError :=
  .hostUnavailable "computation host has not been started"

/-- The bridge after one more call, which was over at once. -/
def noted (b : Bridge) (answer : Answer) : Bridge :=
  { b with calls := b.calls ++ [.finished answer] }

/-- Where the bridge is ready, a command does not wait for the host. -/
theorem begin_of_ready (setup : BridgeSetup) (hready : s.bridge.status.phase = .ready)
    (c : Command) :
    s.begin setup c =
      { s with
        bridge := noted s.bridge (.ok .null)
        jobs := s.jobs ++ [.starting s.bridge.calls.length c] } := by
  obtain ⟨answer, hanswer, hinit⟩ :=
    Bridge.begin_init_of_not_idle setup (b := s.bridge) (by rw [hready]; nofun)
  cases hanswer (by rw [hready]; nofun)
  exact congrArg
    (fun b => { s with bridge := b, jobs := s.jobs ++ [Job.starting s.bridge.calls.length c] })
    hinit

/-- The last job goes on. -/
theorem proceed_last (setup : BridgeSetup) {jobs : List Job} {j : Job}
    (h : s.jobs = jobs ++ [j]) :
    s.proceed setup jobs.length =
      { s with
        bridge := (proceedJob setup s.bridge j).1
        jobs := jobs ++ [(proceedJob setup s.bridge j).2] } := by
  rw [proceed_of_job (by rw [h]; exact List.getElem?_concat_length ..), h]
  simp

/-- A job that finds the host ready when there is none has its request refused. -/
theorem proceedJob_starting_of_disconnected (setup : BridgeSetup) {b : Bridge}
    (hnone : b.connection = none) {call : Nat} {value : Json}
    (hcall : b.calls[call]? = some (.finished (.ok value))) (c : Command) :
    proceedJob setup b (.starting call c) =
      (noted { b with issued := b.issued + 1 } (.error noHost), .sending b.calls.length) := by
  unfold proceedJob
  dsimp only
  rw [hcall]
  dsimp only
  rw [Bridge.begin_send_of_disconnected setup hnone]
  rfl

/-- A job whose request failed is done. -/
theorem proceedJob_sending_of_error (setup : BridgeSetup) {b : Bridge} {call : Nat}
    {e : BridgeError} (hcall : b.calls[call]? = some (.finished (.error e))) :
    proceedJob setup b (.sending call) = (b, .done (.error e)) := by
  unfold proceedJob
  dsimp only
  rw [hcall]
  rfl

/-- A bridge that is ready starts nothing, and without a host it refuses the request. -/
theorem launch_of_disconnected (setup : BridgeSetup) (hready : s.bridge.status.phase = .ready)
    (hnone : s.bridge.connection = none) (c : Command) :
    ∃ b : Bridge, b.status.phase = .ready ∧ b.connection = none ∧
      s.launch setup c = { s with bridge := b, jobs := s.jobs ++ [.done (.error noHost)] } := by
  -- first it finds the host ready and sends its request, then it finds the request refused
  have hstarting := proceedJob_starting_of_disconnected setup (b := noted s.bridge (.ok .null))
    hnone List.getElem?_concat_length c
  refine ⟨noted { noted s.bridge (.ok .null) with issued := s.bridge.issued + 1 } (.error noHost),
    hready, hnone, ?_⟩
  have honce := proceed_last setup (s := s.begin setup c) (rfl : _ = s.jobs ++ [_])
  rw [begin_of_ready setup hready] at honce
  dsimp only at honce
  rw [hstarting] at honce
  unfold launch
  rw [begin_of_ready setup hready, honce, proceed_last setup rfl]
  dsimp only
  rw [proceedJob_sending_of_error setup List.getElem?_concat_length]
  rfl

theorem foldl_launch_of_disconnected (setup : BridgeSetup)
    (hready : s.bridge.status.phase = .ready) (hnone : s.bridge.connection = none)
    (cs : List Command) :
    (cs.foldl (Computer.launch setup) s).bridge.connection = none ∧
      (cs.foldl (Computer.launch setup) s).jobs =
        s.jobs ++ cs.map fun _ => .done (.error noHost) := by
  induction cs generalizing s with
  | nil => exact ⟨hnone, (List.append_nil _).symm⟩
  | cons c cs ih =>
    obtain ⟨b, hready', hnone', hlaunch⟩ := launch_of_disconnected setup hready hnone c
    rw [List.foldl_cons, hlaunch]
    obtain ⟨hlast, hall⟩ := ih (s := { s with bridge := b, jobs := s.jobs ++ [_] }) hready' hnone'
    refine ⟨hlast, ?_⟩
    rw [hall, List.append_assoc]
    rfl

/-- So the call for several commands is refused as a whole. -/
theorem executeAll_of_disconnected (setup : BridgeSetup) (e : Engine Nat)
    (hready : s.bridge.status.phase = .ready) (hnone : s.bridge.connection = none)
    (commands : List Command) :
    (s.executeAll setup e commands).2 = commands.map fun _ => .error noHost := by
  obtain ⟨hlast, hjobs⟩ := foldl_launch_of_disconnected setup hready hnone commands
  have hkeeps := (keeps_serveAll setup e hlast _).trans (keeps_complete setup e _)
  -- all are done before anything else goes on, and what is done stays done
  have hresults : List.Forall₂ (fun _ result => result = .error noHost) commands
      (s.executeAll setup e commands).2 := by
    refine forall₂_filterMap_range fun i c hc => ⟨_, hkeeps.results _ _ ?_, rfl⟩
    rw [result?_eq_some_iff, hjobs, List.getElem?_append_right (Nat.le_add_right ..),
      Nat.add_sub_cancel_left, List.getElem?_map, hc]
    rfl
  rw [← List.forall₂_eq_eq_eq, List.forall₂_map_right_iff]
  exact hresults.flip

/-! ## The main result -/

/-- Carrying out commands on an engine that computes a function, after any history. On a bridge that
is available, in every run in which the host stays, no deadline passes and no caller leaves, the
result of each command is the one that the function has for it, with the commands in the order in
which they began. The call that begins a list of commands and runs until nothing can go on returns
all results in order. Either way at most one host is spawned, and the engine is loaded at most once.
A bridge that is ready is available if it was never shut down; one without a host refuses every
command. -/
theorem executeAll_map (setup : BridgeSetup) (hinj : Function.Injective setup.requestId)
    (f : Computation) (history : List Move) (hhistory : ∀ m ∈ history, m.Proper) :
    let e := Engine.ofFunction f
    let s := (start 0).run setup e history
    (s.Available setup →
      (∀ (c : Command) (moves : List Move),
        Quiet setup e s.jobs.length (s.begin setup c) moves →
          CarriedOut setup f s (c :: begun moves) ((s.begin setup c).run setup e moves)) ∧
      (0 < setup.settings.timeoutMs.toNat → s.bridge.Punctual → ∀ commands : List Command,
        let (s', results) := s.executeAll setup e commands
        List.Forall₂ (Yields f) commands results ∧
          s'.bridge.spawned.length ≤ s.bridge.spawned.length + 1 ∧
          s'.worker.engine ≤ s.worker.engine + 1)) ∧
    (s.bridge.status.phase = .ready →
      (.bridge .shutdown ∉ history → .bridge .drop ∉ history → s.Available setup) ∧
      (s.bridge.connection = none → ∀ commands : List Command,
        (s.executeAll setup e commands).2 = commands.map fun _ => .error noHost)) := by
  intro e s
  have hs : s.Sound setup f := sound_run hinj f hhistory
  refine ⟨fun ha => ⟨?_, ?_⟩, fun hready => ⟨?_, ?_⟩⟩
  · intro c moves hmoves
    have hbegun := executing_begin hinj hs ha c
    exact (hbegun.run hinj hmoves).carriedOut hinj
      ((frugal_begin setup s c).run hinj hbegun hmoves)
  · intro htimeout hpunctual commands
    exact hs.executeAll hinj htimeout hpunctual ha commands
  · intro hshutdown hdrop
    exact available_of_ready hinj f hhistory hshutdown hdrop hready
  · intro hnone commands
    exact executeAll_of_disconnected setup e hready hnone commands

/-- An engine that knows no number and converts nothing. -/
def sampleComputation : Computation := fun kind _ =>
  if kind = .calculate then
    .ok (.object [("success", .bool false), ("error", .string "not a number")])
  else .error "nothing to convert"

def sampleCommands : List Command :=
  [⟨.calculate "1 / 0", none⟩, ⟨.convert "x", none⟩]

/-- The second command does not wait for the host, and has its result before the first one goes on.
-/
def sampleOvertaking : List Move :=
  [.begin ⟨.convert "x", none⟩, .proceed 1, .serve, .serve, .bridge (.dispatch 1),
    .bridge (.dispatch 1), .bridge (.dispatch 1), .bridge (.dispatch 1), .bridge (.resume 2),
    .proceed 1]

/-- Commands that overtake each other get their own results, and the call returns them in order. -/
theorem executeAll_map_sample :
    let e := Engine.ofFunction sampleComputation
    let s := ((start 0).begin sampleSetup ⟨.calculate "1 / 0", none⟩).run sampleSetup e
      sampleOvertaking
    (s.result? 0 = none ∧
      s.result? 1 = some (.error (.hostRejected ⟨"rr"⟩ "nothing to convert"))) ∧
      CarriedOut sampleSetup sampleComputation (start 0) sampleCommands s ∧
      ((start 0).executeAll sampleSetup e sampleCommands).2 =
        [.ok (.failure "not a number"), .error (.hostRejected ⟨"rr"⟩ "nothing to convert")] ∧
      List.Forall₂ (Yields sampleComputation) sampleCommands
        ((start 0).executeAll sampleSetup e sampleCommands).2 := by
  have hidle : (start 0).Available sampleSetup := .inl ⟨rfl, rfl⟩
  have hpunctual : (start 0).bridge.Punctual := by
    intro n id purpose deadline hc
    cases hc
  obtain ⟨hruns, hcall⟩ := (executeAll_map sampleSetup injective_sampleSetup sampleComputation []
    nofun).1 hidle
  refine ⟨⟨rfl, rfl⟩, hruns ⟨.calculate "1 / 0", none⟩ sampleOvertaking ?_, rfl, ?_⟩
  · apply quiet_of_forall
    simp [sampleOvertaking, Undisturbed, BridgeAction.Calm, BridgeAction.Proper, Bridge.Timely]
  · exact (hcall (by decide) hpunctual sampleCommands).1

/-- The host answers its handshake and the bridge is shut down before the caller goes on. -/
def sampleStranded : List Move :=
  [.bridge (.begin .init), .serve, .bridge (.dispatch 1), .bridge (.dispatch 1),
    .bridge (.dispatch 1), .bridge .shutdown, .bridge (.resume 0)]

/-- Then the bridge is ready without a host, and no command is carried out. -/
theorem executeAll_after_shutdown :
    let e := Engine.ofFunction sampleComputation
    let s := (start 0).run sampleSetup e sampleStranded
    (∀ m ∈ sampleStranded, m.Proper) ∧ s.bridge.status.phase = .ready ∧
      s.bridge.connection = none ∧
      (s.executeAll sampleSetup e sampleCommands).2 = [.error noHost, .error noHost] ∧
      ¬List.Forall₂ (Yields sampleComputation) sampleCommands
        (s.executeAll sampleSetup e sampleCommands).2 := by
  intro e s
  have hready : s.bridge.status.phase = .ready := by decide +kernel
  have hnone : s.bridge.connection = none := by decide +kernel
  have hresults := executeAll_of_disconnected sampleSetup e hready hnone sampleCommands
  refine ⟨?_, hready, hnone, hresults, ?_⟩
  · simp [sampleStranded, Move.Proper, BridgeAction.Proper]
  · rw [hresults]
    intro h
    cases h with
    | cons hfirst _ => cases hfirst

end Computer

end Chalkboard
