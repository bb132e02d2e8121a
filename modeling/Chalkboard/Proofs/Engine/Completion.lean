import Mathlib.Algebra.Order.BigOperators.Group.List
import Mathlib.Algebra.Order.Group.Nat
import Mathlib.Data.List.Forall2
import Chalkboard.Proofs.Engine.Progress

/-!
# Carrying out a list of commands

`Computer.executeAll` begins all commands and then lets everything go on until nothing can. Before
the worker takes its next request everything else comes to rest (`Computer.OnTime.rest`), and the
bound for the number of requests that it is given is large enough (`Computer.OnTime.serveAll`). So
all commands are done in the end.
-/

namespace Chalkboard

namespace Bridge

variable {setup : BridgeSetup} {f : Computation} {b c : Bridge} {g n : Nat}

/-! ## Deadlines -/

/-- No deadline has passed. -/
def Punctual (b : Bridge) : Prop :=
  ∀ (n : Nat) (id : RequestId) (purpose : Purpose) (deadline : Nat),
    b.calls[n]? = some (.waiting id purpose deadline) → b.now < deadline

theorem Punctual.timely (h : b.Punctual) (a : BridgeAction) : b.Timely a := by
  intro n _ id purpose deadline hc
  exact Nat.not_le_of_lt (h n id purpose deadline hc)

/-- Nobody waits who did not wait before. -/
theorem Punctual.of_calls (h : b.Punctual) (hnow : c.now = b.now)
    (hcalls : ∀ (n : Nat) (id : RequestId) (purpose : Purpose) (deadline : Nat),
      c.calls[n]? = some (.waiting id purpose deadline) →
        b.calls[n]? = some (.waiting id purpose deadline)) : c.Punctual := by
  intro n id purpose deadline hc
  rw [hnow]
  exact h n id purpose deadline (hcalls n id purpose deadline hc)

/-- One more call, with its deadline ahead. -/
theorem Punctual.append (h : b.Punctual) {call : Call} (hnow : c.now = b.now)
    (hcalls : c.calls = b.calls ++ [call])
    (hcall : ∀ id purpose deadline, call = .waiting id purpose deadline → b.now < deadline) :
    c.Punctual := by
  intro n id purpose deadline hc
  rw [hcalls, List.getElem?_append] at hc
  rw [hnow]
  split at hc
  · exact h n id purpose deadline hc
  · rw [List.getElem?_singleton] at hc
    split at hc
    · exact hcall id purpose deadline (Option.some.inj hc)
    · cases hc

theorem now_conclude (b : Bridge) (id : RequestId) (purpose : Purpose) (answer : Answer) :
    (b.conclude id purpose answer).1.now = b.now := by
  unfold conclude
  split
  · rfl
  · split
    · rfl
    · split <;> rfl

theorem now_dispatch (b : Bridge) (g : Nat) : (b.dispatch g).now = b.now := by
  have hresolve : ∀ (b : Bridge) (id : RequestId) (answer : Answer),
      (b.resolve g id answer).now = b.now := by
    intro b id answer
    unfold resolve
    split <;> rfl
  have hroute : ∀ (b : Bridge) (event : HostEvent), (b.route g event).now = b.now := by
    intro b event
    unfold route
    split
    · split
      · rfl
      · rfl
      · exact hresolve b _ _
      · exact hresolve b _ _
    · rfl
  unfold dispatch
  split
  · rfl
  · split
    · split
      · exact hroute _ _
      · split <;> rfl
    · rfl

theorem Punctual.dispatch (h : b.Punctual) (g : Nat) : (b.dispatch g).Punctual := by
  refine h.of_calls (now_dispatch b g) ?_
  intro n id purpose deadline hc
  change (b.dispatch g).ledger.calls[n]? = _ at hc
  rw [ledger_dispatch] at hc
  cases hrouted : (b.routed? g).bind HostMessage.answer? with
  | none =>
    rw [hrouted] at hc
    exact hc
  | some x =>
    rw [hrouted] at hc
    dsimp only [settleIf] at hc
    split at hc
    · exact (Ledger.getElem?_deliver_eq_waiting_iff.1 hc).1
    · exact hc

theorem Punctual.resume (h : b.Punctual) (n : Nat) : (b.resume n).Punctual := by
  rcases (b.resume_cases n).2 with ⟨hsame, -⟩ | ⟨_, _, _, result, -, hcalls⟩
  · rw [hsame]
    exact h
  · refine h.of_calls ?_ ?_
    · unfold Bridge.resume
      split
      · exact now_conclude b _ _ _
      · rfl
    · intro k id purpose deadline hc
      rw [hcalls, List.getElem?_set] at hc
      split at hc
      · split at hc
        · cases hc
        · cases hc
      · exact hc

theorem Punctual.send (h : b.Punctual) (htimeout : 0 < setup.settings.timeoutMs.toNat)
    (hb : b.Sound setup f) (hconnected : b.connection ≠ none) (kind : RequestKind)
    (payload : Json) : (b.step setup (.begin (.send kind payload))).Punctual := by
  obtain ⟨g, hg⟩ := Option.ne_none_iff_exists'.1 hconnected
  obtain ⟨-, host, hh, hhealthy⟩ := hb.linked g hg
  rw [begin_send_of_accepts setup ⟨hg, host, hh, hhealthy.accepting⟩]
  refine h.append rfl rfl ?_
  rintro id purpose deadline heq
  cases heq
  exact Nat.lt_add_of_pos_right htimeout

/-- A call for the host that can be started, or is not idle. -/
theorem Punctual.init (h : b.Punctual) (htimeout : 0 < setup.settings.timeoutMs.toNat)
    (hcounted : b.Counted)
    (hspawn : b.status.phase = .idle → setup.refusal (b.generation + 1) = none) :
    (b.step setup (.begin .init)).Punctual := by
  by_cases hidle : b.status.phase = .idle
  · obtain ⟨board, -, hstep⟩ := begin_init_of_idle_eq setup hidle
    rw [hstep, started_of_spawned (b := { b with board }) hcounted (hspawn hidle)]
    refine h.append (now_renewed { b with board }) rfl ?_
    rintro id purpose deadline heq
    cases heq
    exact Nat.lt_add_of_pos_right htimeout
  · obtain ⟨answer, -, hstep⟩ := begin_init_of_not_idle setup hidle
    rw [hstep]
    exact h.append rfl rfl nofun

/-! ## Coming to rest -/

theorem run_dispatches (setup : BridgeSetup) (b : Bridge) :
    b.run setup (b.hosts.flatMap dispatches) =
      (b.hosts.flatMap fun h => List.replicate (h.events.length + 1) h.generation).foldl
        dispatch b := by
  have hactions : b.hosts.flatMap dispatches =
      (b.hosts.flatMap fun h => List.replicate (h.events.length + 1) h.generation).map
        BridgeAction.dispatch := by
    rw [List.map_flatMap]
    unfold dispatches
    simp only [List.map_replicate]
  rw [hactions, run, List.foldl_map]
  rfl

/-- Every report of the connected host has its dispatch. -/
theorem length_unheard_le (hg : b.connection = some g) :
    b.unheard.length ≤
      (b.hosts.flatMap fun h => List.replicate (h.events.length + 1) h.generation).count g := by
  unfold unheard link?
  rw [hg, Option.bind_some]
  cases hh : b.host? g with
  | none => exact Nat.zero_le _
  | some h =>
    rw [List.count_flatMap]
    have hmem : h ∈ b.hosts := List.mem_of_find?_eq_some hh
    have hle := List.le_sum_of_mem (List.mem_map_of_mem (f := List.count g ∘ fun h : HostLink =>
      List.replicate (h.events.length + 1) h.generation) hmem)
    rw [Function.comp_apply, generation_of_host? hh, List.count_replicate_self] at hle
    exact Nat.le_of_succ_le hle

/-- As many dispatches as there are reports leave none unheard. -/
theorem Sound.unheard_foldl (hinj : Function.Injective setup.requestId) (hb : b.Sound setup f)
    (hg : b.connection = some g) {generations : List Nat}
    (hcount : b.unheard.length ≤ generations.count g) :
    (generations.foldl dispatch b).unheard = [] := by
  -- each dispatch of the host takes one report, and no other does anything
  induction generations generalizing b with
  | nil => exact List.eq_nil_of_length_eq_zero (Nat.le_zero.1 hcount)
  | cons g' generations ih =>
    have hb' := hb.step hinj (a := .dispatch g') trivial
    refine ih hb' ((keeps_dispatch b g').connection.trans hg) ?_
    rw [List.count_cons] at hcount
    rcases hb.dispatch_cases (by rw [hg]; nofun) g' with ⟨hsame, hsilent⟩ | ⟨-, e, hunheard⟩
    · rw [hsame]
      by_cases heq : g' = g
      · rw [hsilent (heq ▸ hg)]
        exact Nat.zero_le _
      · simpa [heq] using hcount
    · rw [hunheard, List.length_cons] at hcount
      split at hcount <;> omega

/-- A caller that goes on leaves no new answer unseen, and sees its own. -/
theorem seenAt_resume {k : Nat} (h : b.SeenAt n ∨ n = k) : (b.resume k).SeenAt n := by
  rcases (b.resume_cases k).2 with ⟨hsame, hk⟩ | ⟨_, _, _, result, -, hcalls⟩
  · rw [hsame]
    exact h.elim id fun heq => heq ▸ hk
  · intro id purpose answer hc
    rw [hcalls, List.getElem?_set] at hc
    split at hc
    · split at hc <;> cases hc
    · next hne => exact h.elim (fun h => h id purpose answer hc) fun heq => hne heq.symm

theorem seenAt_foldl_resume {calls : List Nat} (h : b.SeenAt n ∨ n ∈ calls) :
    (calls.foldl resume b).SeenAt n := by
  induction calls generalizing b with
  | nil => exact h.resolve_right List.not_mem_nil
  | cons k calls ih =>
    apply ih
    rcases h with h | h
    · exact .inl (seenAt_resume (.inl h))
    · exact (List.mem_cons.1 h).imp_left fun heq => seenAt_resume (.inr heq)

theorem link?_foldl_resume (b : Bridge) (calls : List Nat) :
    (calls.foldl resume b).link? = b.link? := by
  induction calls generalizing b with
  | nil => rfl
  | cons k calls ih => exact (ih (b.resume k)).trans (b.resume_cases k).1

/-- Once every caller has gone on, all answers were seen. -/
theorem seenAt_wakes (b : Bridge) (n : Nat) :
    ((List.range b.calls.length).foldl resume b).SeenAt n := by
  apply seenAt_foldl_resume
  by_cases hn : n < b.calls.length
  · exact .inr (List.mem_range.2 hn)
  · left
    intro id purpose answer hc
    rw [List.getElem?_eq_none (Nat.le_of_not_lt hn)] at hc
    cases hc

/-- Where no deadline has passed, callers only see their answers. -/
theorem Punctual.run_wakes (setup : BridgeSetup) (h : b.Punctual) (calls : List Nat) :
    b.run setup (calls.flatMap wakes) = calls.foldl Bridge.resume b := by
  induction calls generalizing b with
  | nil => rfl
  | cons k calls ih =>
    have hexpire : (b.resume k).step setup (.expire k) = b.resume k :=
      ((h.resume k).timely (.expire k)).expire_eq
    rw [List.flatMap_cons, List.foldl_cons, ← ih (h.resume k)]
    change (((b.resume k).step setup (.expire k)).run setup (calls.flatMap wakes)) = _
    rw [hexpire]

end Bridge

/-- How many requests a job will post. -/
def Job.posts : Job → Nat
  | .starting .. => 1
  | .sending _ | .done _ => 0

namespace Computer

variable {setup : BridgeSetup} {f : Computation} {s : Computer Nat} {first hosts loads : Nat}
  {commands : List Command} {m : Move}

/-! ## Keeping to time -/

/-- The commands are on their way, no deadline has passed, and no more hosts were spawned and
engines loaded than given. -/
structure OnTime (setup : BridgeSetup) (f : Computation) (first : Nat) (commands : List Command)
    (hosts loads : Nat) (s : Computer Nat) : Prop extends Executing setup f first commands s where
  punctual : s.bridge.Punctual
  frugal : s.Frugal hosts loads

/-- How many requests the worker may still take. -/
def load (s : Computer Nat) : Nat :=
  s.bridge.queued.length + (s.jobs.map Job.posts).sum

theorem OnTime.internal (hinj : Function.Injective setup.requestId)
    (htimeout : 0 < setup.settings.timeoutMs.toNat)
    (hs : OnTime setup f first commands hosts loads s) (hm : m.Internal) :
    OnTime setup f first commands hosts loads (s.step setup (.ofFunction f) m) where
  toExecuting := hs.toExecuting.internal hinj hm
  frugal := hs.frugal.step hs.toExecuting (hm.undisturbed first s)
  punctual := by
    -- the clock stands still, so only a new deadline could have passed
    cases m with
    | bridge action =>
      cases action with
      | dispatch generation => exact hs.punctual.dispatch generation
      | resume call => exact hs.punctual.resume call
      | _ => exact hm.elim
    | begin command => exact hm.elim
    | serve =>
      change (s.serve setup (.ofFunction f)).bridge.Punctual
      rcases hs.sound.serve_cases with ⟨hnone, -⟩ | ⟨-, htakes⟩
      · rw [serve_of_none _ _ hnone]
        exact hs.punctual
      · refine hs.punctual.of_calls htakes.now ?_
        rw [htakes.calls]
        exact fun _ _ _ _ hc => hc
    | proceed job =>
      change (s.proceed setup job).bridge.Punctual
      obtain ⟨jobs, ⟨command, hgo⟩ | hgo⟩ := proceed_cases setup s job
      · rw [hgo]
        exact hs.punctual.send htimeout hs.sound.bridge hs.connected _ _
      · rw [hgo]
        exact hs.punctual

/-- A job that posts its request has one less to post. -/
theorem Executing.load_proceed (hs : Executing setup f first commands s) (job : Nat) :
    (s.proceed setup job).load ≤ s.load := by
  by_cases hstuck : s.StuckAt job
  · rw [hstuck.proceed_eq]
  unfold StuckAt at hstuck
  push Not at hstuck
  obtain ⟨j, hjob, hj⟩ := hstuck
  rw [proceed_of_job hjob]
  unfold load
  rcases proceedJob_of_not_stuck setup hj with ⟨call, command, rfl, hgo⟩ | ⟨result, hgo⟩
  · rw [hgo]
    obtain ⟨⟨q, hqueued⟩, -⟩ :=
      hs.sound.bridge.link?_send hs.connected command.request command.toJson
    have hsum := sum_map_set Job.posts (.sending s.bridge.calls.length) hjob
    dsimp only [Job.posts] at hsum ⊢
    rw [hqueued, List.length_append, List.length_singleton]
    omega
  · rw [hgo]
    have hsum : ((s.jobs.set job (.done result)).map Job.posts).sum + j.posts =
        (s.jobs.map Job.posts).sum + 0 := sum_map_set Job.posts _ hjob
    dsimp only
    omega

/-- The worker takes one request, if there is one. -/
theorem Sound.load_serve (hs : s.Sound setup f) :
    s.nextRequest? = none ∧ s.bridge.queued = [] ∨
      s.nextRequest? ≠ none ∧ (s.serve setup (.ofFunction f)).load + 1 = s.load := by
  refine hs.serve_cases.imp_right fun ⟨hnext, h⟩ => ⟨hnext, ?_⟩
  obtain ⟨q, hqueued⟩ := h.queued
  unfold load
  rw [hqueued, h.jobs, List.length_cons]
  omega

/-- What goes on by itself gives the worker nothing new to take. -/
theorem Executing.load_step (hs : Executing setup f first commands s) (hm : m.Internal) :
    (s.step setup (.ofFunction f) m).load ≤ s.load := by
  cases m with
  | bridge action =>
    cases action with
    | dispatch generation =>
      change load { s with bridge := s.bridge.dispatch generation } ≤ s.load
      rcases hs.sound.bridge.dispatch_cases hs.connected generation with
        ⟨hsame, -⟩ | ⟨hqueued, -⟩
      · rw [hsame]
      · unfold load
        dsimp only
        rw [hqueued]
    | resume call =>
      change load { s with bridge := s.bridge.resume call } ≤ s.load
      unfold load Bridge.queued
      dsimp only
      rw [(s.bridge.resume_cases call).1]
    | _ => exact hm.elim
  | begin command => exact hm.elim
  | serve =>
    change (s.serve setup (.ofFunction f)).load ≤ s.load
    rcases hs.sound.load_serve with ⟨hnone, -⟩ | ⟨-, hload⟩
    · rw [serve_of_none _ _ hnone]
    · omega
  | proceed job => exact hs.load_proceed job

/-- Moves that the parts make by themselves. -/
theorem OnTime.run (hinj : Function.Injective setup.requestId)
    (htimeout : 0 < setup.settings.timeoutMs.toNat)
    (hs : OnTime setup f first commands hosts loads s) {moves : List Move}
    (hmoves : ∀ m ∈ moves, m.Internal) :
    OnTime setup f first commands hosts loads (s.run setup (.ofFunction f) moves) ∧
      (s.run setup (.ofFunction f) moves).load ≤ s.load := by
  induction moves generalizing s with
  | nil => exact ⟨hs, Nat.le_refl _⟩
  | cons m moves ih =>
    have hm := hmoves m (List.mem_cons_self ..)
    obtain ⟨hrest, hload⟩ := ih (hs.internal hinj htimeout hm)
      fun x hx => hmoves x (List.mem_cons_of_mem _ hx)
    exact ⟨hrest, hload.trans (hs.load_step hm)⟩

/-! ## Rest -/

theorem run_bridge (setup : BridgeSetup) (e : Engine Nat) (s : Computer Nat)
    (actions : List BridgeAction) :
    s.run setup e (actions.map .bridge) = { s with bridge := s.bridge.run setup actions } := by
  induction actions generalizing s with
  | nil => rfl
  | cons a actions ih => exact ih { s with bridge := s.bridge.step setup a }

theorem OnTime.actions (hinj : Function.Injective setup.requestId)
    (htimeout : 0 < setup.settings.timeoutMs.toNat)
    (hs : OnTime setup f first commands hosts loads s) (actions : List BridgeAction)
    (hactions : ∀ a ∈ actions, (Move.bridge a).Internal) :
    OnTime setup f first commands hosts loads
        { s with bridge := s.bridge.run setup actions } ∧
      load { s with bridge := s.bridge.run setup actions } ≤ s.load := by
  rw [← run_bridge setup (.ofFunction f)]
  apply hs.run hinj htimeout
  intro m hm
  obtain ⟨a, ha, rfl⟩ := List.mem_map.1 hm
  exact hactions a ha

/-- The bridge comes to rest: all reports were heard, and all answers seen. -/
theorem OnTime.settle (hinj : Function.Injective setup.requestId)
    (htimeout : 0 < setup.settings.timeoutMs.toNat)
    (hs : OnTime setup f first commands hosts loads s) :
    OnTime setup f first commands hosts loads { s with bridge := s.bridge.settle setup } ∧
      load { s with bridge := s.bridge.settle setup } ≤ s.load ∧
      (s.bridge.settle setup).unheard = [] ∧ ∀ n, (s.bridge.settle setup).SeenAt n := by
  obtain ⟨g, hg⟩ := Option.ne_none_iff_exists'.1 hs.connected
  have hdispatches : ∀ a ∈ s.bridge.hosts.flatMap Bridge.dispatches, (Move.bridge a).Internal := by
    intro a ha
    obtain ⟨h, -, hdispatch⟩ := List.mem_flatMap.1 ha
    rw [List.eq_of_mem_replicate hdispatch]
    trivial
  obtain ⟨hdispatched, hload⟩ := hs.actions hinj htimeout _ hdispatches
  have hheard : (s.bridge.run setup (s.bridge.hosts.flatMap Bridge.dispatches)).unheard = [] := by
    rw [Bridge.run_dispatches]
    exact hs.sound.bridge.unheard_foldl hinj hg (Bridge.length_unheard_le hg)
  unfold Bridge.settle
  dsimp only
  generalize s.bridge.run setup (s.bridge.hosts.flatMap Bridge.dispatches) = b at *
  -- no deadline has passed, so the callers only see their answers
  have hwakes := Bridge.Punctual.run_wakes setup hdispatched.punctual (List.range b.calls.length)
  have hresumes : b.run setup ((List.range b.calls.length).map .resume) =
      (List.range b.calls.length).foldl Bridge.resume b := List.foldl_map
  have hresume : ∀ a ∈ (List.range b.calls.length).map BridgeAction.resume,
      (Move.bridge a).Internal := by
    intro a ha
    obtain ⟨n, -, rfl⟩ := List.mem_map.1 ha
    trivial
  obtain ⟨hresumed, hload'⟩ := hdispatched.actions hinj htimeout _ hresume
  dsimp only at hwakes hresumed hload'
  rw [hresumes] at hresumed hload'
  rw [hwakes]
  refine ⟨hresumed, hload'.trans hload, ?_, b.seenAt_wakes⟩
  unfold Bridge.unheard at hheard ⊢
  rw [Bridge.link?_foldl_resume]
  exact hheard

/-- A job that goes on leaves reports and answers as they are; if it has a new call, that waits. -/
theorem Executing.proceed_calls (hs : Executing setup f first commands s) (job : Nat) :
    (s.proceed setup job).bridge.unheard = s.bridge.unheard ∧
      ∀ (n : Nat) (call : Call), (s.proceed setup job).bridge.calls[n]? = some call →
        s.bridge.calls[n]? = some call ∨ ∃ id deadline, call = .waiting id .answer deadline := by
  obtain ⟨jobs, ⟨command, hgo⟩ | hgo⟩ := proceed_cases setup s job
  · obtain ⟨-, hunheard, id, deadline, hcalls⟩ :=
      hs.sound.bridge.link?_send hs.connected command.request command.toJson
    rw [hgo]
    refine ⟨hunheard, ?_⟩
    intro n call hc
    dsimp only at hc
    rw [hcalls, List.getElem?_append] at hc
    split at hc
    · exact .inl hc
    · rw [List.getElem?_singleton] at hc
      split at hc
      · exact .inr ⟨id, deadline, (Option.some.inj hc).symm⟩
      · cases hc
  · rw [hgo]
    refine ⟨rfl, ?_⟩
    intro n call hc
    exact .inl hc

/-- A job that has gone on is stuck, and so it stays. -/
theorem Executing.stuckAt_proceed (hs : Executing setup f first commands s) {job k : Nat}
    (h : s.StuckAt job ∨ job = k) : (s.proceed setup k).StuckAt job := by
  by_cases hk : s.StuckAt k
  · rw [hk.proceed_eq]
    exact h.elim id fun heq => heq ▸ hk
  intro j hj n answer hn hc
  -- the call that the job waits for had finished before
  have hbefore : s.bridge.calls[n]? = some (.finished answer) := by
    rcases (hs.proceed_calls k).2 n _ hc with hbefore | ⟨_, _, hwaiting⟩
    · exact hbefore
    · cases hwaiting
  unfold StuckAt at hk
  push Not at hk
  obtain ⟨j₀, hj₀, hgoes⟩ := hk
  -- so it was another job that went on, unless this one waits for something new
  rw [proceed_of_job hj₀] at hj
  dsimp only at hj
  rw [List.getElem?_set] at hj
  split at hj
  · rw [if_pos (List.getElem?_eq_some_iff.1 hj₀).1, Option.some.injEq] at hj
    subst hj
    rcases proceedJob_of_not_stuck setup hgoes with ⟨call, command, -, hgo⟩ | ⟨result, hgo⟩
    · rw [hgo] at hn
      cases hn
      rw [List.getElem?_eq_none (Nat.le_refl _)] at hbefore
      cases hbefore
    · rw [hgo] at hn
      cases hn
  · next hne => exact h.resolve_right (Ne.symm hne) j hj n answer hn hbefore

/-- Everything but the worker comes to rest once the jobs have gone on. -/
theorem OnTime.proceeds (hinj : Function.Injective setup.requestId)
    (htimeout : 0 < setup.settings.timeoutMs.toNat)
    (hs : OnTime setup f first commands hosts loads s) (jobs : List Nat)
    (hheard : s.bridge.unheard = []) (hseen : ∀ n, s.bridge.SeenAt n) :
    OnTime setup f first commands hosts loads (jobs.foldl (Computer.proceed setup) s) ∧
      (jobs.foldl (Computer.proceed setup) s).load ≤ s.load ∧
      (jobs.foldl (Computer.proceed setup) s).bridge.unheard = [] ∧
      (∀ n, (jobs.foldl (Computer.proceed setup) s).bridge.SeenAt n) ∧
      ∀ job, s.StuckAt job ∨ job ∈ jobs →
        (jobs.foldl (Computer.proceed setup) s).StuckAt job := by
  -- on the jobs; one that goes on leaves those before it stuck
  induction jobs generalizing s with
  | nil => exact ⟨hs, Nat.le_refl _, hheard, hseen, fun job h => h.resolve_right List.not_mem_nil⟩
  | cons k jobs ih =>
    obtain ⟨hunheard, hcalls⟩ := hs.toExecuting.proceed_calls (s := s) k
    have hseen' : ∀ n, (s.proceed setup k).bridge.SeenAt n := by
      intro n id purpose answer hc
      rcases hcalls n _ hc with hbefore | ⟨_, _, hwaiting⟩
      · exact hseen n id purpose answer hbefore
      · cases hwaiting
    obtain ⟨hrest, hload, hheard', hseen'', hstuck⟩ :=
      ih (hs.internal hinj htimeout (m := .proceed k) trivial) (hunheard.trans hheard) hseen'
    refine ⟨hrest, hload.trans (hs.load_proceed k), hheard', hseen'', fun job h => ?_⟩
    apply hstuck
    rcases h with h | h
    · exact .inl (hs.stuckAt_proceed (.inl h))
    · exact (List.mem_cons.1 h).imp_left fun heq => hs.stuckAt_proceed (.inr heq)

/-- Everything but the worker comes to rest. -/
theorem OnTime.round (hinj : Function.Injective setup.requestId)
    (htimeout : 0 < setup.settings.timeoutMs.toNat)
    (hs : OnTime setup f first commands hosts loads s) :
    OnTime setup f first commands hosts loads (s.round setup) ∧
      (s.round setup).load ≤ s.load ∧ (s.round setup).Rested := by
  obtain ⟨hsettled, hload, hheard, hseen⟩ := hs.settle hinj htimeout
  obtain ⟨hdone, hload', hheard', hseen', hstuck⟩ := hsettled.proceeds hinj htimeout
    ((List.range s.jobs.length).flatMap fun job => [job, job]) hheard hseen
  refine ⟨hdone, hload'.trans hload, hheard', hseen', ?_⟩
  intro job
  by_cases hjob : job < s.jobs.length
  · exact hstuck job (.inr (List.mem_flatMap.2 ⟨job, List.mem_range.2 hjob, List.mem_cons_self ..⟩))
  · intro j hj
    rw [List.getElem?_eq_none] at hj
    · cases hj
    · have hlength : (s.round setup).jobs.length = s.jobs.length :=
        hdone.length.trans hs.length.symm
      rw [hlength]
      exact Nat.le_of_not_lt hjob

/-- So it does twice. -/
theorem OnTime.rest (hinj : Function.Injective setup.requestId)
    (htimeout : 0 < setup.settings.timeoutMs.toNat)
    (hs : OnTime setup f first commands hosts loads s) :
    OnTime setup f first commands hosts loads (s.rest setup) ∧
      (s.rest setup).load ≤ s.load ∧ (s.rest setup).Rested := by
  obtain ⟨hround, hload, -⟩ := hs.round hinj htimeout
  obtain ⟨hrest, hload', hrested⟩ := hround.round hinj htimeout
  exact ⟨hrest, hload'.trans hload, hrested⟩

/-- With enough fuel the worker takes all requests. -/
theorem OnTime.serveAll (hinj : Function.Injective setup.requestId)
    (htimeout : 0 < setup.settings.timeoutMs.toNat)
    (hs : OnTime setup f first commands hosts loads s) {fuel : Nat} (hfuel : s.load ≤ fuel) :
    OnTime setup f first commands hosts loads
        (Computer.serveAll setup (.ofFunction f) fuel s) ∧
      (Computer.serveAll setup (.ofFunction f) fuel s).Rested ∧
      (Computer.serveAll setup (.ofFunction f) fuel s).bridge.queued = [] := by
  -- the load bounds the fuel that is needed: each request that is taken lowers it
  induction fuel generalizing s with
  | zero =>
    obtain ⟨hrest, hload, hrested⟩ := hs.rest hinj htimeout
    refine ⟨hrest, hrested, List.eq_nil_of_length_eq_zero ?_⟩
    have hnone : (s.rest setup).load = 0 := Nat.le_zero.1 (hload.trans hfuel)
    exact (Nat.add_eq_zero_iff.1 hnone).1
  | succ fuel ih =>
    obtain ⟨hrest, hload, hrested⟩ := hs.rest hinj htimeout
    unfold Computer.serveAll
    dsimp only
    rcases hrest.sound.load_serve with ⟨hnone, hqueued⟩ | ⟨hnext, hless⟩
    · rw [hnone]
      exact ⟨hrest, hrested, hqueued⟩
    · obtain ⟨x, hnext⟩ := Option.ne_none_iff_exists'.1 hnext
      rw [hnext]
      refine ih (hrest.internal hinj htimeout (m := .serve) trivial) ?_
      exact Nat.le_of_lt_succ (Nat.lt_of_lt_of_le (by omega) (hload.trans hfuel))

/-! ## To the end -/

theorem load_le_workload (s : Computer Nat) : s.load ≤ s.workload := by
  unfold load workload
  apply Nat.add_le_add
  · unfold Bridge.queued Bridge.link?
    cases s.bridge.connection with
    | none => exact Nat.zero_le _
    | some g =>
      rw [Option.bind_some]
      cases hh : s.bridge.host? g with
      | none => exact Nat.zero_le _
      | some h =>
        rw [List.length_flatMap]
        exact List.le_sum_of_mem (List.mem_map_of_mem (List.mem_of_find?_eq_some hh))
  · have hposts : ∀ j ∈ s.jobs, Job.posts j ≤ 1 := by
      intro j _
      cases j <;> exact Nat.le_of_ble_eq_true rfl
    simpa using List.sum_le_card_nsmul (s.jobs.map Job.posts) 1 (by simpa using hposts)

/-- What was done stays done, and there is neither another host nor another worker. -/
structure Keeps (s s' : Computer Nat) : Prop where
  results : ∀ i result, s.result? i = some result → s'.result? i = some result
  spawned : s'.bridge.spawned = s.bridge.spawned
  connection : s'.bridge.connection = s.bridge.connection
  worker : s'.worker = s.worker

theorem Keeps.refl (s : Computer Nat) : Keeps s s :=
  ⟨fun _ _ h => h, rfl, rfl, rfl⟩

theorem Keeps.trans {s' s'' : Computer Nat} (h : Keeps s s') (h' : Keeps s' s'') :
    Keeps s s'' where
  results i result hi := h'.results i result (h.results i result hi)
  spawned := h'.spawned.trans h.spawned
  connection := h'.connection.trans h.connection
  worker := h'.worker.trans h.worker

theorem keeps_action (setup : BridgeSetup) (s : Computer Nat) {a : BridgeAction}
    (ha : ¬Bridge.Rewires a) : Keeps s { s with bridge := s.bridge.step setup a } where
  results _ _ h := h
  spawned := by
    have hgeneration := (Bridge.keeps_step setup s.bridge ha).generation
    rcases s.bridge.spawned_step setup a with ⟨-, hs⟩ | ⟨hnext, -⟩
    · exact hs
    · rw [hgeneration] at hnext
      omega
  connection := (Bridge.keeps_step setup s.bridge ha).connection
  worker := rfl

theorem keeps_actions (setup : BridgeSetup) (s : Computer Nat) (actions : List BridgeAction)
    (hactions : ∀ a ∈ actions, ¬Bridge.Rewires a) :
    Keeps s { s with bridge := s.bridge.run setup actions } :=
  Bridge.run_induction (.refl s) fun c a hmem hc =>
    hc.trans (keeps_action setup { s with bridge := c } (hactions a hmem))

theorem keeps_settle (setup : BridgeSetup) (s : Computer Nat) :
    Keeps s { s with bridge := s.bridge.settle setup } := by
  have hdispatch : ∀ a ∈ s.bridge.hosts.flatMap Bridge.dispatches, ¬Bridge.Rewires a := by
    intro a ha
    obtain ⟨h, -, hdispatch⟩ := List.mem_flatMap.1 ha
    rw [List.eq_of_mem_replicate hdispatch]
    exact id
  refine (keeps_actions setup s _ hdispatch).trans (keeps_actions setup _ _ ?_)
  intro a ha
  obtain ⟨n, -, hwake⟩ := List.mem_flatMap.1 ha
  simp only [Bridge.wakes, List.mem_cons, List.not_mem_nil, or_false] at hwake
  rcases hwake with rfl | rfl <;> exact id

theorem keeps_proceed (setup : BridgeSetup) (s : Computer Nat) (job : Nat) :
    Keeps s (s.proceed setup job) := by
  cases hjob : s.jobs[job]? with
  | none =>
    rw [proceed_of_none hjob]
    exact .refl s
  | some j =>
    have hbridge : Keeps s { s with bridge := (proceedJob setup s.bridge j).1 } := by
      rcases proceedJob_cases setup s.bridge j with ⟨command, hgo⟩ | hsame
      · rw [hgo]
        exact keeps_action setup s (a := .begin (.send command.request command.toJson)) id
      · rw [hsame]
        exact .refl s
    rw [proceed_of_job hjob]
    refine ⟨?_, hbridge.spawned, hbridge.connection, hbridge.worker⟩
    intro i result hi
    rw [result?_eq_some_iff] at hi ⊢
    dsimp only
    by_cases heq : job = i
    · subst heq
      cases hjob.symm.trans hi
      exact List.getElem?_set_self (List.getElem?_eq_some_iff.1 hjob).1
    · rw [List.getElem?_set_ne heq]
      exact hi

theorem keeps_rest (setup : BridgeSetup) (s : Computer Nat) : Keeps s (s.rest setup) := by
  have hproceeds : ∀ (jobs : List Nat) (s : Computer Nat),
      Keeps s (jobs.foldl (Computer.proceed setup) s) := by
    intro jobs
    induction jobs with
    | nil => exact .refl
    | cons job jobs ih => exact fun s => (keeps_proceed setup s job).trans (ih _)
  have hround : ∀ s : Computer Nat, Keeps s (s.round setup) :=
    fun s => (keeps_settle setup s).trans (hproceeds _ _)
  exact (hround s).trans (hround _)

/-- Once the worker has nothing to take, the rest only waits for old deadlines. -/
theorem keeps_complete (setup : BridgeSetup) (e : Engine Nat) (s : Computer Nat) :
    Keeps (serveAll setup e s.workload s) (s.complete setup e) := by
  unfold complete
  dsimp only
  split
  · exact .refl _
  · exact (keeps_action setup _ (a := .elapse _) id).trans (keeps_rest setup _)

/-! ## All commands -/

/-- A command begins and goes as far as it can. -/
def launch (setup : BridgeSetup) (s : Computer Nat) (command : Command) : Computer Nat :=
  ((s.begin setup command).proceed setup s.jobs.length).proceed setup s.jobs.length

theorem OnTime.launch (hinj : Function.Injective setup.requestId)
    (htimeout : 0 < setup.settings.timeoutMs.toNat)
    (hs : OnTime setup f first commands hosts loads s) (c : Command) :
    OnTime setup f first (commands ++ [c]) hosts loads (s.launch setup c) := by
  have hbegun : OnTime setup f first (commands ++ [c]) hosts loads (s.begin setup c) :=
    { toExecuting := hs.toExecuting.begin hinj c
      frugal := hs.frugal.step (m := .begin c) hs.toExecuting trivial
      punctual := hs.punctual.init htimeout hs.sound.bridge.counted
        fun hidle => absurd hidle (hs.sound.bridge.not_idle hs.connected) }
  have honce := hbegun.internal hinj htimeout (m := .proceed s.jobs.length) trivial
  exact honce.internal hinj htimeout (m := .proceed s.jobs.length) trivial

theorem OnTime.foldl_launch (hinj : Function.Injective setup.requestId)
    (htimeout : 0 < setup.settings.timeoutMs.toNat)
    (hs : OnTime setup f first commands hosts loads s) (cs : List Command) :
    OnTime setup f first (commands ++ cs) hosts loads (cs.foldl (Computer.launch setup) s) := by
  induction cs generalizing commands s with
  | nil =>
    rw [List.append_nil]
    exact hs
  | cons c cs ih =>
    have hrest := ih (hs.launch hinj htimeout c)
    rw [List.append_assoc] at hrest
    exact hrest

/-- The first command that is launched starts the host if it has to. -/
theorem onTime_launch (hinj : Function.Injective setup.requestId)
    (htimeout : 0 < setup.settings.timeoutMs.toNat) (hs : s.Sound setup f)
    (hpunctual : s.bridge.Punctual) (ha : s.Available setup) (c : Command) :
    OnTime setup f s.jobs.length [c] (s.bridge.spawned.length + 1) s.worker.engine
      (s.launch setup c) := by
  have hbegun : OnTime setup f s.jobs.length [c] (s.bridge.spawned.length + 1) s.worker.engine
      (s.begin setup c) :=
    { toExecuting := executing_begin hinj hs ha c
      frugal := frugal_begin setup s c
      punctual := by
        refine hpunctual.init htimeout hs.bridge.counted fun hidle => ?_
        rcases ha with ⟨-, hspawn⟩ | ⟨hready, -⟩
        · exact hspawn
        · rw [hidle] at hready
          cases hready }
  have honce := hbegun.internal hinj htimeout (m := .proceed s.jobs.length) trivial
  exact honce.internal hinj htimeout (m := .proceed s.jobs.length) trivial

theorem forall₂_filterMap_range {α β : Type} {P : α → β → Prop} {xs : List α} {g : Nat → Option β}
    (h : ∀ i x, xs[i]? = some x → ∃ y, g i = some y ∧ P x y) :
    List.Forall₂ P xs ((List.range xs.length).filterMap g) := by
  induction xs generalizing g with
  | nil => exact .nil
  | cons x xs ih =>
    obtain ⟨y, hy, hxy⟩ := h 0 x rfl
    rw [List.length_cons, List.range_succ_eq_map, List.filterMap_cons_some hy, List.filterMap_map]
    exact .cons hxy (ih fun i x' hx' => h (i + 1) x' hx')

/-- All commands that were begun are done in the end. -/
theorem OnTime.complete (hinj : Function.Injective setup.requestId)
    (htimeout : 0 < setup.settings.timeoutMs.toNat)
    (hs : OnTime setup f first commands hosts loads s) :
    List.Forall₂ (Yields f) commands ((List.range commands.length).filterMap fun i =>
        (Computer.complete setup (.ofFunction f) s).result? (first + i)) ∧
      (Computer.complete setup (.ofFunction f) s).bridge.spawned.length ≤ hosts ∧
      (Computer.complete setup (.ofFunction f) s).worker.engine ≤ loads + 1 := by
  -- all is done before the time passes in which old requests of other callers run out
  obtain ⟨hdone, hrested, hqueued⟩ := hs.serveAll hinj htimeout s.load_le_workload
  have hkeeps := keeps_complete setup (.ofFunction f) s
  refine ⟨forall₂_filterMap_range fun i c hc => ?_, ?_, ?_⟩
  · obtain ⟨result, hresult, hyields⟩ := hdone.toExecuting.result_of_rested hrested hqueued hc
    exact ⟨result, hkeeps.results _ _ hresult, hyields⟩
  · rw [hkeeps.spawned]
    exact hdone.frugal.hosts
  · rw [hkeeps.worker]
    rcases hdone.frugal.loads with hloads | ⟨hloads, -⟩ <;> omega

end Computer

end Chalkboard
