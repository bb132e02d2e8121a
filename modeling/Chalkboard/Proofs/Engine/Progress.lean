import Mathlib.Algebra.GroupWithZero.Nat
import Chalkboard.Proofs.Engine.Execution

/-!
# Commands come to their end

While commands are on their way, what the parts do by themselves brings them nearer to their end:
every such move that does something makes `Computer.remaining` smaller, so there are only so many of
them (`Computer.Executing.length_le_remaining`). As long as a command has no result, there is such a
move (`Computer.Executing.result_of_rested`).
-/

namespace Chalkboard

/-- The bridge, a caller, the worker or a command goes on by itself. -/
def Move.Internal : Move → Prop
  | .bridge (.dispatch _) | .bridge (.resume _) | .serve | .proceed _ => True
  | _ => False

theorem Move.Internal.undisturbed {m : Move} (h : m.Internal) (first : Nat) (s : Computer Nat) :
    Computer.Undisturbed first s m := by
  cases m with
  | bridge action =>
    cases action with
    | dispatch generation => exact ⟨trivial, nofun, nofun⟩
    | resume call => exact ⟨trivial, nofun, nofun⟩
    | _ => exact h.elim
  | serve => trivial
  | begin command => trivial
  | proceed job => trivial

theorem Move.Internal.command? {m : Move} (h : m.Internal) : m.command? = none := by
  cases m with
  | begin command => exact h.elim
  | _ => rfl

/-- What a call may still take: its caller has to see the answer. -/
def Call.weight (c : Call) : Nat :=
  c.purpose?.elim 0 fun _ => 1

/-- What a job may still take. A job that posts its request leaves four moves for the request, since
the worker says at most three things to it, and one for the new call. -/
def Job.weight : Job → Nat
  | .starting .. => 7
  | .sending _ => 1
  | .done _ => 0

theorem sum_map_set {α : Type} (w : α → Nat) {xs : List α} {n : Nat} {x : α} (y : α)
    (h : xs[n]? = some x) : ((xs.set n y).map w).sum + w x = (xs.map w).sum + w y := by
  induction xs generalizing n with
  | nil => cases h
  | cons z xs ih =>
    cases n with
    | zero =>
      cases h
      simp only [List.set_cons_zero, List.map_cons, List.sum_cons]
      omega
    | succ n =>
      have hrest := ih h
      simp only [List.set_cons_succ, List.map_cons, List.sum_cons]
      omega

namespace Bridge

variable {setup : BridgeSetup} {f : Computation} {b c : Bridge} {g n : Nat} {h : HostLink}

/-! ## What is under way -/

/-- The host that is connected. -/
def link? (b : Bridge) : Option HostLink :=
  b.connection.bind b.host?

/-- The requests that the connected host has not taken. -/
def queued (b : Bridge) : List HostRequest :=
  (b.link?.map HostLink.requests).getD []

/-- The reports of the connected host that were not dispatched. -/
def unheard (b : Bridge) : List HostEvent :=
  (b.link?.map HostLink.events).getD []

/-- How much the calls may still take. -/
def callWeight (b : Bridge) : Nat :=
  (b.calls.map Call.weight).sum

/-- The call has no answer that its caller has not seen. -/
def SeenAt (b : Bridge) (n : Nat) : Prop :=
  ∀ id purpose answer, b.calls[n]? ≠ some (.answered id purpose answer)

theorem link?_of_host (hg : b.connection = some g) (hh : b.host? g = some h) :
    b.link? = some h := by
  rw [link?, hg, Option.bind_some, hh]

theorem link?_congr (hconnection : c.connection = b.connection) (hhosts : c.hosts = b.hosts) :
    c.link? = b.link? := by
  unfold link? host?
  rw [hconnection, hhosts]

theorem queued_of_link (hlink : b.link? = some h) : b.queued = h.requests := by
  rw [queued, hlink]
  rfl

theorem unheard_of_link (hlink : b.link? = some h) : b.unheard = h.events := by
  rw [unheard, hlink]
  rfl

/-- An answer does not change how much the calls may still take. -/
theorem callWeight_dispatch (b : Bridge) (g : Nat) : (b.dispatch g).callWeight = b.callWeight := by
  have hdeliver : ∀ id answer,
      ((deliver id answer b.calls).map Call.weight).sum = b.callWeight := by
    intro id answer
    have hweight : Call.weight = (fun p : Option Purpose => p.elim 0 fun _ => 1) ∘ Call.purpose? :=
      rfl
    rw [callWeight, hweight, ← List.map_map, ← List.map_map, Ledger.map_purpose?_deliver]
  have hledger : (b.dispatch g).ledger = _ := b.ledger_dispatch g
  change ((b.dispatch g).ledger.calls.map Call.weight).sum = _
  rw [hledger]
  cases (b.routed? g).bind HostMessage.answer? with
  | none => rfl
  | some x =>
    dsimp only [settleIf]
    split
    · exact hdeliver x.1 x.2
    · rfl

/-- A dispatch takes one report of the connected host, if there is one, and does nothing else to
what is under way. -/
theorem Sound.dispatch_cases (hb : b.Sound setup f) (hconnected : b.connection ≠ none) (g : Nat) :
    b.dispatch g = b ∧ (b.connection = some g → b.unheard = []) ∨
      (b.dispatch g).queued = b.queued ∧ ∃ e, b.unheard = e :: (b.dispatch g).unheard := by
  obtain ⟨g₀, hg₀⟩ := Option.ne_none_iff_exists'.1 hconnected
  by_cases hne : g = g₀
  · subst hne
    obtain ⟨-, h, hh, hhealthy⟩ := hb.linked g hg₀
    have hlink := link?_of_host hg₀ hh
    cases hevents : h.events with
    | nil =>
      left
      refine ⟨dispatch_of_silence hh hhealthy.reporting hevents, fun _ => ?_⟩
      rw [unheard_of_link hlink, hevents]
    | cons e events =>
      right
      obtain ⟨m, rfl, -⟩ := hhealthy.events e (hevents ▸ List.mem_cons_self ..)
      have hhost : (b.dispatch g).host? g = some { h with events } := by
        rw [dispatch_of_event hh hhealthy.listening hevents,
          host?_of_hosts (hosts_route_event _ _ _)]
        exact host?_updateHost_self (f := fun h => { h with events }) (fun _ => rfl) hh
      have hlink' := link?_of_host ((keeps_dispatch b g).connection.trans hg₀) hhost
      rw [queued_of_link hlink, queued_of_link hlink', unheard_of_link hlink,
        unheard_of_link hlink', hevents]
      exact ⟨rfl, m.event, rfl⟩
  · left
    refine ⟨(hb.attached.dispatch_of_ne hg₀ hne).1, fun hg => ?_⟩
    exact absurd (Option.some.inj (hg.symm.trans hg₀)) hne

/-- A caller that goes on ends its call, and does nothing else to what is under way. -/
theorem resume_cases (b : Bridge) (n : Nat) :
    (b.resume n).link? = b.link? ∧
      (b.resume n = b ∧ b.SeenAt n ∨
        ∃ id purpose answer result, b.calls[n]? = some (.answered id purpose answer) ∧
          (b.resume n).calls = b.calls.set n (.finished result)) := by
  refine ⟨link?_congr (keeps_resume b n).connection (hosts_resume b n), ?_⟩
  unfold resume
  split
  · next id purpose answer hc =>
    right
    refine ⟨id, purpose, answer, (b.conclude id purpose answer).2, hc, ?_⟩
    have hcalls : (b.conclude id purpose answer).1.calls = b.calls :=
      congrArg Ledger.calls (ledger_conclude b id purpose answer)
    dsimp only
    rw [hcalls]
  · next hc => exact .inl ⟨rfl, fun id purpose answer h => hc id purpose answer h⟩

/-- A send enters the queue, and its caller waits. -/
theorem Sound.link?_send (hb : b.Sound setup f) (hconnected : b.connection ≠ none)
    (kind : RequestKind) (payload : Json) :
    (∃ q, (b.step setup (.begin (.send kind payload))).queued = b.queued ++ [q]) ∧
      (b.step setup (.begin (.send kind payload))).unheard = b.unheard ∧
      ∃ id deadline, (b.step setup (.begin (.send kind payload))).calls =
        b.calls ++ [.waiting id .answer deadline] := by
  obtain ⟨g, hg⟩ := Option.ne_none_iff_exists'.1 hconnected
  obtain ⟨-, h, hh, hhealthy⟩ := hb.linked g hg
  have hlink := link?_of_host hg hh
  have hlink' : (b.posted setup g kind payload).link? = _ :=
    link?_of_host hg (host?_posted setup hh kind payload)
  rw [begin_send_of_accepts setup ⟨hg, h, hh, hhealthy.accepting⟩]
  refine ⟨⟨⟨kind, setup.requestId (b.issued + 1), payload⟩, ?_⟩, ?_, _, _, rfl⟩
  · rw [queued_of_link hlink]
    exact queued_of_link hlink'
  · rw [unheard_of_link hlink]
    exact (unheard_of_link hlink' : (b.posted setup g kind payload).unheard = _)

end Bridge

namespace Computer

variable {setup : BridgeSetup} {f : Computation} {s : Computer Nat} {first : Nat}
  {commands : List Command} {m : Move}

/-! ## Progress -/

/-- An upper bound for the moves that the parts can make by themselves. -/
def remaining (s : Computer Nat) : Nat :=
  4 * s.bridge.queued.length + s.bridge.unheard.length + s.bridge.callWeight +
    (s.jobs.map Job.weight).sum

theorem Executing.remaining_dispatch (hs : Executing setup f first commands s) (g : Nat) :
    s.bridge.dispatch g = s.bridge ∧ (s.bridge.connection = some g → s.bridge.unheard = []) ∨
      remaining { s with bridge := s.bridge.dispatch g } < s.remaining := by
  refine (hs.sound.bridge.dispatch_cases hs.connected g).imp_right ?_
  rintro ⟨hqueued, e, hunheard⟩
  unfold remaining
  dsimp only
  rw [hqueued, hunheard, Bridge.callWeight_dispatch, List.length_cons]
  omega

theorem remaining_resume (s : Computer Nat) (n : Nat) :
    s.bridge.resume n = s.bridge ∧ s.bridge.SeenAt n ∨
      remaining { s with bridge := s.bridge.resume n } < s.remaining := by
  obtain ⟨hlink, hcases⟩ := s.bridge.resume_cases n
  refine hcases.imp_right ?_
  rintro ⟨id, purpose, answer, result, hc, hcalls⟩
  have hsum := sum_map_set Call.weight (.finished result) hc
  unfold remaining Bridge.queued Bridge.unheard Bridge.callWeight
  dsimp only
  rw [hlink, hcalls]
  dsimp only [Call.weight, Call.purpose?, Option.elim_some, Option.elim_none] at hsum ⊢
  omega

theorem Sound.nextRequest?_eq (hs : s.Sound setup f) :
    s.nextRequest? = none ∧ s.bridge.queued = [] ∨
      ∃ g h q requests, s.nextRequest? = some (g, q) ∧ s.bridge.connection = some g ∧
        s.bridge.host? g = some h ∧ h.requests = q :: requests := by
  unfold nextRequest? Bridge.queued Bridge.link?
  cases hg : s.bridge.connection with
  | none => exact .inl ⟨rfl, rfl⟩
  | some g =>
    dsimp only
    rw [if_neg (by simp [(hs.steady_workerOf g).stopped]), Option.bind_some]
    cases hh : s.bridge.host? g with
    | none => exact .inl ⟨rfl, rfl⟩
    | some h =>
      cases hq : h.requests with
      | nil =>
        left
        simp [hq]
      | cons q requests =>
        right
        refine ⟨g, h, q, requests, ?_, rfl, hh, hq⟩
        simp [hq]

/-- What the worker does when it takes a request: it says at most three things. -/
structure Takes (s s' : Computer Nat) : Prop where
  queued : ∃ q, s.bridge.queued = q :: s'.bridge.queued
  unheard : ∃ events, events.length ≤ 3 ∧ s'.bridge.unheard = s.bridge.unheard ++ events
  calls : s'.bridge.calls = s.bridge.calls
  now : s'.bridge.now = s.bridge.now
  jobs : s'.jobs = s.jobs

/-- The worker takes a request, or there is none. -/
theorem Sound.serve_cases (hs : s.Sound setup f) :
    s.nextRequest? = none ∧ s.bridge.queued = [] ∨
      s.nextRequest? ≠ none ∧ s.Takes (s.serve setup (.ofFunction f)) := by
  rcases hs.nextRequest?_eq with hnone | ⟨g, h, q, requests, hnext, hg, hh, hq⟩
  · exact .inl hnone
  · right
    refine ⟨by rw [hnext]; nofun, ?_⟩
    rw [serve_of_next hs hnext]
    obtain ⟨-, h', hh', hhealthy⟩ := hs.bridge.linked g hg
    cases hh.symm.trans hh'
    have hlink := Bridge.link?_of_host hg hh
    have hlink' : (s.bridge.updateHost g fun h => h.served ((s.workerOf g).sayings f q)).link? =
        some (h.served ((s.workerOf g).sayings f q)) :=
      Bridge.link?_of_host hg
        (Bridge.host?_updateHost_self (f := fun h => h.served _) (fun _ => rfl) hh)
    refine ⟨⟨q, ?_⟩, ⟨((s.workerOf g).sayings f q).map HostMessage.event, ?_, ?_⟩, rfl, rfl, rfl⟩
    · rw [Bridge.queued_of_link hlink, Bridge.queued_of_link hlink', hq]
      unfold HostLink.served
      rw [hq]
      rfl
    · rw [List.length_map]
      exact (s.workerOf g).length_sayings_le f q
    · rw [Bridge.unheard_of_link hlink, Bridge.unheard_of_link hlink']
      exact if_pos hhealthy.reporting

theorem Sound.remaining_serve (hs : s.Sound setup f) :
    s.serve setup (.ofFunction f) = s ∧ s.bridge.queued = [] ∨
      (s.serve setup (.ofFunction f)).remaining < s.remaining := by
  refine hs.serve_cases.imp (fun ⟨hnone, hqueued⟩ => ⟨serve_of_none _ _ hnone, hqueued⟩) ?_
  rintro ⟨-, h⟩
  obtain ⟨q, hqueued⟩ := h.queued
  obtain ⟨events, hlength, hunheard⟩ := h.unheard
  unfold remaining Bridge.callWeight
  rw [hqueued, hunheard, h.calls, h.jobs, List.length_cons, List.length_append]
  omega

/-- A job that does not wait any more has a move. -/
theorem weight_of_not_stuck {b : Bridge} {j : Job} (h : ¬Stuck b j) : 0 < j.weight := by
  cases j with
  | starting call command => exact Nat.succ_pos _
  | sending call => exact Nat.succ_pos _
  | done result => exact absurd nofun h

/-- The job of this number is stuck, if there is one. -/
def StuckAt (s : Computer Nat) (job : Nat) : Prop :=
  ∀ j, s.jobs[job]? = some j → Stuck s.bridge j

theorem StuckAt.proceed_eq {job : Nat} (h : s.StuckAt job) : s.proceed setup job = s := by
  cases hjob : s.jobs[job]? with
  | none => exact proceed_of_none hjob
  | some j =>
    rw [proceed_of_job hjob, proceedJob_of_stuck setup (h j hjob)]
    obtain ⟨hlt, hj⟩ := List.getElem?_eq_some_iff.1 hjob
    rw [← hj, List.set_getElem_self]

theorem Executing.remaining_proceed (hs : Executing setup f first commands s) (job : Nat) :
    s.proceed setup job = s ∧ s.StuckAt job ∨
      (s.proceed setup job).remaining < s.remaining := by
  by_cases hstuck : s.StuckAt job
  · exact .inl ⟨hstuck.proceed_eq, hstuck⟩
  right
  unfold StuckAt at hstuck
  push Not at hstuck
  obtain ⟨j, hjob, hj⟩ := hstuck
  rw [proceed_of_job hjob]
  unfold remaining
  rcases proceedJob_of_not_stuck setup hj with ⟨call, command, rfl, hgo⟩ | ⟨result, hgo⟩
  · rw [hgo]
    obtain ⟨⟨q, hqueued⟩, hunheard, id, deadline, hcalls⟩ :=
      hs.sound.bridge.link?_send hs.connected command.request command.toJson
    -- the job pays for its request and for the new call
    have hsum := sum_map_set Job.weight (.sending s.bridge.calls.length) hjob
    dsimp only [Job.weight] at hsum
    unfold Bridge.callWeight
    dsimp only
    rw [hqueued, hunheard, hcalls, List.length_append, List.map_append, List.sum_append]
    simp only [List.length_singleton, List.map_singleton, List.sum_singleton, Call.weight,
      Call.purpose?, Option.elim_some]
    omega
  · rw [hgo]
    have hsum : ((s.jobs.set job (.done result)).map Job.weight).sum + j.weight =
        (s.jobs.map Job.weight).sum + 0 := sum_map_set Job.weight _ hjob
    have hweight := weight_of_not_stuck hj
    dsimp only
    omega

/-- What the parts do by themselves brings the commands nearer to their end, if it does anything. -/
theorem Executing.remaining_step (hs : Executing setup f first commands s) (hm : m.Internal) :
    s.step setup (.ofFunction f) m = s ∨
      (s.step setup (.ofFunction f) m).remaining < s.remaining := by
  cases m with
  | bridge action =>
    cases action with
    | dispatch generation =>
      refine (hs.remaining_dispatch generation).imp_left fun ⟨hsame, _⟩ => ?_
      exact congrArg (fun bridge => { s with bridge }) hsame
    | resume call =>
      refine (remaining_resume s call).imp_left fun ⟨hsame, _⟩ => ?_
      exact congrArg (fun bridge => { s with bridge }) hsame
    | _ => exact hm.elim
  | serve => exact hs.sound.remaining_serve.imp_left And.left
  | begin command => exact hm.elim
  | proceed job => exact (hs.remaining_proceed job).imp_left And.left

/-- The parts make the moves by themselves, and each of them does something. -/
def Busy (setup : BridgeSetup) (e : Engine Nat) : Computer Nat → List Move → Prop
  | _, [] => True
  | s, m :: moves => (m.Internal ∧ s.step setup e m ≠ s) ∧ Busy setup e (s.step setup e m) moves

theorem Executing.internal (hinj : Function.Injective setup.requestId)
    (hs : Executing setup f first commands s) (hm : m.Internal) :
    Executing setup f first commands (s.step setup (.ofFunction f) m) := by
  have hstep := hs.step hinj (hm.undisturbed first s)
  rw [hm.command?, Option.toList_none, List.append_nil] at hstep
  exact hstep

/-- There are only so many moves until nothing goes on by itself. -/
theorem Executing.length_le_remaining (hinj : Function.Injective setup.requestId)
    {moves : List Move} (hs : Executing setup f first commands s)
    (hbusy : Busy setup (.ofFunction f) s moves) : moves.length ≤ s.remaining := by
  induction moves generalizing s with
  | nil => exact Nat.zero_le _
  | cons m moves ih =>
    obtain ⟨⟨hm, hmoves⟩, hbusy⟩ := hbusy
    have hlt := (hs.remaining_step hm).resolve_left hmoves
    have hrest := ih (hs.internal hinj hm) hbusy
    rw [List.length_cons]
    omega

/-! ## Rest -/

/-- Nothing but the worker goes on by itself: all reports were heard, all answers were seen, and
every job waits for a call. -/
structure Rested (s : Computer Nat) : Prop where
  heard : s.bridge.unheard = []
  seen : ∀ n, s.bridge.SeenAt n
  stuck : ∀ job, s.StuckAt job

/-- Nothing goes on by itself. -/
def AtRest (setup : BridgeSetup) (e : Engine Nat) (s : Computer Nat) : Prop :=
  ∀ m : Move, m.Internal → s.step setup e m = s

/-- If nothing goes on then the worker has taken all requests. -/
theorem Executing.rested (hs : Executing setup f first commands s)
    (hrest : s.AtRest setup (.ofFunction f)) : s.Rested ∧ s.bridge.queued = [] := by
  -- a move that does something would make less remain, but the state stays as it is
  have hsame : ∀ m : Move, m.Internal →
      ¬(s.step setup (.ofFunction f) m).remaining < s.remaining := by
    intro m hm
    rw [hrest m hm]
    exact Nat.lt_irrefl _
  refine ⟨⟨?_, fun n => ?_, fun i => ?_⟩, ?_⟩
  · obtain ⟨g, hg⟩ := Option.ne_none_iff_exists'.1 hs.connected
    exact ((hs.remaining_dispatch g).resolve_right (hsame (.bridge (.dispatch g)) trivial)).2 hg
  · exact ((remaining_resume s n).resolve_right (hsame (.bridge (.resume n)) trivial)).2
  · exact ((hs.remaining_proceed i).resolve_right (hsame (.proceed i) trivial)).2
  · exact (hs.sound.remaining_serve.resolve_right (hsame .serve trivial)).2

/-- No request is under way if all were taken, all reports were heard, and all answers seen. -/
theorem not_handled (hr : s.Rested) (hq : s.bridge.queued = []) {n : Nat} {purpose : Purpose}
    {r : HostRequest} : ¬s.bridge.Handled f n purpose r := by
  intro h
  cases h with
  | answered hc => exact hr.seen n _ _ _ hc
  | underway hstands hpurpose hg hh hserves =>
    have hlink := Bridge.link?_of_host hg hh
    have hheard := hr.heard
    rw [Bridge.queued_of_link hlink] at hq
    rw [Bridge.unheard_of_link hlink] at hheard
    rcases hserves.present with hr | hr
    · rw [hq] at hr
      cases hr
    · rw [hheard] at hr
      cases hr

theorem result?_eq_some_iff {job : Nat} {result : Except BridgeError CommandResult} :
    s.result? job = some result ↔ s.jobs[job]? = some (.done result) := by
  unfold result?
  constructor
  · intro h
    split at h
    · next hjob =>
      cases h
      exact hjob
    · cases h
  · intro h
    rw [h]

/-- Then every command has its result. -/
theorem Executing.result_of_rested (hs : Executing setup f first commands s) (hr : s.Rested)
    (hq : s.bridge.queued = []) {i : Nat} {c : Command} (hc : commands[i]? = some c) :
    ∃ result, s.result? (first + i) = some result ∧ Yields f c result := by
  obtain ⟨j, hj, hcarries⟩ := hs.carries i c hc
  have hstuck := hr.stuck _ j hj
  cases hcarries with
  | starting call h =>
    rcases h with hfinished | hundecided
    · exact absurd hfinished (hstuck call _ rfl)
    · -- a caller that waits for the handshake has it under way
      obtain ⟨id, hhandled⟩ := hs.sound.bridge.greeted hs.connected call hundecided
      exact absurd hhandled (not_handled hr hq)
  | sending call id h =>
    rcases h with hfinished | hhandled
    · exact absurd hfinished (hstuck call _ rfl)
    · exact absurd hhandled (not_handled hr hq)
  | done result h =>
    exact ⟨result, result?_eq_some_iff.2 hj, h⟩

end Computer

end Chalkboard
