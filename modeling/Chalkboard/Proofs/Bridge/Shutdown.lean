import Chalkboard.Proofs.Bridge.Crash
import Chalkboard.Proofs.Bridge.Purpose

/-!
# After a shutdown

A bridge that was shut down has no host, no request waits, and nothing but a call to start a host
changes that (`Bridge.Offline`). What it shows is another matter: a caller that was still waiting
for the handshake of the last host learns that it was cancelled, and takes that for the failure of
the host, because no other host has been started since. `Bridge.shutdown_lasts` says how long the
status stays idle, and that each such caller puts an end to it.
-/

namespace Chalkboard

/-- The action starts a host. -/
def BridgeAction.Starts : BridgeAction → Prop
  | .begin .init | .begin .restart => True
  | _ => False

/-- The caller goes on: it sees its answer, or that its deadline has passed. -/
def BridgeAction.Wakes (call : Nat) (a : BridgeAction) : Prop :=
  a = .resume call ∨ a = .expire call

/-- What is shown once the host was stopped. -/
def Status.stopped : Status :=
  ⟨.idle, "Computation host stopped"⟩

namespace Bridge

variable {setup : BridgeSetup} {b c : Bridge} {a : BridgeAction}

/-- The caller has not said yet what became of the last host: it waits for the handshake, or has not
seen the answer. -/
def Undecided (b : Bridge) (call : Nat) : Prop :=
  b.ledger.purpose? call = some (.handshake b.generation)

/-- There is no host, and nobody waits for one to answer. -/
structure Offline (b : Bridge) : Prop where
  connection : b.connection = none
  pending : b.pending = []
  deaf : b.Deaf

/-- `c` came after `b` was shut down: it is without a host, and only callers of `b` have not said
yet what became of the last one. -/
structure Stopped (b c : Bridge) : Prop where
  offline : c.Offline
  generation : c.generation = b.generation
  undecided : ∀ n, c.Undecided n → b.Undecided n

/-! ## Without a host -/

/-- Without a host a request is refused at once. -/
theorem begin_send_of_disconnected (setup : BridgeSetup) (h : b.connection = none)
    (kind : RequestKind) (payload : Json) :
    b.begin setup (.send kind payload) =
      { b with
        issued := b.issued + 1
        calls := b.calls ++
          [.finished (.error (.hostUnavailable "computation host has not been started"))] } := by
  unfold begin ask post
  dsimp only
  rw [h]
  rfl

theorem offline_shutdown (h : b.Attached) : b.shutdown.Offline where
  connection := connection_disconnect b
  pending := rfl
  deaf := h.deaf_disconnect

/-- Who has no request in the table keeps none when a caller gives up. -/
theorem Offline.abandon (h : b.Offline) (call : Nat) : (b.abandon call).Offline where
  connection := (keeps_abandon b call).connection.trans h.connection
  pending := by
    unfold Bridge.abandon
    split
    · change b.pending.filter _ = []
      rw [h.pending]
      rfl
    · exact h.pending
    · exact h.pending
  deaf := (keeps_abandon b call).deaf h.deaf

theorem Offline.drop (h : b.Offline) : b.drop.Offline := by
  obtain ⟨-, hpending, hdeaf⟩ := List.foldlRecOn (motive := Offline) (List.range b.calls.length)
    Bridge.abandon h fun _ hc call _ => hc.abandon call
  unfold Bridge.drop
  refine ⟨connection_disconnect _, ?_, hdeaf.attached.deaf_disconnect⟩
  exact (congrArg Ledger.pending (ledger_disconnect _)).trans hpending

/-- Only an action that starts a host brings one. -/
theorem Offline.step (h : b.Offline) (ha : ¬a.Starts) : (b.step setup a).Offline := by
  cases a with
  | begin request =>
    cases request with
    | init => exact absurd trivial ha
    | restart => exact absurd trivial ha
    | send kind payload =>
      change (b.begin setup (.send kind payload)).Offline
      rw [begin_send_of_disconnected setup h.connection]
      exact ⟨h.connection, h.pending, h.deaf⟩
  | abandon call => exact h.abandon call
  | resume call =>
    have hkeeps := keeps_resume b call
    refine ⟨hkeeps.connection.trans h.connection, ?_, hkeeps.deaf h.deaf⟩
    rcases b.ledger_resume call with hl | ⟨_, _, _, _, -, -, hl⟩
    · exact (congrArg Ledger.pending hl).trans h.pending
    · exact (congrArg Ledger.pending hl).trans h.pending
  | expire call =>
    have hkeeps := keeps_expire setup b call
    refine ⟨hkeeps.connection.trans h.connection, ?_, hkeeps.deaf h.deaf⟩
    rcases b.ledger_expire setup call with hl | ⟨id, _, _, _, -, -, -, hl⟩
    · exact (congrArg Ledger.pending hl).trans h.pending
    · refine (congrArg Ledger.pending hl).trans ?_
      -- a deadline takes a request out, and there is none
      change b.pending.filter _ = []
      rw [h.pending]
      rfl
  | dispatch generation =>
    change (b.dispatch generation).Offline
    -- no host is heard any more
    rw [h.deaf.dispatch_eq]
    exact h
  | shutdown => exact offline_shutdown h.deaf.attached
  | drop => exact h.drop
  | report generation event =>
    have hkeeps := keeps_step setup b (a := .report generation event) id
    exact ⟨h.connection, h.pending, hkeeps.deaf h.deaf⟩
  | take generation =>
    have hkeeps := keeps_step setup b (a := .take generation) id
    exact ⟨h.connection, h.pending, hkeeps.deaf h.deaf⟩
  | closeEvents generation =>
    have hkeeps := keeps_step setup b (a := .closeEvents generation) id
    exact ⟨h.connection, h.pending, hkeeps.deaf h.deaf⟩
  | closeRequests generation =>
    have hkeeps := keeps_step setup b (a := .closeRequests generation) id
    exact ⟨h.connection, h.pending, hkeeps.deaf h.deaf⟩
  | elapse ms => exact ⟨h.connection, h.pending, h.deaf⟩

/-! ## Callers that are undecided -/

theorem purpose?_step (hb : b.Offline) (ha : ¬a.Starts) {n : Nat} {purpose : Purpose}
    (h : (b.step setup a).ledger.purpose? n = some purpose) :
    b.ledger.purpose? n = some purpose := by
  by_cases hbegin : ∃ request, a = .begin request
  · obtain ⟨request, rfl⟩ := hbegin
    cases request with
    | init => exact absurd trivial ha
    | restart => exact absurd trivial ha
    | send kind payload =>
      change (b.begin setup (.send kind payload)).ledger.purpose? n = some purpose at h
      rw [begin_send_of_disconnected setup hb.connection] at h
      rcases Ledger.purpose?_append (l := b.ledger) h with hbefore | ⟨-, hnone⟩
      · exact hbefore
      · cases hnone
  · exact purpose?_before (fun request heq => hbegin ⟨request, heq⟩) h

theorem generation_step (ha : ¬a.Starts) : (b.step setup a).generation = b.generation := by
  by_cases hr : Rewires a
  · cases a with
    | begin request =>
      cases request with
      | init => exact absurd trivial ha
      | restart => exact absurd trivial ha
      | send kind payload => exact hr.elim
    | shutdown => exact generation_disconnect b
    | drop => exact (generation_disconnect _).trans (keeps_foldl_abandon _ b).generation
    | _ => exact hr.elim
  · exact (keeps_step setup b hr).generation

theorem Stopped.step (h : Stopped b c) (ha : ¬a.Starts) : Stopped b (c.step setup a) where
  offline := h.offline.step ha
  generation := (generation_step ha).trans h.generation
  undecided n hn := by
    apply h.undecided n
    rw [Undecided, generation_step ha] at hn
    exact purpose?_step h.offline ha hn

theorem stopped_shutdown (h : b.Attached) : Stopped b b.shutdown where
  offline := offline_shutdown h
  generation := generation_disconnect b
  undecided n hn := by
    have hgeneration : b.shutdown.generation = b.generation := generation_disconnect b
    rwa [Undecided, hgeneration, ledger_shutdown, Ledger.purpose?_settleAll] at hn

/-! ## What is shown -/

/-- A caller that is not undecided shows nothing. -/
theorem status_conclude {id : RequestId} {purpose : Purpose} {answer : Answer}
    (h : purpose ≠ .handshake b.generation) :
    (b.conclude id purpose answer).1.status = b.status := by
  cases purpose with
  | answer => rfl
  | handshake generation =>
    unfold conclude
    dsimp only
    rw [if_pos]
    intro heq
    exact h (by rw [heq])

theorem undecided_of_answered {n : Nat} {id : RequestId} {purpose : Purpose} {answer : Answer}
    (hc : b.calls[n]? = some (.answered id purpose answer)) :
    b.Undecided n ↔ purpose = .handshake b.generation := by
  rw [Undecided, Ledger.purpose?_of_getElem? (l := b.ledger) hc]
  exact Option.some_inj

theorem undecided_of_waiting {n : Nat} {id : RequestId} {purpose : Purpose} {deadline : Nat}
    (hc : b.calls[n]? = some (.waiting id purpose deadline)) :
    b.Undecided n ↔ purpose = .handshake b.generation := by
  rw [Undecided, Ledger.purpose?_of_getElem? (l := b.ledger) hc]
  exact Option.some_inj

theorem status_resume {n : Nat} (h : ¬b.Undecided n) : (b.resume n).status = b.status := by
  unfold resume
  split
  · next id purpose answer hc =>
    have hpurpose : purpose ≠ .handshake b.generation := mt (undecided_of_answered hc).2 h
    exact status_conclude hpurpose
  · rfl

theorem status_expire {n : Nat} (h : ¬b.Undecided n) :
    (b.expire setup n).status = b.status := by
  unfold expire
  split
  · next id purpose deadline hc =>
    have hpurpose : purpose ≠ .handshake b.generation := mt (undecided_of_waiting hc).2 h
    split
    · exact status_conclude (b := b.forget id) hpurpose
    · rfl
  · rfl

/-- The status stays with every action but those of callers that are undecided. -/
theorem status_step (hb : b.Offline) (h : b.status = .stopped) (ha : ¬a.Starts)
    (hquiet : ∀ n, a.Wakes n → ¬b.Undecided n) : (b.step setup a).status = .stopped := by
  cases a with
  | begin request =>
    cases request with
    | init => exact absurd trivial ha
    | restart => exact absurd trivial ha
    | send kind payload => exact (status_ask b kind payload).trans h
  | abandon call => exact (status_abandon b call).trans h
  | resume call => exact (status_resume (hquiet call (.inl rfl))).trans h
  | expire call => exact (status_expire (hquiet call (.inr rfl))).trans h
  | dispatch generation =>
    change (b.dispatch generation).status = .stopped
    rw [hb.deaf.dispatch_eq]
    exact h
  | shutdown => exact StatusBoard.status_publish _ _
  | drop => exact (status_drop b).trans h
  | _ => exact h

theorem Stopped.run (h : Stopped b c) {actions : List BridgeAction}
    (ha : ∀ a ∈ actions, ¬a.Starts) : Stopped b (c.run setup actions) :=
  run_induction h fun _ a hmem hd => hd.step (ha a hmem)

theorem Stopped.status_run (h : Stopped b c) (hstatus : c.status = .stopped)
    {actions : List BridgeAction} (ha : ∀ a ∈ actions, ¬a.Starts)
    (hquiet : ∀ n, ∀ a ∈ actions, a.Wakes n → ¬b.Undecided n) :
    (c.run setup actions).status = .stopped := by
  have hboth : Stopped b (c.run setup actions) ∧ (c.run setup actions).status = .stopped := by
    refine run_induction ⟨h, hstatus⟩ fun d a hmem hd => ⟨hd.1.step (ha a hmem), ?_⟩
    apply status_step hd.1.offline hd.2 (ha a hmem)
    intro n hn hundecided
    exact hquiet n a hmem hn (hd.1.undecided n hundecided)
  exact hboth.2

/-! ## The main result -/

/-- What an undecided caller shows when it sees its answer. -/
def verdict : Answer → Status
  | .ok _ => ⟨.ready, "Math engine ready"⟩
  | .error e => ⟨.error, e.message⟩

theorem status_resume_of_answered {n : Nat} {id : RequestId} {answer : Answer}
    (h : b.calls[n]? = some (.answered id (.handshake b.generation) answer)) :
    (b.resume n).status = verdict answer := by
  unfold resume
  rw [h]
  dsimp only [conclude]
  rw [if_neg (not_not.2 rfl)]
  cases answer with
  | ok payload => exact StatusBoard.status_publish _ _
  | error e => exact StatusBoard.status_publish _ _

/-- A bridge that shows idle spawns the next host when it is asked to start one. -/
theorem begin_init_of_idle (h : b.status.phase = .idle) (hcounted : b.Counted)
    (hspawn : setup.refusal (b.generation + 1) = none) :
    (b.step setup (.begin .init)).generation = b.generation + 1 ∧
      (b.step setup (.begin .init)).connection = some (b.generation + 1) := by
  obtain ⟨board, -, hinit⟩ := init_of_idle setup h
  have hstart := startHost_of_spawned (b := { b with board }) hcounted hspawn
  have hkept : ∀ c : Bridge, (b.init setup).1 = c →
      (b.step setup (.begin .init)).generation = c.generation ∧
        (b.step setup (.begin .init)).connection = c.connection := by
    rintro c rfl
    exact ⟨rfl, rfl⟩
  obtain ⟨hgeneration, hconnection⟩ := hkept _ ((congrArg Prod.fst hinit).trans
    (congrArg Prod.fst hstart))
  refine ⟨hgeneration.trans ?_, hconnection⟩
  exact generation_disconnect { b with board, generation := b.generation + 1 }

/-- After a shutdown there is no host and no request waits until a call to start a host begins.
Until then the bridge stays idle, so that such a call spawns a new host, as long as no caller goes
on that has not yet said what became of the last host. A caller that does go on shows its verdict,
which is an error if it was waiting for the handshake when the bridge was shut down. -/
theorem shutdown_lasts (setup : BridgeSetup) (before after : List BridgeAction)
    (hafter : ∀ a ∈ after, ¬a.Starts) :
    let b := initial.run setup before
    let stopped := b.step setup .shutdown
    let later := stopped.run setup after
    (later.connection = none ∧ later.pending = []) ∧
      ((∀ n, ∀ a ∈ after, a.Wakes n → ¬b.Undecided n) →
        later.status = .stopped ∧
          (setup.refusal (b.generation + 1) = none →
            (later.step setup (.begin .init)).generation = b.generation + 1 ∧
              (later.step setup (.begin .init)).connection = some (b.generation + 1))) ∧
      (∀ (n : Nat) (id : RequestId) (answer : Answer),
        later.calls[n]? = some (.answered id (.handshake b.generation) answer) →
          (later.step setup (.resume n)).status = verdict answer) ∧
      ∀ (n : Nat) (id : RequestId) (deadline : Nat),
        b.calls[n]? = some (.waiting id (.handshake b.generation) deadline) →
          (∃ p ∈ b.pending, p.id = id) →
            stopped.calls[n]? =
              some (.answered id (.handshake b.generation) (.error (.cancelled id))) := by
  intro b stopped later
  have hattached : b.Attached := attached_run before fun h hh => by cases hh
  have hstopped : Stopped b stopped := stopped_shutdown hattached
  have hlater : Stopped b later := hstopped.run hafter
  refine ⟨⟨hlater.offline.connection, hlater.offline.pending⟩, ?_, ?_, ?_⟩
  · intro hquiet
    -- only an undecided caller could show another status
    have hstatus : later.status = .stopped :=
      hstopped.status_run (StatusBoard.status_publish _ _) hafter hquiet
    refine ⟨hstatus, fun hspawn => ?_⟩
    have hcounted : later.Counted := by
      have hrun : (initial.run setup (before ++ .shutdown :: after)).Counted := counted_run _
      rwa [run, List.foldl_append] at hrun
    rw [← hlater.generation] at hspawn ⊢
    exact begin_init_of_idle (congrArg Status.phase hstatus) hcounted hspawn
  · intro n id answer hcall
    rw [← hlater.generation] at hcall
    exact status_resume_of_answered hcall
  · intro n id deadline hcall hmem
    exact answered_shutdown hcall hmem

/-- A host that started, and a request that it has not answered. -/
def sampleBusy : List BridgeAction :=
  [.begin .init, .report 1 (.frame (HostMessage.result ⟨"r"⟩ .null).toJson), .dispatch 1,
    .resume 0, .begin (.send .calculate .null)]

/-- The request is cancelled, later ones are refused, and the next host can be started. -/
theorem shutdown_lasts_sample :
    let b := initial.run sampleSetup sampleBusy
    let later := (b.step sampleSetup .shutdown).run sampleSetup
      [.resume 1, .begin (.send .calculate .null), .elapse 30000, .expire 1]
    later.pending = [] ∧ later.status = .stopped ∧
      later.calls[1]? = some (.finished (.error (.cancelled ⟨"rr"⟩))) ∧
      (later.step sampleSetup (.begin .init)).connection = some 2 := by
  have hafter : ∀ a ∈ [BridgeAction.resume 1, .begin (.send .calculate .null), .elapse 30000,
      .expire 1], ¬a.Starts := by
    simp [BridgeAction.Starts]
  obtain ⟨⟨-, hpending⟩, hlasts, -, -⟩ := shutdown_lasts sampleSetup sampleBusy _ hafter
  -- the only caller that goes on wants the answer to its request
  have hquiet : ∀ n, ∀ a ∈ [BridgeAction.resume 1, .begin (.send .calculate .null), .elapse 30000,
      .expire 1], a.Wakes n → ¬(initial.run sampleSetup sampleBusy).Undecided n := by
    intro n a ha hwakes
    have hn : n = 1 := by
      rcases hwakes with rfl | rfl <;> simpa using ha
    subst hn
    intro hundecided
    cases hundecided
  obtain ⟨hstatus, hstart⟩ := hlasts hquiet
  exact ⟨hpending, hstatus, rfl, (hstart rfl).2⟩

/-- The bridge is shut down while the host has not answered the handshake. Its caller then shows an
error, and a call to start the host fails without spawning one. -/
theorem handshake_after_shutdown :
    let stopped := initial.run sampleSetup [.begin .init, .shutdown]
    let later := stopped.step sampleSetup (.resume 0)
    stopped.status = .stopped ∧ later.status = ⟨.error, "Request r was cancelled"⟩ ∧
      (later.step sampleSetup (.begin .init)).generation = 1 ∧
      (later.step sampleSetup (.begin .init)).calls[1]? =
        some (.finished (.error (.hostInit "Request r was cancelled"))) :=
  ⟨rfl, rfl, rfl, rfl⟩

end Bridge

end Chalkboard
