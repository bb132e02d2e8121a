import Chalkboard.Proofs.Bridge.Connection
import Chalkboard.Proofs.Bridge.Correlation

/-!
# After a crash

Once the connected host is known to be gone, the bridge listens to nobody, so no more answers come,
and nothing is left that could start another host but a restart. `Bridge.Down` is that state, and
`Bridge.Down.run` says how long it lasts. The one thing that ends it early is a caller that has the
good answer to the handshake and has not seen it yet when the crash is noticed.
-/

namespace Chalkboard

/-- The action replaces or stops the host. -/
def BridgeAction.Resets : BridgeAction → Prop
  | .begin .restart | .shutdown => True
  | _ => False

namespace Bridge

variable {setup : BridgeSetup} {b c : Bridge}

theorem phase_publish (b : Bridge) (phase : Phase) (message : String) :
    (b.publish phase message).status.phase = phase :=
  congrArg Status.phase (StatusBoard.status_publish _ _)

/-! ## The end of a host -/

/-- The next dispatch for a host notices that the host is gone: it crashed, or will not report any
more. -/
def NoticesEnd (b : Bridge) (generation : Nat) : Prop :=
  ∃ h, b.host? generation = some h ∧ h.listening = true ∧
    ((∃ reason events, h.events = .crashed reason :: events) ∨
      h.events = [] ∧ h.reporting = false)

/-- A caller has the good answer to the handshake of the last host and has not seen it yet. -/
def Greeted (b : Bridge) (call : Nat) : Prop :=
  ∃ id payload, b.calls[call]? = some (.answered id (.handshake b.generation) (.ok payload))

/-- `c` came after the end of the host of `b`: it shows an error, listens to nobody, and has no
callers with a good handshake but those of `b`. -/
structure Down (b c : Bridge) : Prop where
  phase : c.status.phase = .error
  deaf : c.Deaf
  generation : c.generation = b.generation
  greeted : ∀ n, c.Greeted n → b.Greeted n

/-- Noticing the end of its host brings a bridge down. -/
theorem NoticesEnd.down {generation : Nat} (h : b.NoticesEnd generation) (hb : b.Attached) :
    Down b (b.dispatch generation) := by
  obtain ⟨host, hhost, hl, hend⟩ := h
  have hconnected : b.connection = some generation := by
    rw [hb host (List.mem_of_find?_eq_some hhost) hl]
    simpa using List.find?_some hhost
  unfold dispatch
  rw [hhost]
  dsimp only
  rw [if_pos hl]
  rcases hend with ⟨reason, events, hevents⟩ | ⟨hevents, hreporting⟩
  · rw [hevents]
    dsimp only [route]
    have htake := keeps_updateHost b generation (f := fun h => { h with events := events })
      fun h => ⟨rfl, id⟩
    have hdeaf := (htake.attached hb).deaf_updateHost (htake.connection.trans hconnected)
      (f := fun h => { h with listening := false }) fun _ => rfl
    exact ⟨phase_publish _ _ _, hdeaf, rfl, fun _ h => h⟩
  · rw [hevents]
    dsimp only
    rw [if_neg (by simp [hreporting])]
    have hdeaf := hb.deaf_updateHost hconnected (f := fun h => { h with listening := false })
      fun _ => rfl
    exact ⟨phase_publish _ _ _, hdeaf, rfl, fun _ h => h⟩

/-- Noticing it tells no caller anything. -/
theorem NoticesEnd.ledger_eq {generation : Nat} (h : b.NoticesEnd generation) :
    (b.dispatch generation).ledger = b.ledger := by
  obtain ⟨host, hhost, hl, hend⟩ := h
  have hrouted : b.routed? generation = none := by
    unfold routed?
    rw [hhost]
    dsimp only
    rcases hend with ⟨reason, events, hevents⟩ | ⟨hevents, -⟩
    · rw [hl, hevents]
    · rw [hl, hevents]
  rw [ledger_dispatch, hrouted]
  rfl

/-! ## What a bridge without a host does -/

/-- What a call to start the host is told after the host failed. -/
def failure (b : Bridge) : BridgeError :=
  if b.reachedReady then .hostCrashed b.status.message else .hostInit b.status.message

/-- While an error is shown, starting the host fails and changes nothing. -/
theorem begin_init_of_error (h : b.status.phase = .error) :
    b.begin setup .init = { b with calls := b.calls ++ [.finished (.error b.failure)] } := by
  have hloading : b.board.beginLoading "Starting computation host" = none := by
    have hphase : b.board.status.phase = .error := h
    simp [StatusBoard.beginLoading, hphase]
  unfold begin init failure
  dsimp only
  rw [hloading]
  dsimp only
  rw [if_pos h]
  split <;> rfl

theorem Deaf.host (h : b.Deaf) {generation : Nat} {host : HostLink}
    (hhost : b.host? generation = some host) : host.listening = false :=
  h host (List.mem_of_find?_eq_some hhost)

/-- A bridge that listens to nobody dispatches nothing. -/
theorem Deaf.dispatch_eq (h : b.Deaf) (generation : Nat) : b.dispatch generation = b := by
  unfold dispatch
  split
  · rfl
  · next host hhost =>
    rw [h.host hhost]
    rfl

theorem Deaf.routed?_eq_none (h : b.Deaf) (generation : Nat) : b.routed? generation = none := by
  unfold routed?
  split
  · rfl
  · next host hhost => simp [h.host hhost]

/-- An error stays while a caller goes on, unless it has the good answer to a handshake. -/
theorem phase_conclude (h : b.status.phase = .error) {id : RequestId} {purpose : Purpose}
    {answer : Answer}
    (hbad : ∀ payload, purpose = .handshake b.generation → answer ≠ .ok payload) :
    (b.conclude id purpose answer).1.status.phase = .error := by
  cases purpose with
  | answer => exact h
  | handshake generation =>
    unfold conclude
    dsimp only
    split
    · exact h
    · next hlast =>
      have hlast : b.generation = generation := not_not.1 hlast
      cases answer with
      | ok payload => exact absurd rfl (hbad payload (by rw [hlast]))
      | error e => exact phase_publish _ _ _

theorem status_post {request : HostRequest} (h : b.post request = .ok c) : c.status = b.status := by
  unfold post at h
  split at h
  · cases h
  · split at h
    · cases h
      rfl
    · cases h

theorem status_ask (b : Bridge) (kind : RequestKind) (payload : Json) :
    (b.ask setup .answer kind payload).1.status = b.status := by
  unfold ask
  dsimp only
  split
  · next c hc => exact (status_post hc).trans rfl
  · rfl

theorem status_resolve (b : Bridge) (generation : Nat) (id : RequestId) (answer : Answer) :
    (b.resolve generation id answer).status = b.status := by
  unfold resolve
  split <;> rfl

theorem status_abandon (b : Bridge) (call : Nat) : (b.abandon call).status = b.status := by
  unfold abandon
  split <;> rfl

theorem status_disconnect (b : Bridge) : b.disconnect.status = b.status := by
  unfold disconnect
  split <;> rfl

theorem status_drop (b : Bridge) : b.drop.status = b.status := by
  have hfold := List.foldlRecOn (motive := fun c => c.status = b.status)
    (List.range b.calls.length) abandon rfl fun c hc call _ => (status_abandon c call).trans hc
  exact (status_disconnect _).trans hfold

/-- The phase stays with every action that does not bring a good handshake to a caller. -/
theorem phase_step (h : b.status.phase = .error) (hdeaf : b.Deaf) {a : BridgeAction}
    (ha : ¬a.Resets) (hgood : ∀ n, a = .resume n → ¬b.Greeted n) :
    (b.step setup a).status.phase = .error := by
  cases a with
  | begin request =>
    cases request with
    | init =>
      change (b.begin setup .init).status.phase = .error
      rw [begin_init_of_error h]
      exact h
    | restart => exact absurd trivial ha
    | send kind payload => exact (congrArg Status.phase (status_ask b kind payload)).trans h
  | abandon call => exact (congrArg Status.phase (status_abandon b call)).trans h
  | resume call =>
    change (b.resume call).status.phase = .error
    unfold resume
    split
    · next id purpose answer hcall =>
      -- only a good handshake takes an error back, and the caller has none
      refine phase_conclude h fun payload hp ha => hgood call rfl ⟨id, payload, ?_⟩
      rw [hcall, hp, ha]
    · exact h
  | expire call =>
    change (b.expire setup call).status.phase = .error
    unfold expire
    split
    · next id purpose _ _ =>
      split
      -- a deadline that has passed is no good handshake
      · exact phase_conclude (b := b.forget id) h fun _ _ he => by cases he
      · exact h
    · exact h
  | dispatch generation =>
    change (b.dispatch generation).status.phase = .error
    rw [hdeaf.dispatch_eq]
    exact h
  | shutdown => exact absurd trivial ha
  | drop => exact (congrArg Status.phase (status_drop b)).trans h
  | _ => exact h

/-- Who has an answer after a call went on had it before. -/
theorem answered_of_set {calls : List Call} {call n : Nat} {e c : Call} (he : e.id? = none)
    {id : RequestId} (hc : c.id? = some id) (h : (calls.set call e)[n]? = some c) :
    calls[n]? = some c := by
  rw [List.getElem?_set] at h
  split at h
  · split at h
    · cases h
      rw [he] at hc
      cases hc
    · cases h
  · exact h

theorem answered_of_abandon {call n : Nat} {id : RequestId} {purpose : Purpose} {answer : Answer}
    (h : (b.abandon call).ledger.calls[n]? = some (.answered id purpose answer)) :
    b.ledger.calls[n]? = some (.answered id purpose answer) := by
  rcases b.ledger_abandon call with hl | ⟨_, _, _, _, hl⟩ | ⟨_, _, _, _, hl⟩
  · rwa [hl] at h
  · rw [hl] at h
    exact answered_of_set rfl rfl h
  · rw [hl] at h
    exact answered_of_set rfl rfl h

/-- While nobody is listened to, no call gets an answer. -/
theorem answered_before (hdeaf : b.Deaf) {a : BridgeAction} (ha : ¬a.Resets) {n : Nat}
    {id : RequestId} {purpose : Purpose} {answer : Answer}
    (h : (b.step setup a).ledger.calls[n]? = some (.answered id purpose answer)) :
    b.ledger.calls[n]? = some (.answered id purpose answer) := by
  have hmoves := b.step_moves setup a
  generalize (b.step setup a).ledger = l' at hmoves h
  cases hmoves with
  | rests => exact h
  | @opens request l call hopens =>
    have hcalls : l.calls = b.ledger.calls := by
      rw [hopens.calls]
      cases request with
      | init => rfl
      | restart => exact absurd trivial ha
      | send kind payload => rfl
    rw [Ledger.append, hcalls, List.getElem?_append] at h
    split at h
    · exact h
    · -- a new call waits or is over
      rw [List.getElem?_singleton] at h
      split at h
      · cases hopens <;> cases h
      · cases h
  | settles hrouted =>
    rw [hdeaf.routed?_eq_none] at hrouted
    cases hrouted
  | cancels => exact absurd trivial ha
  | returns => exact answered_of_set rfl rfl h
  | expires => exact answered_of_set rfl rfl h
  | leaves call => exact answered_of_abandon h
  | drops =>
    exact ledger_drop_induction
      (motive := fun l => l.calls[n]? = some (.answered id purpose answer) →
        b.ledger.calls[n]? = some (.answered id purpose answer))
      (fun h => h) (fun _ _ ih h => ih (answered_of_abandon h)) h

/-! ## The main result -/

/-- Nobody but a caller with a good handshake brings a bridge up again. -/
theorem Down.step (h : Down b c) {a : BridgeAction} (ha : ¬a.Resets)
    (hgood : ∀ n, a = .resume n → ¬b.Greeted n) : Down b (c.step setup a) := by
  have hphase : (c.step setup a).status.phase = .error :=
    phase_step h.phase h.deaf ha fun n hn hg => hgood n hn (h.greeted n hg)
  have hkept : (c.step setup a).Deaf ∧ (c.step setup a).generation = c.generation := by
    by_cases hr : Rewires a
    · cases a with
      | begin request =>
        cases request with
        | init =>
          change (c.begin setup .init).Deaf ∧ (c.begin setup .init).generation = _
          rw [begin_init_of_error h.phase]
          exact ⟨h.deaf, rfl⟩
        | restart => exact absurd trivial ha
        | send kind payload => exact hr.elim
      | shutdown => exact absurd trivial ha
      | drop =>
        exact ⟨h.deaf.attached.deaf_drop,
          (generation_disconnect _).trans (keeps_foldl_abandon _ c).generation⟩
      | _ => exact hr.elim
    · have hkeeps := keeps_step setup c hr
      exact ⟨hkeeps.deaf h.deaf, hkeeps.generation⟩
  refine ⟨hphase, hkept.1, hkept.2.trans h.generation, fun n hn => ?_⟩
  obtain ⟨id, payload, hcall⟩ := hn
  rw [hkept.2] at hcall
  exact h.greeted n ⟨id, payload, answered_before h.deaf ha hcall⟩

theorem Down.run (h : Down b c) {actions : List BridgeAction} (ha : ∀ a ∈ actions, ¬a.Resets)
    (hgood : ∀ n, .resume n ∈ actions → ¬b.Greeted n) : Down b (c.run setup actions) := by
  refine run_induction h fun d a hmem hd => hd.step (ha a hmem) ?_
  rintro n rfl
  exact hgood n hmem

/-- A caller with a good handshake shows that the host is ready, whatever was shown before. -/
theorem status_resume_of_greeted {n : Nat} (h : b.Greeted n) :
    (b.resume n).status = ⟨.ready, "Math engine ready"⟩ := by
  obtain ⟨id, payload, hcall⟩ := h
  unfold resume
  rw [hcall]
  dsimp only [conclude]
  rw [if_neg (not_not.2 rfl)]
  exact StatusBoard.status_publish _ _

/-- Once the end of the last host was noticed, the bridge shows an error until it is restarted or
stopped, and a call to start the host fails without spawning one, as long as no caller sees a good
handshake that was there before. A caller that does see one puts an end to the error. -/
theorem crash_lasts (setup : BridgeSetup) (before after : List BridgeAction)
    (hend : (initial.run setup before).NoticesEnd (initial.run setup before).generation)
    (hafter : ∀ a ∈ after, ¬a.Resets) :
    let b := initial.run setup before
    let gone := b.step setup (.dispatch b.generation)
    let later := gone.run setup after
    gone.status.phase = .error ∧
      ((∀ n, .resume n ∈ after → ¬b.Greeted n) →
        later.status.phase = .error ∧ later.generation = b.generation ∧
          later.step setup (.begin .init) =
            { later with calls := later.calls ++ [.finished (.error later.failure)] }) ∧
      ∀ n, b.Greeted n → (gone.step setup (.resume n)).status = ⟨.ready, "Math engine ready"⟩ := by
  intro b gone later
  have hattached : b.Attached := attached_run before fun h hh => by cases hh
  have hdown : Down b gone := hend.down hattached
  refine ⟨hdown.phase, fun hgood => ?_, ?_⟩
  · have hlater : Down b later := hdown.run hafter hgood
    exact ⟨hlater.phase, hlater.generation, begin_init_of_error hlater.phase⟩
  · rintro n ⟨id, payload, hcall⟩
    apply status_resume_of_greeted
    refine ⟨id, payload, ?_⟩
    rw [hdown.generation, ← hcall]
    exact congrArg (fun l => l.calls[n]?) hend.ledger_eq

/-- A host that starts, gets a request and crashes. -/
def sampleCrash : List BridgeAction :=
  [.begin .init, .report 1 (.frame (HostMessage.result ⟨"r"⟩ .null).toJson), .dispatch 1,
    .resume 0, .begin (.send .calculate .null), .report 1 (.crashed "out of memory")]

/-- After the crash of a host that was ready, a request runs into its deadline and calls to start the
host fail, and each tells of the crash. -/
theorem crash_lasts_sample :
    let b := initial.run sampleSetup sampleCrash
    let later := (b.step sampleSetup (.dispatch 1)).run sampleSetup
      [.elapse 30000, .expire 1, .begin .init]
    b.NoticesEnd 1 ∧ later.status.phase = .error ∧
      later.step sampleSetup (.begin .init) =
        { later with calls := later.calls ++ [.finished (.error later.failure)] } ∧
      later.failure = .hostCrashed "out of memory" := by
  have hend : (initial.run sampleSetup sampleCrash).NoticesEnd 1 :=
    ⟨_, rfl, rfl, .inl ⟨"out of memory", [], rfl⟩⟩
  have hafter : ∀ a ∈ [BridgeAction.elapse 30000, .expire 1, .begin .init], ¬a.Resets := by
    simp [BridgeAction.Resets]
  obtain ⟨-, hlasts, -⟩ := crash_lasts sampleSetup sampleCrash _ hend hafter
  obtain ⟨hphase, -, hinit⟩ := hlasts (by simp)
  exact ⟨hend, hphase, hinit, rfl⟩

/-- The host answers the handshake and crashes before its caller goes on. -/
def sampleOvertaken : List BridgeAction :=
  [.begin .init, .report 1 (.frame (HostMessage.result ⟨"r"⟩ .null).toJson),
    .report 1 (.crashed "out of memory"), .dispatch 1]

/-- Then the caller calls the dead host ready, and a call to start the host succeeds. -/
theorem handshake_after_crash :
    let b := initial.run sampleSetup sampleOvertaken
    let gone := b.step sampleSetup (.dispatch 1)
    b.NoticesEnd b.generation ∧ gone.status = ⟨.error, "out of memory"⟩ ∧
      (gone.step sampleSetup (.resume 0)).status = ⟨.ready, "Math engine ready"⟩ ∧
      (gone.run sampleSetup [.resume 0, .begin .init]).calls[1]? = some (.finished (.ok .null)) :=
  ⟨⟨_, rfl, rfl, .inl ⟨"out of memory", [], rfl⟩⟩, rfl, rfl, rfl⟩

end Bridge

end Chalkboard
