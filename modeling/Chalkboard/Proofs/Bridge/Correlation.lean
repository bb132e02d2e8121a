import Chalkboard.Proofs.Bridge.Life

/-!
# Answers find their calls

`Bridge.correlated_send` says what the outcome of a send tells about the run: a result or a
rejection is the first message for the request from the host that it was posted to, an error is
about the request itself, and a timeout means that nothing else had reached the request before.
-/

namespace Chalkboard

namespace Bridge

variable {setup : BridgeSetup}

/-! ## Sends -/

section Send

variable (setup) (b : Bridge) (kind : RequestKind) (payload : Json)

/-- The request that the next send to a host will be. -/
def sending (generation : Nat) : Sending where
  call := b.calls.length
  id := setup.requestId (b.issued + 1)
  kind := kind
  generation := generation
  deadline := b.now + setup.settings.timeoutMs.toNat

variable {setup b kind payload}

/-- A send waits for its request if there is a host that takes it. -/
theorem begin_send_cases (hinj : Function.Injective setup.requestId)
    (hb : b.ledger.Known setup) :
    (∃ g, b.connection = some g ∧
      (b.step setup (.begin (.send kind payload))).ledger.Open setup (sending setup b kind g)) ∨
    ∃ m, (b.step setup (.begin (.send kind payload))).ledger.calls[b.calls.length]? =
      some (.finished (.error (.hostUnavailable m))) := by
  rcases post_cases { b with issued := b.issued + 1 }
    ⟨kind, setup.requestId (b.issued + 1), payload⟩ with ⟨g, b', hg, hok, hnow, hl⟩ | ⟨m, herr⟩
  · left
    refine ⟨g, hg, ?_⟩
    have hstep : (b.step setup (.begin (.send kind payload))).ledger =
        b'.ledger.append (.waiting (setup.requestId (b.issued + 1)) .answer
          (b.now + setup.settings.timeoutMs.toNat)) := by
      rw [← show b'.now = b.now from hnow]
      simp only [step, begin, ask, hok]
      rfl
    rw [hstep, hl]
    exact hb.open_asked hinj kind g _
  · right
    refine ⟨m, ?_⟩
    simp only [step, begin, ask, herr, conclude, ledger]
    simp

end Send

/-! ## What an outcome tells -/

section Outcome

variable (setup) (b : Bridge) (s : Sending) (actions : List BridgeAction)

/-- In the run the host of the request's generation had a message for the request, which was
pending, and it was the first. -/
def FirstFrame (m : HostMessage) : Prop :=
  ∃ before rest, actions = before ++ .dispatch s.generation :: rest ∧
    (b.run setup before).routed? s.generation = some m ∧
    s.entry ∈ (b.run setup before).pending ∧
    ∀ earlier later, before = earlier ++ .dispatch s.generation :: later →
      ∀ m', (b.run setup earlier).routed? s.generation = some m' → m'.id? ≠ some s.id

/-- In the run the deadline was found to have passed, and until then neither the host had a message
for the request, nor did a restart reject it or the bridge stop. -/
def DeadlinePassed : Prop :=
  ∃ before rest, actions = before ++ .expire s.call :: rest ∧
    s.deadline ≤ (b.run setup before).now ∧
    ∀ earlier a later, before = earlier ++ a :: later →
      a ≠ .shutdown ∧ (a = .begin .restart → setup.settings.rejectOnRestart = false) ∧
      (a = .dispatch s.generation → ∀ m', (b.run setup earlier).routed? s.generation = some m' →
        m'.id? ≠ some s.id)

/-- What the outcome of a request tells about the run since it was posted. -/
structure Correlated (outcome : Answer) : Prop where
  result : ∀ payload, outcome = .ok payload →
    FirstFrame setup b s actions (.result s.id payload)
  rejected : ∀ id message, outcome = .error (.hostRejected id message) →
    FirstFrame setup b s actions (.error s.id message)
  own : ∀ e id, outcome = .error e → e.id? = some id → id = s.id
  timeout : ∀ id ms, outcome = .error (.timeout id ms) → DeadlinePassed setup b s actions

variable {setup b s actions}

/-- A message for the request is an answer for it. -/
theorem answerFor?_dispatch {m : HostMessage}
    (hm : b.routed? s.generation = some m) (hid : m.id? = some s.id) :
    answerFor? setup b s (.dispatch s.generation) ≠ none := by
  cases m with
  | status status => cases hid
  | result id payload =>
    have hid : id = s.id := Option.some.inj hid
    simp [answerFor?, hm, HostMessage.answer?, hid]
  | error id message =>
    have hid : id = s.id := Option.some.inj hid
    simp [answerFor?, hm, HostMessage.answer?, hid]

/-- Until something answers the request, no message for it is routed. -/
theorem Unanswered.noFrame (h : Unanswered setup b s actions) {earlier later : List BridgeAction}
    (heq : actions = earlier ++ .dispatch s.generation :: later) {m : HostMessage}
    (hm : (b.run setup earlier).routed? s.generation = some m) : m.id? ≠ some s.id :=
  fun hid => answerFor?_dispatch hm hid (h earlier _ later heq)

/-- Messages with the same answer are the same. -/
theorem answer?_inj {m m' : HostMessage} {x : RequestId × Answer} (hm : m.answer? = some x)
    (hm' : m'.answer? = some x) : m = m' := by
  cases m <;> cases hm <;> cases m' <;> cases hm' <;> rfl

/-- An answer that is no restart's and no shutdown's is the message of a host. -/
theorem FirstAnswer.firstFrame {answer : Answer} {m : HostMessage}
    (h : FirstAnswer setup b s actions answer) (hm : m.answer? = some (s.id, answer))
    (hrestart : answer ≠ .error (.hostRestarted s.id))
    (hcancel : answer ≠ .error (.cancelled s.id)) : FirstFrame setup b s actions m := by
  rcases h with ⟨before, a, rest, rfl, hnone, hopen, ha⟩
  rcases answerFor?_cases ha with ⟨m', rfl, hm', hanswer⟩ | ⟨-, -, heq⟩ | ⟨-, heq⟩
  · cases answer?_inj hm hanswer
    exact ⟨before, rest, rfl, hm', hopen.mem_pending, fun earlier later heq m' hm' =>
      hnone.noFrame heq hm'⟩
  · exact absurd heq hrestart
  · exact absurd heq hcancel

/-- Every answer for a request is about the request. -/
theorem FirstAnswer.own {e : BridgeError} (h : FirstAnswer setup b s actions (.error e))
    {id : RequestId} (he : e.id? = some id) : id = s.id := by
  rcases h with ⟨before, a, rest, -, -, -, ha⟩
  rcases answerFor?_cases ha with ⟨m, -, -, hanswer⟩ | ⟨-, -, heq⟩ | ⟨-, heq⟩
  · cases m <;> cases hanswer
    exact (Option.some.inj he).symm
  · cases heq
    exact (Option.some.inj he).symm
  · cases heq
    exact (Option.some.inj he).symm

/-- No answer to a request is a timeout. -/
theorem FirstAnswer.not_timeout {id : RequestId} {ms : UInt64}
    (h : FirstAnswer setup b s actions (.error (.timeout id ms))) : False := by
  rcases h with ⟨before, a, rest, -, -, -, ha⟩
  rcases answerFor?_cases ha with ⟨m, -, -, hanswer⟩ | ⟨-, -, heq⟩ | ⟨-, heq⟩
  · cases m <;> cases hanswer
  · cases heq
  · cases heq

theorem TimedOut.deadlinePassed (h : TimedOut setup b s actions) :
    DeadlinePassed setup b s actions := by
  rcases h with ⟨before, rest, rfl, hnone, hdue⟩
  refine ⟨before, rest, rfl, hdue, fun earlier a later heq => ⟨?_, ?_, ?_⟩⟩
  · rintro rfl
    exact absurd (hnone earlier _ later heq) (by simp [answerFor?])
  · rintro rfl
    have ha := hnone earlier _ later heq
    simpa [answerFor?] using ha
  · rintro rfl m' hm'
    exact hnone.noFrame heq hm'

/-- The outcome of a request tells what its life was. -/
theorem Life.correlated (h : Life setup b s actions) {outcome : Answer}
    (ho : (b.run setup actions).calls[s.call]? = some (.finished outcome)) :
    Correlated setup b s actions outcome := by
  have hcall : ∀ {c}, (b.run setup actions).ledger.calls[s.call]? = some c →
      c = .finished outcome := fun hc => Option.some.inj (hc.symm.trans ho)
  cases h with
  | waiting h hnone => cases hcall h.call
  | answered answer ha h => cases hcall h
  | abandoned h => cases hcall h
  | returned answer ha h =>
    cases hcall h
    exact
      { result := by
          rintro payload rfl
          exact ha.firstFrame (m := .result s.id payload) rfl (by simp) (by simp)
        rejected := by
          rintro id message rfl
          cases ha.own rfl
          exact ha.firstFrame (m := .error s.id message) rfl (by simp) (by simp)
        own := by
          rintro e id rfl hid
          exact ha.own hid
        timeout := by
          rintro id ms rfl
          exact ha.not_timeout.elim }
  | timedOut ht h =>
    cases hcall h
    exact
      { result := fun payload heq => by cases heq
        rejected := fun id message heq => by cases heq
        own := fun e id heq hid => by
          cases heq
          exact (Option.some.inj hid).symm
        timeout := fun _ _ _ => ht.deadlinePassed }

end Outcome

/-! ## The main result -/

/-- The action answers, times out or gives up at most one request. -/
def SettlesOne : BridgeAction → Prop
  | .dispatch _ | .resume _ | .expire _ | .abandon _ => True
  | _ => False

theorem apart_step {a : BridgeAction} (ha : SettlesOne a) (b : Bridge) :
    ∃ id, Ledger.Apart id b.ledger (b.step setup a).ledger := by
  have hmoves := b.step_moves setup a
  generalize (b.step setup a).ledger = l' at hmoves ⊢
  cases hmoves with
  | rests => exact ⟨setup.requestId 0, Ledger.apart_refl _ _⟩
  | @settles generation id answer hrouted hwaits => exact ⟨id, Ledger.apart_settle _ id answer⟩
  | @returns call id purpose answer answer' hcall hanswer =>
    exact ⟨id, Ledger.apart_record hcall rfl _⟩
  | @expires call id purpose d answer hcall hdue hanswer =>
    exact ⟨id, Ledger.apart_close hcall rfl _⟩
  | leaves call =>
    rcases b.ledger_abandon call with
      h | ⟨id, purpose, d, hcall, h⟩ | ⟨id, purpose, answer, hcall, h⟩
    · rw [h]
      exact ⟨setup.requestId 0, Ledger.apart_refl _ _⟩
    · rw [h]
      exact ⟨id, Ledger.apart_close hcall rfl _⟩
    · rw [h]
      exact ⟨id, Ledger.apart_record hcall rfl _⟩
  | opens => exact ha.elim
  | cancels => exact ha.elim
  | drops => exact ha.elim

/-- A call that is over stays so. -/
theorem finished_run {b : Bridge} {n : Nat} {answer : Answer}
    (h : b.ledger.calls[n]? = some (.finished answer)) (actions : List BridgeAction) :
    (b.run setup actions).ledger.calls[n]? = some (.finished answer) :=
  run_induction h fun _ a _ hc => over_step hc rfl a

/-- In every run in which ids are distinct, a send either finds no host, or its outcome tells of the
run since then what `Correlated` says. And no action that settles one request touches any other. -/
theorem correlated_send (setup : BridgeSetup) (hinj : Function.Injective setup.requestId) :
    (∀ (before after : List BridgeAction) (kind : RequestKind) (payload : Json) (outcome : Answer),
      let b := initial.run setup before
      let posted := b.step setup (.begin (.send kind payload))
      (posted.run setup after).calls[b.calls.length]? = some (.finished outcome) →
        (posted.calls[b.calls.length]? = some (.finished outcome) ∧
          ∃ m, outcome = .error (.hostUnavailable m)) ∨
        ∃ g, b.connection = some g ∧
          Correlated setup posted (sending setup b kind g) after outcome) ∧
    ∀ (b : Bridge) (a : BridgeAction), SettlesOne a →
      ∃ id, Ledger.Apart id b.ledger (b.step setup a).ledger := by
  refine ⟨?_, fun b a ha => apart_step ha b⟩
  intro before after kind payload outcome b posted ho
  rcases begin_send_cases hinj (known_run before) with ⟨g, hg, hopen⟩ | ⟨m, hm⟩
  · exact .inr ⟨g, hg, (life_run hinj hopen after).correlated ho⟩
  · have hfinished : (posted.run setup after).ledger.calls[b.calls.length]? =
        some (.finished (.error (.hostUnavailable m))) := finished_run hm after
    cases Option.some.inj (ho.symm.trans hfinished)
    exact .inl ⟨hm, m, rfl⟩

/-- A setup with distinct ids whose hosts all start. -/
def sampleSetup : BridgeSetup where
  settings := .standard
  requestId k := ⟨String.ofList (List.replicate k 'r')⟩
  refusal _ := none

theorem injective_sampleSetup : Function.Injective sampleSetup.requestId := by
  intro k k' h
  have hlist : List.replicate k 'r' = List.replicate k' 'r' :=
    String.ofList_injective (congrArg RequestId.text h)
  simpa using congrArg List.length hlist

/-- The host answers the first request after the handshake, and then once more. -/
def sampleAnswers : List BridgeAction :=
  let result (payload : Json) : HostEvent := .frame (HostMessage.result ⟨"rr"⟩ payload).toJson
  [.report 1 (result (.bool true)), .report 1 (result (.bool false)), .dispatch 1, .dispatch 1,
    .resume 1]

/-- A result that comes twice counts once. -/
theorem correlated_send_sample :
    let b := initial.run sampleSetup [.begin .init]
    let posted := b.step sampleSetup (.begin (.send .calculate .null))
    Function.Injective sampleSetup.requestId ∧
      (posted.run sampleSetup sampleAnswers).calls[1]? = some (.finished (.ok (.bool true))) ∧
      FirstFrame sampleSetup posted (sending sampleSetup b .calculate 1) sampleAnswers
        (.result ⟨"rr"⟩ (.bool true)) ∧
      ∃ id, Ledger.Apart id posted.ledger (posted.step sampleSetup (.dispatch 1)).ledger := by
  refine ⟨injective_sampleSetup, rfl, ?_,
    (correlated_send sampleSetup injective_sampleSetup).2 _ (.dispatch 1) trivial⟩
  rcases (correlated_send sampleSetup injective_sampleSetup).1 [.begin .init] sampleAnswers
    .calculate .null (.ok (.bool true)) rfl with ⟨-, m, hm⟩ | ⟨g, hg, h⟩
  · cases hm
  · cases (Option.some.inj hg : 1 = g)
    exact h.result (.bool true) rfl

end Bridge

end Chalkboard
