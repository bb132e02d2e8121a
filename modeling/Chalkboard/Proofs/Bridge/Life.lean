import Mathlib.Data.List.Induction
import Chalkboard.Proofs.Bridge.Connection
import Chalkboard.Proofs.Bridge.Pairing

/-!
# The life of a request

A request that was sent waits until one of few things happens: the host that it was posted to
answers it, a restart or the end of the bridge answers all requests, its deadline is found to have
passed, or its caller gives up. Each lemma says what one action does to a call in one of these
states; `Bridge.life_run` follows a request through a run of any actions.
-/

namespace Chalkboard

namespace Bridge

variable {setup : BridgeSetup}

/-! ## Used ids -/

/-- What abandoning one call keeps, the end of the bridge keeps. -/
theorem ledger_drop_induction {motive : Ledger → Prop} {b : Bridge} (hb : motive b.ledger)
    (hstep : ∀ b call, motive (ledger b) → motive (abandon b call).ledger) :
    motive b.drop.ledger := by
  rw [drop, ledger_disconnect]
  exact List.foldlRecOn (motive := fun c => motive (ledger c)) (List.range b.calls.length) abandon hb
    fun c hc call _ => hstep c call hc

theorem known_abandon {b : Bridge} (hb : b.ledger.Known setup) (call : Nat) :
    (b.abandon call).ledger.Known setup := by
  rcases b.ledger_abandon call with h | ⟨id, purpose, deadline, -, h⟩ | ⟨id, purpose, answer, -, h⟩
  · rwa [h]
  · rw [h]
    exact (Ledger.within_close _ call id rfl).known hb
  · rw [h]
    exact (Ledger.within_record _ call rfl).known hb

/-- A restart answers requests, which uses no ids. -/
theorem known_cleared {b : Bridge} (hb : b.ledger.Known setup) (request : CallRequest) :
    (b.cleared setup request).Known setup := by
  unfold cleared
  split
  · split
    · exact (Ledger.within_settleAll _ _).known hb
    · exact hb
  · exact hb
  · exact hb

/-- Every action uses ids in order. -/
theorem known_step {b : Bridge} (hb : b.ledger.Known setup) (a : BridgeAction) :
    (b.step setup a).ledger.Known setup := by
  have hmoves := b.step_moves setup a
  generalize (b.step setup a).ledger = l' at hmoves ⊢
  cases hmoves with
  | rests => exact hb
  | opens h => exact h.known (known_cleared hb _)
  | settles hrouted hwaits => exact (Ledger.within_settle _ _ _).known hb
  | cancels => exact (Ledger.within_settleAll _ _).known hb
  | returns hcall hanswer => exact (Ledger.within_record _ _ rfl).known hb
  | expires hcall hdue hanswer => exact (Ledger.within_close _ _ _ rfl).known hb
  | leaves call => exact known_abandon hb call
  | drops => exact ledger_drop_induction hb fun b call hb => known_abandon hb call

theorem known_run (actions : List BridgeAction) :
    (initial.run setup actions).ledger.Known setup :=
  run_induction ⟨fun p hp => (by cases hp), fun id hid => (by cases hid)⟩
    fun _ a _ hb => known_step hb a

/-! ## What answers a request -/

/-- The answer that an action has for a request that waits for a host. -/
def answerFor? (setup : BridgeSetup) (b : Bridge) (s : Sending) : BridgeAction → Option Answer
  | .dispatch generation =>
    ((b.routed? generation).bind HostMessage.answer?).bind fun (id, answer) =>
      if generation = s.generation ∧ id = s.id then some answer else none
  | .begin .restart =>
    if setup.settings.rejectOnRestart then some (.error (.hostRestarted s.id)) else none
  | .shutdown => some (.error (.cancelled s.id))
  | _ => none

/-- A request is answered by a message of its host, by a restart that rejects it, or by the end of
the bridge. -/
theorem answerFor?_cases {b : Bridge} {s : Sending} {a : BridgeAction} {answer : Answer}
    (h : answerFor? setup b s a = some answer) :
    (∃ m, a = .dispatch s.generation ∧ b.routed? s.generation = some m ∧
      m.answer? = some (s.id, answer)) ∨
    (a = .begin .restart ∧ setup.settings.rejectOnRestart = true ∧
      answer = .error (.hostRestarted s.id)) ∨
    a = .shutdown ∧ answer = .error (.cancelled s.id) := by
  cases a with
  | dispatch generation =>
    left
    rcases Option.bind_eq_some_iff.1 h with ⟨⟨id, answer'⟩, hrouted, hmatch⟩
    rcases Option.bind_eq_some_iff.1 hrouted with ⟨m, hm, hanswer⟩
    dsimp only at hmatch
    split at hmatch
    · next hs =>
      rcases hs with ⟨rfl, rfl⟩
      cases hmatch
      exact ⟨m, rfl, hm, hanswer⟩
    · cases hmatch
  | begin request =>
    right; left
    cases request with
    | init => cases h
    | send kind payload => cases h
    | restart =>
      dsimp only [answerFor?] at h
      split at h
      · next hreject =>
        cases h
        exact ⟨rfl, hreject, rfl⟩
      · cases h
  | shutdown =>
    cases h
    exact .inr (.inr ⟨rfl, rfl⟩)
  | _ => cases h

/-! ## A call that does not wait -/

/-- How a call goes on that does not wait. -/
inductive Continues : Call → Call → Prop
  | stays (c : Call) : Continues c c
  | returns {id : RequestId} {purpose : Purpose} {answer answer' : Answer}
      (h : purpose = .answer → answer' = answer) :
      Continues (.answered id purpose answer) (.finished answer')
  | leaves {id : RequestId} {purpose : Purpose} {answer : Answer} :
      Continues (.answered id purpose answer) .abandoned

theorem Continues.trans {c c' c'' : Call} (h : Continues c c') (h' : Continues c' c'') :
    Continues c c'' := by
  cases h with
  | stays => exact h'
  | returns hanswer =>
    cases h' with
    | stays => exact .returns hanswer
  | leaves =>
    cases h' with
    | stays => exact .leaves

theorem Continues.done {c c' : Call} (h : Continues c c')
    (hdone : ∀ id purpose d, c ≠ .waiting id purpose d) :
    ∀ id purpose d, c' ≠ .waiting id purpose d := by
  cases h with
  | stays => exact hdone
  | returns => exact fun _ _ _ h => by cases h
  | leaves => exact fun _ _ _ h => by cases h

section Done

variable {b : Bridge} {n : Nat} {c : Call}

theorem getElem?_append {calls : List Call} (hc : calls[n]? = some c) (call : Call) :
    (calls ++ [call])[n]? = some c :=
  (List.getElem?_append_left (List.getElem?_eq_some_iff.1 hc).1).trans hc

/-- A call that is over or has its answer changes only by going on itself. -/
theorem done_record {l : Ledger} (hc : l.calls[n]? = some c) {call : Nat} {c₁ c₂ : Call}
    (hcall : l.calls[call]? = some c₁) (hnext : Continues c₁ c₂) :
    ∃ c', Continues c c' ∧ (l.record call c₂).calls[n]? = some c' := by
  by_cases hne : call = n
  · subst hne
    rw [hc, Option.some.injEq] at hcall
    subst hcall
    exact ⟨c₂, hnext, List.getElem?_set_self (List.getElem?_eq_some_iff.1 hc).1⟩
  · refine ⟨c, .stays c, ?_⟩
    rw [Ledger.record, List.getElem?_set_ne hne]
    exact hc

/-- The end of a call that waits does not change it. -/
theorem done_close {l : Ledger} (hc : l.calls[n]? = some c)
    (hdone : ∀ id purpose d, c ≠ .waiting id purpose d) {call : Nat} {id : RequestId}
    {purpose : Purpose} {d : Nat} (hcall : l.calls[call]? = some (.waiting id purpose d))
    (c₂ : Call) : (l.close call id c₂).calls[n]? = some c := by
  have hne : call ≠ n := by
    rintro rfl
    rw [hc, Option.some.injEq] at hcall
    exact hdone _ _ _ hcall
  rw [Ledger.close, List.getElem?_set_ne hne]
  exact hc

theorem done_abandon (hc : b.ledger.calls[n]? = some c)
    (hdone : ∀ id purpose d, c ≠ .waiting id purpose d) (call : Nat) :
    ∃ c', Continues c c' ∧ (b.abandon call).ledger.calls[n]? = some c' := by
  rcases b.ledger_abandon call with h | ⟨id, purpose, d, hcall, h⟩ | ⟨id, purpose, answer, hcall, h⟩
  · exact ⟨c, .stays c, by rwa [h]⟩
  · exact ⟨c, .stays c, by rw [h]; exact done_close hc hdone hcall _⟩
  · rw [h]
    exact done_record hc hcall .leaves

/-- What the bridge does to all requests at once does not change it. -/
theorem done_settleAll {l : Ledger} (hc : l.calls[n]? = some c)
    (hdone : ∀ id purpose d, c ≠ .waiting id purpose d) (answer : RequestId → Answer) :
    (l.settleAll answer).calls[n]? = some c :=
  Ledger.getElem?_foldl_deliver_of_done answer l.pending hc fun _ _ => hdone _

/-- Nor does what a restart does to them. -/
theorem done_cleared (hc : b.ledger.calls[n]? = some c)
    (hdone : ∀ id purpose d, c ≠ .waiting id purpose d) (request : CallRequest) :
    (b.cleared setup request).calls[n]? = some c := by
  unfold cleared
  split
  · split
    · exact done_settleAll hc hdone _
    · exact hc
  · exact hc
  · exact hc

theorem done_step (hc : b.ledger.calls[n]? = some c)
    (hdone : ∀ id purpose d, c ≠ .waiting id purpose d) (a : BridgeAction) :
    ∃ c', Continues c c' ∧ (b.step setup a).ledger.calls[n]? = some c' := by
  have hmoves := b.step_moves setup a
  generalize (b.step setup a).ledger = l' at hmoves ⊢
  cases hmoves with
  | rests => exact ⟨c, .stays c, hc⟩
  | @opens request l call h =>
    have hopened : l.calls[n]? = some c := by
      rw [h.calls]
      exact done_cleared hc hdone request
    exact ⟨c, .stays c, getElem?_append hopened call⟩
  | settles hrouted hwaits => exact ⟨c, .stays c, Ledger.getElem?_deliver_of_ne hc (hdone _)⟩
  | cancels => exact ⟨c, .stays c, done_settleAll hc hdone _⟩
  | returns hcall hanswer => exact done_record hc hcall (.returns hanswer)
  | expires hcall hdue hanswer => exact ⟨c, .stays c, done_close hc hdone hcall _⟩
  | leaves call => exact done_abandon hc hdone call
  | drops =>
    refine ledger_drop_induction (motive := fun l => ∃ c', Continues c c' ∧ l.calls[n]? = some c')
      ⟨c, .stays c, hc⟩ ?_
    rintro b call ⟨c₁, hnext, hc₁⟩
    rcases done_abandon hc₁ (hnext.done hdone) call with ⟨c₂, hnext₂, hc₂⟩
    exact ⟨c₂, hnext.trans hnext₂, hc₂⟩

/-- A call that is over stays as it is. -/
theorem over_step (hc : b.ledger.calls[n]? = some c) (hover : c.id? = none) (a : BridgeAction) :
    (b.step setup a).ledger.calls[n]? = some c := by
  rcases done_step hc (fun _ _ _ h => by rw [h] at hover; cases hover) a with ⟨c', hnext, hc'⟩
  cases hnext with
  | stays => exact hc'
  | returns => cases hover
  | leaves => cases hover

end Done

/-! ## A request that waits -/

section Open

variable {b : Bridge} {s : Sending} {a : BridgeAction}

/-- The answer for a request reaches its call. -/
theorem answered_step (h : b.ledger.Open setup s) {answer : Answer}
    (ha : answerFor? setup b s a = some answer) :
    (b.step setup a).ledger.calls[s.call]? = some (.answered s.id .answer answer) := by
  rcases answerFor?_cases ha with ⟨m, rfl, hm, hanswer⟩ | ⟨rfl, hreject, rfl⟩ | ⟨rfl, rfl⟩
  · have hwaits : ∃ p ∈ b.pending, p.id = s.id ∧ p.generation = s.generation :=
      ⟨s.entry, h.mem_pending, rfl, rfl⟩
    rw [step, ledger_dispatch, hm, Option.bind_some, hanswer]
    dsimp only [settleIf]
    rw [if_pos hwaits]
    exact h.settle_self answer
  · rcases b.ledger_begin setup .restart with ⟨l, call, hopens, hl⟩
    rw [step, hl]
    refine getElem?_append ?_ call
    rw [hopens.calls, cleared, if_pos hreject]
    exact h.settleAll _
  · rw [step, ledger_shutdown]
    exact h.settleAll _

/-- A caller that gives up ends its own call, or another one. -/
theorem open_abandon (h : b.ledger.Open setup s) (call : Nat) :
    (b.abandon call).ledger.Open setup s ∨
      (b.abandon call).ledger.calls[s.call]? = some .abandoned := by
  have hlen := (List.getElem?_eq_some_iff.1 h.call).1
  rcases b.ledger_abandon call with
    hl | ⟨id, purpose, d, hcall, hl⟩ | ⟨id, purpose, answer, hcall, hl⟩
  · exact .inl (by rwa [hl])
  · rw [hl]
    by_cases hne : call = s.call
    · subst hne
      exact .inr (List.getElem?_set_self hlen)
    · exact .inl (h.close_of_ne hne hcall rfl)
  · rw [hl]
    by_cases hne : call = s.call
    · subst hne
      rw [show b.calls[s.call]? = _ from h.call] at hcall
      cases hcall
    · exact .inl (h.record_of_ne hne rfl)

/-- So does the end of the bridge, which ends all calls. -/
theorem open_drop (h : b.ledger.Open setup s) :
    b.drop.ledger.Open setup s ∨ b.drop.ledger.calls[s.call]? = some .abandoned := by
  refine ledger_drop_induction
    (motive := fun l => l.Open setup s ∨ l.calls[s.call]? = some .abandoned) (.inl h) ?_
  rintro b call (h | h)
  · exact open_abandon h call
  · rcases done_abandon h (fun _ _ _ h => by cases h) call with ⟨c', hnext, hc'⟩
    cases hnext
    exact .inr hc'

/-- Without an answer for it a request finds nothing changed by a restart. -/
theorem cleared_of_unanswered {request : CallRequest}
    (ha : answerFor? setup b s (.begin request) = none) : b.cleared setup request = b.ledger := by
  cases request with
  | init => rfl
  | send kind payload => rfl
  | restart =>
    dsimp only [answerFor?] at ha
    split at ha
    · cases ha
    · next hreject => exact if_neg hreject

/-- An answer that is not for the request is for another one. -/
theorem ne_of_unanswered (h : b.ledger.Open setup s) {generation : Nat}
    (ha : answerFor? setup b s (.dispatch generation) = none) {id : RequestId} {answer : Answer}
    (hrouted : (b.routed? generation).bind HostMessage.answer? = some (id, answer))
    (hwaits : ∃ p ∈ b.pending, p.id = id ∧ p.generation = generation) : id ≠ s.id := by
  rintro rfl
  rcases hwaits with ⟨p, hp, hid, hg⟩
  -- the entry of the request is of its own generation, so this would be its answer
  have hentry : p = s.entry := (h.entry p hid).1 hp
  have hgeneration : generation = s.generation := by
    rw [← hg, hentry]
    rfl
  dsimp only [answerFor?] at ha
  rw [hrouted, Option.bind_some, if_pos ⟨hgeneration, rfl⟩] at ha
  cases ha

/-- Without an answer for it the request waits on, unless its deadline is found to have passed or
its caller gives up. -/
theorem open_step (hinj : Function.Injective setup.requestId) (h : b.ledger.Open setup s)
    (ha : answerFor? setup b s a = none) :
    (b.step setup a).ledger.Open setup s ∨
      (a = .expire s.call ∧ s.deadline ≤ b.now ∧ (b.step setup a).ledger.calls[s.call]? =
        some (.finished (.error (.timeout s.id setup.settings.timeoutMs)))) ∨
      (b.step setup a).ledger.calls[s.call]? = some .abandoned := by
  have hmoves := b.step_moves setup a
  generalize (b.step setup a).ledger = l' at hmoves ⊢
  -- of all moves only an answer for it, its deadline and its caller concern the request
  cases hmoves with
  | rests => exact .inl h
  | opens hopens =>
    rw [cleared_of_unanswered ha] at hopens
    exact .inl (h.opens hinj hopens)
  | @settles generation id answer hrouted hwaits =>
    exact .inl (h.settle_of_ne (ne_of_unanswered h ha hrouted hwaits) answer)
  | cancels => cases ha
  | @returns call id purpose answer answer' hcall hanswer =>
    have hne : call ≠ s.call := by
      rintro rfl
      rw [h.call] at hcall
      cases hcall
    exact .inl (h.record_of_ne hne rfl)
  | @expires call id purpose d answer hcall hdue hanswer =>
    by_cases hne : call = s.call
    · subst hne
      rw [h.call] at hcall
      cases hcall
      refine .inr (.inl ⟨rfl, hdue, ?_⟩)
      rw [hanswer rfl]
      exact List.getElem?_set_self (List.getElem?_eq_some_iff.1 h.call).1
    · exact .inl (h.close_of_ne hne hcall rfl)
  | leaves call => exact (open_abandon h call).imp_right .inr
  | drops => exact (open_drop h).imp_right .inr

end Open

/-! ## The life of a request -/

section Life

variable (setup) (b : Bridge) (s : Sending) (actions : List BridgeAction)

/-- No action of the run has an answer for the request. -/
def Unanswered : Prop :=
  ∀ before a rest, actions = before ++ a :: rest →
    answerFor? setup (b.run setup before) s a = none

/-- The first answer in the run for the request came while it waited. -/
def FirstAnswer (answer : Answer) : Prop :=
  ∃ before a rest, actions = before ++ a :: rest ∧ Unanswered setup b s before ∧
    (b.run setup before).ledger.Open setup s ∧
    answerFor? setup (b.run setup before) s a = some answer

/-- The deadline was found to have passed before any answer. -/
def TimedOut : Prop :=
  ∃ before rest, actions = before ++ .expire s.call :: rest ∧ Unanswered setup b s before ∧
    s.deadline ≤ (b.run setup before).now

/-- How far a request has come, and what in the run has brought it there. -/
inductive Life : Prop
  | waiting (h : (b.run setup actions).ledger.Open setup s)
      (hnone : Unanswered setup b s actions)
  | answered (answer : Answer) (ha : FirstAnswer setup b s actions answer)
      (h : (b.run setup actions).ledger.calls[s.call]? = some (.answered s.id .answer answer))
  | returned (answer : Answer) (ha : FirstAnswer setup b s actions answer)
      (h : (b.run setup actions).ledger.calls[s.call]? = some (.finished answer))
  | timedOut (ht : TimedOut setup b s actions)
      (h : (b.run setup actions).ledger.calls[s.call]? =
        some (.finished (.error (.timeout s.id setup.settings.timeoutMs))))
  | abandoned (h : (b.run setup actions).ledger.calls[s.call]? = some .abandoned)

variable {setup b s actions}

theorem run_append_singleton (a : BridgeAction) :
    b.run setup (actions ++ [a]) = (b.run setup actions).step setup a := by
  rw [run, List.foldl_append]
  rfl

theorem Unanswered.append {a : BridgeAction} (h : Unanswered setup b s actions)
    (ha : answerFor? setup (b.run setup actions) s a = none) :
    Unanswered setup b s (actions ++ [a]) := by
  intro before a' rest heq
  rcases List.eq_nil_or_concat rest with rfl | ⟨rest, last, rfl⟩
  · rcases List.append_inj' heq rfl with ⟨rfl, hlast⟩
    cases hlast
    exact ha
  · rw [List.concat_eq_append, ← List.cons_append, ← List.append_assoc] at heq
    exact h before a' rest (List.append_inj' heq rfl).1

theorem FirstAnswer.append {answer : Answer} (h : FirstAnswer setup b s actions answer)
    (a : BridgeAction) : FirstAnswer setup b s (actions ++ [a]) answer := by
  rcases h with ⟨before, a', rest, rfl, hrest⟩
  exact ⟨before, a', rest ++ [a], by simp, hrest⟩

theorem TimedOut.append (h : TimedOut setup b s actions) (a : BridgeAction) :
    TimedOut setup b s (actions ++ [a]) := by
  rcases h with ⟨before, rest, rfl, hrest⟩
  exact ⟨before, rest ++ [a], by simp, hrest⟩

/-- One more action takes a request further. -/
theorem Life.step (hinj : Function.Injective setup.requestId) (h : Life setup b s actions)
    (a : BridgeAction) : Life setup b s (actions ++ [a]) := by
  cases h with
  | waiting h hnone =>
    cases ha : answerFor? setup (b.run setup actions) s a with
    | some answer =>
      refine .answered answer ⟨actions, a, [], rfl, hnone, h, ha⟩ ?_
      rw [run_append_singleton]
      exact answered_step h ha
    | none =>
      have hstep := open_step hinj h ha
      rw [← run_append_singleton] at hstep
      rcases hstep with h | ⟨rfl, hdue, h⟩ | h
      · exact .waiting h (hnone.append ha)
      · exact .timedOut ⟨actions, [], rfl, hnone, hdue⟩ h
      · exact .abandoned h
  | answered answer ha h =>
    rcases done_step h (fun _ _ _ h => by cases h) a with ⟨c', hnext, hc'⟩
    rw [← run_append_singleton] at hc'
    cases hnext with
    | stays => exact .answered answer (ha.append a) hc'
    | returns hanswer => exact .returned answer (ha.append a) (hanswer rfl ▸ hc')
    | leaves => exact .abandoned hc'
  | returned answer ha h =>
    refine .returned answer (ha.append a) ?_
    rw [run_append_singleton]
    exact over_step h rfl a
  | timedOut ht h =>
    refine .timedOut (ht.append a) ?_
    rw [run_append_singleton]
    exact over_step h rfl a
  | abandoned h =>
    refine .abandoned ?_
    rw [run_append_singleton]
    exact over_step h rfl a

/-- A request that waits has such a life in every run. -/
theorem life_run (hinj : Function.Injective setup.requestId) (h : b.ledger.Open setup s)
    (actions : List BridgeAction) : Life setup b s actions := by
  -- on the actions from the last one backwards
  induction actions using List.reverseRecOn with
  | nil => exact .waiting h fun before a rest heq => by simp at heq
  | append_singleton actions a ih => exact ih.step hinj a

end Life

end Bridge

end Chalkboard
