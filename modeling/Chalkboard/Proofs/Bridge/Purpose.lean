import Chalkboard.Proofs.Bridge.Hosts
import Chalkboard.Proofs.Bridge.Table

/-!
# What callers want

A call that is not over wants its answer for a purpose, and keeps the purpose until it goes on
itself (`Bridge.purpose?_kept`). Only a call that begins brings a new one (`Bridge.purpose?_before`,
`Bridge.purpose?_begin`).
-/

namespace Chalkboard

/-- The action lets the caller go on, or ends it. -/
def BridgeAction.Touches (n : Nat) (a : BridgeAction) : Prop :=
  a = .resume n ∨ a = .expire n ∨ a = .abandon n

/-- What a call wants that is not over. -/
def Call.purpose? : Call → Option Purpose
  | .waiting _ purpose _ | .answered _ purpose _ => some purpose
  | .finished _ | .abandoned => none

namespace Ledger

/-- What a call wants, as long as it is not over. -/
def purpose? (l : Ledger) (call : Nat) : Option Purpose :=
  l.calls[call]?.bind Call.purpose?

variable {l : Ledger} {n : Nat} {purpose : Purpose}

theorem purpose?_of_getElem? {c : Call} (h : l.calls[n]? = some c) : l.purpose? n = c.purpose? := by
  rw [purpose?, h]
  rfl

/-- An answer does not change what calls want. -/
theorem map_purpose?_deliver (id : RequestId) (answer : Answer) (calls : List Call) :
    (Bridge.deliver id answer calls).map Call.purpose? = calls.map Call.purpose? := by
  rw [Bridge.deliver, List.map_map]
  refine List.map_congr_left fun c _ => ?_
  cases c with
  | waiting j p deadline => by_cases hj : j = id <;> simp [hj, Call.purpose?]
  | answered j p a => rfl
  | finished a => rfl
  | abandoned => rfl

theorem purpose?_eq (l : Ledger) (n : Nat) :
    l.purpose? n = ((l.calls.map Call.purpose?)[n]?).join := by
  rw [purpose?, List.getElem?_map]
  cases l.calls[n]? <;> rfl

theorem purpose?_settle (id : RequestId) (answer : Answer) :
    (l.settle id answer).purpose? n = l.purpose? n := by
  rw [purpose?_eq, purpose?_eq, settle, map_purpose?_deliver]

theorem purpose?_settleAll (answer : RequestId → Answer) :
    (l.settleAll answer).purpose? n = l.purpose? n := by
  have hfold : ∀ (pending : List PendingRequest) (calls : List Call),
      (pending.foldl (fun calls p => Bridge.deliver p.id (answer p.id) calls) calls).map
        Call.purpose? = calls.map Call.purpose? := by
    intro pending
    induction pending with
    | nil => exact fun _ => rfl
    | cons p pending ih => exact fun calls => (ih _).trans (map_purpose?_deliver _ _ _)
  rw [purpose?_eq, purpose?_eq, settleAll, hfold]

/-- A call that is over wants nothing any more. -/
theorem purpose?_of_record {call : Nat} {c : Call} (hc : c.purpose? = none)
    (h : (l.record call c).purpose? n = some purpose) : l.purpose? n = some purpose := by
  rw [purpose?, record, List.getElem?_set] at h
  split at h
  · split at h
    · rw [Option.bind_some, hc] at h
      cases h
    · cases h
  · exact h

theorem purpose?_record_self {c : Call} (hc : c.purpose? = none) :
    (l.record n c).purpose? n = none := by
  rw [purpose?, record, List.getElem?_set, if_pos rfl]
  split
  · exact hc
  · rfl

/-- A new call wants what it brings. -/
theorem purpose?_append {c : Call} (h : (l.append c).purpose? n = some purpose) :
    l.purpose? n = some purpose ∨ n = l.calls.length ∧ c.purpose? = some purpose := by
  rw [purpose?, append, List.getElem?_append] at h
  split at h
  · exact .inl h
  · next hle =>
    rw [List.getElem?_singleton] at h
    split at h
    · exact .inr ⟨by omega, h⟩
    · cases h

/-- What a call wants that has not changed. -/
theorem purpose?_congr {l' : Ledger} (h : l'.calls[n]? = l.calls[n]?) :
    l'.purpose? n = l.purpose? n := by
  rw [purpose?, purpose?, h]

/-- A new call changes no other one. -/
theorem purpose?_append_left {c : Call} (h : l.purpose? n = some purpose) :
    (l.append c).purpose? n = some purpose := by
  obtain ⟨c', hc', -⟩ := Option.bind_eq_some_iff.1 h
  rw [purpose?_congr (l := l) (Bridge.getElem?_append hc' c |>.trans hc'.symm)]
  exact h

end Ledger

namespace Bridge

variable {setup : BridgeSetup} {b : Bridge} {a : BridgeAction} {n : Nat} {purpose : Purpose}

/-! ## What a call wanted before -/

/-- What a call wants, it wanted before, unless it has just begun. -/
theorem purpose?_abandon {call n : Nat} {purpose : Purpose}
    (h : (b.abandon call).ledger.purpose? n = some purpose) :
    b.ledger.purpose? n = some purpose := by
  rcases b.ledger_abandon call with hl | ⟨id, _, _, -, hl⟩ | ⟨_, _, _, -, hl⟩
  · rwa [hl] at h
  · rw [hl] at h
    exact Ledger.purpose?_of_record (l := b.ledger) rfl h
  · rw [hl] at h
    exact Ledger.purpose?_of_record rfl h

/-- No action but a call brings something that is wanted. -/
theorem purpose?_before (ha : ∀ request, a ≠ .begin request)
    (h : (b.step setup a).ledger.purpose? n = some purpose) :
    b.ledger.purpose? n = some purpose := by
  have hmoves := b.step_moves setup a
  generalize (b.step setup a).ledger = l' at hmoves h
  cases hmoves with
  | rests => exact h
  | opens => exact absurd rfl (ha _)
  | settles => rwa [Ledger.purpose?_settle] at h
  | cancels => rwa [Ledger.purpose?_settleAll] at h
  | returns => exact Ledger.purpose?_of_record rfl h
  | expires => exact Ledger.purpose?_of_record (l := b.ledger) rfl h
  | leaves => exact purpose?_abandon h
  | drops =>
    exact ledger_drop_induction
      (motive := fun l => l.purpose? n = some purpose → b.ledger.purpose? n = some purpose)
      (fun h => h) (fun _ _ ih h => ih (purpose?_abandon h)) h

theorem purpose?_ask {p : Purpose} {kind : RequestKind} {payload : Json}
    (h : (b.ask setup p kind payload).2.purpose? = some purpose) : purpose = p := by
  by_cases haccepts : ∃ g, b.Accepts g
  · obtain ⟨g, hg⟩ := haccepts
    rw [ask_of_accepts setup hg] at h
    exact (Option.some.inj h).symm
  · obtain ⟨m, hask⟩ := ask_of_not_accepts setup (fun g hg => haccepts ⟨g, hg⟩) p kind payload
    rw [hask] at h
    cases h

theorem purpose?_startHost (h : (b.startHost setup).2.purpose? = some purpose) :
    purpose = .handshake (b.generation + 1) := by
  unfold startHost at h
  dsimp only at h
  split at h
  · cases h
  · exact purpose?_ask h

theorem purpose?_cleared (setup : BridgeSetup) (request : CallRequest) :
    (b.cleared setup request).purpose? n = b.ledger.purpose? n := by
  unfold cleared
  split
  · split
    · exact Ledger.purpose?_settleAll _
    · rfl
  · rfl
  · rfl

/-- A call that begins appends itself. It wants an answer, or the handshake of the next host if that
is started. -/
theorem calls_begin (setup : BridgeSetup) (b : Bridge) (request : CallRequest) :
    ∃ call, (b.step setup (.begin request)).calls =
        (b.cleared setup request).calls ++ [call] ∧
      ∀ p, call.purpose? = some p → p = .answer ∨
        p = .handshake (b.generation + 1) ∧
          (b.step setup (.begin request)).generation = b.generation + 1 := by
  cases request with
  | init =>
    refine ⟨(b.init setup).2, ?_, ?_⟩
    · exact congrArg (· ++ [(b.init setup).2]) (opens_init setup b).calls
    · intro p hp
      change _ ∨ _ ∧ (b.init setup).1.generation = b.generation + 1
      by_cases hidle : b.status.phase = .idle
      · obtain ⟨board, -, hinit⟩ := init_of_idle setup hidle
        rw [hinit] at hp ⊢
        exact .inr ⟨purpose?_startHost (b := { b with board }) hp,
          (spawned_startHost setup { b with board }).1⟩
      · rw [init_of_not_idle setup hidle] at hp
        cases hp
  | restart =>
    refine ⟨(b.restart setup).2, ?_, ?_⟩
    · exact congrArg (· ++ [(b.restart setup).2]) (opens_restart setup b).calls
    · intro p hp
      change _ ∨ _ ∧ (b.restart setup).1.generation = b.generation + 1
      rw [restart_eq] at hp ⊢
      rw [← generation_vacated setup b]
      exact .inr ⟨purpose?_startHost hp, (spawned_startHost setup (b.vacated setup)).1⟩
  | send kind payload =>
    refine ⟨(b.ask setup .answer kind payload).2, ?_, ?_⟩
    · exact congrArg (· ++ [(b.ask setup .answer kind payload).2])
        (opens_ask setup b .answer kind payload).calls
    · exact fun p hp => .inl (purpose?_ask hp)

theorem purpose?_begin {request : CallRequest}
    (h : (b.step setup (.begin request)).ledger.purpose? n = some purpose) :
    b.ledger.purpose? n = some purpose ∨
      n = b.calls.length ∧ (purpose = .answer ∨ purpose = .handshake (b.generation + 1) ∧
        (b.step setup (.begin request)).generation = b.generation + 1) := by
  obtain ⟨call, hcalls, hcall⟩ := calls_begin setup b request
  have happend : ((b.cleared setup request).append call).purpose? n = some purpose := by
    rw [← h]
    exact Ledger.purpose?_congr (congrArg (·[n]?) hcalls.symm)
  rcases Ledger.purpose?_append happend with hbefore | ⟨hn, hnew⟩
  · rw [purpose?_cleared] at hbefore
    exact .inl hbefore
  · exact .inr ⟨hn.trans (length_cleared setup b request), hcall purpose hnew⟩

/-! ## What a call still wants -/

/-- A call that does not go on itself wants what it wanted. -/
theorem purpose?_kept (setup : BridgeSetup) (h : b.ledger.purpose? n = some purpose)
    (ha : ¬a.Touches n) (hdrop : a ≠ .drop) : (b.step setup a).ledger.purpose? n = some purpose := by
  by_cases hbegin : ∃ request, a = .begin request
  · obtain ⟨request, rfl⟩ := hbegin
    obtain ⟨call, hcalls, -⟩ := calls_begin setup b request
    rw [← purpose?_cleared setup request] at h
    have happend := Ledger.purpose?_append_left (c := call) h
    rw [← happend]
    exact Ledger.purpose?_congr (congrArg (·[n]?) hcalls)
  · have hmoves := b.step_moves setup a
    -- the moves of other callers write to other places of the list of calls
    generalize (b.step setup a).ledger = l' at hmoves ⊢
    cases hmoves with
    | rests => exact h
    | opens => exact absurd ⟨_, rfl⟩ hbegin
    | settles => rwa [Ledger.purpose?_settle]
    | cancels => rwa [Ledger.purpose?_settleAll]
    | @returns call =>
      have hne : call ≠ n := by
        rintro rfl
        exact ha (.inl rfl)
      rwa [Ledger.purpose?_congr (l := b.ledger) (List.getElem?_set_ne hne)]
    | @expires call =>
      have hne : call ≠ n := by
        rintro rfl
        exact ha (.inr (.inl rfl))
      rwa [Ledger.purpose?_congr (l := b.ledger) (List.getElem?_set_ne hne)]
    | leaves call =>
      have hne : call ≠ n := by
        rintro rfl
        exact ha (.inr (.inr rfl))
      rwa [Ledger.purpose?_congr (l := b.ledger) (getElem?_abandon_of_ne hne)]
    | drops => exact absurd rfl hdrop

/-- A call that goes on itself finds nothing to do, or is over. -/
theorem eq_or_over_of_touches (setup : BridgeSetup) (b : Bridge) (ha : a.Touches n) :
    b.step setup a = b ∨ (b.step setup a).ledger.purpose? n = none := by
  rcases ha with rfl | rfl | rfl
  · change b.resume n = b ∨ (b.resume n).ledger.purpose? n = none
    unfold resume
    split
    · exact .inr (Ledger.purpose?_record_self (l := (b.conclude _ _ _).1.ledger) rfl)
    · exact .inl rfl
  · change b.expire setup n = b ∨ (b.expire setup n).ledger.purpose? n = none
    unfold expire
    split
    · split
      · exact .inr (Ledger.purpose?_record_self (l := ((b.forget _).conclude _ _ _).1.ledger) rfl)
      · exact .inl rfl
    · exact .inl rfl
  · change b.abandon n = b ∨ (b.abandon n).ledger.purpose? n = none
    unfold abandon
    split
    · exact .inr (Ledger.purpose?_record_self (l := (b.forget _).ledger) rfl)
    · exact .inr (Ledger.purpose?_record_self (l := b.ledger) rfl)
    · exact .inl rfl

end Bridge

end Chalkboard
