import Chalkboard.Command.Basic

/-!
# What the check of an intent demands

`Intent.Sensible` says which data makes sense. The check passes exactly this data
(`Intent.check_eq_ok_iff`), and whatever it refuses is refused as invalid, never as malformed
(`Intent.check_refuses`).
-/

namespace Chalkboard

variable {ε α : Type}

/-! ## Checks in a row -/

/-- Two checks in a row pass if both do. -/
theorem check_bind_eq_ok_iff {x : Except ε Unit} {f : Unit → Except ε Unit} :
    (x >>= f) = .ok () ↔ x = .ok () ∧ f () = .ok () := by
  cases x with
  | error e => simp [bind, Except.bind]
  | ok a => simp [bind, Except.bind]

/-- The check of a list passes if all its items pass. -/
theorem check_forM_eq_ok_iff {check : α → Except ε Unit} {l : List α} :
    forM l check = .ok () ↔ ∀ a ∈ l, check a = .ok () := by
  induction l with
  | nil => simp [pure, Except.pure]
  | cons a l ih => rw [List.forM_cons, check_bind_eq_ok_iff, ih, List.forall_mem_cons]

/-- What a condition refuses does not pass. -/
theorem refuse_eq_ok_iff {c : Prop} [Decidable c] {e : ε} :
    (if c then .error e else .ok () : Except ε Unit) = .ok () ↔ ¬ c := by
  split <;> simp [*]

@[simp] theorem checkExpression_eq_ok_iff {expression : String} :
    checkExpression expression = .ok () ↔ Text.allBlank expression = false := by
  rw [checkExpression, refuse_eq_ok_iff, Bool.not_eq_true]

@[simp] theorem checkFinite_eq_ok_iff {field : String} {coordinates : List Float} :
    checkFinite field coordinates = .ok () ↔ ∀ x ∈ coordinates, x.isFinite := by
  rw [checkFinite, ← List.all_eq_true]
  split <;> simp [*]

/-! ## Errors of a check -/

/-- The check passes or calls something invalid. -/
def Refuses (outcome : Except CommandError Unit) : Prop :=
  ∀ e, outcome = .error e → ∃ field message, e = .invalid field message

namespace Refuses

theorem ok : Refuses (.ok ()) := by
  intro e he
  cases he

theorem invalid (field message : String) : Refuses (.error (.invalid field message)) := by
  intro e he
  cases he
  exact ⟨field, message, rfl⟩

theorem ite {c : Prop} [Decidable c] {x y : Except CommandError Unit} (hx : Refuses x)
    (hy : Refuses y) : Refuses (if c then x else y) := by
  split
  · exact hx
  · exact hy

theorem bind {x : Except CommandError Unit} {f : Unit → Except CommandError Unit}
    (hx : Refuses x) (hf : Refuses (f ())) : Refuses (x >>= f) := by
  intro e he
  cases hx' : x with
  | error e' =>
    rw [hx'] at he
    cases he
    exact hx e hx'
  | ok a =>
    rw [hx'] at he
    exact hf e he

theorem forM {check : α → Except CommandError Unit} (hcheck : ∀ a, Refuses (check a))
    (l : List α) : Refuses (l.forM check) := by
  induction l with
  | nil => exact ok
  | cons a l ih => exact (hcheck a).bind ih

theorem expression (expression : String) : Refuses (checkExpression expression) :=
  .ite (.invalid _ _) .ok

theorem finite (field : String) (coordinates : List Float) :
    Refuses (checkFinite field coordinates) :=
  .ite .ok (.invalid _ _)

end Refuses

namespace Intent

/-! ## Sensible data -/

/-- The data of an intent makes sense. -/
def Sensible : Intent → Prop
  | plotFunction expressions _ => expressions ≠ [] ∧ ∀ e ∈ expressions, Text.allBlank e = false
  | plotDerivative expression order => Text.allBlank expression = false ∧ order ≠ 0
  | plotIntegral e | solveAndPlot e | findExtrema e | convert e | calculate e =>
    Text.allBlank e = false
  | drawPoint x y _ => x.isFinite ∧ y.isFinite
  | drawSegment start finish =>
    (start.1.isFinite ∧ start.2.isFinite) ∧ finish.1.isFinite ∧ finish.2.isFinite
  | drawCircle center radius =>
    (center.1.isFinite ∧ center.2.isFinite) ∧ radius.isFinite ∧ ¬ radius <= 0
  | drawPolygon vertices => 3 ≤ vertices.length ∧ ∀ v ∈ vertices, v.1.isFinite ∧ v.2.isFinite

/-- The check passes exactly the data that makes sense. -/
theorem check_eq_ok_iff {i : Intent} : i.check = .ok () ↔ i.Sensible := by
  cases i with
  | plotFunction expressions colors =>
    have hlist : expressions.forM checkExpression = .ok () ↔
        ∀ e ∈ expressions, Text.allBlank e = false := by
      simp [List.forM_eq_forM, check_forM_eq_ok_iff]
    cases expressions with
    | nil => simp [check, Sensible]
    | cons e es => simpa [check, Sensible] using hlist
  | plotDerivative expression order =>
    show (checkExpression expression >>= fun _ => if order = 0 then _ else .ok ()) = _ ↔ _
    rw [check_bind_eq_ok_iff, refuse_eq_ok_iff, checkExpression_eq_ok_iff]
    rfl
  | plotIntegral e | solveAndPlot e | findExtrema e | convert e | calculate e =>
    exact checkExpression_eq_ok_iff
  | drawPoint x y name => simp [check, Sensible]
  | drawSegment start finish => simp [check, Sensible, check_bind_eq_ok_iff]
  | drawCircle center radius =>
    have hcheck : (drawCircle center radius).check = .ok () ↔
        (∀ x ∈ [center.1, center.2], x.isFinite) ∧ ¬ (!radius.isFinite || radius <= 0) = true :=
      check_bind_eq_ok_iff.trans (and_congr checkFinite_eq_ok_iff refuse_eq_ok_iff)
    rw [hcheck]
    simp [Sensible]
  | drawPolygon vertices =>
    have hlist : vertices.forM (fun v => checkFinite "vertices" [v.1, v.2]) = .ok () ↔
        ∀ v ∈ vertices, v.1.isFinite ∧ v.2.isFinite := by
      simp [List.forM_eq_forM, check_forM_eq_ok_iff]
    simp only [check, Sensible]
    split
    · next hlt => simp [Nat.not_le.2 hlt]
    · next hlt => rw [hlist, and_iff_right (Nat.not_lt.1 hlt)]

/-- What the check of an intent refuses is invalid. -/
theorem check_refuses (i : Intent) : Refuses i.check := by
  cases i with
  | plotFunction expressions colors =>
    apply Refuses.ite (.invalid _ _)
    exact .forM .expression expressions
  | plotDerivative expression order =>
    apply Refuses.bind (.expression expression)
    apply Refuses.ite (.invalid _ _)
    exact .ok
  | plotIntegral e | solveAndPlot e | findExtrema e | convert e | calculate e =>
    exact .expression e
  | drawPoint x y name => exact .finite _ _
  | drawSegment start finish =>
    apply Refuses.bind (.finite "from" [start.1, start.2])
    exact .finite "to" [finish.1, finish.2]
  | drawCircle center radius =>
    apply Refuses.bind (.finite _ _)
    apply Refuses.ite (.invalid _ _)
    exact .ok
  | drawPolygon vertices =>
    apply Refuses.ite (.invalid _ _)
    apply Refuses.forM
    intro v
    exact .finite "vertices" [v.1, v.2]

/-! ## Numbers of an intent -/

/-- The numbers in the data of an intent. -/
def numbers : Intent → List Float
  | drawPoint x y _ => [x, y]
  | drawSegment start finish => [start.1, start.2, finish.1, finish.2]
  | drawCircle center radius => [center.1, center.2, radius]
  | drawPolygon vertices => vertices.flatMap fun v => [v.1, v.2]
  | _ => []

/-- Data that makes sense has no number that is not finite. -/
theorem Sensible.isFinite {i : Intent} (hi : i.Sensible) : ∀ x ∈ i.numbers, x.isFinite := by
  cases i with
  | drawPoint x y name => simpa [numbers, Sensible] using hi
  | drawSegment start finish => simpa [numbers, Sensible, and_assoc] using hi
  | drawCircle center radius =>
    obtain ⟨⟨hfst, hsnd⟩, hradius, _⟩ := hi
    simp [numbers, hfst, hsnd, hradius]
  | drawPolygon vertices =>
    intro x hx
    obtain ⟨v, hv, hx⟩ := List.mem_flatMap.1 hx
    obtain ⟨hfst, hsnd⟩ := hi.2 v hv
    have hx : x = v.1 ∨ x = v.2 := by simpa using hx
    rcases hx with rfl | rfl
    · exact hfst
    · exact hsnd
  | _ => simp [numbers]

end Intent

end Chalkboard
