import Mathlib.Algebra.Order.Field.Basic
import Mathlib.Analysis.SpecialFunctions.Pow.Real
import Mathlib.Tactic.FieldSimp
import Mathlib.Tactic.Linarith
import Mathlib.Tactic.Ring
import Chalkboard.View.Viewport

/-!
# Views in exact arithmetic

The definitions of views and gestures are read over an ordered field instead of floating-point
numbers. Square roots and powers are left open (`FieldScalar`); where it matters which way one zooms,
those facts on powers are added that tell zooming in from zooming out (`ExactScalar`). In this reading
every pixel has user coordinates as soon as the box has an area and the canvas is not empty, and none
has any otherwise (`Viewport.isSome_toUser?_iff`).
-/

namespace Chalkboard

/-- Exact numbers. Nothing is said about square roots and powers. -/
class FieldScalar (K : Type) extends Field K, LinearOrder K, IsStrictOrderedRing K where
  root : K → K
  power : K → K → K

/-- The arithmetic of exact numbers. All of them are finite. -/
instance {K : Type} [FieldScalar K] : Scalar K where
  toAdd := inferInstance
  toSub := inferInstance
  toMul := inferInstance
  toDiv := inferInstance
  toNeg := inferInstance
  ofNat n := (n : K)
  eq a b := decide (a = b)
  lt a b := decide (a < b)
  le a b := decide (a ≤ b)
  isFinite _ := true
  abs a := |a|
  sqrt := FieldScalar.root
  pow := FieldScalar.power
  epsilon := 1 / 2 ^ 52

/-- Exact numbers where a base above one has positive powers, above one for positive exponents and
below one for negative ones. -/
class ExactScalar (K : Type) extends Field K, LinearOrder K, IsStrictOrderedRing K where
  root : K → K
  power : K → K → K
  power_pos (base exponent : K) (h : 1 < base) : 0 < power base exponent
  one_lt_power (base exponent : K) (h : 1 < base) (he : 0 < exponent) : 1 < power base exponent
  power_lt_one (base exponent : K) (h : 1 < base) (he : exponent < 0) : power base exponent < 1

/-- The arithmetic of exact numbers. All of them are finite. -/
instance {K : Type} [ExactScalar K] : Scalar K where
  toAdd := inferInstance
  toSub := inferInstance
  toMul := inferInstance
  toDiv := inferInstance
  toNeg := inferInstance
  ofNat n := (n : K)
  eq a b := decide (a = b)
  lt a b := decide (a < b)
  le a b := decide (a ≤ b)
  isFinite _ := true
  abs a := |a|
  sqrt := ExactScalar.root
  pow := ExactScalar.power
  epsilon := 1 / 2 ^ 52

/-- What is said of powers can be forgotten. -/
instance {K : Type} [ExactScalar K] : FieldScalar K where
  root := ExactScalar.root
  power := ExactScalar.power

/-- The real numbers. -/
noncomputable instance : ExactScalar ℝ where
  root := Real.sqrt
  power := Real.rpow
  power_pos _ exponent h := Real.rpow_pos_of_pos (one_pos.trans h) exponent
  one_lt_power _ _ h he := Real.one_lt_rpow h he
  power_lt_one _ _ h he := Real.rpow_lt_one_of_one_lt_of_neg h he

section Scalars

variable {K : Type} [FieldScalar K]

@[simp] theorem Scalar.exact_ofNat (n : Nat) : (Scalar.ofNat n : K) = n := rfl

@[simp] theorem Scalar.exact_lt (a b : K) : Scalar.lt a b = decide (a < b) := rfl

@[simp] theorem Scalar.exact_le (a b : K) : Scalar.le a b = decide (a ≤ b) := rfl

@[simp] theorem Scalar.exact_eq (a b : K) : Scalar.eq a b = decide (a = b) := rfl

@[simp] theorem Scalar.exact_isFinite (a : K) : Scalar.isFinite a = true := rfl

@[simp] theorem Scalar.exact_abs (a : K) : Scalar.abs a = |a| := rfl

@[simp] theorem Scalar.exact_epsilon : (Scalar.epsilon : K) = 1 / 2 ^ 52 := rfl

/-- The nearest number within limits. -/
theorem clamp?_eq {low high : K} (h : low ≤ high) (x : K) :
    clamp? low high x = some (max low (min x high)) := by
  have hcut : (if high < if x < low then low else x then high else if x < low then low else x) =
      max low (min x high) := by
    rcases lt_or_ge x low with hlow | hlow
    · rw [if_pos hlow, if_neg h.not_gt, min_eq_left (hlow.le.trans h), max_eq_left hlow.le]
    · rw [if_neg hlow.not_gt]
      rcases lt_or_ge high x with hhigh | hhigh
      · rw [if_pos hhigh, min_eq_right hhigh.le, max_eq_right h]
      · rw [if_neg hhigh.not_gt, min_eq_left hhigh, max_eq_right hlow]
  simp [clamp?, h, hcut]

end Scalars

variable {K : Type} [FieldScalar K]

namespace BoundingBox

variable (b : BoundingBox K)

theorem isDegenerate_eq_false_iff : b.isDegenerate = false ↔ b.left < b.right ∧ b.bottom < b.top := by
  simp [isDegenerate, width, height]

@[simp] theorem width_shift (dx dy : K) : (b.shift dx dy).width = b.width := by
  simp [shift, width]

@[simp] theorem height_shift (dx dy : K) : (b.shift dx dy).height = b.height := by
  simp [shift, height]

theorem width_zoomAt (anchor : Point K) (factor : K) :
    (b.zoomAt anchor factor).width = b.width / factor := by
  simp only [zoomAt, width]
  ring

theorem height_zoomAt (anchor : Point K) (factor : K) :
    (b.zoomAt anchor factor).height = b.height / factor := by
  simp only [zoomAt, height]
  ring

/-- The projection scales both axes and halves the depths. -/
theorem det_projection :
    b.projection.det = -(2 / (b.right - b.left)) * (2 / (b.top - b.bottom)) / 2 := by
  simp [Matrix4.det, Matrix4.cofactor, Matrix4.det3, Matrix4.skip, projection, projection.row]
  ring

theorem det_projection_ne_zero (h : b.isDegenerate = false) : b.projection.det ≠ 0 := by
  obtain ⟨hx, hy⟩ := b.isDegenerate_eq_false_iff.1 h
  have hw : 0 < b.right - b.left := sub_pos.2 hx
  have hh : 0 < b.top - b.bottom := sub_pos.2 hy
  have hdet : 0 < 2 / (b.right - b.left) * (2 / (b.top - b.bottom)) / 2 := by positivity
  rw [det_projection, neg_mul, neg_div]
  exact neg_ne_zero.2 hdet.ne'

end BoundingBox

namespace Viewport

variable (v : Viewport K)

/-- A pixel has user coordinates exactly if the canvas is not empty and the box has an area. -/
theorem isSome_toUser?_iff (pixel : Point K) :
    (v.toUser? pixel).isSome ↔ v.width ≠ 0 ∧ v.height ≠ 0 ∧ v.box.isDegenerate = false := by
  by_cases hflat : v.width = 0 ∨ v.height = 0 ∨ v.box.isDegenerate = true
  · have hnone : v.toUser? pixel = none := if_pos hflat
    rw [hnone, ← Bool.not_eq_true, ← not_or, ← not_or]
    simp only [Option.isSome_none, Bool.false_eq_true, false_iff, not_not]
    exact hflat
  · have hbox : v.box.isDegenerate = false := by simpa using fun h => hflat (.inr (.inr h))
    have hdet := v.box.det_projection_ne_zero hbox
    have hsome : (v.toUser? pixel).isSome := by
      simp [toUser?, if_neg hflat, Matrix4.inverse?, hdet]
    rw [not_or, not_or, Bool.not_eq_true] at hflat
    simp only [hsome, true_iff]
    exact hflat

end Viewport

end Chalkboard
