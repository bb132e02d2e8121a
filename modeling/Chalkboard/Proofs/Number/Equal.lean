import Chalkboard.Live.Reconcile

/-!
# Equal numbers

The comparison of floating-point numbers takes the two zeros as equal, and no number as equal to one
that is not a number. It is symmetric and transitive, and a finite number equals itself and has no
distance from itself.
-/

namespace Chalkboard

namespace Number

open Float.Model (UnpackedFloat)

/-- Sizes compare as equal exactly if they are the same. -/
theorem compare_size_eq_iff {m n : Nat} {e f : Int} :
    (compare e f).then (compare m n) = .eq ↔ e = f ∧ m = n := by
  rw [Ordering.then_eq_eq, Std.compare_eq_iff_eq, Std.compare_eq_iff_eq]

theorem compare_self {x : UnpackedFloat} (hx : x ≠ .notANumber) : x.compare x = some .eq := by
  rcases x with s | _ | s | ⟨s, m, e, hm⟩
  · cases s <;> rfl
  · exact absurd rfl hx
  · rfl
  · have hsize : (compare e e).then (compare m m) = .eq := compare_size_eq_iff.2 ⟨rfl, rfl⟩
    cases s with
    | positive => exact congrArg some hsize
    | negative => exact congrArg (some ·.swap) hsize

/-- Equal numbers are the same number, or two zeros. -/
theorem compare_eq_iff {x y : UnpackedFloat} :
    x.compare y = some .eq ↔
      (x = y ∧ x ≠ .notANumber) ∨ ∃ s t, x = .zero s ∧ y = .zero t := by
  constructor
  · intro h
    rcases x with (_ | _) | _ | s | ⟨_ | _, m, e, hm⟩ <;>
      rcases y with (_ | _) | _ | t | ⟨_ | _, n, f, hn⟩ <;>
      first
      | cases h; done
      | exact .inr ⟨s, t, rfl, rfl⟩
      | exact .inl ⟨rfl, nofun⟩
      | skip
    · rcases compare_size_eq_iff.1 (Ordering.swap_eq_eq.1 (Option.some.inj h)) with ⟨rfl, rfl⟩
      exact .inl ⟨rfl, nofun⟩
    · rcases compare_size_eq_iff.1 (Option.some.inj h) with ⟨rfl, rfl⟩
      exact .inl ⟨rfl, nofun⟩
  · rintro (⟨rfl, hx⟩ | ⟨s, t, rfl, rfl⟩)
    · exact compare_self hx
    · rfl

theorem beq_iff {x y : Float} :
    (x == y) = true ↔ x.toModel.unpack.compare y.toModel.unpack = some .eq :=
  beq_iff_eq (a := x.toModel.unpack.compare y.toModel.unpack)

theorem beq_symm {x y : Float} (h : (x == y) = true) : (y == x) = true := by
  rw [beq_iff, compare_eq_iff] at h ⊢
  rcases h with ⟨h, hx⟩ | ⟨s, t, hx, hy⟩
  · exact .inl ⟨h.symm, h ▸ hx⟩
  · exact .inr ⟨t, s, hy, hx⟩

theorem beq_trans {x y z : Float} (h : (x == y) = true) (h' : (y == z) = true) :
    (x == z) = true := by
  rw [beq_iff, compare_eq_iff] at h h' ⊢
  rcases h with ⟨h, hx⟩ | ⟨s, t, hx, hy⟩
  · rw [h]
    exact h'
  · rcases h' with ⟨h', -⟩ | ⟨-, u, -, hz⟩
    · exact .inr ⟨s, t, hx, h' ▸ hy⟩
    · exact .inr ⟨s, u, hx, hz⟩

section Finite

variable {x : Float}

theorem beq_self (hx : x.isFinite = true) : (x == x) = true := by
  have hx : x.toModel.unpack.isFinite = true := hx
  rw [beq_iff]
  refine compare_self fun hnan => ?_
  rw [hnan] at hx
  cases hx

/-- The distance of a finite number from itself is within the tolerance. -/
theorem abs_sub_self_le (hx : x.isFinite = true) : (x - x).abs ≤ positionTolerance := by
  have hsub : UnpackedFloat.sub .binary64 x.toModel.unpack x.toModel.unpack = .zero .positive := by
    have hx : x.toModel.unpack.isFinite = true := hx
    revert hx
    cases x.toModel.unpack with
    | infinity s => exact fun hx => by cases hx
    | notANumber => exact fun hx => by cases hx
    | zero s => cases s <;> exact fun _ => rfl
    | finite s m e hm =>
      intro
      have hnormal (k : Int) : UnpackedFloat.normalize .binary64 (k - k) (min e e) .positive =
          .zero .positive := by
        rw [Int.sub_self]
        rfl
      exact hnormal _
  have hzero : x - x = .ofModel (.pack (.zero .positive)) := by
    change Float.ofModel (.pack (.sub .binary64 x.toModel.unpack x.toModel.unpack)) = _
    rw [hsub]
  rw [hzero]
  decide

end Finite

end Number

end Chalkboard
