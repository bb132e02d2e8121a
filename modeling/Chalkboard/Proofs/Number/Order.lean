import Chalkboard.Proofs.Number.Equal

/-!
# The order of numbers

Two floating-point numbers compare in one of three ways, or not at all as soon as one of them is not
a number. So what is not at most zero need not be positive: it may also be undefined
(`not_le_iff`). A number between two finite ones is finite (`isFinite_of_lt_of_le`).
-/

namespace Chalkboard

namespace Number

open Float.Model (UnpackedFloat)

/-! ## Outcomes of a comparison -/

/-- Only what is not a number cannot be compared. -/
theorem compare_eq_none_iff {x y : UnpackedFloat} :
    x.compare y = none ↔ x = .notANumber ∨ y = .notANumber := by
  constructor
  · intro h
    rcases x with (_ | _) | _ | s | ⟨_ | _, m, e, hm⟩ <;>
      rcases y with (_ | _) | _ | t | ⟨_ | _, n, f, hn⟩ <;>
      first
      | exact .inl rfl
      | exact .inr rfl
      | cases h
  · rintro (rfl | rfl)
    · rcases y with (_ | _) | _ | t | ⟨_ | _, n, f, hn⟩ <;> rfl
    · rcases x with (_ | _) | _ | s | ⟨_ | _, m, e, hm⟩ <;> rfl

theorem compare_size_swap (m n : Nat) (e f : Int) :
    (compare f e).then (compare n m) = ((compare e f).then (compare m n)).swap := by
  rw [Ordering.swap_then, ← Std.OrientedCmp.eq_swap, ← Std.OrientedCmp.eq_swap]

theorem compare_swap (x y : UnpackedFloat) : y.compare x = (x.compare y).map Ordering.swap := by
  rcases x with (_ | _) | _ | s | ⟨_ | _, m, e, hm⟩ <;>
    rcases y with (_ | _) | _ | t | ⟨_ | _, n, f, hn⟩ <;>
    first
    | rfl
    | exact congrArg some (compare_size_swap _ _ _ _)
    | exact congrArg (some ·.swap) (compare_size_swap _ _ _ _)

theorem compare_size_eq_lt_iff {m n : Nat} {e f : Int} :
    (compare e f).then (compare m n) = .lt ↔ e < f ∨ e = f ∧ m < n := by
  rw [Ordering.then_eq_lt, Std.compare_eq_lt, Std.compare_eq_iff_eq, Std.compare_eq_lt]

theorem compare_size_lt_trans {k m n : Nat} {e f g : Int}
    (hmn : (compare e f).then (compare m n) = .lt) (hnk : (compare f g).then (compare n k) = .lt) :
    (compare e g).then (compare m k) = .lt := by
  rw [compare_size_eq_lt_iff] at hmn hnk ⊢
  omega

theorem compare_lt_trans {x y z : UnpackedFloat} (hxy : x.compare y = some .lt)
    (hyz : y.compare z = some .lt) : x.compare z = some .lt := by
  rcases x with (_ | _) | _ | s | ⟨_ | _, m, e, hm⟩ <;>
    rcases y with (_ | _) | _ | t | ⟨_ | _, n, f, hn⟩ <;>
    first
    | cases hxy
    | skip
  all_goals
    rcases z with (_ | _) | _ | u | ⟨_ | _, k, g, hk⟩ <;>
    first
    | rfl
    | cases hyz
    | skip
  -- two finite numbers of the same sign are left on either side
  · have hxy := Option.some.inj hxy
    have hyz := Option.some.inj hyz
    rw [← compare_size_swap] at hxy hyz
    refine congrArg some ?_
    rw [← compare_size_swap]
    exact compare_size_lt_trans hyz hxy
  · exact congrArg some (compare_size_lt_trans (Option.some.inj hxy) (Option.some.inj hyz))

section Floats

variable {x y z : Float}

theorem isNaN_iff : x.isNaN = true ↔ x.toModel.unpack = .notANumber := by
  show x.toModel.unpack.isNaN = true ↔ _
  cases x.toModel.unpack with
  | notANumber => exact ⟨fun _ => rfl, fun _ => rfl⟩
  | infinity | zero | finite => exact ⟨nofun, nofun⟩

theorem lt_iff : x < y ↔ x.toModel.unpack.compare y.toModel.unpack = some .lt := by
  have hbool : x < y ↔ (x.toModel.unpack.compare y.toModel.unpack == some .lt) = true :=
    decide_eq_true_iff
  rw [hbool, beq_iff_eq]

theorem le_iff : x ≤ y ↔ ∃ o, x.toModel.unpack.compare y.toModel.unpack = some o ∧ o.isLE = true := by
  have hbool : x ≤ y ↔
      (x.toModel.unpack.compare y.toModel.unpack).any (·.isLE) = true := decide_eq_true_iff
  rw [hbool, Option.any_eq_true]

/-- What is not at most another number is greater, unless one of the two is not a number. -/
theorem not_le_iff : ¬ x ≤ y ↔ y < x ∨ x.isNaN = true ∨ y.isNaN = true := by
  rw [le_iff, lt_iff, compare_swap x.toModel.unpack, isNaN_iff, isNaN_iff, ← compare_eq_none_iff]
  cases x.toModel.unpack.compare y.toModel.unpack with
  | none => simp
  | some o => cases o <;> simp

theorem le_of_lt (h : x < y) : x ≤ y :=
  le_iff.2 ⟨.lt, lt_iff.1 h, rfl⟩

theorem lt_irrefl (x : Float) : ¬ x < x := by
  intro h
  have hswap := compare_swap x.toModel.unpack x.toModel.unpack
  rw [lt_iff.1 h] at hswap
  cases hswap

theorem lt_trans (hxy : x < y) (hyz : y < z) : x < z := by
  rw [lt_iff] at hxy hyz ⊢
  exact compare_lt_trans hxy hyz

/-- What is at most something is a number. -/
theorem isNaN_eq_false_of_le (h : x ≤ y) : x.isNaN = false := by
  rw [Bool.eq_false_iff, ne_eq, isNaN_iff]
  intro hnan
  obtain ⟨o, hcompare, -⟩ := le_iff.1 h
  rw [compare_eq_none_iff.2 (.inl hnan)] at hcompare
  cases hcompare

/-- Numbers in both orders are equal. -/
theorem beq_of_le_of_le (hxy : x ≤ y) (hyx : y ≤ x) : (x == y) = true := by
  rw [beq_iff]
  obtain ⟨o, hcompare, ho⟩ := le_iff.1 hxy
  obtain ⟨o', hcompare', ho'⟩ := le_iff.1 hyx
  rw [compare_swap, hcompare, Option.map_some, Option.some.injEq] at hcompare'
  rw [← hcompare'] at ho'
  rw [hcompare]
  cases o with
  | eq => rfl
  | lt => cases ho'
  | gt => cases ho

/-- What is greater than something is a number. -/
theorem isNaN_eq_false_of_lt (h : x < y) : y.isNaN = false := by
  rw [Bool.eq_false_iff, ne_eq, isNaN_iff]
  intro hnan
  have hnone : x.toModel.unpack.compare y.toModel.unpack = none := compare_eq_none_iff.2 (.inr hnan)
  rw [lt_iff, hnone] at h
  cases h

theorem isNaN_eq_false_of_isFinite (hx : x.isFinite = true) : x.isNaN = false := by
  have hx : x.toModel.unpack.isFinite = true := hx
  rw [Bool.eq_false_iff, ne_eq, isNaN_iff]
  intro hnan
  rw [hnan] at hx
  cases hx

/-- Finite numbers are in order one way or the other. -/
theorem not_le_iff_of_isFinite (hx : x.isFinite = true) (hy : y.isFinite = true) :
    ¬ x ≤ y ↔ y < x := by
  rw [not_le_iff, isNaN_eq_false_of_isFinite hx, isNaN_eq_false_of_isFinite hy]
  simp only [Bool.false_eq_true, or_false]

/-- A number between two finite ones is finite. -/
theorem isFinite_of_lt_of_le {low high : Float} (hlow : low.isFinite = true)
    (hhigh : high.isFinite = true) (hlt : low < x) (hle : x ≤ high) : x.isFinite = true := by
  have hlow : low.toModel.unpack.isFinite = true := hlow
  have hhigh : high.toModel.unpack.isFinite = true := hhigh
  rw [lt_iff] at hlt
  obtain ⟨o, hcompare, ho⟩ := le_iff.1 hle
  show x.toModel.unpack.isFinite = true
  cases hx : x.toModel.unpack with
  | zero s => rfl
  | finite s m e hm => rfl
  | notANumber =>
    rw [hx, compare_eq_none_iff.2 (.inr rfl)] at hlt
    cases hlt
  | infinity s =>
    rw [hx] at hlt hcompare
    -- nothing finite lies beyond either infinity
    cases s with
    | negative => cases hl : low.toModel.unpack <;> rw [hl] at hlow hlt <;> cases hlow <;> cases hlt
    | positive =>
      cases hh : high.toModel.unpack <;> rw [hh] at hhigh hcompare <;> cases hhigh <;>
        cases hcompare <;> cases ho

/-! ## The greatest of all -/

theorem eq_of_bits (h : x.toModel.toBits = y.toModel.toBits) : x = y := by
  obtain ⟨⟨m, hm⟩⟩ := x
  obtain ⟨⟨n, hn⟩⟩ := y
  obtain rfl : m = n := h
  rfl

/-- Exponent, mantissa and sign are all the bits there are. -/
theorem bits_of_infinity
    (hexponent : @UnpackedFloat.unpackExponent .binary64 x.toModel.toBits.toBitVec = -1#11)
    (hmantissa : @UnpackedFloat.unpackMantissa .binary64 x.toModel.toBits.toBitVec = 0#52)
    (hsign : @UnpackedFloat.unpackSign .binary64 x.toModel.toBits.toBitVec = 0#1) :
    x.toModel.toBits = 0x7ff0000000000000 := by
  have hexponent : x.toModel.toBits.toNat >>> 52 % 2 ^ 11 = 2047 := congrArg BitVec.toNat hexponent
  have hmantissa : x.toModel.toBits.toNat >>> 0 % 2 ^ 52 = 0 := congrArg BitVec.toNat hmantissa
  have hsign : x.toModel.toBits.toNat >>> 63 % 2 ^ 1 = 0 := congrArg BitVec.toNat hsign
  have hlt : x.toModel.toBits.toNat < 2 ^ 64 := x.toModel.toBits.toNat_lt
  have hbits : x.toModel.toBits.toNat = 0x7ff0000000000000 := by omega
  exact UInt64.toNat_inj.1 hbits

theorem eq_infinity_of_unpack (h : x.toModel.unpack = .infinity .positive) : x = 1 / 0 := by
  have hinfinity : (1 / 0 : Float).toModel.toBits = 0x7ff0000000000000 := by decide
  refine eq_of_bits (Eq.trans ?_ hinfinity.symm)
  by_cases hexponent : @UnpackedFloat.unpackExponent .binary64 x.toModel.toBits.toBitVec = -1#11
  · have hspecial := (if_pos hexponent).symm.trans h
    by_cases hmantissa : @UnpackedFloat.unpackMantissa .binary64 x.toModel.toBits.toBitVec = 0#52
    · have hendless := (if_pos hmantissa).symm.trans hspecial
      by_cases hsign : @UnpackedFloat.unpackSign .binary64 x.toModel.toBits.toBitVec = 0#1
      · exact bits_of_infinity hexponent hmantissa hsign
      · have hnegative : UnpackedFloat.Sign.negative = .positive :=
          (if_neg hsign).symm.trans (UnpackedFloat.infinity.inj hendless)
        cases hnegative
    · cases (if_neg hmantissa).symm.trans hspecial
  · -- all other exponents are those of finite numbers
    have hfinite := (if_neg hexponent).symm.trans h
    by_cases hzero : @UnpackedFloat.unpackExponent .binary64 x.toModel.toBits.toBitVec = 0#11
    · have hsmall := (if_pos hzero).symm.trans hfinite
      by_cases hmantissa : @UnpackedFloat.unpackMantissa .binary64 x.toModel.toBits.toBitVec = 0#52
      · cases (dif_pos hmantissa).symm.trans hsmall
      · cases (dif_neg hmantissa).symm.trans hsmall
    · cases (if_neg hzero).symm.trans hfinite

/-- A positive number that is not finite is the infinity. -/
theorem eq_infinity_of_pos (hpos : 0 < x) (hx : x.isFinite = false) : x = 1 / 0 := by
  have hx : x.toModel.unpack.isFinite = false := hx
  rw [lt_iff] at hpos
  apply eq_infinity_of_unpack
  cases hunpack : x.toModel.unpack with
  | infinity s =>
    cases s with
    | positive => rfl
    | negative =>
      rw [hunpack] at hpos
      cases hpos
  | notANumber =>
    rw [hunpack, compare_eq_none_iff.2 (.inr rfl)] at hpos
    cases hpos
  | zero s =>
    rw [hunpack] at hx
    cases hx
  | finite s m e hm =>
    rw [hunpack] at hx
    cases hx

/-- A number is equal to itself. -/
theorem beq_self_of_isNaN_eq_false (hx : x.isNaN = false) : (x == x) = true := by
  rw [beq_iff]
  refine compare_self fun hnan => ?_
  rw [isNaN_iff.2 hnan] at hx
  cases hx

end Floats

end Number

end Chalkboard
