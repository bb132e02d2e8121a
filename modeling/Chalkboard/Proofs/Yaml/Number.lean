import Chalkboard.Proofs.Decimal.Layout
import Chalkboard.Proofs.Yaml.Document

/-!
# Numbers in YAML

Numbers are written as plain scalars, and stay what they are (`written_natural`, `written_float`).
-/

namespace Chalkboard.Yaml

open Text Decimal

variable {parent : Nat} {cs : List Char}

/-! ## Figures -/

theorem hasPair_eq_false {p q : Char → Bool} (h : ∀ c ∈ cs, p c = false) :
    hasPair p q cs = false := by
  induction cs with
  | nil => rfl
  | cons c cs ih =>
    obtain ⟨hc, hcs⟩ := List.forall_mem_cons.1 h
    cases cs with
    | nil => rfl
    | cons d cs => rw [hasPair, hc, Bool.false_and, ih hcs, Bool.false_or]

theorem isFigure_not {c d : Char} (hc : isFigure c = true) (hd : isFigure d = false) : c ≠ d := by
  rintro rfl
  rw [hd] at hc
  cases hc

theorem isVisible_of_isFigure {c : Char} (h : isFigure c = true) : isVisible c = true := by
  simp only [isFigure, Bool.or_eq_true, decide_eq_true_eq] at h
  rcases h with (((hdigit | rfl) | rfl) | rfl) | rfl
  · obtain ⟨hlow, hhigh⟩ : 48 ≤ c.toNat ∧ c.toNat ≤ 57 := bounds_of_isDigit hdigit
    simp only [isVisible, Bool.or_eq_true, Bool.and_eq_true, decide_eq_true_eq]
    omega
  iterate 4 rfl

theorem isGap_of_isFigure {c : Char} (h : isFigure c = true) : isGap c = false :=
  isGap_of_isVisible (isVisible_of_isFigure h) (isFigure_not h (by decide))
    (isFigure_not h (by decide))

/-- Figures need no quotes. -/
theorem plainText_of_isFigure (h : ∀ c ∈ cs, isFigure c = true) : PlainText cs := by
  have hlast {d : Char} (hd : isFigure d = false) : cs.getLast? ≠ some d := fun hmem =>
    isFigure_not (h d (List.mem_of_getLast? hmem)) hd rfl
  exact ⟨fun c hc => ⟨isVisible_of_isFigure (h c hc), isFigure_not (h c hc) (by decide)⟩,
    hasPair_eq_false fun c hc => decide_eq_false (isFigure_not (h c hc) (by decide)),
    hasPair_eq_false fun c hc => isGap_of_isFigure (h c hc), hlast (by decide), hlast (by decide)⟩

/-- A figure is no sign of any kind but the dash. -/
theorem not_isMarkup_of_isFigure {c : Char} (h : isFigure c = true) : isMarkup c = false := by
  have hall : "#,[]&*!|>'\"%@\x60\x7b\x7d".toList.all (!isFigure ·) = true := by decide
  rw [isMarkup, Bool.eq_false_iff]
  intro hmem
  have hnone := List.all_eq_true.1 hall c (List.contains_iff_mem.1 hmem)
  rw [h] at hnone
  cases hnone

/-- Figures are read back, also behind a minus. -/
theorem written_figures (h : Figures cs) : Written parent cs (.scalar true (String.ofList cs)) ∧
    Written parent ('-' :: cs) (.scalar true (String.ofList ('-' :: cs))) := by
  obtain ⟨hhead, hall⟩ := h
  cases cs with
  | nil => cases hhead
  | cons c cs =>
    have hfigures : ∀ d ∈ '-' :: c :: cs, isFigure d = true := List.forall_mem_cons.2 ⟨rfl, hall⟩
    have hc := hall c List.mem_cons_self
    have hspecial : isSpecial c = false := by
      have hdigit : c.isDigit = true := hhead
      rw [isSpecial, Bool.eq_false_iff]
      intro hc
      simp only [Bool.or_eq_true, decide_eq_true_eq] at hc
      rcases hc with (rfl | rfl) | rfl <;> cases hdigit
    refine ⟨written_plain (plainText_of_isFigure hall) fun tail => ?_,
      written_plain (plainText_of_isFigure hfigures) fun tail => ?_⟩
    · refine beginsPlain_iff.2 ⟨isGap_of_isFigure hc, not_isMarkup_of_isFigure hc, fun h => ?_⟩
      rw [hspecial] at h
      cases h
    · exact beginsPlain_iff.2 ⟨rfl, rfl, fun _ => isGap_of_isFigure hc⟩

/-! ## Whole numbers -/

theorem written_natural (n : Nat) :
    Written parent (toString n).toList (.scalar true (toString n)) := by
  have hwritten : Written parent (toString n).toList (.scalar true (String.ofList (toString n).toList)) :=
    (written_figures (toList_repr n ▸ figures_toDigits n)).1
  rwa [String.ofList_toList] at hwritten

/-- Digits without a needless zero are no padded number. -/
theorem isPadded_digits {c : Char} (hdigits : ∀ d ∈ c :: cs, d.isDigit = true)
    (hcanonical : (c :: cs).length = 1 ∨ (c :: cs).head? ≠ some '0') :
    isPadded (c :: cs) = false := by
  have hc := hdigits c List.mem_cons_self
  have hsign : splitSign (c :: cs) = (false, c :: cs) := by
    unfold splitSign
    split
    · next heq =>
      obtain ⟨rfl, -⟩ := List.cons.inj heq
      cases hc
    · next heq =>
      obtain ⟨rfl, -⟩ := List.cons.inj heq
      cases hc
    · rfl
  rw [isPadded, hsign]
  dsimp only
  split
  · next heq =>
    obtain ⟨rfl, rfl⟩ := List.cons.inj heq
    rcases hcanonical with hone | hhead
    · rw [List.eq_nil_of_length_eq_zero (Nat.succ.inj hone)]
      rfl
    · exact absurd rfl hhead
  · rfl

/-- They are read in base ten. -/
theorem magnitude?_digits (hdigits : ∀ d ∈ cs, d.isDigit = true) :
    magnitude? cs = numberIn? 10 cs := by
  unfold magnitude?
  split
  iterate 3
    · next rest _ => exact absurd (hdigits _ (List.mem_cons_of_mem _ List.mem_cons_self)) (by decide)
  · rfl

/-- The digits of a natural number stand for it. -/
theorem natural?_toString (n : Nat) : natural? (toString n) = some n := by
  have hdigits := isDigit_toDigits n
  have hcanonical := toDigits_canonical n
  have hnumber : numberIn? 10 (Nat.toDigits 10 n) = some n := by
    rw [numberIn?_digits Nat.toDigits_ne_nil hdigits, digitsValue_toDigits]
  unfold natural?
  rw [toList_repr]
  cases hcs : Nat.toDigits 10 n with
  | nil => exact absurd hcs Nat.toDigits_ne_nil
  | cons c cs =>
    rw [hcs] at hdigits hcanonical hnumber
    split
    · next heq =>
      obtain ⟨rfl, -⟩ := List.cons.inj heq
      exact absurd (hdigits _ List.mem_cons_self) (by decide)
    · rw [isPadded_digits hdigits hcanonical, if_neg Bool.false_ne_true, magnitude?_digits hdigits,
        hnumber]

/-! ## Floating-point numbers -/

/-- A number is written as a plain scalar, infinity included. -/
theorem written_float {layout : Layout} (hword : layout.infinity = ".inf") {x : Float}
    (hnan : x.isNaN = false) :
    Written parent (layout.write x).toList (.scalar true (layout.write x)) := by
  suffices hwritten : Written parent (layout.write x).toList
      (.scalar true (String.ofList (layout.write x).toList)) by
    rwa [String.ofList_toList] at hwritten
  cases hinf : x.isInf with
  | false =>
    obtain ⟨cs, hcs, htext | htext⟩ := layout.figures_write hnan hinf
    · exact htext ▸ (written_figures hcs).1
    · exact htext ▸ (written_figures hcs).2
  | true =>
    have hwords : ∀ s ∈ [".inf", "-.inf"], canBePlain s = true := by decide
    have hplain : canBePlain (layout.write x) = true := by
      refine hwords _ ?_
      unfold Layout.write
      dsimp only
      rw [hnan, hinf, if_neg Bool.false_ne_true, if_pos rfl, hword]
      split <;> decide
    exact written_plain (PlainText.of_canBePlain hplain).1 (PlainText.of_canBePlain hplain).2

end Chalkboard.Yaml
