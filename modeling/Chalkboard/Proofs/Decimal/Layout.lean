import Chalkboard.Decimal.Layout
import Chalkboard.Proofs.Text.Digits

/-!
# What written numbers look like

Every layout writes a finite number with digits, signs, points and the letter of the exponent, and
begins with a digit or with a minus in front of one.
-/

namespace Chalkboard.Decimal

/-- The characters of finite numbers. -/
def isFigure (c : Char) : Bool :=
  c.isDigit || c = '-' || c = '+' || c = '.' || c = 'e'

/-- A text of such characters, with a digit at its head. -/
def Figures (cs : List Char) : Prop :=
  cs.head?.any Char.isDigit = true ∧ ∀ c ∈ cs, isFigure c = true

theorem isFigure_of_isDigit {c : Char} (h : c.isDigit = true) : isFigure c = true := by
  simp [isFigure, h]

theorem Figures.ofDigits {cs : List Char} (hne : cs ≠ []) (h : ∀ c ∈ cs, c.isDigit = true) :
    Figures cs := by
  refine ⟨?_, fun c hc => isFigure_of_isDigit (h c hc)⟩
  cases cs with
  | nil => exact absurd rfl hne
  | cons c cs => exact h c List.mem_cons_self

theorem Figures.ne_nil {cs : List Char} (h : Figures cs) : cs ≠ [] := by
  rintro rfl
  cases h.1

theorem figures_toDigits (n : Nat) : Figures (Nat.toDigits 10 n) :=
  .ofDigits Nat.toDigits_ne_nil (Text.isDigit_toDigits n)

/-- Figures may follow figures. -/
theorem Figures.append {cs ds : List Char} (h : Figures cs) (hds : ∀ c ∈ ds, isFigure c = true) :
    Figures (cs ++ ds) := by
  obtain ⟨hhead, hall⟩ := h
  refine ⟨?_, fun c hc => (List.mem_append.1 hc).elim (hall c) (hds c)⟩
  cases cs with
  | nil => cases hhead
  | cons c cs => exact hhead

theorem isFigure_zeros {n : Nat} {c : Char} (h : c ∈ List.replicate n '0') : isFigure c = true := by
  rw [List.eq_of_mem_replicate h]
  rfl

theorem isFigure_toString (n : Int) {c : Char} (h : c ∈ (toString n).toList) :
    isFigure c = true := by
  cases n with
  | ofNat n =>
    have hc : c ∈ Nat.toDigits 10 n := Text.toList_repr n ▸ h
    exact isFigure_of_isDigit (Text.isDigit_toDigits n c hc)
  | negSucc n =>
    rw [Text.toList_negSucc] at h
    rcases List.mem_cons.1 h with rfl | hc
    · rfl
    · exact isFigure_of_isDigit (Text.isDigit_toDigits (n + 1) c hc)

theorem figures_positionalChars {digits : List Char} (h : Figures digits) (lead : Int)
    (keepsPoint : Bool) : Figures (positionalChars digits lead keepsPoint) := by
  cases lead with
  | negSucc below =>
    refine ⟨rfl, fun c hc => ?_⟩
    rcases List.mem_cons.1 hc with rfl | hc
    · rfl
    · rcases List.mem_cons.1 hc with rfl | hc
      · rfl
      · exact (List.mem_append.1 hc).elim isFigure_zeros (h.2 c)
  | ofNat above =>
    unfold positionalChars
    dsimp only
    split
    · rw [List.append_assoc]
      refine h.append fun c hc => ?_
      rcases List.mem_append.1 hc with hc | hc
      · exact isFigure_zeros hc
      · split at hc
        · rcases List.mem_cons.1 hc with rfl | hc
          · rfl
          · rw [List.mem_singleton.1 hc]
            rfl
        · cases hc
    · have htake : Figures (digits.take (above + 1)) := by
        refine ⟨?_, fun c hc => h.2 c (List.mem_of_mem_take hc)⟩
        cases digits with
        | nil => exact h.1
        | cons c digits => exact h.1
      refine htake.append fun c hc => ?_
      rcases List.mem_cons.1 hc with rfl | hc
      · rfl
      · exact h.2 c (List.mem_of_mem_drop hc)

theorem figures_scientificChars {digits : List Char} (h : Figures digits) (lead : Int)
    (plusExponent : Bool) : Figures (scientificChars digits lead plusExponent) := by
  have hexponent : ∀ c ∈ (if plusExponent && decide (0 ≤ lead) then ['+'] else []) ++
      (toString lead).toList, isFigure c = true := by
    intro c hc
    rcases List.mem_append.1 hc with hc | hc
    · split at hc
      · rw [List.mem_singleton.1 hc]
        rfl
      · cases hc
    · exact isFigure_toString lead hc
  obtain ⟨hhead, hall⟩ := h
  cases digits with
  | nil => cases hhead
  | cons d digits =>
    cases digits with
    | nil =>
      refine ⟨hhead, fun c hc => ?_⟩
      rcases List.mem_cons.1 hc with rfl | hc
      · exact hall _ List.mem_cons_self
      · rcases List.mem_cons.1 hc with rfl | hc
        · rfl
        · exact hexponent c hc
    | cons d' digits =>
      refine ⟨hhead, fun c hc => ?_⟩
      rcases List.mem_cons.1 hc with rfl | hc
      · exact hall _ List.mem_cons_self
      · rcases List.mem_cons.1 hc with rfl | hc
        · rfl
        · rcases List.mem_append.1 hc with hc | hc
          · exact hall c (List.mem_cons_of_mem d hc)
          · rcases List.mem_cons.1 hc with rfl | hc
            · rfl
            · exact hexponent c hc

/-- A finite number is written as figures, perhaps behind a minus. -/
theorem Layout.figures_write (layout : Layout) {x : Float} (hnan : x.isNaN = false)
    (hinf : x.isInf = false) :
    ∃ cs, Figures cs ∧ ((layout.write x).toList = cs ∨ (layout.write x).toList = '-' :: cs) := by
  refine ⟨layout.magnitude (Decimal.ofFloat x), ?_, ?_⟩
  · have hdigits : Figures (Decimal.ofFloat x).digits := figures_toDigits _
    have heither (positional : Bool) : Figures
        (if positional then
          positionalChars (Decimal.ofFloat x).digits (Decimal.ofFloat x).leading layout.keepsPoint
        else scientificChars (Decimal.ofFloat x).digits (Decimal.ofFloat x).leading
          layout.plusExponent) := by
      cases positional with
      | true => exact figures_positionalChars hdigits _ _
      | false => exact figures_scientificChars hdigits _ _
    exact heither _
  · unfold Layout.write
    dsimp only
    rw [if_neg (Bool.eq_false_iff.1 hnan), if_neg (Bool.eq_false_iff.1 hinf), String.toList_ofList]
    split
    · exact .inr rfl
    · exact .inl rfl

end Chalkboard.Decimal
