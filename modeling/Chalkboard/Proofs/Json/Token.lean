import Chalkboard.Decimal.Literal
import Chalkboard.Json.Printer
import Chalkboard.Json.Tree
import Chalkboard.Proofs.Text.Digits

/-!
# Tokens of written JSON

A string is written as one token, with every character that needs it escaped, and reading that token
gives the string back. So does the text of a whole number in range. Of other numbers it depends on
how well their digits are read (`Number.ReadsBack`). Each token ends by itself, except that a number
goes on over everything that can be part of one.
-/

namespace Chalkboard.Json

/-! ## Strings -/

/-- A character is written with a short escape, by its code, or as it is. -/
theorem escapeChar_cases (c : Char) :
    (∃ e, escapeChar c = ['\\', e] ∧ e ≠ 'u' ∧ shortEscape? e = some c) ∨
      (escapeChar c = '\\' :: 'u' :: Text.hexFixed 4 c.toNat ∧ c.toNat < 32) ∨
      (escapeChar c = [c] ∧ c ≠ '"' ∧ c ≠ '\\' ∧ 32 ≤ c.toNat) := by
  have hcode {n : Nat} (h : c.toNat = n) : Char.ofNat n = c := h ▸ Char.ofNat_toNat c
  unfold escapeChar
  split
  · next h => exact .inl ⟨'"', rfl, by decide, congrArg some h.symm⟩
  · next hquote =>
    split
    · next h => exact .inl ⟨'\\', rfl, by decide, congrArg some h.symm⟩
    · next hback =>
      split
      · next h => exact .inl ⟨'b', rfl, by decide, congrArg some (hcode h)⟩
      · split
        · next h => exact .inl ⟨'f', rfl, by decide, congrArg some (hcode h)⟩
        · split
          · next h => exact .inl ⟨'n', rfl, by decide, congrArg some h.symm⟩
          · split
            · next h => exact .inl ⟨'r', rfl, by decide, congrArg some h.symm⟩
            · split
              · next h => exact .inl ⟨'t', rfl, by decide, congrArg some h.symm⟩
              · split
                · next h => exact .inr (.inl ⟨rfl, h⟩)
                · next h => exact .inr (.inr ⟨rfl, hquote, hback, Nat.le_of_not_lt h⟩)

/-- The digits of a control write its code. -/
theorem hex4?_hexFixed {n : Nat} (hn : n < 32) :
    ∃ a b c d, Text.hexFixed 4 n = [a, b, c, d] ∧ hex4? a b c d = some n := by
  have hcodes : ∀ n < 32, (Text.hexFixed 4 n).length = 4 ∧
      Text.numberIn? 16 (Text.hexFixed 4 n) = some n := by decide
  obtain ⟨hlength, hvalue⟩ := hcodes n hn
  match hdigits : Text.hexFixed 4 n, hlength with
  | [a, b, c, d], _ =>
    rw [hdigits] at hvalue
    exact ⟨a, b, c, d, rfl, hvalue⟩

/-- A code outside the surrogates stands for its character, whatever follows. -/
theorem joinUnits_escaped {n : Nat} (hn : n < 0xd800) (units : List Unit16) :
    joinUnits (.escaped n :: units) = (joinUnits units).map (Char.ofNat n :: ·) := by
  have hsingle : n < 0xd800 ∨ 0xe000 ≤ n := .inl hn
  cases units with
  | nil => simp [joinUnits, hsingle]
  | cons unit units => cases unit <;> simp [joinUnits, hsingle]

/-- The units of a string up to its closing quote stand for the string. -/
theorem stringUnits?_escaped (s rest : List Char) :
    ∃ units, stringUnits? (s.flatMap escapeChar ++ '"' :: rest) = some (units, rest) ∧
      joinUnits units = some s := by
  induction s with
  | nil => exact ⟨[], rfl, rfl⟩
  | cons c s ih =>
    obtain ⟨units, hunits, hjoin⟩ := ih
    have hchar : joinUnits (.char c :: units) = some (c :: s) := by
      rw [joinUnits, hjoin]
      rfl
    rw [List.flatMap_cons, List.append_assoc]
    rcases escapeChar_cases c with ⟨e, he, hcode, hshort⟩ | ⟨he, hcontrol⟩ | ⟨he, hquote, hback, hlow⟩
    · refine ⟨.char c :: units, ?_, hchar⟩
      rw [he]
      simp [stringUnits?, hcode, hshort, hunits]
    · obtain ⟨a, b, d, f, hfixed, hvalue⟩ := hex4?_hexFixed hcontrol
      refine ⟨.escaped c.toNat :: units, ?_, ?_⟩
      · rw [he, hfixed]
        simp [stringUnits?, hvalue, hunits]
      · rw [joinUnits_escaped (by omega), hjoin, Char.ofNat_toNat]
        rfl
    · refine ⟨.char c :: units, ?_, hchar⟩
      rw [he]
      simp [stringUnits?, hback, hlow, hunits]

/-- A string is read as it was written, whatever follows. -/
theorem token?_writeString (s : String) (rest : List Char) :
    token? ((writeString s).toList ++ rest) = some (.string (some s), rest) := by
  obtain ⟨units, hunits, hjoin⟩ := stringUnits?_escaped s.toList rest
  have htext : (writeString s).toList ++ rest =
      '"' :: (s.toList.flatMap escapeChar ++ '"' :: rest) := by simp [writeString]
  rw [htext]
  simp [token?, hunits, hjoin]

/-! ## Numbers -/

/-- Nothing at the head of the text could be part of a number. -/
def Stops (rest : List Char) : Prop :=
  rest.head?.all (fun c => !(c.isDigit || c == '.' || c == 'e' || c == 'E')) = true

section Parts

variable {cs rest after : List Char}

theorem Stops.all (h : Stops rest) {p : Char → Bool}
    (hp : ∀ c, p c = true → (c.isDigit || c == '.' || c == 'e' || c == 'E') = true) :
    rest.head?.all (fun c => !p c) = true := by
  cases rest with
  | nil => rfl
  | cons c rest =>
    rw [List.head?_cons, Option.all_some, Bool.not_eq_true']
    rw [Stops, List.head?_cons, Option.all_some, Bool.not_eq_true'] at h
    refine Bool.eq_false_iff.2 fun hc => ?_
    rw [hp c hc] at h
    cases h

theorem Stops.digit (h : Stops rest) : rest.head?.all (fun c => !c.isDigit) = true :=
  h.all fun c hc => by simp [hc]

/-- The sign is read off the head, if there is a head at all. -/
theorem splitSign_append (h : cs ≠ []) :
    Decimal.splitSign (cs ++ rest) = ((Decimal.splitSign cs).1, (Decimal.splitSign cs).2 ++ rest) := by
  cases cs with
  | nil => exact absurd rfl h
  | cons c cs =>
    unfold Decimal.splitSign
    split <;> simp_all

theorem exponentPart?_cons {e : Char} (he : e = 'e' ∨ e = 'E') :
    exponentPart? (e :: cs) =
      if ((Decimal.splitSign cs).2.takeWhile Char.isDigit).isEmpty then none
      else
        let n : Int := Text.digitsValue ((Decimal.splitSign cs).2.takeWhile Char.isDigit)
        some (some (if (Decimal.splitSign cs).1 then -n else n),
          (Decimal.splitSign cs).2.dropWhile Char.isDigit) := by
  exact if_pos he

/-- What is read of an exponent is read whatever follows. -/
theorem exponentPart?_append (hs : Stops rest) {x : Option Int}
    (h : exponentPart? cs = some (x, after)) :
    exponentPart? (cs ++ rest) = some (x, after ++ rest) := by
  cases cs with
  | nil =>
    cases h
    cases rest with
    | nil => rfl
    | cons c rest =>
      have hc : ¬ (c = 'e' ∨ c = 'E') := by
        rw [Stops] at hs
        simp_all
      simp [exponentPart?, hc]
  | cons e cs =>
    by_cases he : e = 'e' ∨ e = 'E'
    · have hne : cs ≠ [] := by
        rintro rfl
        rw [exponentPart?_cons he] at h
        cases h
      rw [exponentPart?_cons he] at h
      rw [List.cons_append, exponentPart?_cons he, splitSign_append hne]
      simp only [Text.takeWhile_append_stop hs.digit, Text.dropWhile_append_stop hs.digit]
      split at h
      · cases h
      · next hdigits =>
        cases h
        rw [if_neg hdigits]
    · have hnone : exponentPart? (e :: cs) = some (none, e :: cs) := if_neg he
      rw [hnone] at h
      cases h
      exact if_neg he

/-- So is what is read of a fraction. -/
theorem fractionPart?_append (hs : Stops rest) {x : List Char}
    (h : fractionPart? cs = some (x, after)) :
    fractionPart? (cs ++ rest) = some (x, after ++ rest) := by
  by_cases hpoint : cs.head? = some '.'
  · obtain ⟨digits, rfl⟩ : ∃ digits, cs = '.' :: digits := List.head?_eq_some_iff.1 hpoint
    rw [List.cons_append]
    simp only [fractionPart?, Text.takeWhile_append_stop hs.digit,
      Text.dropWhile_append_stop hs.digit] at h ⊢
    split at h
    · cases h
    · next hdigits =>
      cases h
      rw [if_neg hdigits]
  · have hnone (r : List Char) (hr : r.head? ≠ some '.') : fractionPart? r = some ([], r) := by
      unfold fractionPart?
      split
      · exact absurd rfl hr
      · rfl
    rw [hnone cs hpoint] at h
    cases h
    refine hnone _ ?_
    cases cs with
    | nil =>
      intro hhead
      have hhead : rest.head? = some '.' := hhead
      rw [Stops, hhead] at hs
      cases hs
    | cons c cs => exact hpoint

/-- A number behind its sign. -/
def unsigned? (negative : Bool) (cs : List Char) : Option (Option Number × List Char) := do
  let whole := cs.takeWhile Char.isDigit
  guard (!whole.isEmpty && (whole.length == 1 || whole.head? != some '0'))
  let (fraction, rest) ← fractionPart? (cs.dropWhile Char.isDigit)
  let (exponent, rest) ← exponentPart? rest
  if fraction.isEmpty && exponent.isNone then pure (integerNumber negative whole, rest)
  else pure ((Decimal.scaled? whole fraction (exponent.getD 0)).map (signed negative), rest)

theorem number?_minus (cs : List Char) : number? ('-' :: cs) = unsigned? true cs := rfl

theorem number?_digit {c : Char} (hc : c ≠ '-') (cs : List Char) :
    number? (c :: cs) = unsigned? false (c :: cs) := by
  have hsign : ∃ p : Bool × List Char,
      number? (c :: cs) = unsigned? p.1 p.2 ∧ p = (false, c :: cs) := by
    refine ⟨_, rfl, ?_⟩
    split
    · next h => exact absurd (List.cons.inj h).1 hc
    · rfl
  obtain ⟨p, hread, rfl⟩ := hsign
  exact hread

theorem unsigned?_append (hs : Stops rest) {negative : Bool} {v : Option Number}
    (h : unsigned? negative cs = some (v, after)) :
    unsigned? negative (cs ++ rest) = some (v, after ++ rest) := by
  obtain ⟨u, hguard, h⟩ := Option.bind_eq_some_iff.1 h
  obtain ⟨⟨fraction, behind⟩, hfraction, h⟩ := Option.bind_eq_some_iff.1 h
  obtain ⟨⟨exponent, behind'⟩, hexponent, h⟩ := Option.bind_eq_some_iff.1 h
  unfold unsigned?
  rw [Text.takeWhile_append_stop hs.digit, Text.dropWhile_append_stop hs.digit]
  refine Option.bind_eq_some_iff.2 ⟨u, hguard, ?_⟩
  refine Option.bind_eq_some_iff.2 ⟨_, fractionPart?_append hs hfraction, ?_⟩
  refine Option.bind_eq_some_iff.2 ⟨_, exponentPart?_append hs hexponent, ?_⟩
  dsimp only at h ⊢
  split at h
  · next hwhole =>
    cases h
    rw [if_pos hwhole]
    rfl
  · next hwhole =>
    cases h
    rw [if_neg hwhole]
    rfl

/-- A number is read whatever follows, unless that could be part of it. -/
theorem number?_append (hs : Stops rest) {v : Option Number} (h : number? cs = some (v, after)) :
    number? (cs ++ rest) = some (v, after ++ rest) := by
  cases cs with
  | nil => cases h
  | cons c cs =>
    by_cases hc : c = '-'
    · subst hc
      exact unsigned?_append hs h
    · rw [number?_digit hc] at h
      rw [List.cons_append, number?_digit hc]
      exact unsigned?_append hs h

/-- A number starts with its sign or with a digit. -/
theorem head_of_number? {v : Option Number} (h : number? cs = some (v, after)) :
    ∃ c r, cs = c :: r ∧ (c = '-' ∨ c.isDigit = true) := by
  cases cs with
  | nil => cases h
  | cons c cs =>
    by_cases hc : c = '-'
    · exact ⟨c, cs, rfl, .inl hc⟩
    · rw [number?_digit hc] at h
      obtain ⟨u, hguard, -⟩ := Option.bind_eq_some_iff.1 h
      refine ⟨c, cs, rfl, .inr ?_⟩
      cases hdigit : c.isDigit with
      | true => rfl
      | false =>
        have hnone : ((c :: cs).takeWhile Char.isDigit).isEmpty = true := by simp [hdigit]
        rw [hnone] at hguard
        cases hguard

end Parts

/-- A number is read as its token, whatever follows, unless that could be part of it. -/
theorem token?_number {cs rest : List Char} (hs : Stops rest) {n : Number}
    (h : number? cs = some (some n, [])) :
    token? (cs ++ rest) = some (.number (some n), rest) := by
  obtain ⟨c, r, rfl, hc⟩ := head_of_number? h
  have hnumber : number? (c :: (r ++ rest)) = some (some n, rest) := number?_append hs h
  have htoken : token? (c :: (r ++ rest)) =
      (number? (c :: (r ++ rest))).map fun read => (.number read.1, read.2) := by
    rcases hc with rfl | hdigit
    · rfl
    · -- no other token starts with a digit
      unfold token?
      split <;> rename_i heq
      case h_12 =>
        obtain ⟨rfl, rfl⟩ := List.cons.inj heq
        exact if_pos (.inr hdigit)
      case h_1 => cases heq
      all_goals
        obtain ⟨rfl, -⟩ := List.cons.inj heq
        exact absurd hdigit (by decide)
  rw [List.cons_append, htoken, hnumber]
  rfl

end Chalkboard.Json

namespace Chalkboard

open Json

namespace Number

/-- A number is read back from its text. -/
def ReadsBack (n : Number) : Prop :=
  number? (writeNumber n).toList = some (some n, [])

theorem ReadsBack.token? {n : Number} (hn : n.ReadsBack) {rest : List Char} (hs : Stops rest) :
    Json.token? ((writeNumber n).toList ++ rest) = some (.number (some n), rest) :=
  token?_number hs hn

/-- The digits of a natural number are read up to their end. -/
theorem unsigned?_toDigits (negative : Bool) (n : Nat) :
    unsigned? negative (Nat.toDigits 10 n) =
      some (integerNumber negative (Nat.toDigits 10 n), []) := by
  have htake := Text.takeWhile_toDigits n
  have hdrop := Text.dropWhile_toDigits n
  have hcanonical : ((Nat.toDigits 10 n).length == 1 || (Nat.toDigits 10 n).head? != some '0') =
      true := by
    simpa using Text.toDigits_canonical n
  have hsome : (Nat.toDigits 10 n).isEmpty = false := by simp
  have hguard : (guard (!(Nat.toDigits 10 n).isEmpty && ((Nat.toDigits 10 n).length == 1 ||
      (Nat.toDigits 10 n).head? != some '0')) : Option Unit) = some () := by
    rw [hcanonical, hsome]
    rfl
  unfold unsigned?
  rw [htake, hdrop]
  exact Option.bind_eq_some_iff.2 ⟨(), hguard, rfl⟩

theorem number?_toDigits (n : Nat) :
    number? (Nat.toDigits 10 n) = some (integerNumber false (Nat.toDigits 10 n), []) := by
  rw [← unsigned?_toDigits]
  have hdigit := Text.isDigit_toDigits n
  cases hdigits : Nat.toDigits 10 n with
  | nil => exact absurd hdigits Nat.toDigits_ne_nil
  | cons c cs =>
    rw [hdigits] at hdigit
    refine number?_digit ?_ cs
    rintro rfl
    exact absurd (hdigit '-' List.mem_cons_self) (by decide)

/-- Every whole number in range is read back. -/
theorem readsBack_integer {n : Int} (hlow : -((Nat.pow 2 63 : Nat) : Int) ≤ n)
    (hhigh : n < (UInt64.size : Nat)) : (Number.integer n).ReadsBack := by
  cases n with
  | ofNat n =>
    have htext : (writeNumber (.integer (Int.ofNat n))).toList = Nat.toDigits 10 n :=
      Text.toList_repr n
    have hvalue : integerNumber false (Nat.toDigits 10 n) = some (.integer n) := by
      have hsize : n < UInt64.size := Int.ofNat_lt.1 hhigh
      simp [integerNumber, Text.digitsValue_toDigits, hsize]
    rw [ReadsBack, htext, number?_toDigits, hvalue]
    rfl
  | negSucc n =>
    have htext : (writeNumber (.integer (Int.negSucc n))).toList =
        '-' :: Nat.toDigits 10 (n + 1) := Text.toList_negSucc n
    have hvalue : integerNumber true (Nat.toDigits 10 (n + 1)) = some (.integer (Int.negSucc n)) := by
      have hsize : 0 < n + 1 ∧ n + 1 ≤ Nat.pow 2 63 := by
        rw [Int.negSucc_eq] at hlow
        omega
      simp only [integerNumber, Text.digitsValue_toDigits]
      rw [if_pos ⟨trivial, hsize⟩]
      rfl
    rw [ReadsBack, htext, number?_minus, unsigned?_toDigits, hvalue]

/-- A number is read back if its digits, divided by a power of ten, give it again. -/
theorem readsBack_of_scaled {x : Float} (text : String) (y : Float) (power : Nat) (negative : Bool)
    (htext : writeNumber (.real x) = text)
    (hread : number? text.toList =
      some (some (signed negative (Decimal.scaleDown y power)), []))
    (hpower : power ≤ Decimal.maxPower)
    (hx : (if negative then -(y / Decimal.tenTo power) else y / Decimal.tenTo power) = x) :
    (Number.real x).ReadsBack := by
  rw [ReadsBack, htext, hread, Decimal.scaleDown, if_pos hpower, signed, hx]

end Number

end Chalkboard
