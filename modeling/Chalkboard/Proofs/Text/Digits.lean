import Chalkboard.Text.Digits
import Chalkboard.Text.Quoted

/-!
# Written whole numbers

A natural number is read back from its decimal digits, which start with a zero only if that is all
of them. A run of characters is taken off the head of a text whatever follows it, as long as that
does not go on with the run.
-/

namespace Chalkboard.Text

/-! ## Runs at the head of a text -/

section Runs

variable {α : Type} {p : α → Bool} {xs rest : List α}

theorem takeWhile_append_stop (h : rest.head?.all (!p ·) = true) :
    (xs ++ rest).takeWhile p = xs.takeWhile p := by
  induction xs with
  | nil =>
    cases rest with
    | nil => rfl
    | cons c rest =>
      have hc : p c = false := by simpa using h
      simp [hc]
  | cons x xs ih =>
    rw [List.cons_append, List.takeWhile_cons, List.takeWhile_cons, ih]

theorem dropWhile_append_stop (h : rest.head?.all (!p ·) = true) :
    (xs ++ rest).dropWhile p = xs.dropWhile p ++ rest := by
  induction xs with
  | nil =>
    cases rest with
    | nil => rfl
    | cons c rest =>
      have hc : p c = false := by simpa using h
      simp [hc]
  | cons x xs ih =>
    rw [List.cons_append, List.dropWhile_cons, List.dropWhile_cons, ih]
    split <;> rfl

end Runs

/-! ## Digits -/

theorem digitsValue_toDigits (n : Nat) : digitsValue (Nat.toDigits 10 n) = n := by
  have hfold : digitsValue (Nat.toDigits 10 n) = Nat.ofDigitChars 10 (Nat.toDigits 10 n) 0 :=
    (Nat.ofDigitChars_eq_foldl ..).symm
  rw [hfold, Nat.ofDigitChars_ten_toDigits]

theorem isDigit_toDigits (n : Nat) : ∀ c ∈ Nat.toDigits 10 n, c.isDigit = true := by
  intro c hc
  exact Nat.isDigit_of_mem_toDigits (by decide) (by decide) hc

theorem takeWhile_toDigits (n : Nat) :
    (Nat.toDigits 10 n).takeWhile Char.isDigit = Nat.toDigits 10 n := by
  have hall : (Nat.toDigits 10 n ++ []).takeWhile Char.isDigit = Nat.toDigits 10 n ++ [] :=
    List.takeWhile_append_of_pos (isDigit_toDigits n)
  rwa [List.append_nil] at hall

theorem dropWhile_toDigits (n : Nat) : (Nat.toDigits 10 n).dropWhile Char.isDigit = [] := by
  have hall : (Nat.toDigits 10 n ++ []).dropWhile Char.isDigit = [] :=
    List.dropWhile_append_of_pos (isDigit_toDigits n)
  rwa [List.append_nil] at hall

theorem toList_repr (n : Nat) : (toString n).toList = Nat.toDigits 10 n := by
  rw [Nat.toString_eq_ofList_toDigits, String.toList_ofList]

/-- A negative number is written as a minus and digits. -/
theorem toList_negSucc (n : Nat) :
    (toString (Int.negSucc n)).toList = '-' :: Nat.toDigits 10 (n + 1) := by
  show ("-" ++ toString (n + 1)).toList = _
  rw [String.toList_append, toList_repr]
  rfl

theorem bounds_of_isDigit {c : Char} (h : c.isDigit = true) : '0' ≤ c ∧ c ≤ '9' := by
  rw [Char.isDigit, Bool.and_eq_true, decide_eq_true_eq, decide_eq_true_eq] at h
  exact h

/-- Decimal digits write a number in base ten. -/
theorem numberIn?_digits {cs : List Char} (hne : cs ≠ []) (hdigits : ∀ c ∈ cs, c.isDigit = true) :
    numberIn? 10 cs = some (digitsValue cs) := by
  have hvalues : cs.mapM hexValue? = some (cs.map fun c => c.toNat - '0'.toNat) := by
    clear hne
    induction cs with
    | nil => rfl
    | cons c cs ih =>
      obtain ⟨hc, hcs⟩ := List.forall_mem_cons.1 hdigits
      have hbounds : '0' ≤ c ∧ c ≤ '9' := bounds_of_isDigit hc
      have hvalue : hexValue? c = some (c.toNat - '0'.toNat) := if_pos hbounds
      rw [List.mapM_cons, hvalue, ih hcs]
      rfl
  have hall : (cs.map fun c => c.toNat - '0'.toNat).all (· < 10) = true := by
    rw [List.all_map, List.all_eq_true]
    intro c hc
    have hlast : c.toNat ≤ 57 := (bounds_of_isDigit (hdigits c hc)).2
    exact decide_eq_true (show c.toNat - 48 < 10 by omega)
  have hempty : ¬ cs.isEmpty = true := by
    rw [List.isEmpty_iff]
    exact hne
  rw [numberIn?, if_neg hempty, hvalues, Option.bind_some, if_pos hall, digitsValue, List.foldl_map]

/-- Only zero starts with the digit zero. -/
theorem head?_toDigits {n : Nat} (h : (Nat.toDigits 10 n).head? = some '0') : n = 0 := by
  induction n using Nat.strongRecOn with
  | ind n ih =>
    rw [Nat.toDigits_eq_if (by decide)] at h
    split at h
    · next hlt =>
      have hsmall : ∀ m < 10, [Nat.digitChar m].head? = some '0' → m = 0 := by decide
      exact hsmall n hlt h
    · next hge =>
      have hpos : n / 10 ≠ 0 := by omega
      have hdigits : (Nat.toDigits 10 (n / 10)).head? = some '0' := by
        cases hd : Nat.toDigits 10 (n / 10) with
        | nil => exact absurd hd Nat.toDigits_ne_nil
        | cons c cs =>
          rw [hd] at h
          exact h
      exact absurd (ih (n / 10) (by omega) hdigits) hpos

/-- The digits of a number have no zero in front of others. -/
theorem toDigits_canonical (n : Nat) :
    (Nat.toDigits 10 n).length = 1 ∨ (Nat.toDigits 10 n).head? ≠ some '0' := by
  by_cases h : (Nat.toDigits 10 n).head? = some '0'
  · rw [head?_toDigits h]
    exact .inl rfl
  · exact .inr h

/-! ## Hexadecimal digits -/

/-- The digits of a number, from the leading one on. -/
theorem exists_hexDigits (n : Nat) :
    ∃ ds : List Nat, hexDigits n = ds.map Nat.digitChar ∧ (∀ d ∈ ds, d < 16) ∧
      ds.foldl (fun n d => 16 * n + d) 0 = n := by
  induction n using Nat.strongRecOn with
  | ind n ih =>
    by_cases hlt : n < 16
    · refine ⟨[n], Nat.toDigits_of_lt_base hlt, ?_, ?_⟩
      · intro d hd
        rw [List.mem_singleton.1 hd]
        exact hlt
      · exact Nat.zero_add n
    · obtain ⟨ds, hdigits, hall, hvalue⟩ := ih (n / 16) (by omega)
      refine ⟨ds ++ [n % 16], ?_, ?_, ?_⟩
      · show Nat.toDigits 16 n = _
        rw [Nat.toDigits_of_base_le (by decide) (Nat.le_of_not_lt hlt), List.map_append]
        exact congrArg (· ++ [Nat.digitChar (n % 16)]) hdigits
      · intro d hd
        rcases List.mem_append.1 hd with hd | hd
        · exact hall d hd
        · rw [List.mem_singleton.1 hd]
          exact Nat.mod_lt n (by decide)
      · rw [List.foldl_append, hvalue]
        exact Nat.div_add_mod n 16

/-- Digits in capitals stand for their number. -/
theorem numberIn?_capitals {ds : List Nat} (hall : ∀ d ∈ ds, d < 16) (hne : ds ≠ []) :
    numberIn? 16 ((ds.map Nat.digitChar).map Char.toUpper) =
      some (ds.foldl (fun n d => 16 * n + d) 0) := by
  have hvalues : ((ds.map Nat.digitChar).map Char.toUpper).mapM hexValue? = some ds := by
    rw [List.map_map]
    clear hne
    induction ds with
    | nil => rfl
    | cons d ds ih =>
      have hdigit : ∀ d < 16, hexValue? (Nat.digitChar d).toUpper = some d := by decide
      have hhead := hdigit d (hall d List.mem_cons_self)
      have htail := ih fun e he => hall e (List.mem_cons_of_mem d he)
      rw [List.map_cons, List.mapM_cons]
      exact Option.bind_eq_some_iff.2 ⟨d, hhead, Option.bind_eq_some_iff.2 ⟨ds, htail, rfl⟩⟩
  have hsome : ((ds.map Nat.digitChar).map Char.toUpper).isEmpty = false := by
    simpa using hne
  have hbelow : ds.all (· < 16) = true := by simpa using hall
  unfold numberIn?
  rw [hsome, if_neg Bool.false_ne_true]
  refine Option.bind_eq_some_iff.2 ⟨ds, hvalues, ?_⟩
  rw [if_pos hbelow]

section HexFixed

variable {width n : Nat}

theorem length_hexFixed (hwidth : 0 < width) (n : Nat) : (hexFixed width n).length = width := by
  have hlt : n % Nat.pow 16 width < Nat.pow 16 width := Nat.mod_lt _ (Nat.pow_pos (by decide))
  have hshort : (hexDigits (n % Nat.pow 16 width)).length ≤ width :=
    (Nat.length_toDigits_le_iff (by decide) hwidth).2 hlt
  rw [hexFixed, List.length_append, List.length_replicate]
  exact Nat.sub_add_cancel hshort

theorem exists_hexFixed (h : n < Nat.pow 16 width) :
    ∃ ds : List Nat, hexFixed width n = ds.map Nat.digitChar ∧ (∀ d ∈ ds, d < 16) ∧ ds ≠ [] ∧
      ds.foldl (fun n d => 16 * n + d) 0 = n := by
  obtain ⟨ds, hdigits, hall, hvalue⟩ := exists_hexDigits n
  have hzeros (k : Nat) :
      (List.replicate k 0 ++ ds).foldl (fun n d => 16 * n + d) 0 = n := by
    induction k with
    | zero => exact hvalue
    | succ k ih => exact ih
  refine ⟨List.replicate (width - (hexDigits n).length) 0 ++ ds, ?_, ?_, ?_, hzeros _⟩
  · unfold hexFixed
    rw [Nat.mod_eq_of_lt h, List.map_append, List.map_replicate, ← hdigits]
    rfl
  · intro d hd
    rcases List.mem_append.1 hd with hd | hd
    · rw [List.eq_of_mem_replicate hd]
      decide
    · exact hall d hd
  · have hne : ds ≠ [] := by
      rintro rfl
      exact Nat.toDigits_ne_nil hdigits
    exact fun hnil => hne (List.append_eq_nil_iff.1 hnil).2

/-- A number of a fixed width is read back from its capitals. -/
theorem numberIn?_hexFixed (h : n < Nat.pow 16 width) :
    numberIn? 16 ((hexFixed width n).map Char.toUpper) = some n := by
  obtain ⟨ds, hdigits, hall, hne, hvalue⟩ := exists_hexFixed h
  rw [hdigits, numberIn?_capitals hall hne, hvalue]

theorem mem_hexFixed (h : n < Nat.pow 16 width) {c : Char}
    (hc : c ∈ (hexFixed width n).map Char.toUpper) : ∃ d < 16, (Nat.digitChar d).toUpper = c := by
  obtain ⟨ds, hdigits, hall, -, -⟩ := exists_hexFixed h
  rw [hdigits, List.map_map] at hc
  obtain ⟨d, hd, rfl⟩ := List.mem_map.1 hc
  exact ⟨d, hall d hd, rfl⟩

end HexFixed

end Chalkboard.Text
