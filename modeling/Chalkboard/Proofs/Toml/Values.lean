import Chalkboard.Proofs.Decimal.Layout
import Chalkboard.Proofs.Toml.Strings
import Chalkboard.Toml.Reader

/-!
# Values in TOML

Written values are read back: strings, truth values, numbers, and arrays of these.
-/

namespace Chalkboard.Toml

open Text

/-! ## Numbers -/

theorem doubled_eq_false {cs : List Char} (h : '_' ∉ cs) : plainDigits?.doubled cs = false := by
  induction cs with
  | nil => rfl
  | cons c cs ih =>
    unfold plainDigits?.doubled
    split
    · next heq => exact absurd ((List.cons.inj heq).1 ▸ List.mem_cons_self) h
    · next heq => exact (List.cons.inj heq).2 ▸ ih fun hmem => h (List.mem_cons_of_mem c hmem)
    · next heq => cases heq

theorem leadingDigits?_toDigits (n : Nat) :
    leadingDigits? (Nat.toDigits 10 n) = some (Nat.toDigits 10 n) := by
  have hplain : '_' ∉ Nat.toDigits 10 n := Nat.underscore_not_in_toDigits
  have hfilter : (Nat.toDigits 10 n).filter (· != '_') = Nat.toDigits 10 n := by
    refine List.filter_eq_self.2 fun c hc => bne_iff_ne.2 ?_
    rintro rfl
    exact hplain hc
  have hplaced : ((Nat.toDigits 10 n).head? != some '_' && (Nat.toDigits 10 n).getLast? != some '_' &&
      !plainDigits?.doubled (Nat.toDigits 10 n)) = true := by
    have hhead : (Nat.toDigits 10 n).head? ≠ some '_' := fun h => hplain (List.mem_of_mem_head? h)
    have hlast : (Nat.toDigits 10 n).getLast? ≠ some '_' :=
      fun h => hplain (List.mem_of_mem_getLast? h)
    simp [hhead, hlast, doubled_eq_false hplain]
  have hall : (Nat.toDigits 10 n).all Char.isDigit = true :=
    List.all_eq_true.2 (isDigit_toDigits n)
  have hdigits : plainDigits? Char.isDigit (Nat.toDigits 10 n) = some (Nat.toDigits 10 n) := by
    unfold plainDigits?
    dsimp only
    rw [hfilter, hplaced, hall]
    simp
  unfold leadingDigits?
  rw [hdigits, Option.filter_some, if_pos]
  simpa using toDigits_canonical n

/-- Digits behind a sign, or without one, are a whole number. -/
theorem number?_of_splitSign {cs : List Char} {negative : Bool} {n : Nat}
    (hsign : Decimal.splitSign cs = (negative, Nat.toDigits 10 n))
    (hbase : ∀ c ∈ cs, c ≠ 'x' ∧ c ≠ 'o' ∧ c ≠ 'b') :
    number? cs = wholeNumber? (if negative then -(n : Int) else n) := by
  have hdigit := isDigit_toDigits n
  have hinf : Nat.toDigits 10 n ≠ ['i', 'n', 'f'] := by
    intro h
    exact absurd (hdigit 'i' (h ▸ List.mem_cons_self)) (by decide)
  have hnan : Nat.toDigits 10 n ≠ ['n', 'a', 'n'] := by
    intro h
    exact absurd (hdigit 'n' (h ▸ List.mem_cons_self)) (by decide)
  have hsecond {c d : Char} {cs : List Char} : d ∈ c :: d :: cs :=
    List.mem_cons_of_mem c List.mem_cons_self
  unfold number?
  split
  · exact absurd rfl (hbase 'x' hsecond).1
  · exact absurd rfl (hbase 'o' hsecond).2.1
  · exact absurd rfl (hbase 'b' hsecond).2.2
  · rw [hsign]
    dsimp only
    rw [if_neg hinf, if_neg hnan, leadingDigits?_toDigits]
    dsimp only
    rw [digitsValue_toDigits]

/-- Every whole number in range is read back. -/
theorem number?_toString {n : Int} (hlow : Int64.minValue.toInt ≤ n)
    (hhigh : n ≤ Int64.maxValue.toInt) : number? (toString n).toList = some (.integer n) := by
  have hwhole : wholeNumber? n = some (.integer n) := if_pos ⟨hlow, hhigh⟩
  have hbase {c : Char} (h : Decimal.isFigure c = true) : c ≠ 'x' ∧ c ≠ 'o' ∧ c ≠ 'b' := by
    refine ⟨?_, ?_, ?_⟩ <;> rintro rfl <;> exact absurd h (by decide)
  have hsign : Decimal.splitSign (toString n).toList =
      (decide (n < 0), Nat.toDigits 10 n.natAbs) := by
    cases n with
    | ofNat n =>
      have htext : (toString (Int.ofNat n)).toList = Nat.toDigits 10 n := toList_repr n
      rw [htext]
      have hdigit := isDigit_toDigits n
      unfold Decimal.splitSign
      split
      · next h => exact absurd (hdigit '+' (h ▸ List.mem_cons_self)) (by decide)
      · next h => exact absurd (hdigit '-' (h ▸ List.mem_cons_self)) (by decide)
      · rfl
    | negSucc n =>
      rw [toList_negSucc, decide_eq_true (Int.negSucc_lt_zero n)]
      rfl
  rw [number?_of_splitSign hsign fun c hc => hbase (Decimal.isFigure_toString n hc), ← hwhole]
  congr 1
  split
  · next hneg =>
    have hneg := of_decide_eq_true hneg
    omega
  · next hpos =>
    have hpos := of_decide_eq_false (Bool.eq_false_iff.2 hpos)
    omega

/-! ## Words -/

theorem isWordChar_of_isFigure {c : Char} (h : Decimal.isFigure c = true) : isWordChar c = true := by
  simp only [Decimal.isFigure, Bool.or_eq_true, decide_eq_true_eq] at h
  rcases h with (((h | rfl) | rfl) | rfl) | rfl
  · simp [isWordChar, Char.isAlphanum, h]
  all_goals rfl

section Words

variable {cs rest : List Char} {v : Value}

theorem scans_word_bool (b : Bool) (hrest : rest.head?.all (!isWordChar ·) = true) :
    Scans word (if b then "true" else "false").toList (.bool b) rest := by
  cases b with
  | true =>
    have hword : Scans (Scan.takeWhile isWordChar) "true".toList "true".toList rest :=
      Scans.takeWhile (List.all_eq_true.1 (by decide)) hrest
    exact Scans.map hword rfl
  | false =>
    have hword : Scans (Scan.takeWhile isWordChar) "false".toList "false".toList rest :=
      Scans.takeWhile (List.all_eq_true.1 (by decide)) hrest
    exact Scans.map hword rfl

theorem scans_word_number (hv : number? cs = some v) (hword : ∀ c ∈ cs, isWordChar c = true)
    (hrest : rest.head?.all (!isWordChar ·) = true) : Scans word cs v rest := by
  refine Scans.map (Scans.takeWhile hword hrest) ?_
  have htrue : cs ≠ ['t', 'r', 'u', 'e'] := by
    rintro rfl
    cases hv
  have hfalse : cs ≠ ['f', 'a', 'l', 's', 'e'] := by
    rintro rfl
    cases hv
  rw [if_neg htrue, if_neg hfalse, hv]

end Words

/-! ## Blanks -/

section Blanks

variable {rest : List Char} {fuel : Nat}

/-- A character that begins no blank, no comment and no line break. -/
def isSolid (c : Char) : Bool :=
  !([' ', '\t', '#', '\n', '\r'].contains c)

/-- It is enough to look at the five characters that are not solid. -/
theorem isSolid_of {p : Char → Bool} (hp : [' ', '\t', '#', '\n', '\r'].all (!p ·) = true) (c : Char)
    (hc : p c = true) : isSolid c = true := by
  rw [isSolid, Bool.not_eq_true', Bool.eq_false_iff]
  intro hmem
  have hnone := List.all_eq_true.1 hp c (List.contains_iff_mem.1 hmem)
  rw [hc] at hnone
  cases hnone

/-- Something begins here. -/
abbrev Solid (rest : List Char) : Prop :=
  Begins isSolid rest

theorem scans_spacing (n : Nat) (hrest : rest.head?.all (!isSpacing ·) = true) :
    Scans spacing (List.replicate n ' ') () rest := by
  refine Scans.map (Scans.takeWhile ?_ hrest) rfl
  intro c hc
  rw [List.eq_of_mem_replicate hc]
  rfl

theorem Solid.scans_spacing (h : Solid rest) (n : Nat) :
    Scans spacing (List.replicate n ' ') () rest := by
  refine Toml.scans_spacing n (h.stops fun c hc => ?_)
  simp only [isSpacing, Bool.or_eq_true, decide_eq_true_eq] at hc
  rcases hc with rfl | rfl <;> rfl

theorem scans_comment (h : rest.head? ≠ some '#') : Scans comment [] () rest := by
  refine Scans.look (Scans.peek?_look rest) ?_
  rw [if_neg h]
  exact Scans.pure () rest

theorem Solid.scans_comment (h : Solid rest) : Scans comment [] () rest :=
  Toml.scans_comment (h.ne rfl)

theorem Solid.scans_lineBreak (h : Solid rest) : Scans lineBreak [] false rest :=
  scans_lineBreak_none (h.ne rfl) (h.ne rfl)

theorem Solid.scans_gaps (h : Solid rest) (n fuel : Nat) :
    Scans (gaps (fuel + 1)) (List.replicate n ' ') () rest := by
  refine Scans.last (h.scans_spacing n) (Scans.look h.scans_comment ?_)
  exact Scans.look h.scans_lineBreak (Scans.pure () rest)

/-- The beginning of the next line is passed, up to what stands there. -/
theorem Solid.scans_newLine (h : Solid rest) (n fuel : Nat) :
    Scans (gaps (fuel + 2)) ('\n' :: List.replicate n ' ') () rest := by
  have hspacing : Scans spacing [] () ('\n' :: List.replicate n ' ' ++ rest) :=
    Toml.scans_spacing 0 rfl
  refine Scans.look hspacing (Scans.look (Toml.scans_comment nofun) ?_)
  exact Scans.bind (Toml.scans_lineBreak (List.replicate n ' ' ++ rest)) (h.scans_gaps n fuel)

end Blanks

/-! ## Values -/

/-- A value that holds no others, in range, whose number is read back. -/
def Value.Atomic : Value → Prop
  | .string _ | .bool _ => True
  | .integer n => Int64.minValue.toInt ≤ n ∧ n ≤ Int64.maxValue.toInt
  | .float x => number? (numberLayout.write x).toList = some (.float x)
  | _ => False

/-- Such a value, or an array of such values. -/
def Value.Flat : Value → Prop
  | .array items => ∀ item ∈ items, item.Atomic
  | v => v.Atomic

/-- A value ends here. -/
abbrev Ends (rest : List Char) : Prop :=
  Begins (fun c => c = ',' || c = '\n') rest

theorem Ends.word {rest : List Char} (h : Ends rest) : rest.head?.all (!isWordChar ·) = true := by
  refine h.stops fun c hc => ?_
  rw [Bool.or_eq_false_iff, decide_eq_false_iff_not, decide_eq_false_iff_not]
  constructor <;> rintro rfl <;> cases hc

section Values

variable {depth fuel : Nat} {cs rest : List Char} {v : Value}

theorem value_word (hne : cs ≠ []) (hword : ∀ c ∈ cs, isWordChar c = true)
    (h : Scans word cs v rest) (depth fuel : Nat) : Scans (value depth (fuel + 1)) cs v rest := by
  have hbegins : Begins isWordChar (cs ++ rest) := (begins_of_forall hne hword).append rest
  unfold value
  refine Scans.look (Scans.peek?_look (cs ++ rest)) ?_
  split
  · next h => rw [Begins, h] at hbegins; cases hbegins
  · next h => exact absurd h (hbegins.ne (by decide))
  · next h => exact absurd h (hbegins.ne (by decide))
  · next h => exact absurd h (hbegins.ne (by decide))
  · next c _ _ _ hhead =>
    have hbrace : c.toNat ≠ 0x7b := by
      intro hcode
      have hc : Char.ofNat 0x7b = c := hcode ▸ Char.ofNat_toNat c
      exact hbegins.ne (d := Char.ofNat 0x7b) (by decide) (hc ▸ hhead)
    rw [if_neg hbrace]
    exact h

theorem value_string (s : String) (hrest : Ends rest) (depth fuel : Nat) :
    Scans (value depth (fuel + 1)) (writeString s).toList (.string s) rest := by
  obtain ⟨quote, hquote, hhead, hscans⟩ := scans_writeString s (hrest.ne rfl) (hrest.ne rfl)
  obtain ⟨cs, hcs⟩ := List.head?_eq_some_iff.1 hhead
  rw [hcs] at hscans ⊢
  unfold value
  refine Scans.look (Scans.peek?_look _) ?_
  rcases hquote with rfl | rfl
  · exact Scans.map hscans rfl
  · exact Scans.map hscans rfl

/-- The characters of a written number can stand in a word. -/
theorem isWordChar_write (x : Float) : (numberLayout.write x).toList ≠ [] ∧
    ∀ c ∈ (numberLayout.write x).toList, isWordChar c = true := by
  cases hnan : x.isNaN with
  | true =>
    have htext : numberLayout.write x = "nan" := if_pos hnan
    rw [htext]
    exact ⟨by decide, List.all_eq_true.1 (by decide)⟩
  | false =>
    cases hinf : x.isInf with
    | true =>
      have htext : numberLayout.write x =
          String.ofList (if Binary.isSigned x then ['-'] else []) ++ "inf" := by
        unfold Decimal.Layout.write
        dsimp only
        rw [if_neg (Bool.eq_false_iff.1 hnan), if_pos hinf]
        rfl
      rw [htext]
      cases Binary.isSigned x <;> exact ⟨by decide, List.all_eq_true.1 (by decide)⟩
    | false =>
      obtain ⟨cs, hfigures, htext⟩ := numberLayout.figures_write hnan hinf
      have hword : ∀ c ∈ cs, isWordChar c = true :=
        fun c hc => isWordChar_of_isFigure (hfigures.2 c hc)
      rcases htext with htext | htext
      · rw [htext]
        exact ⟨hfigures.ne_nil, hword⟩
      · rw [htext]
        refine ⟨nofun, fun c hc => ?_⟩
        rcases List.mem_cons.1 hc with rfl | hc
        · rfl
        · exact hword c hc

/-- A value that holds no others is a string or a word. -/
theorem Value.Atomic.string_or_word (hv : v.Atomic) :
    (∃ s, v = .string s) ∨ v.write.toList ≠ [] ∧ (∀ c ∈ v.write.toList, isWordChar c = true) ∧
      ∀ rest, rest.head?.all (!isWordChar ·) = true → Scans word v.write.toList v rest := by
  cases v with
  | string s => exact .inl ⟨s, rfl⟩
  | bool b =>
    have hword : (if b then "true" else "false").toList ≠ [] ∧
        ∀ c ∈ (if b then "true" else "false").toList, isWordChar c = true := by
      cases b <;> exact ⟨by decide, List.all_eq_true.1 (by decide)⟩
    exact .inr ⟨hword.1, hword.2, fun rest hrest => scans_word_bool b hrest⟩
  | integer n =>
    have hword : ∀ c ∈ (toString n).toList, isWordChar c = true :=
      fun c hc => isWordChar_of_isFigure (Decimal.isFigure_toString n hc)
    have hread := number?_toString hv.1 hv.2
    have hne : (toString n).toList ≠ [] := by
      intro h
      rw [h] at hread
      cases hread
    exact .inr ⟨hne, hword, fun rest hrest => scans_word_number hread hword hrest⟩
  | float x =>
    obtain ⟨hne, hword⟩ := isWordChar_write x
    exact .inr ⟨hne, hword, fun rest hrest => scans_word_number hv hword hrest⟩
  | moment text => exact hv.elim
  | array items => exact hv.elim
  | table origin entries => exact hv.elim
  | tables items => exact hv.elim

/-- A value that holds no others is read as it was written. -/
theorem value_atomic (hv : v.Atomic) (hrest : Ends rest) (depth fuel : Nat) :
    Scans (value depth (fuel + 1)) v.write.toList v rest := by
  rcases hv.string_or_word with ⟨s, rfl⟩ | ⟨hne, hword, hscans⟩
  · exact value_string s hrest depth fuel
  · exact value_word hne hword (hscans rest hrest.word) depth fuel

end Values

/-! ## Arrays -/

section Arrays

variable {cs rest : List Char} {v : Value}

/-- A quote or a character of a word. -/
def isOpening (c : Char) : Bool :=
  c = '"' || c = '\'' || isWordChar c

theorem Value.Atomic.begins (hv : v.Atomic) : Begins isOpening v.write.toList := by
  rcases hv.string_or_word with ⟨s, rfl⟩ | ⟨hne, hword, -⟩
  · have hnone (c : Char) : ([] : List Char).head? ≠ some c := nofun
    obtain ⟨quote, hquote, hhead, -⟩ := scans_writeString s (hnone '"') (hnone '\'')
    show Begins isOpening (writeString s).toList
    rw [Begins, hhead]
    rcases hquote with rfl | rfl <;> rfl
  · refine (begins_of_forall hne hword).imp fun c hc => ?_
    simp [isOpening, hc]

/-- The items of an array are read as they were written, each on a line of its own. -/
theorem items_write {items : List Value} (hitems : ∀ item ∈ items, item.Atomic) (depth : Nat)
    {fuel : Nat} (hfuel : items.length + 3 < fuel) (rest : List Char) :
    Scans (Toml.items depth fuel) ('\n' :: ((writeItems items).toList ++ [']'])) items rest := by
  -- on the items, each of which takes one step of the reader
  induction items generalizing fuel with
  | nil =>
    obtain ⟨fuel, rfl⟩ : ∃ n, fuel = n + 3 := ⟨fuel - 3, by omega⟩
    unfold Toml.items
    have hclose : Solid ([']'] ++ rest) := rfl
    exact Scans.bind (hclose.scans_newLine 0 fuel) (Scans.map (Scans.accept [']'] rest) rfl)
  | cons item items ih =>
    rw [List.length_cons] at hfuel
    obtain ⟨fuel, rfl⟩ : ∃ n, fuel = n + 4 := ⟨fuel - 4, by omega⟩
    obtain ⟨hitem, hitems⟩ := List.forall_mem_cons.1 hitems
    have henough : items.length + 3 < fuel + 3 := by omega
    have htail := ih hitems henough
    have htext : '\n' :: ((writeItems (item :: items)).toList ++ [']']) =
        ('\n' :: List.replicate 4 ' ') ++ (item.write.toList ++ ([','] ++
          ('\n' :: ((writeItems items).toList ++ [']'])))) := by
      show '\n' :: (("    " ++ item.write ++ ",\n" ++ writeItems items).toList ++ [']']) = _
      simp
    rw [htext]
    unfold Toml.items
    have hbegins : Begins isOpening (item.write.toList ++ ([','] ++
        ('\n' :: ((writeItems items).toList ++ [']']))) ++ rest) :=
      (hitem.begins.append _).append rest
    have hsolid : Solid _ := hbegins.imp (isSolid_of (by decide))
    have hmore := hbegins.not_prefix (d := ']') (by decide) []
    have hends : Ends ([','] ++ ('\n' :: ((writeItems items).toList ++ [']'])) ++ rest) := rfl
    have hcomma : Solid ([','] ++ ('\n' :: ((writeItems items).toList ++ [']'])) ++ rest) := rfl
    refine Scans.bind (hsolid.scans_newLine 4 _) (Scans.look (Scans.accept_else hmore) ?_)
    refine Scans.bind (value_atomic hitem hends depth _) (Scans.look (hcomma.scans_gaps 0 _) ?_)
    exact Scans.bind (Scans.accept [','] _) (Scans.map htail rfl)

theorem length_le_writeItems (items : List Value) :
    2 * items.length ≤ (writeItems items).toList.length := by
  induction items with
  | nil => exact Nat.zero_le _
  | cons item items ih =>
    have htext : (writeItems (item :: items)).toList =
        ("    " ++ item.write ++ ",\n").toList ++ (writeItems items).toList :=
      String.toList_append ..
    have hline : 2 ≤ ("    " ++ item.write ++ ",\n").toList.length := by simp
    rw [htext, List.length_append, List.length_cons]
    omega

theorem Value.Flat.array_or_atomic (hv : v.Flat) :
    (∃ items, v = .array items ∧ ∀ item ∈ items, item.Atomic) ∨ v.Atomic := by
  cases v with
  | array items => exact .inl ⟨items, rfl, hv⟩
  | _ => exact .inr hv

theorem Value.Flat.solid (hv : v.Flat) : Solid v.write.toList := by
  rcases hv.array_or_atomic with ⟨items, rfl, -⟩ | hatomic
  · have hopen : ∃ cs, (Value.array items).write.toList = '[' :: cs := by
      cases items with
      | nil => exact ⟨[']'], rfl⟩
      | cons item items =>
        refine ⟨('\n' :: ((writeItems (item :: items)).toList ++ [']'])), ?_⟩
        show ("[\n" ++ writeItems (item :: items) ++ "]").toList = _
        simp
    obtain ⟨cs, hcs⟩ := hopen
    rw [hcs]
    rfl
  · exact hatomic.begins.imp (isSolid_of (by decide))

/-- An array is read as it was written. -/
theorem value_array {items : List Value} (hitems : ∀ item ∈ items, item.Atomic) {depth fuel : Nat}
    (hdepth : 0 < depth) (hfuel : (Value.array items).write.toList.length < fuel)
    (rest : List Char) :
    Scans (value depth fuel) (Value.array items).write.toList (.array items) rest := by
  obtain ⟨fuel, rfl⟩ : ∃ n, fuel = n + 1 := ⟨fuel - 1, by omega⟩
  have hopen (body : List Char) (hbody : Scans (Toml.items (depth - 1) fuel) body items rest) :
      Scans (value depth (fuel + 1)) ('[' :: body) (.array items) rest := by
    unfold value
    refine Scans.look (Scans.peek?_look _) (Scans.bind (Scans.skip ['['] (body ++ rest)) ?_)
    rw [if_neg (Nat.ne_of_gt hdepth)]
    exact Scans.map hbody rfl
  cases items with
  | nil =>
    obtain ⟨fuel, rfl⟩ : ∃ n, fuel = n + 2 := ⟨fuel - 2, by simp [Value.write] at hfuel; omega⟩
    refine hopen [']'] ?_
    unfold Toml.items
    have hclose : Solid ([']'] ++ rest) := rfl
    exact Scans.look (hclose.scans_gaps 0 fuel) (Scans.map (Scans.accept [']'] rest) rfl)
  | cons item items =>
    have htext : (Value.array (item :: items)).write.toList =
        '[' :: '\n' :: ((writeItems (item :: items)).toList ++ [']']) := by
      show ("[\n" ++ writeItems (item :: items) ++ "]").toList = _
      simp
    have hlength := length_le_writeItems (item :: items)
    rw [htext] at hfuel ⊢
    simp only [List.length_cons, List.length_append, List.length_nil] at hfuel hlength
    have henough : (item :: items).length + 3 < fuel := by
      rw [List.length_cons]
      omega
    exact hopen _ (items_write hitems (depth - 1) henough rest)

/-- A flat value is read as it was written. -/
theorem value_flat (hv : v.Flat) (hrest : Ends rest) {depth fuel : Nat} (hdepth : 0 < depth)
    (hfuel : v.write.toList.length < fuel) : Scans (value depth fuel) v.write.toList v rest := by
  rcases hv.array_or_atomic with ⟨items, rfl, hitems⟩ | hatomic
  · exact value_array hitems hdepth hfuel rest
  · obtain ⟨fuel, rfl⟩ : ∃ n, fuel = n + 1 := ⟨fuel - 1, by omega⟩
    exact value_atomic hatomic hrest depth fuel

end Arrays

end Chalkboard.Toml
