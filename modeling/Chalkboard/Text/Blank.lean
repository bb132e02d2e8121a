/-!
# White space

A character is blank when it has the Unicode property `White_Space`. Trimming removes blanks from
both ends of a text and keeps those inside it; a text is blank when nothing is left of it.
-/

namespace Chalkboard.Text

/-- The 25 characters with the property `White_Space`. -/
def isBlank (c : Char) : Bool :=
  let n := c.toNat
  (9 ≤ n && n ≤ 13) || n == 0x20 || n == 0x85 || n == 0xa0 || n == 0x1680 ||
    (0x2000 ≤ n && n ≤ 0x200a) || n == 0x2028 || n == 0x2029 || n == 0x202f || n == 0x205f ||
    n == 0x3000

/-- The characters without the blanks at either end. -/
def trimChars (cs : List Char) : List Char :=
  ((cs.dropWhile isBlank).reverse.dropWhile isBlank).reverse

/-- The text without the blanks at either end. -/
def trim (s : String) : String :=
  String.ofList (trimChars s.toList)

/-- Nothing but blanks. -/
def allBlank (s : String) : Bool :=
  s.toList.all isBlank

/-- Whether `pat` stands at the head of `cs`, and what follows it there. -/
def dropPrefix? (pat : List Char) (cs : List Char) : Option (List Char) :=
  match pat, cs with
  | [], rest => some rest
  | p :: ps, c :: rest => if p = c then dropPrefix? ps rest else none
  | _ :: _, [] => none

/-- The parts before and after the first occurrence of `pat`. -/
def splitOnce? (pat : List Char) : List Char → Option (List Char × List Char)
  | [] => (dropPrefix? pat []).map ([], ·)
  | c :: rest =>
    match dropPrefix? pat (c :: rest) with
    | some after => some ([], after)
    | none => (splitOnce? pat rest).map fun (before, after) => (c :: before, after)

theorem dropPrefix?_eq_some_iff {pat cs rest : List Char} :
    dropPrefix? pat cs = some rest ↔ cs = pat ++ rest := by
  induction pat generalizing cs with
  | nil => simp [dropPrefix?, eq_comm]
  | cons p ps ih =>
    cases cs with
    | nil => simp [dropPrefix?]
    | cons c cs =>
      by_cases h : p = c
      · simp [dropPrefix?, h, ih]
      · simp [dropPrefix?, h, Ne.symm h]

/-- Splitting loses nothing but the separator. -/
theorem eq_append_of_splitOnce? {pat cs before after : List Char}
    (h : splitOnce? pat cs = some (before, after)) : cs = before ++ pat ++ after := by
  induction cs generalizing before with
  | nil =>
    simp only [splitOnce?, Option.map_eq_some_iff, Prod.mk.injEq] at h
    obtain ⟨r, hr, rfl, rfl⟩ := h
    simpa using dropPrefix?_eq_some_iff.1 hr
  | cons c cs ih =>
    rw [splitOnce?] at h
    split at h
    · next r hr =>
      simp only [Option.some.injEq, Prod.mk.injEq] at h
      obtain ⟨rfl, rfl⟩ := h
      simpa using dropPrefix?_eq_some_iff.1 hr
    · simp only [Option.map_eq_some_iff, Prod.mk.injEq] at h
      obtain ⟨⟨b, a⟩, hab, rfl, rfl⟩ := h
      simp [ih hab]

end Chalkboard.Text
