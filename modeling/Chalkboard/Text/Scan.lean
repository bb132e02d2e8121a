/-!
# Reading text from left to right

A cursor holds the rest of a text and where that rest begins. A scanner moves the cursor forward,
and fails where the text is not what it should be.
-/

namespace Chalkboard.Text

/-- The rest of a text with the line and the column at which it begins, both counted from zero. -/
structure Cursor where
  rest : List Char
  line : Nat
  column : Nat
  deriving Repr

namespace Cursor

/-- The beginning of a text. -/
def start (cs : List Char) : Cursor :=
  ⟨cs, 0, 0⟩

/-- One character on. -/
def step (c : Cursor) : Cursor :=
  match c.rest with
  | [] => c
  | '\n' :: rest => ⟨rest, c.line + 1, 0⟩
  | _ :: rest => ⟨rest, c.line, c.column + 1⟩

/-- Several characters on. -/
def skip : Nat → Cursor → Cursor
  | 0, c => c
  | n + 1, c => skip n c.step

theorem rest_step (c : Cursor) : c.step.rest = c.rest.tail := by
  unfold step
  split <;> simp_all

theorem rest_skip (n : Nat) (c : Cursor) : (c.skip n).rest = c.rest.drop n := by
  induction n generalizing c with
  | zero => simp [skip]
  | succ n ih => rw [skip, ih, rest_step, List.drop_tail]

end Cursor

/-- A scanner. -/
abbrev Scan := StateT Cursor Option

namespace Scan

/-- The rest of the text. -/
def rest : Scan (List Char) := do
  return (← get).rest

/-- The next character. -/
def peek? : Scan (Option Char) := do
  return (← get).rest.head?

/-- Moves on. -/
def skip (n : Nat) : Scan Unit :=
  modify (Cursor.skip n)

/-- The next character, which is passed. -/
def next : Scan Char := do
  match (← get).rest with
  | [] => failure
  | c :: _ =>
    skip 1
    return c

/-- Passes the characters of `s` if they come next. -/
def accept (s : List Char) : Scan Bool := do
  if s.isPrefixOf (← get).rest then
    skip s.length
    return true
  else return false

/-- Passes the characters of `s`, which must come next. -/
def expect (s : List Char) : Scan Unit := do
  if ← accept s then return () else failure

/-- Passes characters as long as they satisfy `p`. -/
def takeWhile (p : Char → Bool) : Scan (List Char) := do
  let taken := (← get).rest.takeWhile p
  skip taken.length
  return taken

/-- The end of the text must have come. -/
def finish : Scan Unit := do
  if (← get).rest.isEmpty then return () else failure

/-- Scans a whole text. -/
def run? {α : Type} (scan : Scan α) (cs : List Char) : Option α :=
  ((do
    let a ← scan
    finish
    return a : Scan α).run (Cursor.start cs)).map Prod.fst

end Scan

end Chalkboard.Text
