/-!
# References to variables

A text may refer to variables as in `${name}`; a name is not empty and has no closing brace. The
text is cut into pieces once, from left to right, and each reference is replaced by the value of its
variable. A reference to a variable without a value stays as it is. Values are not looked at again.
-/

namespace Chalkboard.Template

/-- A piece of a text. -/
inductive Piece where
  | plain (c : Char)
  | reference (name : List Char)
  deriving DecidableEq, Repr

/-- The marks in front of a name. -/
def opening : List Char := ['$', Char.ofNat 0x7b]

/-- The mark behind a name. -/
def closing : Char := Char.ofNat 0x7d

/-- What a piece looks like in the text. -/
def Piece.source : Piece → List Char
  | plain c => [c]
  | reference name => opening ++ name ++ [closing]

/-- What a piece is replaced by. -/
def Piece.value (lookup : String → Option String) : Piece → List Char
  | plain c => [c]
  | reference name =>
    match lookup (String.ofList name) with
    | some value => value.toList
    | none => (reference name).source

/-- The name of a reference that begins here, with what follows the reference. -/
def reference? (cs : List Char) : Option (List Char × List Char) :=
  if opening.isPrefixOf cs then
    let behind := cs.drop 2
    let name := behind.takeWhile (· != closing)
    -- there must be a name, and a mark behind it
    if name.isEmpty || name.length = behind.length then none
    else some (name, behind.drop (name.length + 1))
  else none

/-- What follows a reference is shorter. -/
theorem length_of_reference? {cs name rest : List Char} (h : reference? cs = some (name, rest)) :
    rest.length < cs.length := by
  unfold reference? at h
  split at h
  · next ho =>
    have : 2 ≤ cs.length := by
      have := (List.isPrefixOf_iff_prefix.mp ho).length_le
      simpa [opening] using this
    simp only at h
    split at h
    · cases h
    · cases h
      simp only [List.length_drop]
      omega
  · cases h

/-- The pieces of a text. -/
def pieces : List Char → List Piece
  | [] => []
  | c :: tail =>
    match h : reference? (c :: tail) with
    | some (name, rest) =>
      have : rest.length < (c :: tail).length := length_of_reference? h
      .reference name :: pieces rest
    | none => .plain c :: pieces tail
  termination_by cs => cs.length
  decreasing_by
    · assumption
    · exact Nat.lt_succ_self _

/-- The text with the values of its variables. -/
def expand (lookup : String → Option String) (text : String) : String :=
  String.ofList ((pieces text.toList).flatMap (Piece.value lookup))

end Chalkboard.Template
