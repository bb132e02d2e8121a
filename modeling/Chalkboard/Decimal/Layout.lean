import Chalkboard.Decimal.Shortest

/-!
# Layouts of floating-point numbers

All layouts write the shortest digits that read back. They differ in which magnitudes are written
positionally, in whether a whole number keeps a point, in the sign of the exponent and in the words
for the values that are not finite.
-/

namespace Chalkboard.Decimal

/-- The decisions of one way to write floating-point numbers. -/
structure Layout where
  /-- Powers of ten of the leading digit that are written positionally; `none` means all of them. -/
  positional : Option (Int × Int)
  /-- A whole number written positionally ends in `.0`. -/
  keepsPoint : Bool
  /-- An exponent that is not negative has a plus sign. -/
  plusExponent : Bool
  nan : String
  infinity : String
  deriving Repr

/-- Zeros. -/
private def zeros (n : Nat) : List Char :=
  List.replicate n '0'

/-- Digits with a point where the power `lead` of the leading digit puts it. -/
def positionalChars (digits : List Char) (lead : Int) (keepsPoint : Bool) : List Char :=
  match lead with
  | .negSucc below => '0' :: '.' :: zeros below ++ digits
  | .ofNat above =>
    if digits.length ≤ above + 1 then
      digits ++ zeros (above + 1 - digits.length) ++ (if keepsPoint then ['.', '0'] else [])
    else digits.take (above + 1) ++ '.' :: digits.drop (above + 1)

/-- One digit, a point before the others if there are any, and the exponent. -/
def scientificChars (digits : List Char) (lead : Int) (plusExponent : Bool) : List Char :=
  let exponent := (if plusExponent && 0 ≤ lead then ['+'] else []) ++ (toString lead).toList
  match digits with
  | [] => []
  | [d] => d :: 'e' :: exponent
  | d :: rest => d :: '.' :: rest ++ 'e' :: exponent

/-- The magnitude of a finite number. -/
def Layout.magnitude (layout : Layout) (d : Decimal) : List Char :=
  let positional := match layout.positional with
    | none => true
    | some (least, greatest) => least ≤ d.leading && d.leading ≤ greatest
  if positional then positionalChars d.digits d.leading layout.keepsPoint
  else scientificChars d.digits d.leading layout.plusExponent

/-- The text of a number. -/
def Layout.write (layout : Layout) (x : Float) : String :=
  if x.isNaN then layout.nan
  else
    let sign := if Binary.isSigned x then ['-'] else []
    if x.isInf then String.ofList sign ++ layout.infinity
    else String.ofList (sign ++ layout.magnitude (Decimal.ofFloat x))

/-- Plain numbers in messages: positional throughout, a whole number without a point. -/
def plain : Layout :=
  ⟨none, false, false, "NaN", "inf"⟩

/-- Numbers inside lists in messages: from `1e16` up and below `1e-4` with an exponent, else with a
point. -/
def listed : Layout :=
  ⟨some (-4, 15), true, false, "NaN", "inf"⟩

end Chalkboard.Decimal
