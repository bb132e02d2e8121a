import Chalkboard.Decimal.Shortest
import Chalkboard.Text.Digits

/-!
# Decimal literals

A literal has digits, perhaps with a point among them, and perhaps an exponent behind the letter
`e`. Its value is the floating-point number nearest to it.
-/

namespace Chalkboard.Decimal

/-- A sign in front of a number; whether it is a minus. -/
def splitSign : List Char → Bool × List Char
  | '+' :: rest => (false, rest)
  | '-' :: rest => (true, rest)
  | cs => (false, cs)

/-- The exponent behind the digits of a literal: nothing or the letter `e` and a whole number. -/
def exponentOf? : List Char → Option Int
  | [] => some 0
  | e :: rest =>
    if e = 'e' ∨ e = 'E' then
      let (negative, digits) := splitSign rest
      if digits.isEmpty || !digits.all Char.isDigit then none
      else some (if negative then -(Text.digitsValue digits : Int) else Text.digitsValue digits)
    else none

/-- The value of a literal without a sign. There is at least one digit before the exponent, on
either side of the point. -/
def magnitudeOf? (cs : List Char) : Option Float :=
  let whole := cs.takeWhile Char.isDigit
  let rest := cs.dropWhile Char.isDigit
  let (fraction, rest) := match rest with
    | '.' :: r => (r.takeWhile Char.isDigit, r.dropWhile Char.isDigit)
    | r => ([], r)
  if whole.isEmpty && fraction.isEmpty then none
  else
    (exponentOf? rest).map fun exponent =>
      Decimal.toFloat ⟨Text.digitsValue (whole ++ fraction), exponent - (fraction.length : Int)⟩

/-- The value of a literal with or without a sign. -/
def literal? (cs : List Char) : Option Float :=
  let (negative, cs) := splitSign cs
  (magnitudeOf? cs).map fun x => if negative then -x else x

end Chalkboard.Decimal
