import Chalkboard.Decimal.Shortest

/-!
# Numbers rounded to a fixed count of digits

The exact binary value is rounded to the nearest multiple of a power of ten; a value half way goes
to the even multiple.
-/

namespace Chalkboard.Decimal

/-- The natural nearest to `num / den`, the even one of two. -/
def roundDiv (num den : Nat) : Nat :=
  let below := num / den
  let twice := 2 * (num % den)
  if den < twice || (den == twice && below % 2 == 1) then below + 1 else below

/-- A text of at least `width` digits. -/
private def padded (width n : Nat) : List Char :=
  let digits := Nat.toDigits 10 n
  List.replicate (width - digits.length) '0' ++ digits

/-- The magnitude with `places` digits after the point. -/
def fixedChars (b : Binary) (places : Nat) : List Char :=
  let digits := padded (places + 1) (roundDiv (b.fraction.1 * Nat.pow 10 places) b.fraction.2)
  digits.take (digits.length - places) ++ '.' :: digits.drop (digits.length - places)

/-- The magnitude with one digit before the point, `places` after it, and an exponent. -/
def scientificRounded (b : Binary) (places : Nat) : List Char :=
  let lead := b.lead
  let scaled := scaleByTen b.fraction.1 b.fraction.2 ((places : Int) - lead)
  let rounded := roundDiv scaled.1 scaled.2
  let full := Nat.pow 10 (places + 1) ≤ rounded
  let digits := padded (places + 1) (if full then rounded / 10 else rounded)
  let exponent := if full then lead + 1 else lead
  digits.take 1 ++ '.' :: digits.drop 1 ++ 'e' :: (toString exponent).toList

/-- Six places below a million, nine significant digits with an exponent from there on, and no sign
on a number that rounds to zero. -/
def rounded (x : Float) : String :=
  if x.isNaN then "nan"
  else if x.isInf then if x < 0 then "-inf" else "inf"
  else
    let b := Binary.ofFloat x
    let body := if x.abs < 1e6 then fixedChars b 6 else scientificRounded b 8
    let sign := Binary.isSigned x && body != "0.000000".toList
    String.ofList (if sign then '-' :: body else body)

end Chalkboard.Decimal
