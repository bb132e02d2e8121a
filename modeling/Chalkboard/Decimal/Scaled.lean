import Chalkboard.Text.Digits

/-!
# Decimals by scaling

A quick way to read a decimal: as many digits as fit 64 bits make a whole number, the digits behind
them only count as places, and the whole number is multiplied or divided by a power of ten. Each
step rounds, so a decimal with more than fifteen digits may come out beside the nearest number.
-/

namespace Chalkboard.Decimal

/-- The whole number that digits write behind the digits of `n`, as far as it fits 64 bits, and the
digits that are left. -/
def gather (n : Nat) : List Char → Nat × List Char
  | [] => (n, [])
  | c :: rest =>
    let next := 10 * n + Text.digitsValue [c]
    if next < UInt64.size then gather next rest else (n, c :: rest)

/-- The floating-point number for a power of ten. -/
def tenTo (power : Nat) : Float :=
  Float.ofScientific 1 false power

/-- The greatest power of ten among the floating-point numbers. -/
def maxPower : Nat := 308

/-- A number multiplied by a power of ten, if the product is finite. -/
def scaleUp? (x : Float) (power : Nat) : Option Float :=
  if maxPower < power then if x == 0 then some x else none
  else
    let product := x * tenTo power
    if product.isInf then none else some product

/-- A number divided by a power of ten, in steps that have a power of ten of their own. -/
def scaleDown (x : Float) (power : Nat) : Float :=
  if power ≤ maxPower then x / tenTo power
  else if x == 0 then x
  else scaleDown (x / tenTo maxPower) (power - maxPower)
  termination_by power
  decreasing_by
    simp only [maxPower] at *
    omega

/-- The number with the given digits before and behind its point, times a power of ten; nothing if
it is too large. -/
def scaled? (whole fraction : List Char) (power : Int) : Option Float :=
  -- each digit before the point that does not fit is a factor of ten
  let (leading, excess) := gather 0 whole
  let (digits, unused) := gather leading fraction
  let places := fraction.length - unused.length
  match power + (excess.length : Int) - (places : Int) with
  | .ofNat p => scaleUp? (Float.ofNat digits) p
  | .negSucc p => some (scaleDown (Float.ofNat digits) (p + 1))

end Chalkboard.Decimal
