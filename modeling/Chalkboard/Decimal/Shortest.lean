/-!
# The shortest decimal of a binary number

A finite positive `Float` is `m · 2^q` with a natural `m`. The reals that round to it form an
interval around it, closed when `m` is even. Among the decimals in that interval the ones with the
fewest digits are chosen, and among those the nearest to the number.
-/

namespace Chalkboard

/-- The magnitude `coefficient · 10 ^ exponent`. -/
structure Decimal where
  coefficient : Nat
  exponent : Int
  deriving DecidableEq, Repr

namespace Decimal

/-- The digits of the coefficient. -/
def digits (d : Decimal) : List Char :=
  Nat.toDigits 10 d.coefficient

/-- The power of ten of the leading digit. -/
def leading (d : Decimal) : Int :=
  d.exponent + d.digits.length - 1

/-- The same magnitude without zeros at the end of the coefficient; `fuel` bounds their number. -/
def stripZeros (d : Decimal) : Nat → Decimal
  | 0 => d
  | fuel + 1 =>
    if d.coefficient ≠ 0 ∧ d.coefficient % 10 = 0 then
      stripZeros ⟨d.coefficient / 10, d.exponent + 1⟩ fuel
    else d

end Decimal

/-- A finite magnitude `significand · 2 ^ power`, and whether the gap to the next smaller one is
half the gap to the next greater one. -/
structure Binary where
  significand : Nat
  power : Int
  narrowBelow : Bool
  deriving DecidableEq, Repr

namespace Binary

/-- The magnitude of a finite number, read off its bits. -/
def ofFloat (x : Float) : Binary :=
  let bits := x.toBits.toNat
  let fraction : Nat := bits % Nat.pow 2 52
  let biased : Nat := bits / Nat.pow 2 52 % Nat.pow 2 11
  -- numbers below the least normal one have no hidden bit
  if biased = 0 then ⟨fraction, -1074, false⟩
  else ⟨Nat.pow 2 52 + fraction, Int.ofNat biased - 1075, fraction == 0 && 1 < biased⟩

/-- The magnitude as a fraction. -/
def fraction (b : Binary) : Nat × Nat :=
  match b.power with
  | .ofNat p => (b.significand * Nat.pow 2 p, 1)
  | .negSucc p => (b.significand, Nat.pow 2 (p + 1))

end Binary

/-- A fraction of naturals times a power of ten, again as a fraction. -/
def scaleByTen (num den : Nat) : Int → Nat × Nat
  | .ofNat p => (num * Nat.pow 10 p, den)
  | .negSucc p => (num, den * Nat.pow 10 (p + 1))

/-- The power of ten of the leading digit of `num / den`, found from a guess that is at most a few
steps away; `fuel` bounds the steps. -/
def leadingPower (num den : Nat) (guess : Int) : Nat → Int
  | 0 => guess
  | fuel + 1 =>
    let (n, d) := scaleByTen num den (-guess)
    if n < d then leadingPower num den (guess - 1) fuel
    else if 10 * d ≤ n then leadingPower num den (guess + 1) fuel
    else guess

namespace Binary

/-- The power of ten of the leading digit of a magnitude that is not zero. The binary logarithm
gives the guess. -/
def lead (b : Binary) : Int :=
  leadingPower b.fraction.1 b.fraction.2 ((Nat.log2 b.significand + b.power) * 30103 / 100000) 8

/-- The magnitudes that round to `b`, in units of a quarter of the gap above it: four times the
significand, with the bounds below and above. -/
def quarters (b : Binary) : Nat × Nat × Nat :=
  let m := 4 * b.significand
  (m - (if b.narrowBelow then 1 else 2), m, m + 2)

/-- The decimals of `count` digits next to `b`, nearest first, that round to it. -/
def candidates (b : Binary) (lead : Int) (count : Nat) : List Nat :=
  let (low, mid, high) := b.quarters
  let shift := (count : Int) - 1 - lead
  let unit : Binary := ⟨1, b.power - 2, false⟩
  let (num, den) := scaleByTen unit.fraction.1 unit.fraction.2 shift
  -- on the grid of `count` digits the number lies between `down` and its successor
  let down := mid * num / den
  let inside (d : Nat) : Bool :=
    -- the ends of the interval round to an even significand
    if b.significand % 2 = 0 then low * num ≤ d * den && d * den ≤ high * num
    else low * num < d * den && d * den < high * num
  let gapDown := mid * num - down * den
  let gapUp := (down + 1) * den - mid * num
  let order :=
    if gapUp < gapDown || (gapUp == gapDown && down % 2 == 1) then [down + 1, down]
    else [down, down + 1]
  order.filter inside

/-- The first count of digits from `count` on that has a decimal rounding to `b`. -/
def shortestFrom (b : Binary) (lead : Int) (count : Nat) : Nat → Decimal
  | 0 => ⟨b.significand, 0⟩
  | fuel + 1 =>
    match b.candidates lead count with
    | d :: _ => Decimal.stripZeros ⟨d, lead - (count : Int) + 1⟩ 20
    | [] => shortestFrom b lead (count + 1) fuel

/-- The shortest decimal that rounds to `b`; zero is written with the one digit `0`. -/
def shortest (b : Binary) : Decimal :=
  if b.significand = 0 then ⟨0, 0⟩
  else b.shortestFrom b.lead 1 17

end Binary

/-- The sign bit of a number is set, also on a zero. -/
def Binary.isSigned (x : Float) : Bool :=
  x.toBits.toNat / Nat.pow 2 63 = 1

/-- The shortest decimal that reads back as the magnitude of a finite number. -/
def Decimal.ofFloat (x : Float) : Decimal :=
  (Binary.ofFloat x).shortest

/-- The floating-point number nearest to a decimal: zero below every denormal, infinity above every
finite number. -/
def Decimal.toFloat (d : Decimal) : Float :=
  if d.coefficient = 0 then 0
  -- these two bounds only spare the powers of ten of exponents without measure
  else if 310 < d.leading then 1.0 / 0.0
  else if d.leading < -330 then 0
  else match d.exponent with
    | .ofNat p => Float.ofScientific d.coefficient false p
    | .negSucc p => Float.ofScientific d.coefficient true (p + 1)

end Chalkboard
