/-!
# Scalars

The arithmetic that coordinates need. The board runs on floating-point numbers; the same definitions
can be read over exact numbers by another instance.
-/

namespace Chalkboard

/-- Numbers that coordinates are made of. -/
class Scalar (α : Type) extends Add α, Sub α, Mul α, Div α, Neg α where
  ofNat : Nat → α
  /-- Whether two numbers are equal as numbers. -/
  eq : α → α → Bool
  lt : α → α → Bool
  le : α → α → Bool
  /-- Neither infinite nor undefined. -/
  isFinite : α → Bool
  abs : α → α
  sqrt : α → α
  pow : α → α → α
  /-- The least relative difference that counts. -/
  epsilon : α

instance : Scalar Float where
  ofNat := Float.ofNat
  eq a b := a == b
  lt a b := a < b
  le a b := a ≤ b
  isFinite := Float.isFinite
  abs := Float.abs
  sqrt := Float.sqrt
  pow := Float.pow
  epsilon := Float.ofBits 0x3cb0000000000000

/-- A point of the plane. -/
structure Point (α : Type) where
  x : α
  y : α
  deriving BEq, DecidableEq, Repr, Inhabited

variable {α : Type} [Scalar α]

/-- The Euclidean distance of two points. -/
def Point.distance (p q : Point α) : α :=
  Scalar.sqrt ((p.x - q.x) * (p.x - q.x) + (p.y - q.y) * (p.y - q.y))

/-- Whether two points have equal coordinates. -/
def Point.same (p q : Point α) : Bool :=
  Scalar.eq p.x q.x && Scalar.eq p.y q.y

/-- The number in the range from `low` to `high` that is nearest to `x`; nothing if the range is
empty. A value that is not a number stays as it is. -/
def clamp? (low high x : α) : Option α :=
  if Scalar.le low high then
    let x := if Scalar.lt x low then low else x
    some (if Scalar.lt high x then high else x)
  else none

end Chalkboard
