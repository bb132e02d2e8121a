import Chalkboard.View.Scalar

/-!
# Four by four matrices

Homogeneous coordinates of space: products with vectors, and the inverse by cofactors.
-/

namespace Chalkboard

/-- A matrix by rows and columns. -/
abbrev Matrix4 (α : Type) := Fin 4 → Fin 4 → α

/-- A vector. -/
abbrev Vector4 (α : Type) := Fin 4 → α

namespace Matrix4

variable {α : Type} [Scalar α]

/-- The product of a matrix and a vector. -/
def apply (m : Matrix4 α) (v : Vector4 α) : Vector4 α :=
  fun i => m i 0 * v 0 + m i 1 * v 1 + m i 2 * v 2 + m i 3 * v 3

/-- A point of the plane as a homogeneous vector. -/
def homogeneous (p : Point α) : Vector4 α := fun
  | 0 => p.x
  | 1 => p.y
  | 2 => Scalar.ofNat 0
  | 3 => Scalar.ofNat 1

/-- The place in the plane where a matrix takes a point of the plane. -/
def image (m : Matrix4 α) (p : Point α) : Point α :=
  let place := m.apply (homogeneous p)
  ⟨place 0, place 1⟩

/-- The indices from 0 to 3 without `i`. -/
def skip (i : Fin 4) (r : Fin 3) : Fin 4 :=
  if r.val < i.val then r.castSucc else r.succ

/-- The determinant of a three by three matrix. -/
def det3 (m : Fin 3 → Fin 3 → α) : α :=
  m 0 0 * m 1 1 * m 2 2 - m 0 0 * m 1 2 * m 2 1 - m 0 1 * m 1 0 * m 2 2 +
    m 0 1 * m 1 2 * m 2 0 + m 0 2 * m 1 0 * m 2 1 - m 0 2 * m 1 1 * m 2 0

/-- The determinant of what is left without a row and a column, with its sign. -/
def cofactor (m : Matrix4 α) (i j : Fin 4) : α :=
  let minor := det3 fun r c => m (skip i r) (skip j c)
  if (i.val + j.val) % 2 = 0 then minor else -minor

/-- The determinant, expanded along the first column. -/
def det (m : Matrix4 α) : α :=
  m 0 0 * cofactor m 0 0 + m 1 0 * cofactor m 1 0 + m 2 0 * cofactor m 2 0 +
    m 3 0 * cofactor m 3 0

/-- The inverse matrix, if the determinant is not zero. -/
def inverse? (m : Matrix4 α) : Option (Matrix4 α) :=
  let d := det m
  if Scalar.eq d (Scalar.ofNat 0) then none
  else
    -- cofactors with rows and columns exchanged
    let scale := Scalar.ofNat 1 / d
    some fun i j => cofactor m j i * scale

end Matrix4

end Chalkboard
