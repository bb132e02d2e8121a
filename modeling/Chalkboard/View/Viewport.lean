import Chalkboard.Json.Decode
import Chalkboard.View.Matrix

/-!
# The view

The visible part of the plane is a box in user coordinates, with `y` pointing up, shown on a canvas
of pixels with the origin at the top left. A pixel has user coordinates exactly if the box has a
positive area and the canvas is not empty.
-/

namespace Chalkboard

/-- The visible part of the plane. -/
structure BoundingBox (α : Type) where
  left : α
  top : α
  right : α
  bottom : α
  deriving BEq, DecidableEq, Repr, Inhabited

/-- A visible box and the size of the canvas that shows it, in pixels. -/
structure Viewport (α : Type) where
  box : BoundingBox α
  width : UInt32
  height : UInt32
  deriving BEq, DecidableEq, Repr, Inhabited

namespace BoundingBox

/-- The four sides, from the left one to the bottom. -/
def sides {α : Type} (b : BoundingBox α) : List α :=
  [b.left, b.top, b.right, b.bottom]

variable {α : Type} [Scalar α]

def width (b : BoundingBox α) : α :=
  b.right - b.left

def height (b : BoundingBox α) : α :=
  b.top - b.bottom

/-- The box has no area. -/
def isDegenerate (b : BoundingBox α) : Bool :=
  !(Scalar.lt (Scalar.ofNat 0) b.width && Scalar.lt (Scalar.ofNat 0) b.height)

/-- The box moved by `dx` and `dy`. -/
def shift (b : BoundingBox α) (dx dy : α) : BoundingBox α :=
  ⟨b.left + dx, b.top + dy, b.right + dx, b.bottom + dy⟩

/-- The box scaled about an anchor, which keeps its place in the box. A factor above one zooms
in. -/
def zoomAt (b : BoundingBox α) (anchor : Point α) (factor : α) : BoundingBox α :=
  ⟨anchor.x - (anchor.x - b.left) / factor, anchor.y + (b.top - anchor.y) / factor,
   anchor.x + (b.right - anchor.x) / factor, anchor.y - (anchor.y - b.bottom) / factor⟩

/-- The projection of the box onto the square from -1 to 1, and of depths from -1 to 1 onto 0 to
1. -/
def projection (b : BoundingBox α) : Matrix4 α :=
  let zero : α := Scalar.ofNat 0
  let one : α := Scalar.ofNat 1
  let two : α := Scalar.ofNat 2
  let rows : Fin 4 → Vector4 α := fun i =>
    match i with
    | 0 => row (two / (b.right - b.left)) zero zero (-(b.right + b.left) / (b.right - b.left))
    | 1 => row zero (two / (b.top - b.bottom)) zero (-(b.top + b.bottom) / (b.top - b.bottom))
    | 2 => row zero zero (-one / two) (one / two)
    | 3 => row zero zero zero one
  rows
where
  row (a b c d : α) : Vector4 α := fun
    | 0 => a
    | 1 => b
    | 2 => c
    | 3 => d

end BoundingBox

namespace Viewport

variable {α : Type} [Scalar α]

/-- The visible span, by which the reach of the pointer is measured. -/
def span (v : Viewport α) : α :=
  v.box.width

/-- The distance below which the pointer touches an object. It shrinks as the view zooms in. -/
def reach (v : Viewport α) (divisor : α) : α :=
  v.span / divisor

/-- The user coordinates of a pixel, where it has any. -/
def toUser? (v : Viewport α) (pixel : Point α) : Option (Point α) :=
  if v.width = 0 ∨ v.height = 0 ∨ v.box.isDegenerate then none
  else do
    let inverse ← v.box.projection.inverse?
    let one : α := Scalar.ofNat 1
    let two : α := Scalar.ofNat 2
    let x := two * pixel.x / Scalar.ofNat v.width.toNat - one
    let y := one - two * pixel.y / Scalar.ofNat v.height.toNat
    pure (inverse.image ⟨x, y⟩)

/-- The pixel of a point. -/
def toScreen (v : Viewport α) (p : Point α) : Point α :=
  let one : α := Scalar.ofNat 1
  let two : α := Scalar.ofNat 2
  let place := v.box.projection.image p
  ⟨(place.x + one) * Scalar.ofNat v.width.toNat / two,
   (one - place.y) * Scalar.ofNat v.height.toNat / two⟩

/-- The view that the board starts with. -/
def standard : Viewport Float :=
  ⟨⟨-10, 10, 10, -10⟩, 800, 600⟩

end Viewport

/-! ## JSON -/

open Json

section Decoding

variable {τ : Type} [Source τ]

/-- Reads a point. -/
def Point.decode (t : τ) : Decoded (Point Float) :=
  Record.decode "UserPoint"
    [Record.required "x" decodeFloat fun x p => { p with x },
     Record.required "y" decodeFloat fun y p => { p with y }]
    ⟨0, 0⟩ t

/-- Reads a box. -/
def BoundingBox.decode (t : τ) : Decoded (BoundingBox Float) :=
  Record.decode "BoundingBox"
    [Record.required "left" decodeFloat fun left b => { b with left },
     Record.required "top" decodeFloat fun top b => { b with top },
     Record.required "right" decodeFloat fun right b => { b with right },
     Record.required "bottom" decodeFloat fun bottom b => { b with bottom }]
    ⟨0, 0, 0, 0⟩ t

/-- Reads a view. -/
def Viewport.decode (t : τ) : Decoded (Viewport Float) :=
  Record.decode "Viewport"
    [Record.required "bbox" BoundingBox.decode fun box v => { v with box },
     Record.required "width" decodeUInt32 fun width v => { v with width },
     Record.required "height" decodeUInt32 fun height v => { v with height }]
    .standard t

end Decoding

/-- A point as JSON. -/
def Point.toJson (p : Point Float) : Json :=
  .object [("x", Json.ofFloat p.x), ("y", Json.ofFloat p.y)]

/-- A box as JSON. -/
def BoundingBox.toJson (b : BoundingBox Float) : Json :=
  .object
    [("bottom", Json.ofFloat b.bottom), ("left", Json.ofFloat b.left),
     ("right", Json.ofFloat b.right), ("top", Json.ofFloat b.top)]

/-- A view as JSON. -/
def Viewport.toJson (v : Viewport Float) : Json :=
  .object
    [("bbox", v.box.toJson), ("height", Json.ofNat v.height.toNat),
     ("width", Json.ofNat v.width.toNat)]

end Chalkboard
