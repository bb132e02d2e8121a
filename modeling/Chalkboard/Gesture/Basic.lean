import Chalkboard.Canvas.Basic

/-!
# Gestures

Pointer and wheel events and the state of the gesture in progress. A gesture pans the view or drags
one point, never both.
-/

namespace Chalkboard

/-- The buttons of a pointer. -/
inductive Button where
  | left | right | middle
  deriving DecidableEq, Repr, Inhabited

/-- How far a wheel was turned. -/
inductive WheelDelta (α : Type) where
  /-- In notches; a negative `y` scrolls up. -/
  | lines (x y : α)
  /-- In pixels. -/
  | pixels (x y : α)
  deriving Repr

/-- Notches come in single precision. -/
def WheelDelta.ofLines (x y : Float) : WheelDelta Float :=
  .lines x.toFloat32.toFloat y.toFloat32.toFloat

/-- The turn on the vertical axis in notches, a notch being a hundred pixels. -/
def WheelDelta.notches {α : Type} [Scalar α] : WheelDelta α → α
  | .lines _ y => y
  | .pixels _ y => y / Scalar.ofNat 100

/-- What the pointer does, at pixels of the canvas. -/
inductive PointerEvent (α : Type) where
  | moved (pixel : Point α)
  | pressed (button : Button)
  | released (button : Button)
  | wheel (delta : WheelDelta α)
  deriving Repr

/-- The limits of zooming and the reach of the pointer. -/
structure GestureSettings (α : Type) where
  /-- The factor of one notch. -/
  zoomFactor : α
  minScale : α
  maxScale : α
  /-- The reach of the pointer is the visible span divided by this. -/
  reachDivisor : α
  deriving BEq, DecidableEq, Repr

/-- The settings that the board starts with. -/
def GestureSettings.standard : GestureSettings Float :=
  ⟨1.25, 0.05, 50, 40⟩

/-- The gesture in progress. -/
inductive Grip (α : Type) where
  | idle
  | panning (last : Point α)
  | dragging (id : ElementId) (handle : Handle)
  deriving DecidableEq, Repr

/-- The pointer with the gesture in progress and the zoom relative to the first view. -/
structure Gesture (α : Type) where
  settings : GestureSettings α
  grip : Grip α
  pixel : Point α
  scale : α
  deriving Repr

namespace Gesture

variable {α : Type}

/-- No gesture, and the pointer off the canvas. -/
def start [Scalar α] (settings : GestureSettings α) : Gesture α :=
  let one : α := Scalar.ofNat 1
  ⟨settings, .idle, ⟨-one, -one⟩, one⟩

/-- The element that must be left alone while it is dragged. -/
def locked (g : Gesture α) : Option ElementId :=
  match g.grip with
  | .dragging id _ => some id
  | _ => none

end Gesture

/-- A drawn point as the pointer sees it. -/
structure Target (α : Type) where
  id : ElementId
  handle : Handle
  visible : Bool
  draggable : Bool
  position : Option (Point α)
  deriving Repr

/-- The one thing that an event brings about. -/
inductive GestureEffect (α : Type) where
  | nothing
  /-- The view changes. -/
  | look (viewport : Viewport α)
  /-- The object that is dragged moves. -/
  | drag (handle : Handle) (position : Point α)
  /-- A drag ends here. -/
  | drop (id : ElementId) (position : Point α)
  deriving Repr

/-- An event cannot be handled: no scale lies within the limits. -/
inductive GestureError where
  | noScale
  deriving DecidableEq, Repr

end Chalkboard
