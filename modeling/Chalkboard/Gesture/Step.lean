import Chalkboard.Gesture.Basic
import Chalkboard.Live.Basic
import Chalkboard.Scene.Basic

/-!
# How gestures go on

`Gesture.step` takes one event. It sees the view and the drawn points but changes neither; what it
brings about is a `GestureEffect`, which `Canvas.perform` carries out.
-/

namespace Chalkboard

namespace Gesture

variable {α : Type} [Scalar α]

/-! ## Pressing -/

/-- How far a target is from the pointer, if it can be touched: visible, placed and within reach. -/
def touch? (pointer : Point α) (reach : α) (t : Target α) : Option α :=
  if t.visible then
    t.position.bind fun p =>
      let d := pointer.distance p
      if Scalar.le d reach then some d else none
  else none

/-- The nearer of the best target so far and another, the first of two at equal distance. -/
def nearer (pointer : Point α) (reach : α) (best : Option (α × Target α)) (t : Target α) :
    Option (α × Target α) :=
  match touch? pointer reach t with
  | none => best
  | some d =>
    match best with
    | none => some (d, t)
    | some (d', _) => if Scalar.lt d d' then some (d, t) else best

/-- The nearest target that can be touched. -/
def nearest? (pointer : Point α) (reach : α) (targets : List (Target α)) : Option (Target α) :=
  (targets.foldl (nearer pointer reach) none).map Prod.snd

/-- Pressing on a point that can be dragged takes hold of it, whatever went on before. Pressing on
another point does nothing. Pressing beside all points begins to pan, unless a gesture is going on.
-/
def press (g : Gesture α) (view : Viewport α) (targets : List (Target α)) : Gesture α :=
  match view.toUser? g.pixel with
  | none => g
  | some pointer =>
    match nearest? pointer (view.reach g.settings.reachDivisor) targets with
    | some t => if t.draggable then { g with grip := .dragging t.id t.handle } else g
    | none =>
      -- a drag in progress goes on, whatever else is pressed
      match g.grip with
      | .idle => { g with grip := .panning g.pixel }
      | _ => g

/-! ## Moving, releasing, turning the wheel -/

/-- Panning moves the view by the way of the pointer in the current view; dragging moves the object
to the pointer. -/
def move (g : Gesture α) (view : Viewport α) (pixel : Point α) : Gesture α × GestureEffect α :=
  if pixel.same g.pixel then (g, .nothing)
  else
    let g := { g with pixel }
    match g.grip with
    | .idle => (g, .nothing)
    | .panning last =>
      -- both pixels are read in the view as it is now, which the pan itself keeps changing
      let effect := match view.toUser? last, view.toUser? pixel with
        | some a, some b => .look { view with box := view.box.shift (a.x - b.x) (a.y - b.y) }
        | _, _ => .nothing
      ({ g with grip := .panning pixel }, effect)
    | .dragging _ handle =>
      match view.toUser? pixel with
      | some p => (g, .drag handle p)
      | none => (g, .nothing)

/-- Releasing ends the gesture. A drag ends where its object is, if it is still there. -/
def release (g : Gesture α) (position? : Handle → Option (Point α)) : Gesture α × GestureEffect α :=
  let effect := match g.grip with
    | .dragging id handle =>
      match position? handle with
      | some p => .drop id p
      | none => .nothing
    | _ => .nothing
  ({ g with grip := .idle }, effect)

/-- Turning the wheel scales the view about the pointer, within the limits of the scale. -/
def turn (g : Gesture α) (view : Viewport α) (delta : WheelDelta α) :
    Except GestureError (Gesture α × GestureEffect α) :=
  let notches := delta.notches
  if Scalar.eq notches (Scalar.ofNat 0) then .ok (g, .nothing)
  else
    let s := g.settings
    -- a negative turn zooms in
    match clamp? s.minScale s.maxScale (g.scale * Scalar.pow s.zoomFactor (-notches)) with
    | none => .error .noScale
    | some scale =>
      let factor := scale / g.scale
      -- at a limit of the scale there is nothing left to do
      if Scalar.lt (Scalar.abs (factor - Scalar.ofNat 1)) Scalar.epsilon then .ok (g, .nothing)
      else
        match view.toUser? g.pixel with
        | none => .ok (g, .nothing)
        | some anchor =>
          .ok ({ g with scale }, .look { view with box := view.box.zoomAt anchor factor })

/-! ## All events -/

/-- Takes one event. Only the left button counts. -/
def step (g : Gesture α) (view : Viewport α) (targets : List (Target α))
    (position? : Handle → Option (Point α)) :
    PointerEvent α → Except GestureError (Gesture α × GestureEffect α)
  | .moved pixel => .ok (g.move view pixel)
  | .pressed .left => .ok (g.press view targets, .nothing)
  | .released .left => .ok (g.release position?)
  | .pressed _ | .released _ => .ok (g, .nothing)
  | .wheel delta => g.turn view delta

end Gesture

/-! ## On the canvas -/

/-- The drawn points as the pointer sees them on the canvas. -/
def LiveGraph.targets (g : LiveGraph) (canvas : Canvas) : List (Target Float) :=
  g.points.map fun (id, o) => ⟨id, o.handle, o.visible, o.draggable, canvas.position? o.handle⟩

/-- Carries out an effect on the canvas. The end of a drag is a change of the scene, not of the
canvas. A drag of an object that is gone does nothing. -/
def Canvas.perform (c : Canvas) : GestureEffect Float → Canvas
  | .nothing | .drop _ _ => c
  | .look viewport => c.setViewport viewport
  | .drag handle p =>
    match c.movePoint handle p with
    | .ok c => c
    | .error _ => c

/-- The change of the scene that an effect asks for. -/
def GestureEffect.mutation? : GestureEffect Float → Option Mutation
  | .drop id p => some (.movePoint id p.x p.y)
  | _ => none

/-- Takes one event on the canvas: the gesture, the canvas, and the change of the scene that is
asked for. -/
def Gesture.handle (g : Gesture Float) (graph : LiveGraph) (canvas : Canvas)
    (event : PointerEvent Float) :
    Except GestureError (Gesture Float × Canvas × Option Mutation) := do
  let (g, effect) ← g.step canvas.viewport (graph.targets canvas) canvas.position? event
  pure (g, canvas.perform effect, effect.mutation?)

end Chalkboard
