import Chalkboard.Config.Basic
import Chalkboard.Gesture.Step
import Chalkboard.Live.Reconcile
import Chalkboard.Result.Plot

/-!
# The diagram

A diagram is a scene with what is drawn for it: the live graph, the canvas, the gesture in progress,
and what is said about the last result. After each change of the scene the live graph is brought in
line with it. An element that is being dragged is left alone until it is released.
-/

namespace Chalkboard

/-- A scene and what is shown of it. -/
structure Diagram where
  scene : Scene
  graph : LiveGraph
  gesture : Gesture Float
  canvas : Canvas
  /-- What could not be shown of the last result. -/
  errors : List InlineError
  explanation : Option String

namespace Diagram

/-- The diagram without elements, on the given canvas. -/
def start (gestures : GestureSettings Float) (canvas : Canvas) : Diagram :=
  ⟨.empty, .empty .standard, .start gestures, canvas, [], none⟩

/-- The elements that are shown, as the intent service is told of them. -/
def context (d : Diagram) : List Element :=
  d.scene.elements

/-- Brings the live graph in line with the scene. -/
def sync (d : Diagram) : Diagram × ReconcileReport :=
  let (graph, canvas, report) := d.graph.reconcile d.scene d.canvas d.gesture.locked
  ({ d with graph, canvas }, report)

/-! ## Results -/

/-- The explanation of a result; an empty one counts as none. -/
def explanationOf (r : CommandResult) : Option String :=
  if r.explanation.isEmpty then none else some r.explanation

/-- Shows a result. A successful one replaces the whole scene; a failed one leaves the scene as it
is and is shown as an inline error. What is said about the last result goes away in any case. -/
def applyResult (d : Diagram) (r : CommandResult) : Diagram × Except SceneError ReconcileReport :=
  let d := { d with errors := [], explanation := explanationOf r }
  if r.success then
    let plot : Plot := match r with
      | .graph g => g.plot
      | .geometry g => ⟨g.elements, []⟩
    let d := { d with errors := plot.errors }
    match d.scene.replaceAll plot.elements with
    | .error e => (d, .error e)
    | .ok scene =>
      let (d, report) := { d with scene }.sync
      (d, .ok report)
  else
    let (d, report) := { d with errors := [⟨none, r.error.getD "computation failed"⟩] }.sync
    (d, .ok report)

/-! ## Changes by the user -/

/-- Changes the scene. -/
def mutate (d : Diagram) (m : Mutation) : Except SceneError (Diagram × ReconcileReport) := do
  pure { d with scene := ← d.scene.apply m }.sync

/-- Deletes an element with all that depends on it. -/
def delete (d : Diagram) (id : ElementId) : Except SceneError (Diagram × ReconcileReport) :=
  d.mutate (.delete id)

/-- Shows or hides an element. -/
def setVisibility (d : Diagram) (id : ElementId) (visible : Bool) :
    Except SceneError (Diagram × ReconcileReport) :=
  d.mutate (.setVisibility id visible)

/-- Places a free point under the first candidate that is no id yet. -/
def placePoint (d : Diagram) (candidates : Nat → ElementId) (x y : Float) :
    Diagram × ElementId × ReconcileReport :=
  let (scene, id) := d.scene.placePoint candidates x y
  let (d, report) := { d with scene }.sync
  (d, id, report)

/-- Takes a pointer event. The end of a drag moves the point in the scene; if the point is gone by
then, or not free any more, the drag is dropped. The live graph is brought in line when the scene
changed or an element was released. -/
def handle (d : Diagram) (event : PointerEvent Float) :
    Except GestureError (Diagram × Option ReconcileReport) := do
  let held := d.gesture.locked
  let (gesture, canvas, mutation) ← d.gesture.handle d.graph d.canvas event
  -- a newer result may have replaced the point while it was held
  let moved := mutation.bind fun m => (d.scene.apply m).toOption
  let released := held.isSome && gesture.locked.isNone
  let d := { d with gesture, canvas, scene := moved.getD d.scene }
  if moved.isSome || released then
    let (d, report) := d.sync
    pure (d, some report)
  else pure (d, none)

end Diagram

end Chalkboard
