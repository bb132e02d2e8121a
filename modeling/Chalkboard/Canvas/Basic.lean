import Chalkboard.Element.Basic
import Chalkboard.Table.Basic
import Chalkboard.View.Viewport

/-!
# The canvas

The canvas holds the objects that are drawn. Each has a handle that is never given out twice. The
canvas refuses an object whose parents are not on it, and a point that has neither two coordinates
nor an object to glide on. Every operation that succeeds is counted, and paints unless painting is
suspended.
-/

namespace Chalkboard

/-- The number of an object on the canvas. -/
structure Handle where
  number : Nat
  deriving DecidableEq, Repr, Inhabited

/-- How a handle is written. -/
def Handle.text (h : Handle) : String :=
  "#" ++ toString h.number

/-- A parent of a drawn object: a number or another object. -/
inductive DrawnParent where
  | number (x : Float)
  | object (handle : Handle)
  deriving BEq, DecidableEq, Repr, Inhabited

/-- Why the canvas does not do something. -/
inductive RenderError where
  | invalidParents (kind : ElementKind) (message : String)
  | unknownHandle (handle : Handle)
  | refused (message : String)
  deriving DecidableEq, Repr

/-- The wording of a render error. -/
def RenderError.message : RenderError → String
  | .invalidParents kind message => "Cannot draw " ++ kind.name ++ ": " ++ message
  | .unknownHandle handle => "Unknown object " ++ handle.text
  | .refused message => "Drawing backend error: " ++ message

/-- The name of an error's kind. -/
def RenderError.kindName : RenderError → String
  | .invalidParents .. => "InvalidParents"
  | .unknownHandle _ => "UnknownHandle"
  | .refused _ => "Backend"

/-- An object on the canvas. -/
structure Drawn where
  id : ElementId
  kind : ElementKind
  parents : List DrawnParent
  props : Json.Fields
  visible : Bool
  /-- The coordinates of a free point. -/
  position : Option (Point Float)
  deriving Repr

/-- How often each operation succeeded. -/
structure Counters where
  creates : Nat
  moves : Nat
  visibilityChanges : Nat
  removes : Nat
  paints : Nat
  deriving DecidableEq, Repr, Inhabited

/-- All operations except painting. -/
def Counters.mutations (c : Counters) : Nat :=
  c.creates + c.moves + c.visibilityChanges + c.removes

/-- The objects by handle, in ascending order, and all else that the canvas keeps. -/
structure Canvas where
  objects : Table Handle Drawn
  /-- The number of the last handle that was given out. -/
  lastHandle : Nat
  viewport : Viewport Float
  /-- How many suspensions are open. -/
  suspended : Nat
  counters : Counters
  /-- Ids in the order in which their objects were created. -/
  creationOrder : List ElementId
  /-- Ids that the canvas refuses to draw. -/
  refusing : List ElementId
  deriving Repr

namespace Canvas

/-- The canvas without objects. -/
def empty (viewport : Viewport Float) : Canvas :=
  ⟨[], 0, viewport, 0, ⟨0, 0, 0, 0, 0⟩, [], []⟩

/-- Nothing is drawn. -/
def isEmpty (c : Canvas) : Bool :=
  c.objects.isEmpty

/-- The object with a handle. -/
def object? (c : Canvas) (h : Handle) : Option Drawn :=
  c.objects.get? h

/-- The first object drawn for an element. -/
def find? (c : Canvas) (id : ElementId) : Option (Handle × Drawn) :=
  c.objects.find? fun entry => entry.2.id == id

/-- The coordinates of a free point. -/
def position? (c : Canvas) (h : Handle) : Option (Point Float) :=
  (c.object? h).bind Drawn.position

/-- Whether painting is suspended. -/
def isSuspended (c : Canvas) : Bool :=
  0 < c.suspended

/-- Paints, unless painting is suspended. -/
def paint (c : Canvas) : Canvas :=
  if c.suspended = 0 then { c with counters := { c.counters with paints := c.counters.paints + 1 } }
  else c

/-- Counts an operation that succeeded, and paints. -/
def counted (c : Canvas) (count : Counters → Counters) : Canvas :=
  paint { c with counters := count c.counters }

/-- Stops painting. -/
def suspend (c : Canvas) : Canvas :=
  { c with suspended := c.suspended + 1 }

/-- Ends one suspension, and paints if it was the last. -/
def resume (c : Canvas) : Canvas :=
  paint { c with suspended := c.suspended - 1 }

/-- Refuses to draw `id` from now on. -/
def refuse (c : Canvas) (id : ElementId) : Canvas :=
  { c with refusing := id :: c.refusing }

/-- Forgets all counts and the order of creation. -/
def resetCounters (c : Canvas) : Canvas :=
  { c with counters := ⟨0, 0, 0, 0, 0⟩, creationOrder := [] }

/-- Shows another part of the plane. -/
def setViewport (c : Canvas) (viewport : Viewport Float) : Canvas :=
  paint { c with viewport }

/-- The handle of the first parent that is not on the canvas. -/
def missingParent? (c : Canvas) (parents : List DrawnParent) : Option Handle :=
  parents.findSome? fun
    | .object h => if (c.object? h).isNone then some h else none
    | .number _ => none

/-- Where a new object of a kind lies, if its kind allows these parents: a point has two
coordinates, or glides on the object that is its first parent. -/
def placement (kind : ElementKind) (parents : List DrawnParent) :
    Except RenderError (Option (Point Float)) :=
  match kind, parents with
  | .point, [.number x, .number y] => .ok (some ⟨x, y⟩)
  | .point, .object _ :: _ => .ok none
  | .point, _ =>
    .error
      (.invalidParents .point ("expected [x, y], got " ++ toString parents.length ++ " parent(s)"))
  | _, _ => .ok none

/-- Puts an object on the canvas under a new handle. -/
def draw (c : Canvas) (d : Drawn) : Canvas × Handle :=
  let h : Handle := ⟨c.lastHandle + 1⟩
  let c : Canvas :=
    { c with
      objects := c.objects ++ [(h, d)]
      lastHandle := h.number
      creationOrder := c.creationOrder ++ [d.id] }
  (c.counted fun n => { n with creates := n.creates + 1 }, h)

/-- Draws an object under a new handle, unless the canvas refuses it. -/
def create (c : Canvas) (id : ElementId) (kind : ElementKind) (parents : List DrawnParent)
    (props : Json.Fields) : Except RenderError (Canvas × Handle) :=
  if c.refusing.contains id then .error (.refused ("refused to draw " ++ id.name))
  else
    match c.missingParent? parents with
    | some h => .error (.unknownHandle h)
    | none =>
      match placement kind parents with
      | .error e => .error e
      | .ok position =>
        .ok (c.draw ⟨id, kind, parents, props, Element.flag props "visible" true, position⟩)

/-- Replaces the object of a handle. -/
def replace (c : Canvas) (h : Handle) (d : Drawn) : Canvas :=
  { c with objects := c.objects.replace h d }

/-- Moves a free point. -/
def movePoint (c : Canvas) (h : Handle) (p : Point Float) : Except RenderError Canvas :=
  match c.object? h with
  | none => .error (.unknownHandle h)
  | some d =>
    if d.position.isNone then
      .error (.invalidParents d.kind (d.id.name ++ " is not a free point"))
    else
      .ok ((c.replace h { d with position := some p }).counted fun n =>
        { n with moves := n.moves + 1 })

/-- Shows or hides an object. -/
def setVisible (c : Canvas) (h : Handle) (visible : Bool) : Except RenderError Canvas :=
  match c.object? h with
  | none => .error (.unknownHandle h)
  | some d =>
    .ok ((c.replace h { d with visible }).counted fun n =>
      { n with visibilityChanges := n.visibilityChanges + 1 })

/-- Takes an object off the canvas. -/
def remove (c : Canvas) (h : Handle) : Except RenderError Canvas :=
  match c.object? h with
  | none => .error (.unknownHandle h)
  | some _ =>
    let c := { c with objects := c.objects.restrict fun h' => h' ≠ h }
    .ok (c.counted fun n => { n with removes := n.removes + 1 })

/-! ## Small facts

Painting and counting keep all else as it is. -/

@[simp] theorem objects_paint (c : Canvas) : c.paint.objects = c.objects := by
  unfold paint
  split <;> rfl

@[simp] theorem lastHandle_paint (c : Canvas) : c.paint.lastHandle = c.lastHandle := by
  unfold paint
  split <;> rfl

@[simp] theorem refusing_paint (c : Canvas) : c.paint.refusing = c.refusing := by
  unfold paint
  split <;> rfl

/-- Painting counts nothing but itself. -/
@[simp] theorem mutations_paint (c : Canvas) :
    { c.paint.counters with paints := 0 } = { c.counters with paints := 0 } := by
  unfold paint
  split <;> rfl

@[simp] theorem objects_counted (c : Canvas) (f : Counters → Counters) :
    (c.counted f).objects = c.objects := by
  simp [counted]

@[simp] theorem lastHandle_counted (c : Canvas) (f : Counters → Counters) :
    (c.counted f).lastHandle = c.lastHandle := by
  simp [counted]

@[simp] theorem refusing_counted (c : Canvas) (f : Counters → Counters) :
    (c.counted f).refusing = c.refusing := by
  simp [counted]

@[simp] theorem object?_counted (c : Canvas) (f : Counters → Counters) (h : Handle) :
    (c.counted f).object? h = c.object? h := by
  simp [object?]

/-- Another object under a handle that is in use. -/
theorem object?_replace {c : Canvas} {h : Handle} {d : Drawn} (hd : c.object? h = some d)
    (d' : Drawn) (h' : Handle) :
    (c.replace h d').object? h' = if h' = h then some d' else c.object? h' := by
  have hd : c.objects.get? h = some d := hd
  simp [object?, replace, Table.get?_replace, hd]

end Canvas

end Chalkboard
