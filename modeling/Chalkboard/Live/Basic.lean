import Chalkboard.Canvas.Basic
import Chalkboard.Scene.Defaults

/-!
# The live graph

For each element that is drawn the live graph records the handle of its object and the declaration
it was last brought in line with.
-/

namespace Chalkboard

/-- What is known about the object of one element. -/
structure LiveObject where
  handle : Handle
  kind : ElementKind
  /-- The parents that were declared when the object was last brought in line. -/
  parents : List Parent
  /-- Free points that are not fixed can be dragged. -/
  draggable : Bool
  visible : Bool
  deriving DecidableEq, Repr

namespace LiveObject

/-- The ids that the object's declaration refers to. -/
def refs (o : LiveObject) : List ElementId :=
  Parent.refs o.parents

/-- The object was declared as a free point. -/
def isFreePoint (o : LiveObject) : Bool :=
  (freePosition? o.kind o.parents).isSome

end LiveObject

/-- The objects by element, and the settings that new objects are drawn with. -/
structure LiveGraph where
  objects : Table ElementId LiveObject
  defaults : Defaults
  deriving Repr

namespace LiveGraph

/-- The graph without objects. -/
def empty (defaults : Defaults) : LiveGraph :=
  ⟨[], defaults⟩

/-- The object of an element. -/
def get? (g : LiveGraph) (id : ElementId) : Option LiveObject :=
  g.objects.get? id

/-- Whether an element is drawn. -/
def contains (g : LiveGraph) (id : ElementId) : Bool :=
  (g.get? id).isSome

/-- The handle of an element's object. -/
def handle? (g : LiveGraph) (id : ElementId) : Option Handle :=
  (g.get? id).map LiveObject.handle

/-- The drawn points. -/
def points (g : LiveGraph) : List (ElementId × LiveObject) :=
  g.objects.filter fun entry => entry.2.kind == .point

/-- The graph with one more object. -/
def add (g : LiveGraph) (id : ElementId) (o : LiveObject) : LiveGraph :=
  { g with objects := g.objects ++ [(id, o)] }

/-- The graph with another record for an element. -/
def replace (g : LiveGraph) (id : ElementId) (o : LiveObject) : LiveGraph :=
  { g with objects := g.objects.replace id o }

/-! ## Small facts -/

theorem get?_add (g : LiveGraph) (id id' : ElementId) (o : LiveObject) :
    (g.add id o).get? id' = (g.get? id').or (if id = id' then some o else none) := by
  simp [get?, add, Table.get?_cons]

/-- Another record for an element that is drawn. -/
theorem get?_replace {g : LiveGraph} {id : ElementId} {o : LiveObject} (ho : g.get? id = some o)
    (o' : LiveObject) (id' : ElementId) :
    (g.replace id o').get? id' = if id' = id then some o' else g.get? id' := by
  have ho : g.objects.get? id = some o := ho
  simp [get?, replace, Table.get?_replace, ho]

theorem handle?_eq_some_iff {g : LiveGraph} {id : ElementId} {h : Handle} :
    g.handle? id = some h ↔ ∃ o, g.get? id = some o ∧ o.handle = h :=
  Option.map_eq_some_iff

end LiveGraph

end Chalkboard
