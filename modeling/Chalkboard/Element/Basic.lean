import Chalkboard.Json.Basic
import Chalkboard.Text.Quoted

/-!
# Elements

An element is one drawable thing of a scene: a point, a circle through two points, a label. Elements
name each other by id in their list of parents and do not own each other; only the scene owns
elements.
-/

namespace Chalkboard

/-- The identifier of an element, unique within a scene. -/
structure ElementId where
  name : String
  deriving DecidableEq, Hashable, Repr, Inhabited

/-- An identifier made of a word and the last 48 bits of a random number, as twelve hexadecimal
digits. -/
def ElementId.ofRandom (word : String) (random : Nat) : ElementId :=
  ⟨word ++ "-" ++ String.ofList (Text.hexFixed 12 random)⟩

/-- The kinds of elements. -/
inductive ElementKind where
  | point | line | segment | circle | polygon | text | angle | sector | curve | image
  deriving DecidableEq, Hashable, Repr, Inhabited

namespace ElementKind

/-- Every kind. -/
def all : List ElementKind :=
  [point, line, segment, circle, polygon, text, angle, sector, curve, image]

/-- The name of a kind. -/
def name : ElementKind → String
  | point => "point"
  | line => "line"
  | segment => "segment"
  | circle => "circle"
  | polygon => "polygon"
  | text => "text"
  | angle => "angle"
  | sector => "sector"
  | curve => "curve"
  | image => "image"

/-- The rank of a kind in the order of creation. Elements of a lower class seldom refer to those of
a higher one, so creating in ascending order mostly has parents in place before their children. -/
def dependencyClass : ElementKind → Nat
  | point => 0
  | line | segment => 1
  | circle | polygon => 2
  | angle | sector | curve => 3
  | text | image => 4

end ElementKind

/-- One entry of an element's parents: a number, or the id of another element. -/
inductive Parent where
  | number (x : Float)
  | ref (id : ElementId)
  deriving BEq, DecidableEq, Repr, Inhabited

/-- The ids among a list of parents, in order. -/
def Parent.refs (parents : List Parent) : List ElementId :=
  parents.filterMap fun
    | .ref id => some id
    | .number _ => none

theorem Parent.mem_refs {parents : List Parent} {id : ElementId} :
    id ∈ Parent.refs parents ↔ Parent.ref id ∈ parents := by
  simp only [Parent.refs, List.mem_filterMap]
  constructor
  · rintro ⟨p, hp, h⟩
    cases p with
    | number x => simp at h
    | ref id' =>
      simp only [Option.some.injEq] at h
      rwa [← h]
  · intro h
    exact ⟨_, h, rfl⟩

/-- A drawable entity of the scene. -/
structure Element where
  id : ElementId
  kind : ElementKind
  parents : List Parent
  /-- Free-form settings such as `name`, `color` or `visible`. -/
  props : Json.Fields
  deriving Repr, Inhabited

namespace Element

/-- An element without settings. -/
def new (id : ElementId) (kind : ElementKind) (parents : List Parent) : Element :=
  ⟨id, kind, parents, []⟩

/-- A point at the given coordinates. -/
def freePoint (id : ElementId) (x y : Float) : Element :=
  new id .point [.number x, .number y]

/-- The element with one more setting. -/
def withProp (e : Element) (name : String) (value : Json) : Element :=
  { e with props := e.props.insert name value }

/-- The ids that the element refers to, in the order of its parents. -/
def refs (e : Element) : List ElementId :=
  Parent.refs e.parents

/-- Whether the element refers to `id`. -/
def references (e : Element) (id : ElementId) : Bool :=
  e.refs.contains id

end Element

/-- Coordinates that a kind and a list of parents give a free point: a point whose parents are
exactly two numbers. -/
def freePosition? (kind : ElementKind) (parents : List Parent) : Option (Float × Float) :=
  match kind, parents with
  | .point, [.number x, .number y] => some (x, y)
  | _, _ => none

namespace Element

/-- The coordinates of a free point. -/
def position? (e : Element) : Option (Float × Float) :=
  freePosition? e.kind e.parents

/-- The setting `name` as a truth value, or `otherwise` if it is no boolean. -/
def flag (props : Json.Fields) (name : String) (otherwise : Bool) : Bool :=
  ((props.get? name).bind Json.asBool?).getD otherwise

/-- A fixed element cannot be dragged. -/
def isFixed (e : Element) : Bool :=
  flag e.props "fixed" false

/-- An element is visible unless its settings say otherwise. -/
def isVisible (e : Element) : Bool :=
  flag e.props "visible" true

/-- Whether two elements are equal, numbers being compared as numbers. -/
def same (a b : Element) : Bool :=
  a.id == b.id && a.kind == b.kind && a.parents == b.parents && Json.sameFields a.props b.props

instance : BEq Element := ⟨same⟩

end Element

end Chalkboard
