import Std.Data.HashMap
import Chalkboard.Element.Basic

/-!
# The scene

The scene is the authoritative list of elements. It owns them; they refer to each other by id only.
Every change raises the revision by one, and a change that fails changes nothing. The index gives
the place of each id in the list.

`Scene.closure` lists what depends on an element, nearest first, and `Scene.deleteCascade` deletes
all of that in one change.
-/

namespace Chalkboard

/-- Why a change of the scene fails. -/
inductive SceneError where
  | duplicateId (id : ElementId)
  | danglingParent (id parent : ElementId)
  | notFound (id : ElementId)
  | notAFreePoint (id : ElementId)
  deriving DecidableEq, Repr

/-- The wording of a scene error. -/
def SceneError.message : SceneError → String
  | .duplicateId id => "Duplicate element id: " ++ id.name
  | .danglingParent id parent =>
    "Element " ++ id.name ++ " references missing parent " ++ parent.name
  | .notFound id => "Element not found: " ++ id.name
  | .notAFreePoint id => "Element " ++ id.name ++ " is not a free point"

/-- The name of an error's kind. -/
def SceneError.kindName : SceneError → String
  | .duplicateId _ => "DuplicateId"
  | .danglingParent .. => "DanglingParent"
  | .notFound _ => "NotFound"
  | .notAFreePoint _ => "NotAFreePoint"

/-- A change asked for by a gesture or by the user. -/
inductive Mutation where
  | movePoint (id : ElementId) (x y : Float)
  | setVisibility (id : ElementId) (visible : Bool)
  /-- Deletes an element and all that depends on it. -/
  | delete (id : ElementId)
  deriving Repr

/-- The elements, the place of each id, and the number of changes so far. -/
structure Scene where
  elements : List Element
  index : Std.HashMap ElementId Nat
  revision : Nat

namespace Scene

/-- The scene without elements. -/
def empty : Scene :=
  ⟨[], ∅, 0⟩

/-- The place of each id in a list of elements. -/
def indexOf (elements : List Element) : Std.HashMap ElementId Nat :=
  elements.zipIdx.foldl (fun index (e, i) => index.insert e.id i) ∅

/-- How many elements there are. -/
def size (s : Scene) : Nat :=
  s.elements.length

/-- Whether there is no element. -/
def isEmpty (s : Scene) : Bool :=
  s.elements.isEmpty

/-- Whether an element has this id. -/
def contains (s : Scene) (id : ElementId) : Bool :=
  s.index.contains id

/-- The element with this id. -/
def get? (s : Scene) (id : ElementId) : Option Element :=
  (s.index[id]?).bind fun i => s.elements[i]?

/-- One more element at the end of the list. -/
def push (s : Scene) (e : Element) : Scene :=
  { elements := s.elements ++ [e]
    index := s.index.insert e.id s.elements.length
    revision := s.revision + 1 }

/-! ## Changes -/

/-- Adds an element. Its id must be new and all that it refers to must be in the scene. -/
def insert (s : Scene) (e : Element) : Except SceneError Scene :=
  if s.contains e.id then .error (.duplicateId e.id)
  else
    match e.refs.find? fun p => !s.contains p with
    | some parent => .error (.danglingParent e.id parent)
    | none => .ok (s.push e)

/-- The first id that a list repeats. -/
def firstRepeated? (seen : List ElementId) : List ElementId → Option ElementId
  | [] => none
  | id :: rest => if seen.contains id then some id else firstRepeated? (id :: seen) rest

/-- Replaces all elements. Ids must be distinct; references to ids that are not there are accepted,
such elements are drawn once their parents exist. -/
def replaceAll (s : Scene) (elements : List Element) : Except SceneError Scene :=
  match firstRepeated? [] (elements.map Element.id) with
  | some id => .error (.duplicateId id)
  | none => .ok ⟨elements, indexOf elements, s.revision + 1⟩

/-- The scene with the given elements. -/
def ofElements (elements : List Element) : Except SceneError Scene :=
  empty.replaceAll elements

/-- Removes all elements. -/
def clear (s : Scene) : Scene :=
  ⟨[], ∅, s.revision + 1⟩

/-- Changes the element with this id. The index stays as it is, so the change must keep the id. -/
def update (s : Scene) (id : ElementId) (f : Element → Except SceneError Element) :
    Except SceneError Scene :=
  match s.index[id]? with
  | none => .error (.notFound id)
  | some i =>
    match s.elements[i]? with
    | none => .error (.notFound id)
    | some e => do
      let e ← f e
      pure { s with elements := s.elements.set i e, revision := s.revision + 1 }

/-- Moves a free point. -/
def setPosition (s : Scene) (id : ElementId) (x y : Float) : Except SceneError Scene :=
  s.update id fun e =>
    if e.position?.isSome then .ok { e with parents := [.number x, .number y] }
    else .error (.notAFreePoint id)

/-- Sets whether an element is visible. -/
def setVisibility (s : Scene) (id : ElementId) (visible : Bool) : Except SceneError Scene :=
  s.update id fun e => .ok { e with props := e.props.insert "visible" (.bool visible) }

/-- The first of the candidates that no element has. Among as many candidates as there are elements,
and one more, one is free if they are all different. -/
def freshId (s : Scene) (candidates : Nat → ElementId) : ElementId :=
  (((List.range (s.size + 1)).map candidates).find? fun id => !s.contains id).getD
    (candidates (s.size + 1))

/-- Places a free point under the first candidate that is no id yet. -/
def placePoint (s : Scene) (candidates : Nat → ElementId) (x y : Float) : Scene × ElementId :=
  let id := s.freshId candidates
  (s.push (.freePoint id x y), id)

/-! ## Dependents -/

/-- The ids of the elements that refer to `id`, in the order of the scene. -/
def dependents (s : Scene) (id : ElementId) : List ElementId :=
  (s.elements.filter fun e => e.references id).map Element.id

/-- The ids that are not among `seen`, each once. -/
def fresh (seen : List ElementId) : List ElementId → List ElementId
  | [] => []
  | id :: rest => if seen.contains id then fresh seen rest else id :: fresh (id :: seen) rest

/-- The ids in `layer`, followed by what depends on them and is not among `seen`, layer by layer. -/
def layersFrom (s : Scene) (seen layer : List ElementId) : Nat → List ElementId
  | 0 => layer
  | fuel + 1 =>
    -- in the order in which a queue would hand them out
    match fresh seen (layer.flatMap s.dependents) with
    | [] => layer
    | next => layer ++ layersFrom s (seen ++ next) next fuel

/-- An element and all that refers to it through one or more others, nearest first; nothing if there
is no such element. There are no more layers than elements. -/
def closure (s : Scene) (id : ElementId) : List ElementId :=
  if s.contains id then s.layersFrom [id] [id] s.size else []

/-- Deletes an element with its closure, which is returned. -/
def deleteCascade (s : Scene) (id : ElementId) : Except SceneError (Scene × List ElementId) :=
  match s.closure id with
  | [] => .error (.notFound id)
  | doomed =>
    let kept := s.elements.filter fun e => !doomed.contains e.id
    .ok (⟨kept, indexOf kept, s.revision + 1⟩, doomed)

/-- Carries out a change. -/
def apply (s : Scene) : Mutation → Except SceneError Scene
  | .movePoint id x y => s.setPosition id x y
  | .setVisibility id visible => s.setVisibility id visible
  | .delete id => (s.deleteCascade id).map Prod.fst

end Scene

end Chalkboard
