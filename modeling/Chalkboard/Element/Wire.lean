import Chalkboard.Element.Basic
import Chalkboard.Json.Decode

/-!
# Elements as JSON

An element travels as `id`, `type`, `parents` and `props`; the last two may be left out. A parent is
a number or an id.
-/

namespace Chalkboard

open Json

section Decoding

variable {τ : Type} [Source τ]

/-- Reads an identifier. -/
def ElementId.decode (t : τ) : Decoded ElementId :=
  (decodeString t).map ElementId.mk

/-- The kinds under their names. -/
def ElementKind.names : List (String × ElementKind) :=
  ElementKind.all.map fun k => (k.name, k)

/-- Reads a kind. -/
def ElementKind.decode (t : τ) : Decoded ElementKind :=
  decodeName ElementKind.names t

/-- Reads a parent: a number if it is one, else an id. -/
def Parent.decode (t : τ) : Decoded Parent :=
  decodeEither "Parent" (fun t => (decodeFloat t).map Parent.number)
    (fun t => (ElementId.decode t).map Parent.ref) t

/-- The fields of an element. -/
def Element.fields : List (Field τ Element) :=
  [Record.required "id" ElementId.decode fun id e => { e with id },
   Record.required "type" ElementKind.decode fun kind e => { e with kind },
   Record.optional "parents" (decodeList Parent.decode) fun parents e => { e with parents },
   Record.optional "props" decodeFields fun props e => { e with props }]

/-- Reads an element. -/
def Element.decode (t : τ) : Decoded Element :=
  Record.decode "Element" Element.fields ⟨⟨""⟩, .point, [], []⟩ t

end Decoding

/-- A parent as JSON. -/
def Parent.toJson : Parent → Json
  | .number x => Json.ofFloat x
  | .ref id => .string id.name

/-- An element as JSON. -/
def Element.toJson (e : Element) : Json :=
  .object
    [("id", .string e.id.name),
     ("parents", .array (e.parents.map Parent.toJson)),
     ("props", .object e.props),
     ("type", .string e.kind.name)]

/-- An element with its fields in the order in which they are declared: id, type, parents, props. -/
def Element.listing (e : Element) : Json :=
  .object
    [("id", .string e.id.name),
     ("type", .string e.kind.name),
     ("parents", .array (e.parents.map Parent.toJson)),
     ("props", .object e.props)]

end Chalkboard
