import Chalkboard.Element.Basic
import Chalkboard.Table.Basic

/-!
# Settings by kind

An element is drawn with the settings of its kind, overridden by its own.
-/

namespace Chalkboard

/-- The settings of each kind that has any. -/
structure Defaults where
  byKind : Table ElementKind Json.Fields
  deriving Repr

namespace Defaults

/-- No settings at all. -/
def none : Defaults :=
  ⟨[]⟩

/-- The settings of a kind, if it has any. -/
def get? (d : Defaults) (kind : ElementKind) : Option Json.Fields :=
  d.byKind.get? kind

/-- Sets one setting of a kind. -/
def set (d : Defaults) (kind : ElementKind) (name : String) (value : Json) : Defaults :=
  let fields := ((d.get? kind).getD []).insert name value
  if (d.get? kind).isSome then ⟨d.byKind.replace kind fields⟩
  else ⟨d.byKind ++ [(kind, fields)]⟩

/-- The settings of a kind overridden by an element's own. -/
def merge (d : Defaults) (kind : ElementKind) (props : Json.Fields) : Json.Fields :=
  props.foldr (fun field acc => acc.insert field.1 field.2) ((d.get? kind).getD [])

/-- The settings that the board starts with. -/
def standard : Defaults :=
  ⟨[(.point,
      [("fillColor", .string "#2563eb"), ("size", Json.ofNat 3), ("strokeColor", .string "#2563eb"),
       ("withLabel", .bool true)]),
    (.line, [("strokeColor", .string "#475569"), ("strokeWidth", Json.ofNat 2)]),
    (.segment, [("strokeColor", .string "#475569"), ("strokeWidth", Json.ofNat 2)]),
    (.circle,
      [("fillOpacity", Json.ofNat 0), ("strokeColor", .string "#0f766e"),
       ("strokeWidth", Json.ofNat 2)]),
    (.polygon,
      [("borders", .object [("strokeWidth", Json.ofNat 2)]), ("fillColor", .string "#93c5fd"),
       ("fillOpacity", .number (.real 0.3))]),
    (.angle, [("fillOpacity", .number (.real 0.2)), ("radius", Json.ofNat 1)]),
    (.sector, [("fillOpacity", .number (.real 0.2))]),
    (.curve,
      [("highlight", .bool false), ("strokeColor", .string "#2563eb"),
       ("strokeWidth", Json.ofNat 2)]),
    (.text, [("fixed", .bool true), ("fontSize", Json.ofNat 14)]),
    (.image, [("fixed", .bool true)])]⟩

/-- An element's own setting comes first. -/
theorem get?_merge (d : Defaults) (kind : ElementKind) (props : Json.Fields) (name : String) :
    (d.merge kind props).get? name =
      (props.get? name).or (((d.get? kind).getD []).get? name) := by
  rw [merge]
  induction props with
  | nil => rfl
  | cons field props ih =>
    obtain ⟨k, v⟩ := field
    rw [List.foldr_cons]
    by_cases h : name = k
    · subst h
      rw [Json.Fields.get?_insert_self]
      simp [Json.Fields.get?]
    · have hk : (k == name) = false := by simpa using Ne.symm h
      rw [Json.Fields.get?_insert_of_ne _ h, ih]
      simp [Json.Fields.get?, hk]

end Defaults

end Chalkboard
