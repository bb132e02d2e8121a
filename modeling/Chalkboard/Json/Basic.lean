/-!
# JSON values

A value in memory. The fields of an object are listed by name in ascending order, each name once;
`Json.object` does not enforce this, and `Json.insertField` keeps it.
-/

namespace Chalkboard

/-- A JSON number: whole numbers between `-2^63` and `2^64 - 1` are kept apart from all others. -/
inductive Number where
  | integer (n : Int)
  | real (x : Float)
  deriving BEq, Repr

/-- A JSON value. -/
inductive Json where
  | null
  | bool (b : Bool)
  | number (n : Number)
  | string (s : String)
  | array (items : List Json)
  | object (fields : List (String × Json))
  deriving Repr, Inhabited

/-- The named fields of an object. -/
abbrev Json.Fields := List (String × Json)

namespace Json

/-! ## Equality

Numbers are compared as numbers of their own class, so a number that is not a number is unequal to
itself. -/

mutual

/-- Whether two values are equal. -/
def same : Json → Json → Bool
  | null, null => true
  | bool a, bool b => a == b
  | number a, number b => a == b
  | string a, string b => a == b
  | array as, array bs => sameItems as bs
  | object as, object bs => sameFields as bs
  | _, _ => false

/-- Whether two lists of values are equal item by item. -/
def sameItems : List Json → List Json → Bool
  | [], [] => true
  | a :: as, b :: bs => same a b && sameItems as bs
  | _, _ => false

/-- Whether two lists of fields are equal field by field. -/
def sameFields : List (String × Json) → List (String × Json) → Bool
  | [], [] => true
  | (k, a) :: as, (l, b) :: bs => k == l && same a b && sameFields as bs
  | _, _ => false

end

instance : BEq Json := ⟨same⟩

/-! ## Fields -/

/-- The value of the field called `name`. -/
def Fields.get? (fields : Fields) (name : String) : Option Json :=
  (fields.find? fun field => field.1 == name).map Prod.snd

/-- The fields with `name` set to `value`, at its place in the order. -/
def Fields.insert (name : String) (value : Json) : Fields → Fields
  | [] => [(name, value)]
  | (k, v) :: rest =>
    if name = k then (name, value) :: rest
    else if name < k then (name, value) :: (k, v) :: rest
    else (k, v) :: insert name value rest

/-- Fields given in any order, the last of several with one name. -/
def Fields.ofList (fields : List (String × Json)) : Fields :=
  fields.foldl (fun acc field => acc.insert field.1 field.2) []

/-- A field of an object; nothing of any other value. -/
def field? (name : String) : Json → Option Json
  | object fields => Fields.get? fields name
  | _ => none

/-- The truth value of a boolean. -/
def asBool? : Json → Option Bool
  | bool b => some b
  | _ => none

/-- The text of a string. -/
def asString? : Json → Option String
  | string s => some s
  | _ => none

/-- A number as a JSON value: what is not finite has no JSON form and becomes `null`. -/
def ofFloat (x : Float) : Json :=
  if x.isFinite then number (.real x) else null

/-- A whole number as a JSON value. -/
def ofNat (n : Nat) : Json :=
  number (.integer n)

/-- A field that is left out when its value is absent. -/
def optionalField (name : String) (value : Option Json) : List (String × Json) :=
  match value with
  | some v => [(name, v)]
  | none => []

/-! ## Small facts -/

theorem Fields.get?_insert_self (fields : Fields) (name : String) (value : Json) :
    (fields.insert name value).get? name = some value := by
  induction fields with
  | nil => simp [Fields.insert, Fields.get?]
  | cons field rest ih =>
    obtain ⟨k, v⟩ := field
    rw [Fields.insert]
    split
    · simp [Fields.get?]
    · next hne =>
      split
      · simp [Fields.get?]
      · have hk : (k == name) = false := by simpa using fun h => hne h.symm
        rw [Fields.get?, List.find?_cons, hk]
        exact ih

theorem Fields.get?_insert_of_ne (fields : Fields) {name other : String} (h : other ≠ name)
    (value : Json) : (fields.insert name value).get? other = fields.get? other := by
  have hne : (name == other) = false := by simpa using h.symm
  induction fields with
  | nil => simp [Fields.insert, Fields.get?, hne]
  | cons field rest ih =>
    obtain ⟨k, v⟩ := field
    rw [Fields.insert]
    split
    · next heq =>
      subst heq
      simp [Fields.get?, hne]
    · split
      · simp [Fields.get?, hne]
      · by_cases hk : k = other
        · simp [Fields.get?, hk]
        · have hk : (k == other) = false := by simpa using hk
          simpa only [Fields.get?, List.find?_cons, hk] using ih

end Json

end Chalkboard
