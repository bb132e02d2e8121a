import Chalkboard.Json.Printer
import Chalkboard.Json.Tree

/-!
# Decoding JSON into typed values

Three kinds of JSON can be decoded: values in memory, trees of text, and data that was set aside
until a tag said what it is. `Source` is what decoders need of them, so each decoder is written
once.

A record is decoded from an object or from an array of its fields in order. In an object the fields
are decoded in the order in which the object lists them, so the first bad field is reported; a field
that is missing is reported after all others were decoded.
-/

namespace Chalkboard.Json

/-! ## Errors -/

/-- What was found where something else was expected. -/
inductive Found where
  | null
  | bool (b : Bool)
  | integer (n : Int)
  | real (x : Float)
  | string (s : String)
  | sequence
  | map
  deriving Repr

/-- A name between backticks. -/
def ticked (s : String) : String :=
  "\x60" ++ s ++ "\x60"

/-- The words for what was found. -/
def Found.text : Found → String
  | .null => "null"
  | .bool b => "boolean " ++ ticked (if b then "true" else "false")
  | .integer n => "integer " ++ ticked (toString n)
  | .real x => "floating point " ++ ticked (numberLayout.write x)
  | .string s => "string " ++ Text.quote s
  | .sequence => "sequence"
  | .map => "map"

/-- Why data cannot be decoded. -/
inductive DecodeError where
  | wrongType (found : Found) (expected : String)
  | wrongValue (found : Found) (expected : String)
  | wrongLength (length : Nat) (expected : String)
  | unknownVariant (name : String) (expected : List String)
  | missingField (name : String)
  | duplicateField (name : String)
  /-- None of the shapes of a choice without a tag fits. -/
  | noShape (choice : String)
  /-- A part of a text that is well formed but has no value. -/
  | unreadable
  deriving Repr

/-- The names that were expected, in words. -/
def expectedNames : List String → String
  | [] => "there are no variants"
  | [a] => "expected " ++ ticked a
  | [a, b] => "expected " ++ ticked a ++ " or " ++ ticked b
  | names => "expected one of " ++ String.intercalate ", " (names.map ticked)

/-- The wording of a decoding error. -/
def DecodeError.message : DecodeError → String
  | .wrongType found expected => "invalid type: " ++ found.text ++ ", expected " ++ expected
  | .wrongValue found expected => "invalid value: " ++ found.text ++ ", expected " ++ expected
  | .wrongLength n expected => "invalid length " ++ toString n ++ ", expected " ++ expected
  | .unknownVariant name [] => "unknown variant " ++ ticked name ++ ", there are no variants"
  | .unknownVariant name expected =>
    "unknown variant " ++ ticked name ++ ", " ++ expectedNames expected
  | .missingField name => "missing field " ++ ticked name
  | .duplicateField name => "duplicate field " ++ ticked name
  | .noShape choice => "data did not match any variant of untagged enum " ++ choice
  | .unreadable => "unreadable data"

/-- The outcome of decoding. -/
abbrev Decoded := Except DecodeError

/-! ## Sources -/

/-- The outermost layer of something that can be decoded. -/
inductive Layer (τ : Type) where
  | null
  | bool (b : Bool)
  | number (n : Number)
  | string (s : String)
  | array (items : List τ)
  | object (fields : List (String × τ))
  | unreadable

/-- The error for a layer that is not what was expected. -/
def Layer.unexpected {τ : Type} (l : Layer τ) (expected : String) : DecodeError :=
  match l with
  | .null => .wrongType .null expected
  | .bool b => .wrongType (.bool b) expected
  | .number (.integer n) => .wrongType (.integer n) expected
  | .number (.real x) => .wrongType (.real x) expected
  | .string s => .wrongType (.string s) expected
  | .array _ => .wrongType .sequence expected
  | .object _ => .wrongType .map expected
  | .unreadable => .unreadable

/-- Something that can be decoded. -/
class Source (τ : Type) where
  layer : τ → Layer τ
  /-- The whole of it as free-form data. -/
  value : τ → Decoded Json
  /-- What is expected of an array that has more than `count` items. -/
  excess : τ → (count : Nat) → String
  /-- Whether an empty object stands for no data. -/
  emptyIsNothing : τ → Bool

/-- What is expected of an array that goes on behind the last field. -/
def fewerElements : String := "fewer elements in array"

instance : Source Json where
  layer
    | .null => .null
    | .bool b => .bool b
    | .number n => .number n
    | .string s => .string s
    | .array items => .array items
    | .object fields => .object fields
  value j := .ok j
  excess _ _ := fewerElements
  emptyIsNothing _ := false

instance : Source Tree where
  layer
    | .null => .null
    | .bool b => .bool b
    | .number n => .number n
    | .string s => .string s
    | .array items => .array items
    | .object fields => .object fields
    | .unreadable => .unreadable
  value t := match t.value? with
    | some j => .ok j
    | none => .error .unreadable
  excess _ _ := fewerElements
  emptyIsNothing _ := false

/-- Data that was set aside before it was known what it is. -/
structure SetAside (τ : Type) where
  content : τ
  /-- Whether it belongs to a tag; else it is tried against several shapes. -/
  tagged : Bool

/-- Sets data aside. All of it must be readable. -/
def SetAside.of {τ : Type} [Source τ] (tagged : Bool) (t : τ) : Decoded (SetAside τ) :=
  (Source.value t).map fun _ => ⟨t, tagged⟩

/-- The layer of data that was set aside. -/
def SetAside.layer {τ : Type} [Source τ] (t : SetAside τ) : Layer (SetAside τ) :=
  match Source.layer t.content with
  | .null => .null
  | .bool b => .bool b
  | .number n => .number n
  | .string s => .string s
  | .array items => .array (items.map fun item => ⟨item, t.tagged⟩)
  | .object fields => .object (fields.map fun (name, field) => (name, ⟨field, t.tagged⟩))
  | .unreadable => .unreadable

instance {τ : Type} [Source τ] : Source (SetAside τ) where
  layer := SetAside.layer
  value t := Source.value t.content
  excess _ count :=
    toString count ++ (if count = 1 then " element" else " elements") ++ " in sequence"
  emptyIsNothing t := t.tagged

/-- A decoder reads every source. -/
abbrev Decoder (α : Type) := ∀ {τ : Type} [Source τ], τ → Decoded α

/-! ## Scalars -/

section Scalars

variable {τ : Type} [Source τ]

/-- A text. -/
def decodeString (t : τ) : Decoded String :=
  match Source.layer t with
  | .string s => .ok s
  | l => .error (l.unexpected "a string")

/-- A truth value. -/
def decodeBool (t : τ) : Decoded Bool :=
  match Source.layer t with
  | .bool b => .ok b
  | l => .error (l.unexpected "a boolean")

/-- Any number as a floating-point number. -/
def decodeFloat (t : τ) : Decoded Float :=
  match Source.layer t with
  | .number (.real x) => .ok x
  | .number (.integer n) => .ok (Float.ofInt n)
  | l => .error (l.unexpected "f64")

/-- A whole number from zero up to, and not including, `2 ^ bits`. -/
def decodeNatural (bits : Nat) (t : τ) : Decoded Nat :=
  let name := "u" ++ toString bits
  match Source.layer t with
  | .number (.integer n) =>
    if 0 ≤ n ∧ n < Nat.pow 2 bits then .ok n.toNat else .error (.wrongValue (.integer n) name)
  | l => .error (l.unexpected name)

/-- A whole number of 32 bits. -/
def decodeUInt32 (t : τ) : Decoded UInt32 :=
  (decodeNatural 32 t).map UInt32.ofNat

/-- A whole number of 64 bits. -/
def decodeUInt64 (t : τ) : Decoded UInt64 :=
  (decodeNatural 64 t).map UInt64.ofNat

/-- Free-form data. -/
def decodeAny (t : τ) : Decoded Json :=
  Source.value t

/-- Free-form named fields. -/
def decodeFields (t : τ) : Decoded Fields :=
  match Source.layer t with
  | .object _ => (Source.value t).map fun
    | .object fields => fields
    | _ => []
  | l => .error (l.unexpected "a map")

/-- A value that may be `null`. -/
def decodeOptional {α : Type} (decode : τ → Decoded α) (t : τ) : Decoded (Option α) :=
  match Source.layer t with
  | .null => .ok none
  | _ => (decode t).map some

/-- A sequence of values. -/
def decodeList {α : Type} (decode : τ → Decoded α) (t : τ) : Decoded (List α) :=
  match Source.layer t with
  | .array items => items.mapM decode
  | l => .error (l.unexpected "a sequence")

/-- A sequence of exactly `count` values. -/
def decodeExactly {α : Type} (count : Nat) (decode : τ → Decoded α) (t : τ) : Decoded (List α) :=
  match Source.layer t with
  | .array items => do
    let values ← (items.take count).mapM decode
    if items.length < count then
      .error (.wrongLength items.length ("an array of length " ++ toString count))
    else if count < items.length then
      .error (.wrongLength items.length (Source.excess t count))
    else pure values
  | l => .error (l.unexpected ("an array of length " ++ toString count))

/-- Two numbers. -/
def decodePair (t : τ) : Decoded (Float × Float) := do
  match ← decodeExactly 2 decodeFloat t with
  | [a, b] => pure (a, b)
  | _ => .error .unreadable

end Scalars

/-! ## Records -/

/-- What happens where a field is not given. -/
inductive Presence where
  /-- It must be given. -/
  | required
  /-- It may be left out of an object, and counts in an array. -/
  | nullable
  /-- It may be left out. -/
  | optional
  deriving DecidableEq

/-- A field of a record that is being filled in. -/
structure Field (τ σ : Type) where
  name : String
  presence : Presence
  read : τ → σ → Decoded σ

namespace Record

variable {τ σ : Type}

/-- A required field. -/
def required {α : Type} (name : String) (decode : τ → Decoded α) (set : α → σ → σ) : Field τ σ :=
  ⟨name, .required, fun t s => (decode t).map (set · s)⟩

/-- A field that keeps its value where it is left out. -/
def optional {α : Type} (name : String) (decode : τ → Decoded α) (set : α → σ → σ) : Field τ σ :=
  ⟨name, .optional, fun t s => (decode t).map (set · s)⟩

/-- A field that may be left out of an object only. -/
def nullable {α : Type} (name : String) (decode : τ → Decoded α) (set : α → σ → σ) : Field τ σ :=
  ⟨name, .nullable, fun t s => (decode t).map (set · s)⟩

/-- Fills in the fields that are listed, in the order of the list; `seen` are the names so far.
Names that the record does not have are passed over. -/
def fill (fields : List (Field τ σ)) (seen : List String) :
    List (String × τ) → σ → Decoded (σ × List String)
  | [], s => .ok (s, seen)
  | (name, t) :: rest, s =>
    match fields.find? (·.name == name) with
    | none => fill fields seen rest s
    | some field =>
      if seen.contains name then .error (.duplicateField name)
      else do
        let s ← field.read t s
        fill fields (name :: seen) rest s

/-- A record from the entries of an object. -/
def ofEntries (fields : List (Field τ σ)) (blank : σ) (entries : List (String × τ)) :
    Decoded σ := do
  let (s, seen) ← fill fields [] entries blank
  match fields.find? fun f => f.presence == .required && !seen.contains f.name with
  | some missing => .error (.missingField missing.name)
  | none => pure s

/-- Fills in the leading fields from items; `done` counts the items used. -/
def fillItems (expected : String) (done : Nat) : List (Field τ σ) → List τ → σ → Decoded (σ × Nat)
  | [], _, s => .ok (s, done)
  | field :: fields, [], s =>
    -- only fields at the end may be left out of an array
    if field.presence == .optional then fillItems expected done fields [] s
    else .error (.wrongLength done expected)
  | field :: fields, item :: items, s => do
    let s ← field.read item s
    fillItems expected (done + 1) fields items s

/-- What is expected of an array of fields. -/
def expectedItems (title : String) (count : Nat) : String :=
  title ++ " with " ++ toString count ++ (if count = 1 then " element" else " elements")

/-- A record from an array of its fields; `source` tells how an excess is reported. -/
def ofItems [Source τ] (title : String) (fields : List (Field τ σ)) (blank : σ) (source : τ)
    (items : List τ) : Decoded σ := do
  let (s, done) ← fillItems (expectedItems title fields.length) 0 fields items blank
  if done < items.length then .error (.wrongLength items.length (Source.excess source done))
  else pure s

/-- A record from an object or an array. -/
def decode [Source τ] (name : String) (fields : List (Field τ σ)) (blank : σ) (t : τ) : Decoded σ :=
  match Source.layer t with
  | .object entries => ofEntries fields blank entries
  | .array items => ofItems ("struct " ++ name) fields blank t items
  | l => .error (l.unexpected ("struct " ++ name))

end Record

/-! ## Choices -/

/-- A choice between names. Besides the name itself, an object with that name as its only field and
`null` as its value is accepted. -/
def decodeName {τ α : Type} [Source τ] (names : List (String × α)) (t : τ) : Decoded α :=
  let pick (name : String) : Decoded α :=
    match names.find? (·.1 == name) with
    | some (_, a) => .ok a
    | none => .error (.unknownVariant name (names.map Prod.fst))
  match Source.layer t with
  | .string s => pick s
  | .object [(name, content)] => do
    let a ← pick name
    match Source.layer content with
    | .null => pure a
    | .object [] =>
      if Source.emptyIsNothing content then pure a else .error (.wrongType .map "unit")
    | l => .error (l.unexpected "unit")
  | .object _ => .error (.wrongValue .map "map with a single key")
  | l => .error (l.unexpected "string or map")

/-- How a choice with a tag and a content field is spelled. -/
structure TagSpelling where
  title : String
  tag : String
  content : String

/-- Reads a choice with a tag: an object with a tag field and a content field, or an array of the
tag and the content. Content that stands before its tag is set aside until the tag is known. `build`
reads the content of a variant, `bare` stands for a variant without content. -/
def decodeTagged {τ ν α : Type} [Source τ] (spelling : TagSpelling) (names : List (String × ν))
    (build : ν → Decoder α) (bare : ν → Decoded α) (t : τ) : Decoded α :=
  match Source.layer t with
  -- an array has the tag first, so nothing is ever set aside
  | .array [] => .error (.wrongLength 0 ("adjacently tagged enum " ++ spelling.title))
  | .array [tag] => do
    let _ ← decodeName names tag
    .error (.wrongLength 1 ("adjacently tagged enum " ++ spelling.title))
  | .array (tag :: content :: rest) => do
    let v ← decodeName names tag
    let a ← build v content
    if rest.isEmpty then pure a
    else .error (.wrongLength (rest.length + 2) (Source.excess t 2))
  | .object entries =>
    let relevant := entries.filter fun (name, _) => name == spelling.tag || name == spelling.content
    match relevant with
    | [] => .error (.missingField spelling.tag)
    | (name, first) :: rest =>
      -- the tag stands first: its content is read where it stands
      if name == spelling.tag then do
        let v ← decodeName names first
        match rest with
        | [] => bare v
        | (name, second) :: more =>
          if name == spelling.tag then .error (.duplicateField spelling.tag)
          else do
            let a ← build v second
            match more with
            | [] => pure a
            | (name, _) :: _ => .error (.duplicateField name)
      -- the content stands first: an unknown tag is reported before any fault of the content
      else do
        let stored ← SetAside.of true first
        match rest with
        | [] => .error (.missingField spelling.tag)
        | (name, second) :: more =>
          if name == spelling.content then .error (.duplicateField spelling.content)
          else do
            let v ← decodeName names second
            let a ← build v stored
            match more with
            | [] => pure a
            | (name, _) :: _ => .error (.duplicateField name)
  | l => .error (l.unexpected ("adjacently tagged enum " ++ spelling.title))

/-- The fields of a variant, which must be given as an object. -/
def decodeVariant {τ σ : Type} [Source τ] (title : String) (fields : List (Field τ σ)) (blank : σ)
    (t : τ) : Decoded σ :=
  match Source.layer t with
  | .object entries => Record.ofEntries fields blank entries
  | l => .error (l.unexpected ("struct variant " ++ title))

/-- The first of two shapes that fits, under the name of the choice. -/
def decodeEither {τ α : Type} [Source τ] (choice : String) (first second : Decoder α) (t : τ) :
    Decoded α := do
  let stored ← SetAside.of false t
  match first stored with
  | .ok a => pure a
  | .error _ =>
    match second stored with
    | .ok a => pure a
    | .error _ => .error (.noShape choice)

/-- A decoder at work on a text. -/
def decodeText {α : Type} (decode : Decoder α) (text : String) : Decoded α :=
  match Tree.read? text with
  | some t => decode t
  | none => .error .unreadable

end Chalkboard.Json
