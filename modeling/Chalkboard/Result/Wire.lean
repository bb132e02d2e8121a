import Chalkboard.Element.Wire
import Chalkboard.Result.Basic

/-!
# Results as JSON

The two shapes carry no tag: whatever can be read as plotted functions is that, else it is a list of
elements. `CommandResult.ofAnswer` reads the answer of a host, which may be a bare failure.
-/

namespace Chalkboard

open Json

section Decoding

variable {τ : Type} [Source τ]

/-- A text that may be left out or `null`. -/
def optionalText {σ : Type} (name : String) (set : Option String → σ → σ) : Field τ σ :=
  Record.optional name (decodeOptional decodeString) set

/-- The fields of a plotted function. -/
def GraphEntry.fields : List (Field τ GraphEntry) :=
  [Record.required "fn" decodeString fun function g => { g with function },
   Record.required "color" decodeString fun color g => { g with color },
   optionalText "latex" fun latex g => { g with latex },
   optionalText "label" fun label g => { g with label },
   optionalText "original" fun expression g => { g with expression },
   optionalText "error" fun error g => { g with error }]

/-- Reads a plotted function. -/
def GraphEntry.decode (t : τ) : Decoded GraphEntry :=
  Record.decode "GraphEntry" GraphEntry.fields ⟨"", "", none, none, none, none⟩ t

/-- The fields of a labelled point. -/
def Annotation.fields : List (Field τ Annotation) :=
  [Record.required "x" decodeFloat fun x a => { a with x },
   Record.required "y" decodeFloat fun y a => { a with y },
   Record.required "text" decodeString fun text a => { a with text }]

/-- Reads a labelled point. -/
def Annotation.decode (t : τ) : Decoded Annotation :=
  Record.decode "Annotation" Annotation.fields ⟨0, 0, ""⟩ t

/-- The fields of a result with plotted functions. -/
def GraphResult.fields : List (Field τ GraphResult) :=
  [Record.required "success" decodeBool fun success r => { r with success },
   Record.required "graphs" (decodeList GraphEntry.decode) fun graphs r => { r with graphs },
   Record.optional "annotations" (decodeList Annotation.decode) fun annotations r =>
    { r with annotations },
   Record.optional "explanation" decodeString fun explanation r => { r with explanation },
   optionalText "error" fun error r => { r with error }]

/-- Reads a result with plotted functions. -/
def GraphResult.decode (t : τ) : Decoded GraphResult :=
  Record.decode "GraphResult" GraphResult.fields ⟨false, [], [], "", none⟩ t

/-- The fields of a result with elements. -/
def GeometryResult.fields : List (Field τ GeometryResult) :=
  [Record.required "success" decodeBool fun success r => { r with success },
   Record.required "elements" (decodeList Element.decode) fun elements r => { r with elements },
   Record.optional "explanation" decodeString fun explanation r => { r with explanation },
   optionalText "error" fun error r => { r with error }]

/-- Reads a result with elements. -/
def GeometryResult.decode (t : τ) : Decoded GeometryResult :=
  Record.decode "GeometryResult" GeometryResult.fields ⟨false, [], "", none⟩ t

/-- Reads a result of either shape. -/
def CommandResult.decode (t : τ) : Decoded CommandResult :=
  decodeEither "CommandResult" (fun t => (GraphResult.decode t).map .graph)
    (fun t => (GeometryResult.decode t).map .geometry) t

end Decoding

/-! ## Encoding -/

/-- A text field that is left out when absent. -/
def textField (name : String) (text : Option String) : List (String × Json) :=
  Json.optionalField name (text.map .string)

/-- A plotted function as JSON. -/
def GraphEntry.toJson (g : GraphEntry) : Json :=
  .object (("color", .string g.color) :: textField "error" g.error ++
    ("fn", .string g.function) :: textField "label" g.label ++ textField "latex" g.latex ++
    textField "original" g.expression)

/-- A labelled point as JSON. -/
def Annotation.toJson (a : Annotation) : Json :=
  .object [("text", .string a.text), ("x", Json.ofFloat a.x), ("y", Json.ofFloat a.y)]

/-- A result with plotted functions as JSON. -/
def GraphResult.toJson (r : GraphResult) : Json :=
  .object (("annotations", .array (r.annotations.map Annotation.toJson)) ::
    textField "error" r.error ++
    [("explanation", .string r.explanation),
     ("graphs", .array (r.graphs.map GraphEntry.toJson)),
     ("success", .bool r.success)])

/-- A result with elements as JSON. -/
def GeometryResult.toJson (r : GeometryResult) : Json :=
  .object (("elements", .array (r.elements.map Element.toJson)) ::
    textField "error" r.error ++
    [("explanation", .string r.explanation),
     ("success", .bool r.success)])

/-- The name of the shape of a result. -/
def CommandResult.shape : CommandResult → String
  | .graph _ => "graph"
  | .geometry _ => "geometry"

/-- A result as JSON. -/
def CommandResult.toJson : CommandResult → Json
  | .graph r => r.toJson
  | .geometry r => r.toJson

/-! ## Answers of a host -/

/-- Why an answer is no result. -/
inductive MalformedAnswer where
  | shape (e : DecodeError)
  | inconsistent (i : Inconsistency)
  deriving Repr

/-- The wording of the reason. -/
def MalformedAnswer.message : MalformedAnswer → String
  | .shape e => e.message
  | .inconsistent i => i.message

/-- An answer that only says that the command failed: no functions and no elements. -/
def isBareFailure (answer : Json) : Bool :=
  (answer.field? "success").any (· == .bool false) && (answer.field? "graphs").isNone &&
    (answer.field? "elements").isNone

/-- The result that an answer carries. A bare failure counts as one if it has a message. -/
def CommandResult.ofAnswer (answer : Json) : Except MalformedAnswer CommandResult :=
  if isBareFailure answer then
    match (answer.field? "error").bind Json.asString? with
    | some message =>
      if Text.allBlank message then .error (.inconsistent .noMessage)
      else .ok (.failure message)
    | none => .error (.inconsistent .noMessage)
  else do
    let result ← (CommandResult.decode answer).mapError .shape
    result.check.mapError .inconsistent
    pure result

end Chalkboard
