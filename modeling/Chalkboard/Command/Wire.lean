import Chalkboard.Command.Basic
import Chalkboard.Json.Decode

/-!
# Commands as JSON

On the wire a command is the name of an intent, untyped data and an explanation that may be absent.
`RawCommand.toCommand` types the data and checks it; `Command.toRaw` is the way back.
-/

namespace Chalkboard

open Json

/-- A command as it travels. -/
structure RawCommand where
  intent : String
  data : Json
  explanation : Option String
  deriving BEq, Repr, Inhabited

section Decoding

variable {τ : Type} [Source τ]

/-- Reads a kind of request. -/
def RequestKind.decode (t : τ) : Decoded RequestKind :=
  decodeName (RequestKind.all.map fun k => (k.name, k)) t

/-- The fields of a command on the wire. -/
def RawCommand.fields : List (Field τ RawCommand) :=
  [Record.required "intent" decodeString fun intent r => { r with intent },
   Record.optional "data" decodeAny fun data r => { r with data },
   Record.optional "explanation" (decodeOptional decodeString) fun explanation r =>
    { r with explanation }]

/-- Reads a command on the wire. -/
def RawCommand.decode (t : τ) : Decoded RawCommand :=
  Record.decode "RawCommand" RawCommand.fields ⟨"", .null, none⟩ t

/-- Reads data that is one expression. -/
def decodeExpression (title : String) (t : τ) : Decoded String :=
  decodeVariant ("Intent::" ++ title)
    [Record.required "expression" decodeString fun e _ => e] "" t

/-- Reads the data of an intent of the given variant. -/
def IntentKind.decodeData (kind : IntentKind) (t : τ) : Decoded Intent :=
  match kind with
  | .plotFunction => do
    let (expressions, colors) ← decodeVariant "Intent::PlotFunction"
      [Record.required "expressions" (decodeList decodeString) fun es d => (es, d.2),
       Record.optional "colors" (decodeList decodeString) fun cs d => (d.1, cs)] ([], []) t
    pure (.plotFunction expressions colors)
  | .plotDerivative => do
    let (expression, order) ← decodeVariant "Intent::PlotDerivative"
      [Record.required "expression" decodeString fun e d => (e, d.2),
       Record.optional "order" decodeUInt32 fun n d => (d.1, n)] ("", 1) t
    pure (.plotDerivative expression order)
  | .plotIntegral => (decodeExpression "PlotIntegral" t).map .plotIntegral
  | .solveAndPlot => (decodeExpression "SolveAndPlot" t).map .solveAndPlot
  | .findExtrema => (decodeExpression "FindExtrema" t).map .findExtrema
  | .convert => (decodeExpression "Convert" t).map .convert
  | .calculate => (decodeExpression "Calculate" t).map .calculate
  | .drawPoint => do
    let (x, y, name) ← decodeVariant "Intent::DrawPoint"
      [Record.required "x" decodeFloat fun x d => (x, d.2),
       Record.required "y" decodeFloat fun y d => (d.1, y, d.2.2),
       Record.optional "name" (decodeOptional decodeString) fun n d => (d.1, d.2.1, n)]
      (0, 0, none) t
    pure (.drawPoint x y name)
  | .drawSegment => do
    let (start, finish) ← decodeVariant "Intent::DrawSegment"
      [Record.required "from" decodePair fun p d => (p, d.2),
       Record.required "to" decodePair fun p d => (d.1, p)] ((0, 0), (0, 0)) t
    pure (.drawSegment start finish)
  | .drawCircle => do
    let (center, radius) ← decodeVariant "Intent::DrawCircle"
      [Record.required "center" decodePair fun p d => (p, d.2),
       Record.required "radius" decodeFloat fun r d => (d.1, r)] ((0, 0), 0) t
    pure (.drawCircle center radius)
  | .drawPolygon => do
    let vertices ← decodeVariant "Intent::DrawPolygon"
      [Record.required "vertices" (decodeList decodePair) fun vs _ => vs] [] t
    pure (.drawPolygon vertices)

/-- The variants of an intent under their names. -/
def IntentKind.names : List (String × IntentKind) :=
  IntentKind.all.map fun k => (k.name, k)

/-- Reads an intent, unchecked. -/
def Intent.decode (t : τ) : Decoded Intent :=
  decodeTagged ⟨"Intent", "intent", "data"⟩ IntentKind.names (fun k => k.decodeData)
    (fun _ => .error (.missingField "data")) t

end Decoding

/-! ## Encoding -/

/-- A pair of numbers as JSON. -/
def pairToJson (p : Float × Float) : Json :=
  .array [Json.ofFloat p.1, Json.ofFloat p.2]

/-- A list of texts as JSON. -/
def textsToJson (texts : List String) : Json :=
  .array (texts.map .string)

/-- The data of an intent as JSON. -/
def Intent.data : Intent → Json
  | .plotFunction expressions colors =>
    .object ((if colors.isEmpty then [] else [("colors", textsToJson colors)]) ++
      [("expressions", textsToJson expressions)])
  | .plotDerivative expression order =>
    .object [("expression", .string expression), ("order", Json.ofNat order.toNat)]
  | .plotIntegral e | .solveAndPlot e | .findExtrema e | .convert e | .calculate e =>
    .object [("expression", .string e)]
  | .drawPoint x y name =>
    .object (Json.optionalField "name" (name.map .string) ++
      [("x", Json.ofFloat x), ("y", Json.ofFloat y)])
  | .drawSegment start finish => .object [("from", pairToJson start), ("to", pairToJson finish)]
  | .drawCircle center radius =>
    .object [("center", pairToJson center), ("radius", Json.ofFloat radius)]
  | .drawPolygon vertices => .object [("vertices", .array (vertices.map pairToJson))]

/-- An intent as JSON. -/
def Intent.toJson (i : Intent) : Json :=
  .object [("data", i.data), ("intent", .string i.name)]

/-- A command on the wire as JSON. -/
def RawCommand.toJson (r : RawCommand) : Json :=
  .object (("data", r.data) :: Json.optionalField "explanation" (r.explanation.map .string) ++
    [("intent", .string r.intent)])

namespace RawCommand

/-- The data with its tag beside it; no data counts as empty data. -/
def tagged (r : RawCommand) : Json :=
  .object
    [("data", match r.data with
      | .null => .object []
      | data => data),
     ("intent", .string r.intent)]

/-- The intent that the name and the data describe, unchecked. -/
def intent? (r : RawCommand) : Except CommandError Intent :=
  (Intent.decode r.tagged).mapError fun e => .malformed r.intent e.message

/-- The command that travels here, if its data has the right form and makes sense. -/
def toCommand (r : RawCommand) : Except CommandError Command := do
  let intent ← r.intent?
  intent.check
  pure ⟨intent, r.explanation⟩

end RawCommand

namespace Command

/-- A command as it travels. -/
def toRaw (c : Command) : RawCommand :=
  ⟨c.intent.name, c.intent.data, c.explanation⟩

/-- A command as JSON. -/
def toJson (c : Command) : Json :=
  c.toRaw.toJson

end Command

/-- Why JSON is not a command: its shape, or what it says. -/
inductive CommandDecodeError where
  | shape (e : DecodeError)
  | command (e : CommandError)

/-- The wording of the reason. -/
def CommandDecodeError.message : CommandDecodeError → String
  | .shape e => e.message
  | .command e => e.message

/-- Reads a command and checks it. -/
def Command.decode {τ : Type} [Source τ] (t : τ) : Except CommandDecodeError Command := do
  let raw ← (RawCommand.decode t).mapError .shape
  raw.toCommand.mapError .command

end Chalkboard
