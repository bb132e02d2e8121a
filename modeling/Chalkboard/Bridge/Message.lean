import Chalkboard.Command.Wire
import Chalkboard.Status.Basic

/-!
# What the bridge and a host say to each other

A request carries its kind, an id that pairs it with its answer, and a payload. A host sends back
results and errors under the id of a request, and status messages of its own accord.
-/

namespace Chalkboard

/-- What pairs a request with its answer. -/
structure RequestId where
  text : String
  deriving DecidableEq, Hashable, Repr, Inhabited

/-- What the bridge asks of a host. -/
structure HostRequest where
  kind : RequestKind
  id : RequestId
  payload : Json
  deriving BEq, Repr, Inhabited

/-- What a host says. -/
inductive HostMessage where
  | status (status : Status)
  | result (id : RequestId) (payload : Json)
  | error (id : RequestId) (message : String)
  deriving BEq, Repr, Inhabited

/-- The id of the request that a message answers. -/
def HostMessage.id? : HostMessage → Option RequestId
  | .status _ => none
  | .result id _ => some id
  | .error id _ => some id

open Json

/-! ## Encoding -/

/-- A request as JSON. -/
def HostRequest.toJson (r : HostRequest) : Json :=
  .object [("id", .string r.id.text), ("payload", r.payload), ("type", .string r.kind.name)]

/-- A message as JSON. -/
def HostMessage.toJson : HostMessage → Json
  | .status s =>
    .object
      [("message", .string s.message), ("status", .string s.phase.name), ("type", .string "status")]
  | .result id payload =>
    .object [("id", .string id.text), ("payload", payload), ("type", .string "result")]
  | .error id message =>
    .object [("error", .string message), ("id", .string id.text), ("type", .string "error")]

/-! ## Decoding -/

section Decoding

variable {τ : Type} [Source τ]

/-- Reads the id of a request. -/
def RequestId.decode (t : τ) : Decoded RequestId :=
  (decodeString t).map RequestId.mk

/-- Reads a request. -/
def HostRequest.decode (t : τ) : Decoded HostRequest :=
  Record.decode "HostRequest"
    [Record.required "type" RequestKind.decode fun kind r => { r with kind },
     Record.required "id" RequestId.decode fun id r => { r with id },
     Record.optional "payload" decodeAny fun payload r => { r with payload }]
    ⟨.init, ⟨""⟩, .null⟩ t

/-- The variants of a host message. -/
inductive HostMessageKind where
  | status | result | error
  deriving DecidableEq, Repr

namespace HostMessageKind

/-- The variants under their names. -/
def names : List (String × HostMessageKind) :=
  [("status", status), ("result", result), ("error", error)]

/-- Reads the name of a variant, which must be a text. -/
def decode (t : τ) : Decoded HostMessageKind :=
  match Source.layer t with
  | .string name =>
    match names.find? (·.1 == name) with
    | some (_, kind) => .ok kind
    | none => .error (.unknownVariant name (names.map Prod.fst))
  | l => .error (l.unexpected "variant identifier")

end HostMessageKind

/-- The fields of a variant, by name or in order. -/
inductive Content (τ : Type) where
  | named (entries : List (String × SetAside τ))
  | listed (source : SetAside τ) (items : List (SetAside τ))

/-- Reads the fields of the variant called `title`. -/
def Content.read {σ : Type} (title : String) (fields : List (Field (SetAside τ) σ)) (blank : σ) :
    Content τ → Decoded σ
  | .named entries => Record.ofEntries fields blank entries
  | .listed source items =>
    Record.ofItems ("struct variant HostMessage::" ++ title) fields blank source items

/-- Reads the fields of a message of the given variant. -/
def HostMessageKind.read (content : Content τ) : HostMessageKind → Decoded HostMessage
  | .status => do
    let status ← content.read "Status"
      [Record.required "status" Phase.decode fun phase s => { s with phase },
       Record.optional "message" decodeString fun message s => { s with message }] Status.initial
    pure (.status status)
  | .result => do
    let (id, payload) ← content.read "Result"
      [Record.required "id" RequestId.decode fun id d => (id, d.2),
       Record.optional "payload" decodeAny fun payload d => (d.1, payload)] (⟨""⟩, .null)
    pure (.result id payload)
  | .error => do
    let (id, message) ← content.read "Error"
      [Record.required "id" RequestId.decode fun id d => (id, d.2),
       Record.required "error" decodeString fun message d => (d.1, message)] (⟨""⟩, "")
    pure (.error id message)

/-- Reads a message: an object with its tag among the fields, or an array of the tag and the fields.
All but the tag is set aside until the tag is known. -/
def HostMessage.decode (t : τ) : Decoded HostMessage :=
  match Source.layer t with
  | .object entries =>
    match entries.filter (·.1 == "type") with
    | [] => .error (.missingField "type")
    | [(_, tag)] => do
      let kind ← HostMessageKind.decode tag
      let stored ← (entries.filter (·.1 != "type")).mapM fun (name, t) =>
        (SetAside.of true t).map (name, ·)
      kind.read (.named stored)
    | _ => .error (.duplicateField "type")
  | .array [] => .error (.missingField "type")
  | .array (tag :: items) => do
    let kind ← HostMessageKind.decode tag
    let stored ← items.mapM (SetAside.of true)
    kind.read (.listed ⟨t, true⟩ stored)
  | l => .error (l.unexpected "internally tagged enum HostMessage")

end Decoding

end Chalkboard
