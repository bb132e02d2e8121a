import Chalkboard.Command.Wire
import Chalkboard.Element.Wire

/-!
# Prompts and answers

A prompt goes to the intent service together with the conversation so far. The service answers with
a model's text, which may wrap its JSON into a code fence; the JSON holds an intent, its data, an
explanation and perhaps elements.
-/

namespace Chalkboard

/-- Who said something. -/
inductive ChatRole where
  | user | assistant
  deriving DecidableEq, Repr, Inhabited

/-- The name of a role. -/
def ChatRole.name : ChatRole → String
  | .user => "user"
  | .assistant => "assistant"

/-- One message of a conversation. -/
structure ChatMessage where
  role : ChatRole
  content : String
  deriving DecidableEq, Repr, Inhabited

/-- A prompt with the conversation before it. -/
structure PromptRequest where
  prompt : String
  history : List ChatMessage
  deriving DecidableEq, Repr, Inhabited

/-- What the intent service answers. -/
structure IntentResponse where
  intent : String
  data : Json
  explanation : String
  elements : Option (List Element)
  deriving BEq, Repr, Inhabited

/-! ## Code fences -/

/-- Three backticks. -/
def fence : List Char :=
  List.replicate 3 (Char.ofNat 0x60)

/-- The opening fence of a JSON block. -/
def jsonFence : List Char :=
  fence ++ ['j', 's', 'o', 'n']

/-- The characters before the first fence, all of them where there is none. -/
def beforeFence (cs : List Char) : List Char :=
  match Text.splitOnce? fence cs with
  | some (before, _) => before
  | none => cs

/-- The body of the first fenced block, a JSON block being preferred to a bare one; the whole text
where no fence opens. Blanks at both ends are dropped. -/
def stripFence (text : String) : String :=
  let cs := text.toList
  let body :=
    match Text.splitOnce? jsonFence cs with
    | some (_, rest) => beforeFence rest
    | none =>
      match Text.splitOnce? fence cs with
      | some (_, rest) => beforeFence rest
      | none => cs
  String.ofList (Text.trimChars body)

/-! ## JSON -/

open Json

section Decoding

variable {τ : Type} [Source τ]

/-- Reads a role. -/
def ChatRole.decode (t : τ) : Decoded ChatRole :=
  decodeName [("user", .user), ("assistant", .assistant)] t

/-- Reads a message. -/
def ChatMessage.decode (t : τ) : Decoded ChatMessage :=
  Record.decode "ChatMessage"
    [Record.required "role" ChatRole.decode fun role m => { m with role },
     Record.required "content" decodeString fun content m => { m with content }]
    ⟨.user, ""⟩ t

/-- Reads a prompt. -/
def PromptRequest.decode (t : τ) : Decoded PromptRequest :=
  Record.decode "PromptRequest"
    [Record.required "prompt" decodeString fun prompt r => { r with prompt },
     Record.optional "history" (decodeList ChatMessage.decode) fun history r => { r with history }]
    ⟨"", []⟩ t

/-- The fields of an answer. -/
def IntentResponse.fields : List (Field τ IntentResponse) :=
  [Record.required "intent" decodeString fun intent r => { r with intent },
   Record.optional "data" decodeAny fun data r => { r with data },
   Record.optional "explanation" decodeString fun explanation r => { r with explanation },
   Record.optional "elements" (decodeOptional (decodeList Element.decode)) fun elements r =>
    { r with elements }]

/-- Reads an answer. -/
def IntentResponse.decode (t : τ) : Decoded IntentResponse :=
  Record.decode "IntentResponse" IntentResponse.fields ⟨"", .null, "", none⟩ t

end Decoding

/-- A message as JSON. -/
def ChatMessage.toJson (m : ChatMessage) : Json :=
  .object [("content", .string m.content), ("role", .string m.role.name)]

/-- A prompt as JSON. -/
def PromptRequest.toJson (r : PromptRequest) : Json :=
  .object [("history", .array (r.history.map ChatMessage.toJson)), ("prompt", .string r.prompt)]

namespace IntentResponse

/-- An answer as JSON. -/
def toJson (r : IntentResponse) : Json :=
  .object (("data", r.data) ::
    Json.optionalField "elements" (r.elements.map fun es => .array (es.map Element.toJson)) ++
    [("explanation", .string r.explanation), ("intent", .string r.intent)])

/-- The answer that a model's text holds. -/
def ofModelText (text : String) : Decoded IntentResponse :=
  decodeText decode (stripFence text)

/-- The command that an answer asks for: its intent, data and explanation, but not its elements. An
empty explanation counts as none. -/
def toCommand (r : IntentResponse) : Except CommandError Command :=
  let explanation := if r.explanation.isEmpty then none else some r.explanation
  RawCommand.toCommand ⟨r.intent, r.data, explanation⟩

end IntentResponse

end Chalkboard
