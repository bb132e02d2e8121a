import Chalkboard.Prompt.Message
import Chalkboard.Session.Error

/-!
# The intent client

The client asks the intent service for commands and remembers the conversation, so that a prompt can
refer to what was said before. The elements of the scene travel with a prompt as one more message,
which is not remembered.
-/

namespace Chalkboard

/-- What comes back from the service. -/
inductive ServiceAnswer where
  /-- The service cannot be reached, or stops in the middle of its answer. -/
  | lost (message : String)
  | answered (status : Nat) (body : String)
  deriving DecidableEq, Repr

/-- The address of the service and the conversation so far. -/
structure IntentClient where
  endpoint : String
  history : List ChatMessage
  deriving DecidableEq, Repr

namespace IntentClient

/-- An address without slashes at its end. -/
def trimSlashes (address : String) : String :=
  String.ofList (address.toList.reverse.dropWhile (· = '/')).reverse

/-- A client before any conversation. -/
def new (endpoint : String) : IntentClient :=
  ⟨trimSlashes endpoint, []⟩

/-- The address that prompts are sent to. -/
def address (c : IntentClient) : String :=
  c.endpoint ++ "/generate"

/-- Forgets the conversation. -/
def clear (c : IntentClient) : IntentClient :=
  { c with history := [] }

/-- The message that describes the elements of a scene, if there are any. -/
def sceneMessage? (elements : List Element) : Option ChatMessage :=
  if elements.isEmpty then none
  else
    some ⟨.user,
      "Current scene elements: " ++ Json.compact (.array (elements.map Element.listing))⟩

/-- What is sent for a prompt. -/
def request (c : IntentClient) (prompt : String) (elements : List Element) : PromptRequest :=
  ⟨prompt, c.history ++ (sceneMessage? elements).toList⟩

/-- The response that an answer holds. -/
def responseOf : ServiceAnswer → Except SessionError IntentResponse
  | .lost m => .error (.http m)
  | .answered status body =>
    if 400 ≤ status then .error (.http ("HTTP status " ++ toString status))
    else (IntentResponse.ofModelText body).mapError fun e => .intentDecode e.message

/-- What is remembered of a prompt and its response. -/
def exchange (prompt : String) (r : IntentResponse) : List ChatMessage :=
  ⟨.user, prompt⟩ :: (if r.explanation.isEmpty then [] else [⟨.assistant, r.explanation⟩])

/-- The command that the service makes of a prompt. The exchange is remembered as soon as there is a
response, whether or not it makes a command. -/
def commandFor (c : IntentClient) (prompt : String) (answer : ServiceAnswer) :
    IntentClient × Except SessionError Command :=
  match responseOf answer with
  -- what got no response was never said
  | .error e => (c, .error e)
  | .ok r => ({ c with history := c.history ++ exchange prompt r }, r.toCommand.mapError .command)

end IntentClient

end Chalkboard
