import Chalkboard.Element.Basic
import Chalkboard.Text.Blank

/-!
# Results

What the engine answers to a command: plotted functions with labelled points, or a list of elements.
A failed result carries a message and nothing to show; `CommandResult.check` is that rule.
-/

namespace Chalkboard

/-- A plotted function. -/
structure GraphEntry where
  /-- The body of the function in the renderer's notation. -/
  function : String
  color : String
  latex : Option String
  label : Option String
  /-- The expression that the function was made from. -/
  expression : Option String
  /-- Why this function cannot be drawn. -/
  error : Option String
  deriving DecidableEq, Repr, Inhabited

/-- A labelled point of interest. -/
structure Annotation where
  x : Float
  y : Float
  text : String
  deriving BEq, Repr, Inhabited

/-- A result that consists of plotted functions. -/
structure GraphResult where
  success : Bool
  graphs : List GraphEntry
  annotations : List Annotation
  explanation : String
  error : Option String
  deriving BEq, Repr, Inhabited

/-- A result that consists of elements. -/
structure GeometryResult where
  success : Bool
  elements : List Element
  explanation : String
  error : Option String
  deriving BEq, Repr, Inhabited

/-- The outcome of one command. -/
inductive CommandResult where
  | graph (result : GraphResult)
  | geometry (result : GeometryResult)
  deriving BEq, Repr, Inhabited

/-- What is wrong with a failed result. -/
inductive Inconsistency where
  | noMessage
  | payload
  deriving DecidableEq, Repr

/-- The wording of an inconsistency. -/
def Inconsistency.message : Inconsistency → String
  | .noMessage => "failed result without an error message"
  | .payload => "failed result carries payload"

namespace CommandResult

/-- Whether the command succeeded. -/
def success : CommandResult → Bool
  | graph r => r.success
  | geometry r => r.success

/-- The message of a failed command. -/
def error : CommandResult → Option String
  | graph r => r.error
  | geometry r => r.error

/-- The explanation for the user. -/
def explanation : CommandResult → String
  | graph r => r.explanation
  | geometry r => r.explanation

/-- Whether there is something to show. -/
def hasPayload : CommandResult → Bool
  | graph r => !r.graphs.isEmpty || !r.annotations.isEmpty
  | geometry r => !r.elements.isEmpty

/-- A failed result has a message that is not blank, and no payload. -/
def check (r : CommandResult) : Except Inconsistency Unit :=
  if r.success then .ok ()
  else if r.error.all Text.allBlank then .error .noMessage
  else if r.hasPayload then .error .payload
  else .ok ()

/-- A failed result with the given message. -/
def failure (message : String) : CommandResult :=
  graph ⟨false, [], [], "", some message⟩

end CommandResult

end Chalkboard
