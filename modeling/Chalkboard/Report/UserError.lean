import Chalkboard.Json.Decode

/-!
# What the user is told

All failures end up as one of these errors, which the presentation layer shows. An error that stops
the computation host is not recoverable without a restart; every other error is.
-/

namespace Chalkboard

/-- An error as the user sees it. -/
inductive UserError where
  | hostInit (message : String)
  | hostCrashed (message : String)
  | computation (message : String)
  | timeout (message : String) (durationMs : UInt64)
  | invalidCommand (message : String)
  | parse (message : String)
  | elementNotFound (id : String)
  | render (id message : String)
  | network (message : String)
  | cancelled
  | internal (message : String)
  deriving DecidableEq, Repr, Inhabited

/-- The variants of a user error without their details. -/
inductive UserErrorKind where
  | hostInit | hostCrashed | computation | timeout | invalidCommand | parse | elementNotFound
  | render | network | cancelled | internal
  deriving DecidableEq, Repr, Inhabited

namespace UserErrorKind

/-- Every variant. -/
def all : List UserErrorKind :=
  [hostInit, hostCrashed, computation, timeout, invalidCommand, parse, elementNotFound, render,
   network, cancelled, internal]

/-- The name of a variant. -/
def name : UserErrorKind → String
  | hostInit => "HostInit"
  | hostCrashed => "HostCrashed"
  | computation => "Computation"
  | timeout => "Timeout"
  | invalidCommand => "InvalidCommand"
  | parse => "Parse"
  | elementNotFound => "ElementNotFound"
  | render => "Render"
  | network => "Network"
  | cancelled => "Cancelled"
  | internal => "Internal"

end UserErrorKind

namespace UserError

/-- The variant of an error. -/
def kind : UserError → UserErrorKind
  | hostInit _ => .hostInit
  | hostCrashed _ => .hostCrashed
  | computation _ => .computation
  | timeout .. => .timeout
  | invalidCommand _ => .invalidCommand
  | parse _ => .parse
  | elementNotFound _ => .elementNotFound
  | render .. => .render
  | network _ => .network
  | cancelled => .cancelled
  | internal _ => .internal

/-- The wording of an error. -/
def message : UserError → String
  | hostInit m => "Computation host failed to start: " ++ m
  | hostCrashed m => "Computation host crashed: " ++ m
  | computation m => "Computation failed: " ++ m
  | timeout m _ => "Request timeout: " ++ m
  | invalidCommand m => "Invalid command: " ++ m
  | parse m => "Malformed payload: " ++ m
  | elementNotFound id => "Element not found: " ++ id
  | render id m => "Render error for element " ++ id ++ ": " ++ m
  | network m => "Network request failed: " ++ m
  | cancelled => "Operation cancelled"
  | internal m => "Internal error: " ++ m

/-- Whether the session can go on without a restart of the host. -/
def isRecoverable : UserError → Bool
  | hostInit _ | hostCrashed _ => false
  | _ => true

/-- The details of an error as JSON, where it has any. -/
def details? : UserError → Option Json
  | hostInit m | hostCrashed m | computation m | invalidCommand m | parse m | network m
  | internal m =>
    some (.object [("message", .string m)])
  | timeout m ms => some (.object [("duration_ms", Json.ofNat ms.toNat), ("message", .string m)])
  | elementNotFound id => some (.object [("id", .string id)])
  | render id m => some (.object [("id", .string id), ("message", .string m)])
  | cancelled => none

/-- An error as JSON. -/
def toJson (e : UserError) : Json :=
  .object (Json.optionalField "details" e.details? ++ [("type", .string e.kind.name)])

end UserError

open Json

section Decoding

variable {τ : Type} [Source τ]

/-- Reads details that are one message. -/
def decodeMessage (title : String) (t : τ) : Decoded String :=
  decodeVariant ("MathboardError::" ++ title)
    [Record.required "message" decodeString fun m _ => m] "" t

/-- Reads the details of an error of the given variant. -/
def UserErrorKind.decodeDetails (kind : UserErrorKind) (t : τ) : Decoded UserError :=
  match kind with
  | .hostInit => (decodeMessage "HostInit" t).map .hostInit
  | .hostCrashed => (decodeMessage "HostCrashed" t).map .hostCrashed
  | .computation => (decodeMessage "Computation" t).map .computation
  | .timeout => do
    let (message, ms) ← decodeVariant "MathboardError::Timeout"
      [Record.required "message" decodeString fun m d => (m, d.2),
       Record.required "duration_ms" decodeUInt64 fun n d => (d.1, n)] ("", 0) t
    pure (.timeout message ms)
  | .invalidCommand => (decodeMessage "InvalidCommand" t).map .invalidCommand
  | .parse => (decodeMessage "Parse" t).map .parse
  | .elementNotFound => do
    let id ← decodeVariant "MathboardError::ElementNotFound"
      [Record.required "id" decodeString fun id _ => id] "" t
    pure (.elementNotFound id)
  | .render => do
    let (id, message) ← decodeVariant "MathboardError::Render"
      [Record.required "id" decodeString fun id d => (id, d.2),
       Record.required "message" decodeString fun m d => (d.1, m)] ("", "") t
    pure (.render id message)
  | .network => (decodeMessage "Network" t).map .network
  | .cancelled =>
    match Source.layer t with
    | .null => .ok .cancelled
    | l => .error (l.unexpected "unit variant MathboardError::Cancelled")
  | .internal => (decodeMessage "Internal" t).map .internal

/-- Reads an error. -/
def UserError.decode (t : τ) : Decoded UserError :=
  decodeTagged ⟨"MathboardError", "type", "details"⟩ (UserErrorKind.all.map fun k => (k.name, k))
    (fun k => k.decodeDetails)
    (fun
      | .cancelled => .ok .cancelled
      | _ => .error (.missingField "details")) t

end Decoding

/-! ## The envelope -/

/-- Where an error happened. -/
structure ErrorContext where
  component : String
  operation : String
  deriving DecidableEq, Repr, Inhabited

/-- An error in its envelope, with the time in milliseconds. -/
structure ErrorReport where
  success : Bool
  error : UserError
  timestamp : UInt64
  context : Option ErrorContext
  deriving DecidableEq, Repr, Inhabited

namespace ErrorReport

/-- The envelope of an error. -/
def new (error : UserError) (now : UInt64) : ErrorReport :=
  ⟨false, error, now, none⟩

/-- The envelope with the place where the error happened. -/
def withContext (r : ErrorReport) (component operation : String) : ErrorReport :=
  { r with context := some ⟨component, operation⟩ }

end ErrorReport

/-- A place as JSON. -/
def ErrorContext.toJson (c : ErrorContext) : Json :=
  .object [("component", .string c.component), ("operation", .string c.operation)]

/-- An envelope as JSON. -/
def ErrorReport.toJson (r : ErrorReport) : Json :=
  .object
    [("context", (r.context.map ErrorContext.toJson).getD .null),
     ("error", r.error.toJson),
     ("success", .bool r.success),
     ("timestamp", Json.ofNat r.timestamp.toNat)]

section Decoding

variable {τ : Type} [Source τ]

/-- Reads a place. -/
def ErrorContext.decode (t : τ) : Decoded ErrorContext :=
  Record.decode "ErrorContext"
    [Record.required "component" decodeString fun component c => { c with component },
     Record.required "operation" decodeString fun operation c => { c with operation }]
    ⟨"", ""⟩ t

/-- Reads an envelope. -/
def ErrorReport.decode (t : τ) : Decoded ErrorReport :=
  Record.decode "ErrorResponse"
    [Record.required "success" decodeBool fun success r => { r with success },
     Record.required "error" UserError.decode fun error r => { r with error },
     Record.required "timestamp" decodeUInt64 fun timestamp r => { r with timestamp },
     Record.nullable "context" (decodeOptional ErrorContext.decode) fun context r =>
      { r with context }]
    ⟨false, .cancelled, 0, none⟩ t

end Decoding

end Chalkboard
