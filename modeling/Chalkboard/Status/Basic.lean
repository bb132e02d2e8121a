import Chalkboard.Json.Decode

/-!
# Host status

The phase of the computation host and a message, broadcast to everyone who subscribed. Publishing
the status that is already shown changes nothing. Starting a host is the one guarded change: it
happens only from `idle`, so two callers cannot both start one.
-/

namespace Chalkboard

/-- The phases in the life of a computation host. -/
inductive Phase where
  | idle | loading | ready | error
  deriving DecidableEq, Repr, Inhabited

namespace Phase

/-- Every phase. -/
def all : List Phase :=
  [idle, loading, ready, error]

/-- The name of a phase. -/
def name : Phase → String
  | idle => "idle"
  | loading => "loading"
  | ready => "ready"
  | error => "error"

end Phase

/-- The status of the computation host. -/
structure Status where
  phase : Phase
  message : String
  deriving DecidableEq, Repr, Inhabited

namespace Status

/-- The status before anything happened. -/
def initial : Status :=
  ⟨.idle, ""⟩

/-- Requests can be answered. -/
def isReady (s : Status) : Bool :=
  s.phase == .ready

/-- The host failed. -/
def isError (s : Status) : Bool :=
  s.phase == .error

end Status

section Decoding

open Json

variable {τ : Type} [Source τ]

/-- Reads a phase. -/
def Phase.decode (t : τ) : Decoded Phase :=
  decodeName (Phase.all.map fun p => (p.name, p)) t

/-- The fields of a status. -/
def Status.fields : List (Field τ Status) :=
  [Record.required "phase" Phase.decode fun phase s => { s with phase },
   Record.optional "message" decodeString fun message s => { s with message }]

/-- Reads a status. -/
def Status.decode (t : τ) : Decoded Status :=
  Record.decode "WorkerStatus" Status.fields .initial t

end Decoding

/-- A status as JSON. -/
def Status.toJson (s : Status) : Json :=
  .object [("message", .string s.message), ("phase", .string s.phase.name)]

end Chalkboard
