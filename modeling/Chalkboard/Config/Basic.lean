import Chalkboard.Bridge.Basic
import Chalkboard.Gesture.Basic

/-!
# The configuration

What can be configured of a board: the bridge, gestures, the first view and the intent service.
-/

namespace Chalkboard

/-- The intent service. -/
structure IntentSettings where
  endpoint : String
  timeoutMs : UInt64
  deriving DecidableEq, Repr

/-- The service that a board starts with. -/
def IntentSettings.standard : IntentSettings :=
  ⟨"http://localhost:8000", 60000⟩

/-- The configuration of a board. -/
structure Config where
  version : String
  bridge : BridgeSettings
  gestures : GestureSettings Float
  viewport : Viewport Float
  intent : IntentSettings
  deriving BEq, Repr

/-- What is configured where nothing is said. -/
def Config.standard : Config :=
  ⟨"1.0.0", .standard, .standard, .standard, .standard⟩

/-- A configuration cannot be had. -/
inductive ConfigError where
  /-- Its file cannot be read or written. -/
  | io (message : String)
  /-- Its text cannot be read or written. -/
  | parse (message : String)
  /-- It makes no sense. -/
  | validation (message : String)
  deriving DecidableEq, Repr

/-- The name of an error's kind. -/
def ConfigError.kindName : ConfigError → String
  | .io _ => "Io"
  | .parse _ => "Parse"
  | .validation _ => "Validation"

/-- The wording of a configuration error. -/
def ConfigError.message : ConfigError → String
  | .io m => "IO error: " ++ m
  | .parse m => "Parse error: " ++ m
  | .validation m => "Validation error: " ++ m

end Chalkboard
