import Chalkboard.Bridge.Error
import Chalkboard.Config.Basic
import Chalkboard.Scene.Basic

/-!
# Why a call to the session fails
-/

namespace Chalkboard

/-- Why a call to the session fails. -/
inductive SessionError where
  | bridge (e : BridgeError)
  | scene (e : SceneError)
  | command (e : CommandError)
  | config (e : ConfigError)
  /-- The intent service cannot be reached or refuses to answer. -/
  | http (message : String)
  /-- The intent service answers with something that is no answer. -/
  | intentDecode (message : String)
  deriving DecidableEq, Repr

namespace SessionError

/-- The wording of an error. -/
def message : SessionError → String
  | bridge e => e.message
  | scene e => e.message
  | command e => e.message
  | config e => e.message
  | http m => "Intent service request failed: " ++ m
  | intentDecode m => "Intent service returned an unusable response: " ++ m

/-- The name of an error's kind. -/
def kindName : SessionError → String
  | bridge e => e.kindName
  | scene e => e.kindName
  | command e => e.kindName
  | config e => e.kindName
  | http _ => "Http"
  | intentDecode _ => "IntentDecode"

/-- What the user is told. -/
def toUserError : SessionError → UserError
  | bridge e => e.toUserError
  | scene (.notFound id) => .elementNotFound id.name
  | scene e => .invalidCommand e.message
  | command e => .invalidCommand e.message
  | config e => .internal e.message
  | http m => .network m
  | intentDecode m => .parse m

/-- The envelope for the user, with the operation that failed. -/
def report (e : SessionError) (operation : String) (now : UInt64) : ErrorReport :=
  (ErrorReport.new e.toUserError now).withContext "Session" operation

end SessionError

end Chalkboard
