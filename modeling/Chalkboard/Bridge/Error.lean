import Chalkboard.Bridge.Message
import Chalkboard.Report.UserError

/-!
# Why a call to the bridge fails
-/

namespace Chalkboard

/-- Why a call to the bridge fails. -/
inductive BridgeError where
  | hostInit (message : String)
  | hostCrashed (message : String)
  | hostUnavailable (message : String)
  /-- The host answered with an error. -/
  | hostRejected (id : RequestId) (message : String)
  | timeout (id : RequestId) (afterMs : UInt64)
  | hostRestarted (id : RequestId)
  | cancelled (id : RequestId)
  /-- The answer is no result. -/
  | malformedResult (message : String)
  | encode (message : String)
  deriving DecidableEq, Repr

namespace BridgeError

/-- The wording of an error. -/
def message : BridgeError → String
  | hostInit m => "Host initialization failed: " ++ m
  | hostCrashed m => "Host crashed: " ++ m
  | hostUnavailable m => "Host unavailable: " ++ m
  | hostRejected id m => "Host rejected request " ++ id.text ++ ": " ++ m
  | timeout id ms => "Request " ++ id.text ++ " timed out after " ++ toString ms.toNat ++ " ms"
  | hostRestarted id => "Request " ++ id.text ++ " was abandoned by a host restart"
  | cancelled id => "Request " ++ id.text ++ " was cancelled"
  | malformedResult m => "Malformed result: " ++ m
  | encode m => "Encoding error: " ++ m

/-- The name of an error's kind. -/
def kindName : BridgeError → String
  | hostInit _ => "HostInit"
  | hostCrashed _ => "HostCrashed"
  | hostUnavailable _ => "HostUnavailable"
  | hostRejected .. => "HostRejected"
  | timeout .. => "Timeout"
  | hostRestarted _ => "HostRestarted"
  | cancelled _ => "Cancelled"
  | malformedResult _ => "MalformedResult"
  | encode _ => "Encode"

/-- What the user is told. -/
def toUserError : BridgeError → UserError
  | hostInit m => .hostInit m
  | hostCrashed m | hostUnavailable m => .hostCrashed m
  | hostRejected _ m => .computation m
  | timeout id ms => .timeout ("request " ++ id.text ++ " did not answer") ms
  | hostRestarted _ | cancelled _ => .cancelled
  | malformedResult m => .parse m
  | encode m => .internal m

/-- The request that an error is about. -/
def id? : BridgeError → Option RequestId
  | hostRejected id _ | timeout id _ | hostRestarted id | cancelled id => some id
  | _ => none

end BridgeError

end Chalkboard
