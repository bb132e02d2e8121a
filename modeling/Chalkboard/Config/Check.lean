import Chalkboard.Config.Basic
import Chalkboard.Decimal.Layout

/-!
# Which configurations make sense

Each section is checked by itself, and of several faults the first in the order of the settings is
reported. A number that is undefined is outside every range, except that the divisor of the
pointer's reach is only refused where it is at most zero.
-/

namespace Chalkboard

/-- What is wrong with the settings of gestures. -/
inductive GestureFault (α : Type) where
  | zoomFactor (factor : α)
  | scaleRange (minScale maxScale : α)
  | endlessScale
  | reachDivisor (divisor : α)
  deriving DecidableEq, Repr

/-- What is wrong with a configuration. -/
inductive ConfigFault where
  | requestTimeout (ms : UInt64)
  | gestures (fault : GestureFault Float)
  | endlessBox
  | degenerateBox (box : BoundingBox Float)
  | emptyCanvas (width height : UInt32)
  | endpoint (text : String)
  | intentTimeout
  deriving DecidableEq, Repr

/-! ## Wording -/

/-- The wording of a fault of gestures. -/
def GestureFault.message : GestureFault Float → String
  | .zoomFactor x =>
    "Invalid zoom_factor: " ++ Decimal.plain.write x ++
      ". Must be greater than 1.0 and at most 10.0"
  | .scaleRange low high =>
    "Invalid scale range [" ++ Decimal.plain.write low ++ ", " ++ Decimal.plain.write high ++
      "]. Need 0 < min_scale < max_scale"
  | .endlessScale => "max_scale must be finite"
  | .reachDivisor x =>
    "Invalid hit_threshold_divisor: " ++ Decimal.plain.write x ++ ". Must be positive"

/-- The wording of a fault. -/
def ConfigFault.message : ConfigFault → String
  | .requestTimeout ms =>
    "Invalid request_timeout_ms: " ++ toString ms.toNat ++ ". Must be between 1 and 600000"
  | .gestures fault => fault.message
  | .endlessBox => "Bounding box values must be finite"
  | .degenerateBox box =>
    "Degenerate bounding box [" ++ String.intercalate ", " (box.sides.map Decimal.listed.write) ++
      "]. Expected [left, top, right, bottom] with left < right and bottom < top"
  | .emptyCanvas w h => "Invalid canvas size " ++ toString w.toNat ++ "x" ++ toString h.toNat
  | .endpoint text => "Intent endpoint must be an http(s) URL, got '" ++ text ++ "'"
  | .intentTimeout => "Intent timeout must be positive"

/-! ## Checks -/

/-- A request may take ten minutes, and must have some time. -/
def BridgeSettings.check (s : BridgeSettings) : Except ConfigFault Unit :=
  if s.timeoutMs = 0 ∨ 600000 < s.timeoutMs then .error (.requestTimeout s.timeoutMs) else .ok ()

/-- A notch zooms by more than one and at most ten, and the scale has a range of positive
numbers. -/
def GestureSettings.check {α : Type} [Scalar α] (s : GestureSettings α) :
    Except (GestureFault α) Unit :=
  let zero : α := Scalar.ofNat 0
  if !(Scalar.lt (Scalar.ofNat 1) s.zoomFactor && Scalar.le s.zoomFactor (Scalar.ofNat 10)) then
    .error (.zoomFactor s.zoomFactor)
  else if !(Scalar.lt zero s.minScale && Scalar.lt s.minScale s.maxScale) then
    .error (.scaleRange s.minScale s.maxScale)
  else if !Scalar.isFinite s.maxScale then .error .endlessScale
  else if Scalar.le s.reachDivisor zero then .error (.reachDivisor s.reachDivisor)
  else .ok ()

/-- The box is finite and has an area, and so has the canvas. -/
def Viewport.check (v : Viewport Float) : Except ConfigFault Unit :=
  if v.box.sides.any fun x => !x.isFinite then .error .endlessBox
  else if v.box.right ≤ v.box.left ∨ v.box.top ≤ v.box.bottom then .error (.degenerateBox v.box)
  else if v.width = 0 ∨ v.height = 0 then .error (.emptyCanvas v.width v.height)
  else .ok ()

/-- The service has a web address, and some time. -/
def IntentSettings.check (s : IntentSettings) : Except ConfigFault Unit :=
  if !(s.endpoint.startsWith "http://" || s.endpoint.startsWith "https://") then
    .error (.endpoint s.endpoint)
  else if s.timeoutMs = 0 then .error .intentTimeout
  else .ok ()

/-- Checks a configuration, section by section. -/
def Config.check (c : Config) : Except ConfigFault Unit := do
  c.bridge.check
  c.gestures.check.mapError .gestures
  c.viewport.check
  c.intent.check

/-- The configuration itself, if it makes sense. -/
def Config.checked (c : Config) : Except ConfigError Config :=
  match c.check with
  | .ok () => .ok c
  | .error fault => .error (.validation fault.message)

end Chalkboard
