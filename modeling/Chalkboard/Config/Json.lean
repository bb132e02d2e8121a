import Chalkboard.Config.Schema
import Chalkboard.Json.Decode

/-!
# Configurations as JSON
-/

namespace Chalkboard

open Json

section Decoding

variable {τ : Type} [Source τ]

/-- Reads the four sides of a box. -/
def decodeSides (t : τ) : Decoded (BoundingBox Float) := do
  match ← decodeExactly 4 decodeFloat t with
  | [left, top, right, bottom] => pure ⟨left, top, right, bottom⟩
  | _ => .error .unreadable

/-- Reads the value of a setting. -/
def SettingType.decode (t : τ) : (type : SettingType) → Decoded type.Value
  | text => decodeString t
  | flag => decodeBool t
  | millis => decodeUInt64 t
  | pixels => decodeUInt32 t
  | number => decodeFloat t
  | box => decodeSides t

/-- A setting as a field, which may be left out. -/
def Setting.field (s : Setting) : Field τ Config :=
  ⟨s.name, .optional, fun t c => (s.type.decode t).map fun v => s.set v c⟩

/-- An entry as a field, which may be left out. -/
def ConfigEntry.field : ConfigEntry → Field τ Config
  | setting s => s.field
  | group name title settings =>
    ⟨name, .optional, fun t c => Record.decode title (settings.map Setting.field) c t⟩

/-- Reads a configuration. -/
def Config.decode (t : τ) : Decoded Config :=
  Record.decode "MathboardConfig" (Config.entries.map ConfigEntry.field) .standard t

end Decoding

/-- The value of a setting as JSON. -/
def SettingType.toJson : (type : SettingType) → type.Value → Json
  | text, s => .string s
  | flag, b => .bool b
  | millis, n => Json.ofNat n.toNat
  | pixels, n => Json.ofNat n.toNat
  | number, x => Json.ofFloat x
  | box, b => .array (b.sides.map Json.ofFloat)

/-- A configuration as JSON, its fields in the order of its entries. -/
def Config.toJson (c : Config) : Json :=
  .object (c.encode SettingType.toJson .object)

end Chalkboard
