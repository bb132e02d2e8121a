import Chalkboard.Config.Schema
import Chalkboard.Toml.Reader
import Chalkboard.Toml.Writer

/-!
# Configurations as TOML

A table may also be written as an array of its values in order; what an array has beyond them is
passed over. A moment has no parts. Whole numbers in TOML have 63 bits.
-/

namespace Chalkboard

open Toml

/-! ## Reading -/

namespace Toml.Value

/-- A number. -/
def number? : Value → Option Float
  | .float x => some x
  | .integer n => some (Float.ofInt n)
  | _ => none

/-- A whole number from zero up, below a bound. -/
def below? (bound : Nat) : Value → Option Nat
  | .integer n => if 0 ≤ n ∧ n < bound then some n.toNat else none
  | _ => none

/-- The four sides of a box, at the head of an array. -/
def sides? : Value → Option (BoundingBox Float)
  | .array (left :: top :: right :: bottom :: _) => do
    pure ⟨← left.number?, ← top.number?, ← right.number?, ← bottom.number?⟩
  | _ => none

/-- The parts of a table, or of an array under the given names. -/
def parts? (names : List String) : Value → Option Entries
  | .table _ entries => some entries
  | .array items => some (names.zip items)
  | .tables items => some (names.zip (items.map (.table .header)))
  | .moment _ => some []
  | _ => none

end Toml.Value

/-- The value of a setting. -/
def SettingType.ofToml? : (type : SettingType) → Toml.Value → Option type.Value
  | text, .string s => some s
  | flag, .bool b => some b
  | millis, v => (v.below? UInt64.size).map UInt64.ofNat
  | pixels, v => (v.below? UInt32.size).map UInt32.ofNat
  | number, v => v.number?
  | box, v => v.sides?
  | text, _ | flag, _ => none

/-- How TOML holds settings. -/
def Dialect.toml : Dialect Toml.Value :=
  ⟨SettingType.ofToml?, Toml.Value.parts?⟩

/-! ## Writing -/

/-- Whether TOML has a number for the value of a setting. -/
def SettingType.fitsToml : (type : SettingType) → type.Value → Bool
  | millis, n => n.toNat ≤ Int64.maxValue.toInt
  | _, _ => true

/-- The value of a setting in TOML. -/
def SettingType.toToml : (type : SettingType) → type.Value → Toml.Value
  | text, s => .string s
  | flag, b => .bool b
  | millis, n => .integer n.toNat
  | pixels, n => .integer n.toNat
  | number, x => .float x
  | box, b => .array (b.sides.map .float)

/-- Whether TOML has numbers for all settings. -/
def Config.fitsToml (c : Config) : Bool :=
  Config.settings.all fun (_, s) => s.type.fitsToml (s.get c)

/-- A configuration as the entries of a document, if TOML has numbers for it. -/
def Config.toToml? (c : Config) : Option Entries :=
  if c.fitsToml then some (c.encode SettingType.toToml (.table .header)) else none

end Chalkboard
