import Chalkboard.Config.Schema
import Chalkboard.Decimal.Layout
import Chalkboard.Yaml.Reader
import Chalkboard.Yaml.Writer

/-!
# Configurations as YAML

A text may be any scalar; truth values and numbers are plain. Where nothing is written, a table has
no entries.
-/

namespace Chalkboard

open Yaml

/-! ## Reading -/

namespace Yaml.Node

/-- A whole number below a bound. -/
def below? (bound : Nat) : Node → Option Nat
  | .scalar true text => (natural? text).filter (· < bound)
  | _ => none

/-- A number. -/
def number? : Node → Option Float
  | .scalar true text => float? text
  | _ => none

/-- The four sides of a box. -/
def sides? : Node → Option (BoundingBox Float)
  | .sequence [left, top, right, bottom] => do
    pure ⟨← left.number?, ← top.number?, ← right.number?, ← bottom.number?⟩
  | _ => none

/-- The entries of a mapping whose keys are scalars. -/
def entries? : Node → Option (List (String × Node))
  | .mapping entries => entries.mapM fun
    | (.scalar _ name, v) => some (name, v)
    | _ => none
  | node => if node.isAbsent then some [] else none

end Yaml.Node

/-- The value of a setting. -/
def SettingType.ofNode? : (type : SettingType) → Node → Option type.Value
  | text, .scalar _ s => some s
  | flag, .scalar true s => bool? s
  | millis, node => (node.below? UInt64.size).map UInt64.ofNat
  | pixels, node => (node.below? UInt32.size).map UInt32.ofNat
  | number, node => node.number?
  | box, node => node.sides?
  | text, _ | flag, _ => none

/-- How YAML holds settings. -/
def Dialect.yaml : Dialect Node :=
  ⟨SettingType.ofNode?, fun _ node => node.entries?⟩

/-! ## Writing -/

/-- Numbers in YAML: an exponent below `1e-5` and from `1e16` up, always a point or an exponent. -/
def Yaml.numberLayout : Decimal.Layout :=
  ⟨some (-5, 15), true, false, ".nan", ".inf"⟩

/-- A number as a plain scalar. -/
def Yaml.ofFloat (x : Float) : Node :=
  .scalar true (Yaml.numberLayout.write x)

/-- The value of a setting as a node. -/
def SettingType.toNode : (type : SettingType) → type.Value → Node
  | text, s => .scalar false s
  | flag, b => .scalar true (if b then "true" else "false")
  | millis, n => .scalar true (toString n.toNat)
  | pixels, n => .scalar true (toString n.toNat)
  | number, x => Yaml.ofFloat x
  | box, b => .sequence (b.sides.map Yaml.ofFloat)

/-- A table as a mapping. -/
def Yaml.table (entries : List (String × Node)) : Node :=
  .mapping (entries.map fun (name, v) => (.scalar false name, v))

/-- A configuration as a node. -/
def Config.toNode (c : Config) : Node :=
  Yaml.table (c.encode SettingType.toNode Yaml.table)

end Chalkboard
