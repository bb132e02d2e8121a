import Chalkboard.Config.Basic

/-!
# The settings of a configuration

Every format writes the same settings under the same names in the same order. They are listed here
once, and the readers and writers of the formats go through the list.
-/

namespace Chalkboard

/-- What a setting holds. -/
inductive SettingType where
  | text
  | flag
  /-- A time in milliseconds. -/
  | millis
  /-- A length on the canvas. -/
  | pixels
  | number
  /-- The four sides of a box. -/
  | box
  deriving DecidableEq, Repr

/-- The values of a setting. -/
@[reducible]
def SettingType.Value : SettingType → Type
  | text => String
  | flag => Bool
  | millis => UInt64
  | pixels => UInt32
  | number => Float
  | box => BoundingBox Float

/-- A setting with its place in the configuration. -/
structure Setting where
  name : String
  type : SettingType
  get : Config → type.Value
  set : type.Value → Config → Config

/-- An entry of a configuration: a setting or a group of settings. -/
inductive ConfigEntry where
  | setting (s : Setting)
  /-- A group has a name, and a title for messages. -/
  | group (name title : String) (settings : List Setting)

/-- The name of an entry. -/
def ConfigEntry.name : ConfigEntry → String
  | setting s => s.name
  | group name _ _ => name

namespace Config

/-- The settings of the bridge. -/
def bridgeSettings : List Setting :=
  [⟨"request_timeout_ms", .millis, fun c => c.bridge.timeoutMs,
    fun v c => { c with bridge := { c.bridge with timeoutMs := v } }⟩,
   ⟨"reject_on_restart", .flag, fun c => c.bridge.rejectOnRestart,
    fun v c => { c with bridge := { c.bridge with rejectOnRestart := v } }⟩]

/-- The settings of gestures. -/
def gestureSettings : List Setting :=
  [⟨"zoom_factor", .number, fun c => c.gestures.zoomFactor,
    fun v c => { c with gestures := { c.gestures with zoomFactor := v } }⟩,
   ⟨"min_scale", .number, fun c => c.gestures.minScale,
    fun v c => { c with gestures := { c.gestures with minScale := v } }⟩,
   ⟨"max_scale", .number, fun c => c.gestures.maxScale,
    fun v c => { c with gestures := { c.gestures with maxScale := v } }⟩,
   ⟨"hit_threshold_divisor", .number, fun c => c.gestures.reachDivisor,
    fun v c => { c with gestures := { c.gestures with reachDivisor := v } }⟩]

/-- The settings of the first view. -/
def viewSettings : List Setting :=
  [⟨"bounding_box", .box, fun c => c.viewport.box,
    fun v c => { c with viewport := { c.viewport with box := v } }⟩,
   ⟨"width", .pixels, fun c => c.viewport.width,
    fun v c => { c with viewport := { c.viewport with width := v } }⟩,
   ⟨"height", .pixels, fun c => c.viewport.height,
    fun v c => { c with viewport := { c.viewport with height := v } }⟩]

/-- The settings of the intent service. -/
def intentSettings : List Setting :=
  [⟨"endpoint", .text, fun c => c.intent.endpoint,
    fun v c => { c with intent := { c.intent with endpoint := v } }⟩,
   ⟨"timeout_ms", .millis, fun c => c.intent.timeoutMs,
    fun v c => { c with intent := { c.intent with timeoutMs := v } }⟩]

/-- All entries in order. -/
def entries : List ConfigEntry :=
  [.setting ⟨"version", .text, fun c => c.version, fun v c => { c with version := v }⟩,
   .group "bridge" "BridgeSettings" bridgeSettings,
   .group "interaction" "InteractionSettings" gestureSettings,
   .group "viewport" "ViewportSettings" viewSettings,
   .group "intent" "IntentSettings" intentSettings]

/-- All settings under their full names: a setting in a group has the name of the group and a point
in front of its own. -/
def settings : List (String × Setting) :=
  entries.flatMap fun
    | .setting s => [(s.name, s)]
    | .group name _ inner => inner.map fun s => (name ++ "." ++ s.name, s)

/-- The setting with the given full name. -/
def setting? (path : String) : Option Setting :=
  (settings.find? fun entry => entry.1 == path).map Prod.snd

/-! ## Writing -/

/-- A configuration as a table of named values, its groups as tables inside it. -/
def encode {ν : Type} (value : (t : SettingType) → t.Value → ν) (table : List (String × ν) → ν)
    (c : Config) : List (String × ν) :=
  let named (s : Setting) := (s.name, value s.type (s.get c))
  entries.map fun
    | .setting s => named s
    | .group name _ settings => (name, table (settings.map named))

end Config

/-! ## Reading

A format that has values of its own reads them through a dialect. Settings that are not given keep
their values, names that do not belong to a setting are passed over, and a setting that is given
twice is refused. -/

/-- How a format holds settings. -/
structure Dialect (ν : Type) where
  value? : (t : SettingType) → ν → Option t.Value
  /-- The parts of a table under their names. The names in order are given for tables that may also
  list their parts without names. -/
  parts? : List String → ν → Option (List (String × ν))

namespace Dialect

variable {ν : Type}

/-- A part that can be read, with its name. -/
abbrev Part (ν : Type) := String × (ν → Config → Option Config)

/-- Reads the parts that are given; `seen` are the names so far. -/
def fill (parts : List (Part ν)) (seen : List String) :
    List (String × ν) → Config → Option Config
  | [], c => some c
  | (name, v) :: rest, c =>
    match parts.find? fun part => part.1 == name with
    -- unknown names may also repeat
    | none => fill parts seen rest c
    | some (_, read) =>
      if seen.contains name then none
      else (read v c).bind fun c => fill parts (name :: seen) rest c

/-- Reads a table. -/
def table (d : Dialect ν) (parts : List (Part ν)) (v : ν) (c : Config) : Option Config := do
  fill parts [] (← d.parts? (parts.map Prod.fst) v) c

/-- Reads a setting. -/
def setting (d : Dialect ν) (s : Setting) : Part ν :=
  (s.name, fun v c => (d.value? s.type v).map fun x => s.set x c)

/-- Reads an entry. -/
def entry (d : Dialect ν) : ConfigEntry → Part ν
  | .setting s => d.setting s
  | .group name _ settings => (name, d.table (settings.map d.setting))

/-- Reads a configuration. -/
def config? (d : Dialect ν) (v : ν) : Option Config :=
  d.table (Config.entries.map d.entry) v .standard

end Dialect

end Chalkboard
