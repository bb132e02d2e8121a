import Chalkboard.Config.Check
import Chalkboard.Config.Json
import Chalkboard.Config.Template
import Chalkboard.Config.Toml
import Chalkboard.Config.Yaml

/-!
# Configuration files

A configuration is written in one of three formats, which the extension of its file names. A text
from a file may refer to variables; a text from elsewhere may not.
-/

namespace Chalkboard

/-- The formats of a configuration. -/
inductive ConfigFormat where
  | yaml | json | toml
  deriving DecidableEq, Repr

/-! ## Paths -/

/-- The last part of a path, if it names a file. Slashes and single points at the end do not
count. -/
def fileName? (path : String) : Option String :=
  match ((path.splitOn "/").filter fun part => part != "" && part != ".").getLast? with
  | some ".." => none
  | name => name

/-- What follows the last point of a file's name; a point at its beginning does not count. -/
def extension? (path : String) : Option String :=
  (fileName? path).bind fun name =>
    let cs := name.toList.reverse
    let ending := cs.takeWhile (· != '.')
    if cs.length ≤ ending.length + 1 then none else some (String.ofList ending.reverse)

namespace ConfigFormat

/-- The name of a format in messages. -/
def title : ConfigFormat → String
  | yaml => "YAML"
  | json => "JSON"
  | toml => "TOML"

/-- The extensions of each format. -/
def extensions : List (String × ConfigFormat) :=
  [("yaml", yaml), ("yml", yaml), ("json", json), ("toml", toml)]

/-- The format that the extension of a path names, in letters of either case. -/
def ofPath (path : String) : Except ConfigError ConfigFormat :=
  match extension? path with
  | none => .error (.parse "Cannot determine config format from file extension")
  | some ending =>
    match extensions.find? fun entry => entry.1 == ending.map Char.toLower with
    | some (_, format) => .ok format
    | none => .error (.parse ("Unsupported config format: " ++ ending))

end ConfigFormat

/-! ## Texts -/

namespace Config

/-- The configuration that a text holds. -/
def ofText? (format : ConfigFormat) (text : String) : Option Config :=
  match format with
  | .yaml => (Yaml.Node.read? text).bind Dialect.yaml.config?
  | .json => (Json.decodeText Config.decode text).toOption
  | .toml => (Toml.read? text).bind fun entries => Dialect.toml.config? (.table .header entries)

/-- Reads a configuration, unchecked. -/
def read (format : ConfigFormat) (text : String) : Except ConfigError Config :=
  match ofText? format text with
  | some c => .ok c
  | none => .error (.parse (format.title ++ " parse error"))

/-- Writes a configuration. -/
def write (format : ConfigFormat) (c : Config) : Except ConfigError String :=
  match format with
  | .yaml => .ok c.toNode.write
  | .json => .ok c.toJson.pretty
  | .toml =>
    match c.toToml? with
    | some entries => .ok (Toml.write entries)
    | none => .error (.parse "TOML serialize error: out-of-range value for u64 type")

/-! ## Files -/

/-- Reads a file with the given content, which is nothing if there is no such file. Variables are
replaced by their values first. -/
def fromFile (lookup : String → Option String) (path : String) (content : Option String) :
    Except ConfigError Config :=
  match content with
  | none => .error (.io "No such file or directory")
  | some text => do
    let format ← ConfigFormat.ofPath path
    read format (Template.expand lookup text)

/-- Reads a file and checks what it says. -/
def load (lookup : String → Option String) (path : String) (content : Option String) :
    Except ConfigError Config := do
  (← fromFile lookup path content).checked

/-- The content of a file for a configuration. -/
def fileText (path : String) (c : Config) : Except ConfigError String := do
  write (← ConfigFormat.ofPath path) c

end Config

end Chalkboard
