import Chalkboard.Decimal.Layout
import Chalkboard.Text.Quoted
import Chalkboard.Toml.Value

/-!
# Writing TOML

Values come before the tables of a table, each table under a header of its own with an empty line in
front. The items of an array stand on lines of their own. A string is literal where that saves
escapes, and stands on several lines if it has line breaks.
-/

namespace Chalkboard.Toml

/-- Numbers are written positionally throughout, and always with a point. -/
def numberLayout : Decimal.Layout :=
  ⟨none, true, false, "nan", "inf"⟩

/-! ## Strings -/

/-- The longest run of single quotes. -/
def longestQuotes (current longest : Nat) : List Char → Nat
  | [] => max current longest
  | c :: rest =>
    if c = '\'' then longestQuotes (current + 1) longest rest
    else longestQuotes 0 (max current longest) rest

/-- Whether a string is written without escapes: it has a character that would need one, and none
that only an escape can write. -/
def isLiteral (cs : List Char) : Bool :=
  cs.any (fun c => c = '"' || c = '\\') &&
    cs.all (fun c => c = '\t' || c = '\n' || (0x20 ≤ c.toNat && c.toNat != 0x7f)) &&
    longestQuotes 0 0 cs < 3 && cs.getLast? != some '\''

/-- One character of a string with escapes. -/
def escaped (block : Bool) (c : Char) : List Char :=
  if c = '"' then ['\\', '"']
  else if c = '\\' then ['\\', '\\']
  else if c = '\t' then ['\\', 't']
  else if c = '\n' then (if block then ['\n'] else ['\\', 'n'])
  else if c = '\r' then ['\\', 'r']
  else if c.toNat = 8 then ['\\', 'b']
  else if c.toNat = 12 then ['\\', 'f']
  else if c.toNat < 0x20 || c.toNat = 0x7f then
    '\\' :: 'u' :: (Text.hexFixed 4 c.toNat).map Char.toUpper
  else [c]

/-- A string between its quotes. -/
def writeString (s : String) : String :=
  let cs := s.toList
  let block := cs.contains '\n'
  if isLiteral cs then
    let quotes := if block || cs.contains '\'' then ['\'', '\'', '\''] else ['\'']
    String.ofList (quotes ++ (if block then ['\n'] else []) ++ cs ++ quotes)
  else
    let quotes := if block then ['"', '"', '"'] else ['"']
    String.ofList (quotes ++ (if block then ['\n'] else []) ++ cs.flatMap (escaped block) ++ quotes)

/-! ## Values -/

mutual

/-- A value behind its key. -/
def Value.write : Value → String
  | .string s => writeString s
  | .integer n => toString n
  | .float x => numberLayout.write x
  | .bool b => if b then "true" else "false"
  | .moment text => text
  | .array [] => "[]"
  | .array items => "[\n" ++ writeItems items ++ "]"
  | .table _ _ | .tables _ => "\x7b\x7d"

/-- The items of an array, each on a line. -/
def writeItems : List Value → String
  | [] => ""
  | item :: rest => "    " ++ item.write ++ ",\n" ++ writeItems rest

end

/-- Whether a value stands under a header. -/
def Value.isTable : Value → Bool
  | .table _ _ | .tables _ => true
  | _ => false

/-- The values of a table, each on a line. -/
def writeValues (entries : Entries) : String :=
  String.join ((entries.filter fun entry => !entry.2.isTable).map fun (key, v) =>
    key ++ " = " ++ v.write ++ "\n")

/-- A document whose tables hold no further tables, with keys that need no quotes. -/
def write (entries : Entries) : String :=
  let sections := entries.filterMap fun (key, v) =>
    match v with
    | .table _ inner => some ("[" ++ key ++ "]\n" ++ writeValues inner)
    | _ => none
  let values := writeValues entries
  String.intercalate "\n" ((if values.isEmpty then [] else [values]) ++ sections)

end Chalkboard.Toml
