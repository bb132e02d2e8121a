import Chalkboard.Decimal.Layout
import Chalkboard.Json.Basic
import Chalkboard.Text.Quoted

/-!
# JSON text

The compact form has no blanks. The indented form puts every item on a line of its own, two spaces
deeper than what it belongs to. Fields are written in the order in which the value lists them.
-/

namespace Chalkboard.Json

/-- Numbers in JSON text: an exponent below `1e-5` and from `1e16` up, always a point or an
exponent. What is not finite cannot be written and reads `null`. -/
def numberLayout : Decimal.Layout :=
  ⟨some (-5, 15), true, true, "null", "null"⟩

/-- The text of a number. -/
def writeNumber : Number → String
  | .integer n => toString n
  | .real x => if x.isFinite then numberLayout.write x else "null"

/-- One character inside a string. Only quotes, backslashes and the controls below the space are
escaped. -/
def escapeChar (c : Char) : List Char :=
  if c = '"' then ['\\', '"']
  else if c = '\\' then ['\\', '\\']
  else if c.toNat = 8 then ['\\', 'b']
  else if c.toNat = 12 then ['\\', 'f']
  else if c = '\n' then ['\\', 'n']
  else if c = '\r' then ['\\', 'r']
  else if c = '\t' then ['\\', 't']
  else if c.toNat < 32 then '\\' :: 'u' :: Text.hexFixed 4 c.toNat
  else [c]

/-- A string between quotes. -/
def writeString (s : String) : String :=
  String.ofList ('"' :: s.toList.flatMap escapeChar ++ ['"'])

mutual

/-- The text of a value without blanks. -/
def compact : Json → String
  | null => "null"
  | bool b => if b then "true" else "false"
  | number n => writeNumber n
  | string s => writeString s
  | array items => "[" ++ compactItems items ++ "]"
  | object fields => "\x7b" ++ compactFields fields ++ "\x7d"

/-- Items between commas. -/
def compactItems : List Json → String
  | [] => ""
  | [item] => compact item
  | item :: rest => compact item ++ "," ++ compactItems rest

/-- Fields between commas. -/
def compactFields : List (String × Json) → String
  | [] => ""
  | [(k, v)] => writeString k ++ ":" ++ compact v
  | (k, v) :: rest => writeString k ++ ":" ++ compact v ++ "," ++ compactFields rest

end

/-- A new line, indented for the given depth. -/
def newLine (depth : Nat) : String :=
  "\n" ++ String.ofList (List.replicate (2 * depth) ' ')

mutual

/-- The indented text of a value that stands at the given depth. -/
def prettyAt (depth : Nat) : Json → String
  | null => "null"
  | bool b => if b then "true" else "false"
  | number n => writeNumber n
  | string s => writeString s
  | array [] => "[]"
  | array items => "[" ++ prettyItems (depth + 1) items ++ newLine depth ++ "]"
  | object [] => "\x7b\x7d"
  | object fields => "\x7b" ++ prettyFields (depth + 1) fields ++ newLine depth ++ "\x7d"

/-- Items, each on a new line. -/
def prettyItems (depth : Nat) : List Json → String
  | [] => ""
  | [item] => newLine depth ++ prettyAt depth item
  | item :: rest => newLine depth ++ prettyAt depth item ++ "," ++ prettyItems depth rest

/-- Fields, each on a new line. -/
def prettyFields (depth : Nat) : List (String × Json) → String
  | [] => ""
  | [(k, v)] => newLine depth ++ writeString k ++ ": " ++ prettyAt depth v
  | (k, v) :: rest =>
    newLine depth ++ writeString k ++ ": " ++ prettyAt depth v ++ "," ++ prettyFields depth rest

end

/-- The indented text of a value. -/
def pretty (j : Json) : String :=
  prettyAt 0 j

end Chalkboard.Json
