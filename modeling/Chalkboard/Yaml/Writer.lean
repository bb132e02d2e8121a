import Chalkboard.Text.Quoted
import Chalkboard.Yaml.Node
import Chalkboard.Yaml.Plain
import Chalkboard.Yaml.Scalar

/-!
# Writing YAML

Documents are written in block style. The entries of a mapping stand two columns deeper than the
mapping they belong to, the items of a sequence at the column of its mapping. A text is written
plain where that reads back as the same text, else in single quotes; a text with line breaks becomes
a literal block, and whatever neither allows is written in double quotes with escapes.
-/

namespace Chalkboard.Yaml

/-! ## The styles of a text -/

/-- A character that can be seen, and needs no escape. -/
def isVisible (c : Char) : Bool :=
  let n := c.toNat
  n = 10 || (0x20 ≤ n && n ≤ 0x7e) || (0xa0 ≤ n && n ≤ 0xd7ff && n != 0x2028 && n != 0x2029) ||
    (0xe000 ≤ n && n ≤ 0xfffd && n != 0xfeff)

/-- Whether two characters stand side by side. -/
def hasPair (p q : Char → Bool) : List Char → Bool
  | a :: b :: rest => (p a && q b) || hasPair p q (b :: rest)
  | _ => false

/-- Whether the characters could be taken for an indicator. -/
def hasIndicator (cs : List Char) : Bool :=
  let opening := match cs with
    | [] => false
    | c :: rest =>
      "#,[]&*!|>'\"%@\x60\x7b\x7d".toList.contains c ||
        ((c = '?' || c = ':' || c = '-') && atGap rest)
  opening || ['-', '-', '-'].isPrefixOf cs || ['.', '.', '.'].isPrefixOf cs ||
    hasPair (· = ':') isGap cs || cs.getLast? = some ':' || hasPair isGap (· = '#') cs

/-- Whether a text reads back from a plain scalar. -/
def canBePlain (s : String) : Bool :=
  let cs := s.toList
  !cs.isEmpty && cs.all (fun c => isVisible c && c != '\n') && !hasIndicator cs &&
    cs.head? != some ' ' && cs.getLast? != some ' '

/-- Whether a text can stand in single quotes. -/
def canBeSingleQuoted (s : String) : Bool :=
  let cs := s.toList
  cs.all isVisible && !hasPair (· = ' ') (· = '\n') cs && !hasPair (· = '\n') (· = ' ') cs

/-- Whether a text can be a literal block. -/
def canBeLiteral (s : String) : Bool :=
  let cs := s.toList
  !cs.isEmpty && cs.all isVisible && !hasPair (· = ' ') (· = '\n') cs && cs.getLast? != some ' '

/-! ## Writing a text -/

/-- A text in single quotes. -/
def singleQuoted (s : String) : List Char :=
  '\'' :: s.toList.flatMap (fun c => if c = '\'' then ['\'', '\''] else [c]) ++ ['\'']

/-- A hexadecimal number in capitals. -/
def capitalHex (width n : Nat) : List Char :=
  (Text.hexFixed width n).map Char.toUpper

/-- One character in double quotes. -/
def escaped (c : Char) : List Char :=
  let n := c.toNat
  if c = '"' then ['\\', '"']
  else if c = '\\' then ['\\', '\\']
  else if isVisible c && c != '\n' then [c]
  else
    match n with
    | 0 => ['\\', '0']
    | 7 => ['\\', 'a']
    | 8 => ['\\', 'b']
    | 9 => ['\\', 't']
    | 10 => ['\\', 'n']
    | 11 => ['\\', 'v']
    | 12 => ['\\', 'f']
    | 13 => ['\\', 'r']
    | 27 => ['\\', 'e']
    | 0x85 => ['\\', 'N']
    | 0x2028 => ['\\', 'L']
    | 0x2029 => ['\\', 'P']
    | _ =>
      if n ≤ 0xff then '\\' :: 'x' :: capitalHex 2 n
      else if n ≤ 0xffff then '\\' :: 'u' :: capitalHex 4 n
      else '\\' :: 'U' :: capitalHex 8 n

/-- A text in double quotes. -/
def doubleQuoted (s : String) : List Char :=
  '"' :: s.toList.flatMap escaped ++ ['"']

/-- A text as a literal block whose lines stand at the given depth. The sign says what becomes of
the line breaks at the end, and the depth is given where the first line begins with a blank. -/
def literalBlock (depth : Nat) (s : String) : List Char :=
  let cs := s.toList
  let breaks := (cs.reverse.takeWhile (· = '\n')).length
  -- without a hint the first blanks would count as indentation
  let hint := if cs.head?.any (fun c => c = ' ' || c = '\n') then ['2'] else []
  let sign := if breaks = 0 then ['-'] else if breaks = 1 && breaks < cs.length then [] else ['+']
  let lines := splitLines (if breaks = 0 then cs else cs.dropLast)
  '|' :: hint ++ sign ++ lines.flatMap fun line =>
    '\n' :: (if line.isEmpty then [] else List.replicate depth ' ' ++ line)

/-- A text in the first style that holds it; `depth` is where its lines stand in a literal block. -/
def writeText (depth : Nat) (s : String) : List Char :=
  if s.toList.contains '\n' && canBeLiteral s then literalBlock depth s
  else if s.toList.contains '\n' then doubleQuoted s
  else if canBePlain s && !isAmbiguous s then s.toList
  else if canBeSingleQuoted s then singleQuoted s
  else doubleQuoted s

/-! ## Writing nodes -/

/-- The beginning of a line at a depth. -/
def margin (depth : Nat) : List Char :=
  List.replicate depth ' '

mutual

/-- A node behind the colon or the dash that it belongs to, up to the end of its last line. `inner`
is the depth of the entries of a mapping, `outer` the depth of the items of a sequence. -/
def Node.writeAt (inner outer : Nat) : Node → List Char
  | .scalar true text => ' ' :: text.toList ++ ['\n']
  | .scalar false text => ' ' :: writeText inner text ++ ['\n']
  | .sequence [] => [' ', '[', ']', '\n']
  | .sequence items => '\n' :: writeItems outer items
  | .mapping [] => [' ', Char.ofNat 0x7b, Char.ofNat 0x7d, '\n']
  | .mapping entries => '\n' :: writeEntries inner entries

/-- The items of a sequence at a depth. -/
def writeItems (depth : Nat) : List Node → List Char
  | [] => []
  | item :: rest =>
    margin depth ++ '-' :: item.writeAt (depth + 2) (depth + 2) ++ writeItems depth rest

/-- The entries of a mapping at a depth. -/
def writeEntries (depth : Nat) : List (Node × Node) → List Char
  | [] => []
  | (key, value) :: rest =>
    let name := match key with
      | .scalar true text => text.toList
      | .scalar false text => writeText depth text
      | _ => []
    margin depth ++ name ++ ':' :: value.writeAt (depth + 2) depth ++ writeEntries depth rest

end

/-- The text of a document that is a mapping with scalars as keys, whose sequences hold scalars. -/
def Node.write : Node → String
  | .mapping (entry :: rest) => String.ofList (writeEntries 0 (entry :: rest))
  | node => String.ofList ((node.writeAt 0 0).drop 1)

end Chalkboard.Yaml
