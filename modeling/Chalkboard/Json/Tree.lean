import Chalkboard.Decimal.Scaled
import Chalkboard.Json.Basic
import Chalkboard.Text.Digits

/-!
# Trees of JSON text

Reading JSON text gives a tree, which still knows what a value in memory forgets: the order in which
fields were written and names that were written twice. A part that is well formed but has no value
(a number beyond the floating-point range, half of a surrogate pair, nesting that is too deep) is
`unreadable`: it may be passed over, but not read. `Tree.value?` turns a tree into a value.
-/

namespace Chalkboard.Json

/-- What JSON text says. -/
inductive Tree where
  | null
  | bool (b : Bool)
  | number (n : Number)
  | string (s : String)
  | array (items : List Tree)
  | object (fields : List (String × Tree))
  | unreadable
  deriving Repr, Inhabited

mutual

/-- The value of a tree: fields sorted by name, the last of several fields with one name. -/
def Tree.value? : Tree → Option Json
  | .null => some .null
  | .bool b => some (.bool b)
  | .number n => some (.number n)
  | .string s => some (.string s)
  | .array items => (itemValues? items).map .array
  | .object fields => (fieldValues? fields).map fun fs => .object (Fields.ofList fs)
  | .unreadable => none

/-- The values of all items, if each has one. -/
def itemValues? : List Tree → Option (List Json)
  | [] => some []
  | item :: rest => do
    let v ← item.value?
    let vs ← itemValues? rest
    pure (v :: vs)

/-- The values of all fields, if each has one. -/
def fieldValues? : List (String × Tree) → Option (List (String × Json))
  | [] => some []
  | (name, field) :: rest => do
    let v ← field.value?
    let vs ← fieldValues? rest
    pure ((name, v) :: vs)

end

/-! ## Tokens -/

/-- The tokens of JSON text. A string without a value is `none`. -/
inductive Token where
  | openArray | closeArray | openObject | closeObject | comma | colon
  | null
  | bool (b : Bool)
  | string (s : Option String)
  | number (n : Option Number)
  deriving Repr

/-- Four hexadecimal digits as a number. -/
def hex4? (a b c d : Char) : Option Nat :=
  Text.numberIn? 16 [a, b, c, d]

/-- The character that a short escape stands for. -/
def shortEscape? (c : Char) : Option Char :=
  match c with
  | '"' => some '"'
  | '\\' => some '\\'
  | '/' => some '/'
  | 'b' => some (Char.ofNat 8)
  | 'f' => some (Char.ofNat 12)
  | 'n' => some '\n'
  | 'r' => some '\r'
  | 't' => some '\t'
  | _ => none

/-- A UTF-16 unit or a character of a string, as written. -/
inductive Unit16 where
  | char (c : Char)
  | escaped (code : Nat)

/-- The characters that units stand for; `none` where half of a surrogate pair stands alone. -/
def joinUnits : List Unit16 → Option (List Char)
  | [] => some []
  | .char c :: rest => (joinUnits rest).map (c :: ·)
  | .escaped high :: rest =>
    -- not half of a pair, the first half, or a second half that stands alone
    if high < 0xd800 ∨ 0xe000 ≤ high then (joinUnits rest).map (Char.ofNat high :: ·)
    else if 0xdc00 ≤ high then none
    else match rest with
      | .escaped low :: rest' =>
        if 0xdc00 ≤ low ∧ low < 0xe000 then
          let code := 0x10000 + (high - 0xd800) * 0x400 + (low - 0xdc00)
          (joinUnits rest').map (Char.ofNat code :: ·)
        else none
      | _ => none

/-- The units of a string up to its closing quote, and what follows it. -/
def stringUnits? : List Char → Option (List Unit16 × List Char)
  | [] => none
  | '"' :: rest => some ([], rest)
  | '\\' :: 'u' :: a :: b :: c :: d :: rest => do
    let code ← hex4? a b c d
    let (units, after) ← stringUnits? rest
    pure (.escaped code :: units, after)
  | '\\' :: e :: rest => do
    let c ← shortEscape? e
    let (units, after) ← stringUnits? rest
    pure (.char c :: units, after)
  | c :: rest =>
    if c = '\\' ∨ c.toNat < 32 then none
    else do
      let (units, after) ← stringUnits? rest
      pure (.char c :: units, after)

/-- A finite number with its sign. -/
def signed (negative : Bool) (x : Float) : Number :=
  .real (if negative then -x else x)

/-- The number that an integer literal writes: a whole number in range, else a floating-point
number. A negative zero is a floating-point number. -/
def integerNumber (negative : Bool) (digits : List Char) : Option Number :=
  let n := Text.digitsValue digits
  if negative = true ∧ 0 < n ∧ n ≤ Nat.pow 2 63 then some (.integer (-n))
  else if negative = false ∧ n < UInt64.size then some (.integer n)
  else (Decimal.scaled? digits [] 0).map (signed negative)

/-- The exponent part of a number, if there is one, and what follows it. -/
def exponentPart? : List Char → Option (Option Int × List Char)
  | e :: rest =>
    if e = 'e' ∨ e = 'E' then
      let (negative, rest) := match rest with
        | '+' :: r => (false, r)
        | '-' :: r => (true, r)
        | r => (false, r)
      let digits := rest.takeWhile Char.isDigit
      if digits.isEmpty then none
      else
        let n : Int := Text.digitsValue digits
        some (some (if negative then -n else n), rest.dropWhile Char.isDigit)
    else some (none, e :: rest)
  | [] => some (none, [])

/-- The fraction part of a number, if there is one, and what follows it. -/
def fractionPart? : List Char → Option (List Char × List Char)
  | '.' :: rest =>
    let digits := rest.takeWhile Char.isDigit
    if digits.isEmpty then none else some (digits, rest.dropWhile Char.isDigit)
  | rest => some ([], rest)

/-- A number at the head of the text: `none` if it is malformed, and no value if it is too large. -/
def number? (cs : List Char) : Option (Option Number × List Char) := do
  let (negative, cs) := match cs with
    | '-' :: r => (true, r)
    | r => (false, r)
  let whole := cs.takeWhile Char.isDigit
  guard (!whole.isEmpty && (whole.length == 1 || whole.head? != some '0'))
  let (fraction, rest) ← fractionPart? (cs.dropWhile Char.isDigit)
  let (exponent, rest) ← exponentPart? rest
  if fraction.isEmpty && exponent.isNone then pure (integerNumber negative whole, rest)
  else pure ((Decimal.scaled? whole fraction (exponent.getD 0)).map (signed negative), rest)

/-- The first token of the text and what follows it; the text starts with no blank. -/
def token? : List Char → Option (Token × List Char)
  | [] => none
  | '[' :: rest => some (.openArray, rest)
  | ']' :: rest => some (.closeArray, rest)
  | '{' :: rest => some (.openObject, rest)
  | '}' :: rest => some (.closeObject, rest)
  | ',' :: rest => some (.comma, rest)
  | ':' :: rest => some (.colon, rest)
  | 'n' :: 'u' :: 'l' :: 'l' :: rest => some (.null, rest)
  | 't' :: 'r' :: 'u' :: 'e' :: rest => some (.bool true, rest)
  | 'f' :: 'a' :: 'l' :: 's' :: 'e' :: rest => some (.bool false, rest)
  | '"' :: rest => do
    let (units, after) ← stringUnits? rest
    pure (.string ((joinUnits units).map String.ofList), after)
  | c :: rest =>
    if c = '-' ∨ c.isDigit then (number? (c :: rest)).map fun (n, after) => (.number n, after)
    else none

/-- The blanks of JSON text. -/
def isJsonBlank (c : Char) : Bool :=
  c = ' ' || c = '\n' || c = '\t' || c = '\r'

/-- All tokens of the text; `fuel` exceeds its length. -/
def tokens? (cs : List Char) : Nat → Option (List Token)
  | 0 => none
  | fuel + 1 =>
    match cs.dropWhile isJsonBlank with
    | [] => some []
    | rest => do
      let (t, after) ← token? rest
      let ts ← tokens? after fuel
      pure (t :: ts)

/-! ## The grammar -/

/-- How deep arrays and objects may be nested. -/
def maxDepth : Nat := 127

/-- The tree of an array or object, unless it stands too deep. -/
def Tree.atDepth (depth : Nat) (t : Tree) : Tree :=
  if depth < maxDepth then t else .unreadable

/-- An object, unless one of its names has no value. -/
def Tree.ofFields (fields : List (Option String × Tree)) : Tree :=
  match fields.mapM fun (name, t) => name.map (·, t) with
  | some named => .object named
  | none => .unreadable

mutual

/-- A value at the head of the tokens and what follows it. -/
def valueAt? (depth : Nat) (ts : List Token) : Nat → Option (Tree × List Token)
  | 0 => none
  | fuel + 1 =>
    match ts with
    | .null :: rest => some (.null, rest)
    | .bool b :: rest => some (.bool b, rest)
    | .string (some s) :: rest => some (.string s, rest)
    | .string none :: rest => some (.unreadable, rest)
    | .number (some n) :: rest => some (.number n, rest)
    | .number none :: rest => some (.unreadable, rest)
    | .openArray :: .closeArray :: rest => some (Tree.atDepth depth (.array []), rest)
    | .openArray :: rest => do
      let (items, after) ← itemsAt? (depth + 1) rest fuel
      pure (Tree.atDepth depth (.array items), after)
    | .openObject :: .closeObject :: rest => some (Tree.atDepth depth (.object []), rest)
    | .openObject :: rest => do
      let (fields, after) ← fieldsAt? (depth + 1) rest fuel
      pure (Tree.atDepth depth (Tree.ofFields fields), after)
    | _ => none

/-- Items between commas up to the closing bracket, and what follows it. -/
def itemsAt? (depth : Nat) (ts : List Token) : Nat → Option (List Tree × List Token)
  | 0 => none
  | fuel + 1 => do
    let (item, rest) ← valueAt? depth ts fuel
    match rest with
    | .closeArray :: after => pure ([item], after)
    | .comma :: more =>
      let (items, after) ← itemsAt? depth more fuel
      pure (item :: items, after)
    | _ => none

/-- Fields between commas up to the closing brace, and what follows it. -/
def fieldsAt? (depth : Nat) (ts : List Token) :
    Nat → Option (List (Option String × Tree) × List Token)
  | 0 => none
  | fuel + 1 =>
    match ts with
    | .string name :: .colon :: rest => do
      let (field, rest) ← valueAt? depth rest fuel
      match rest with
      | .closeObject :: after => pure ([(name, field)], after)
      | .comma :: more =>
        let (fields, after) ← fieldsAt? depth more fuel
        pure ((name, field) :: fields, after)
      | _ => none
    | _ => none

end

/-- The tree of a text that holds one value and blanks. -/
def Tree.read? (text : String) : Option Tree := do
  let cs := text.toList
  let ts ← tokens? cs (cs.length + 1)
  let (t, rest) ← valueAt? 0 ts (2 * ts.length + 2)
  guard rest.isEmpty
  pure t

/-- The value of a text that holds one value and blanks. -/
def read? (text : String) : Option Json :=
  (Tree.read? text).bind Tree.value?

end Chalkboard.Json
