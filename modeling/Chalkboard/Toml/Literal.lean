import Chalkboard.Decimal.Literal
import Chalkboard.Text.Scan
import Chalkboard.Toml.Value

/-!
# TOML literals

Keys, strings, numbers and moments in time.
-/

namespace Chalkboard.Toml

open Text

/-! ## Blanks and comments -/

/-- A blank inside a line. -/
def isSpacing (c : Char) : Bool :=
  c = ' ' || c = '\t'

/-- A character that may stand in comments and strings. -/
def isText (c : Char) : Bool :=
  c = '\t' || (0x20 ≤ c.toNat && c.toNat != 0x7f)

/-- Passes blanks. -/
def spacing : Scan Unit := do
  let _ ← Scan.takeWhile isSpacing

/-- Passes a comment, if there is one. -/
def comment : Scan Unit := do
  if (← Scan.peek?) = some '#' then
    let _ ← Scan.takeWhile isText

/-- Passes a line break, if there is one. -/
def lineBreak : Scan Bool := do
  if ← Scan.accept ['\n'] then return true else Scan.accept ['\r', '\n']

/-- Passes blanks, comments and line breaks. -/
def gaps : Nat → Scan Unit
  | 0 => return ()
  | fuel + 1 => do
    spacing
    comment
    if ← lineBreak then gaps fuel

/-! ## Strings -/

/-- The character that a number of hexadecimal digits stands for. -/
def codePoint (width : Nat) : Scan Char := do
  let digits := (← Scan.rest).take width
  match numberIn? 16 digits with
  | some n =>
    if digits.length = width && (n < 0xd800 || (0xdfff < n && n ≤ 0x10ffff)) then
      Scan.skip width
      return Char.ofNat n
    else failure
  | none => failure

/-- The character that an escape stands for, behind its backslash. -/
def escape : Scan Char := do
  match ← Scan.next with
  | 'b' => return Char.ofNat 8
  | 't' => return '\t'
  | 'n' => return '\n'
  | 'f' => return Char.ofNat 12
  | 'r' => return '\r'
  | '"' => return '"'
  | '\\' => return '\\'
  | 'u' => codePoint 4
  | 'U' => codePoint 8
  | _ => failure

/-- The rest of a string on one line, up to its closing quote. -/
def lineString (quote : Char) : Nat → Scan (List Char)
  | 0 => failure
  | fuel + 1 => do
    let c ← Scan.next
    if c = quote then return []
    else if c = '\\' && quote = '"' then
      let d ← escape
      return d :: (← lineString quote fuel)
    else if isText c then return c :: (← lineString quote fuel)
    else failure

/-- Passes blanks and line breaks behind a backslash at the end of a line. -/
def joinLines : Nat → Scan Unit
  | 0 => return ()
  | fuel + 1 => do
    spacing
    if ← lineBreak then joinLines fuel

/-- The rest of a string on several lines, up to three closing quotes; one or two more quotes belong
to the string. -/
def blockString (quote : Char) : Nat → Scan (List Char)
  | 0 => failure
  | fuel + 1 => do
    let quotes := ((← Scan.rest).takeWhile (· = quote)).length
    if 3 ≤ quotes then
      -- three of the quotes close the string
      if 5 < quotes then failure
      else
        Scan.skip quotes
        return List.replicate (quotes - 3) quote
    else if ← lineBreak then return '\n' :: (← blockString quote fuel)
    else
      let c ← Scan.next
      if c = '\\' && quote = '"' then
        let after := (← Scan.rest).dropWhile isSpacing
        if after.head? = some '\n' || ['\r', '\n'].isPrefixOf after then
          joinLines (after.length + 1)
          blockString quote fuel
        else
          let d ← escape
          return d :: (← blockString quote fuel)
      else if isText c then return c :: (← blockString quote fuel)
      else failure

/-- A string, at its opening quote. -/
def string (quote : Char) : Scan String := do
  let fuel := (← Scan.rest).length
  if ← Scan.accept [quote, quote, quote] then
    let _ ← lineBreak
    return String.ofList (← blockString quote fuel)
  else
    Scan.skip 1
    return String.ofList (← lineString quote fuel)

/-! ## Keys -/

/-- The characters of a key without quotes. -/
def isKeyChar (c : Char) : Bool :=
  c.isAlphanum || c = '-' || c = '_'

/-- One part of a key. -/
def simpleKey : Scan String := do
  match ← Scan.peek? with
  | some '"' =>
    Scan.skip 1
    return String.ofList (← lineString '"' (← Scan.rest).length)
  | some '\'' =>
    Scan.skip 1
    return String.ofList (← lineString '\'' (← Scan.rest).length)
  | _ =>
    let key ← Scan.takeWhile isKeyChar
    if key.isEmpty then failure else return String.ofList key

/-- How many arrays and tables may contain each other in a value, and how many parts a key may
have. -/
def maxDepth : Nat := 79

/-- A key of at most `parts` parts that are separated by points: the parts but the last, and the
last. -/
def keyOf : Nat → Scan (List String × String)
  | 0 => failure
  | parts + 1 => do
    let part ← simpleKey
    spacing
    if ← Scan.accept ['.'] then
      spacing
      let (path, key) ← keyOf parts
      return (part :: path, key)
    else return ([], part)

/-- A key whose parts are separated by points: the parts but the last, and the last. -/
def dottedKey : Scan (List String × String) :=
  keyOf maxDepth

/-! ## Numbers -/

/-- Digits without the underscores between them, if these are where they may be. -/
def plainDigits? (isDigit : Char → Bool) (cs : List Char) : Option (List Char) :=
  let digits := cs.filter (· != '_')
  let placed := cs.head? != some '_' && cs.getLast? != some '_' && !doubled cs
  if placed && !digits.isEmpty && digits.all isDigit then some digits else none
where
  /-- Whether two underscores stand side by side. -/
  doubled : List Char → Bool
    | '_' :: '_' :: _ => true
    | _ :: rest => doubled rest
    | [] => false

/-- The whole numbers that fit. -/
def wholeNumber? (n : Int) : Option Value :=
  if Int64.minValue.toInt ≤ n ∧ n ≤ Int64.maxValue.toInt then some (.integer n) else none

/-- A whole number with a mark for its base. -/
def based? (base : Nat) (cs : List Char) : Option Value :=
  (plainDigits? (fun c => (Text.hexValue? c).isSome) cs).bind fun digits =>
    (Text.numberIn? base digits).bind fun n => wholeNumber? n

/-- The digits before the point: no needless zero stands in front. -/
def leadingDigits? (cs : List Char) : Option (List Char) :=
  (plainDigits? Char.isDigit cs).filter fun digits => digits.length = 1 || digits.head? != some '0'

/-- A floating-point number without a sign: digits with a point, an exponent, or both. What is too
large is refused unless it is negative. -/
def float? (negative : Bool) (cs : List Char) : Option Value := do
  let isBefore (c : Char) : Bool := c != '.' && c != 'e' && c != 'E'
  let whole ← leadingDigits? (cs.takeWhile isBefore)
  let rest := cs.dropWhile isBefore
  let (fraction, rest) ← match rest with
    | '.' :: r =>
      let part := r.takeWhile isBefore
      (plainDigits? Char.isDigit part).map fun digits => ('.' :: digits, r.drop part.length)
    | r => some ([], r)
  let exponent ← match rest with
    | [] => some []
    | _ :: r =>
      let sign := match r with
        | '-' :: _ => ['-']
        | _ => []
      let digits := match r with
        | '+' :: ds => ds
        | '-' :: ds => ds
        | ds => ds
      (plainDigits? Char.isDigit digits).map fun ds => 'e' :: sign ++ ds
  -- without either it is a whole number that is too long, or no number at all
  if fraction.isEmpty && exponent.isEmpty then none
  else
    let x ← Decimal.magnitudeOf? (whole ++ fraction ++ exponent)
    if negative then some (.float (-x)) else if x.isInf then none else some (.float x)

/-- A number. -/
def number? (cs : List Char) : Option Value :=
  match cs with
  | '0' :: 'x' :: digits => based? 16 digits
  | '0' :: 'o' :: digits => based? 8 digits
  | '0' :: 'b' :: digits => based? 2 digits
  | _ =>
    let (negative, cs) := Decimal.splitSign cs
    if cs = ['i', 'n', 'f'] then some (.float (if negative then -1.0 / 0.0 else 1.0 / 0.0))
    else if cs = ['n', 'a', 'n'] then some (.float (0.0 / 0.0))
    else
      match leadingDigits? cs with
      | some digits =>
        let n : Int := Text.digitsValue digits
        wholeNumber? (if negative then -n else n)
      | none => float? negative cs

/-! ## Moments -/

/-- The days of a month. -/
def daysOf (year month : Nat) : Nat :=
  if month = 2 then
    if year % 4 = 0 && (year % 100 != 0 || year % 400 = 0) then 29 else 28
  else if month = 4 || month = 6 || month = 9 || month = 11 then 30
  else 31

/-- A number of exactly `width` digits at the head of a text, and what follows. -/
def fixedDigits? (width : Nat) (cs : List Char) : Option (Nat × List Char) :=
  let digits := cs.take width
  if digits.length = width && digits.all Char.isDigit then
    some (Text.digitsValue digits, cs.drop width)
  else none

/-- What follows a character that must come next. -/
def passed? (c : Char) : List Char → Option (List Char)
  | d :: rest => if c = d then some rest else none
  | [] => none

/-- What follows a date. -/
def date? (cs : List Char) : Option (List Char) := do
  let (year, cs) ← fixedDigits? 4 cs
  let (month, cs) ← fixedDigits? 2 (← passed? '-' cs)
  let (day, cs) ← fixedDigits? 2 (← passed? '-' cs)
  if 1 ≤ month && month ≤ 12 && 1 ≤ day && day ≤ daysOf year month then some cs else none

/-- What follows a time of day. -/
def time? (cs : List Char) : Option (List Char) := do
  let (hour, cs) ← fixedDigits? 2 cs
  let (minute, cs) ← fixedDigits? 2 (← passed? ':' cs)
  let (second, cs) ← fixedDigits? 2 (← passed? ':' cs)
  if hour ≤ 23 && minute ≤ 59 && second ≤ 60 then
    match cs with
    | '.' :: rest =>
      if rest.head?.any Char.isDigit then some (rest.dropWhile Char.isDigit) else none
    | cs => some cs
  else none

/-- A distance from universal time. -/
def isOffset : List Char → Bool
  | [c] => c = 'Z' || c = 'z'
  | c :: rest =>
    (c = '+' || c = '-') &&
      match fixedDigits? 2 rest with
      | some (hour, ':' :: rest) =>
        match fixedDigits? 2 rest with
        | some (minute, []) => hour ≤ 23 && minute ≤ 59
        | _ => false
      | _ => false
  | [] => true

/-- Whether a text is a date, a time of day, or both. -/
def isMoment (cs : List Char) : Bool :=
  match date? cs with
  | some [] => true
  | some (c :: rest) => (c = 'T' || c = 't' || c = ' ') && (time? rest).any isOffset
  | none => (time? cs).any List.isEmpty

/-! ## Words -/

/-- The characters of numbers, truth values and moments. -/
def isWordChar (c : Char) : Bool :=
  c.isAlphanum || c = '+' || c = '-' || c = '_' || c = '.' || c = ':'

/-- A number, a truth value or a moment. A blank may separate a date and a time. -/
def word : Scan Value := do
  let cs ← Scan.takeWhile isWordChar
  if cs = ['t', 'r', 'u', 'e'] then return .bool true
  else if cs = ['f', 'a', 'l', 's', 'e'] then return .bool false
  else
    match number? cs with
    | some v => return v
    | none =>
      let after ← Scan.rest
      -- a blank belongs to a moment only where a digit follows it
      let spaced := date? cs = some [] && after.head? = some ' ' &&
        (after.drop 1).head?.any Char.isDigit
      if spaced then
        Scan.skip 1
        let time ← Scan.takeWhile isWordChar
        if isMoment (cs ++ ' ' :: time) then
          return .moment (String.ofList (cs ++ ' ' :: time))
        else failure
      else if isMoment cs then return .moment (String.ofList cs)
      else failure

end Chalkboard.Toml
