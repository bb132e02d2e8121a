import Chalkboard.Text.Digits
import Chalkboard.Text.Scan

/-!
# YAML scalars

How plain, quoted and block scalars are read. Lines are folded: a line break inside a plain or
quoted scalar counts as a blank, and further breaks count as themselves.
-/

namespace Chalkboard.Yaml

open Text

/-- A blank inside a line. -/
def isTabOrSpace (c : Char) : Bool :=
  c = ' ' || c = '\t'

/-- A blank or a line break. -/
def isGap (c : Char) : Bool :=
  isTabOrSpace c || c = '\n'

/-- The text ends here, or a blank or a line break comes next. -/
def atGap : List Char → Bool
  | [] => true
  | c :: _ => isGap c

/-- A line that marks the beginning or the end of a document. -/
def isMark (cs : List Char) : Bool :=
  (['-', '-', '-'].isPrefixOf cs || ['.', '.', '.'].isPrefixOf cs) && atGap (cs.drop 3)

/-- Such a line comes next. -/
def atMark (c : Cursor) : Bool :=
  c.column = 0 && isMark c.rest

/-- What `breaks` line breaks between two parts of a scalar stand for. -/
def foldBreaks (breaks : Nat) : List Char :=
  if breaks = 1 then [' '] else List.replicate (breaks - 1) '\n'

/-- What blanks and line breaks inside a scalar stand for: themselves if there is no break among
them. -/
def foldGap (gap : List Char) : List Char :=
  if gap.contains '\n' then foldBreaks (gap.count '\n') else gap

/-- Splits a text into lines without their breaks. -/
def splitLines (cs : List Char) : List (List Char) :=
  let (line, lines) := cs.foldr
    (fun c (line, lines) => if c = '\n' then ([], line :: lines) else (c :: line, lines)) ([], [])
  line :: lines

/-! ## Plain scalars -/

/-- The characters that end a plain scalar inside brackets or braces. -/
def isFlowEnd (c : Char) : Bool :=
  c = ',' || c = '[' || c = ']' || c.toNat = 0x7b || c.toNat = 0x7d

/-- The part of a plain scalar before the next gap. Inside brackets a colon must not stand before
another indicator. -/
def plainPart? (flow : Bool) : List Char → Option (List Char)
  | [] => some []
  | c :: rest =>
    if isGap c then some []
    else if c = ':' && atGap rest then some []
    else if flow && isFlowEnd c then some []
    else if flow && c = ':' && rest.head?.any (fun d => isFlowEnd d || d = '?') then none
    else (plainPart? flow rest).map (c :: ·)

/-- Whether a line inside a gap is indented by a tab before column `indent`. -/
def tabsTooEarly (indent : Nat) (gap : List Char) : Bool :=
  (splitLines gap).tail.any fun line =>
    (line.takeWhile (· = ' ')).length < indent && (line.dropWhile (· = ' ')).head? = some '\t'

/-- The parts of a plain scalar after its first. A part on a further line must stand at column
`indent` or deeper, unless brackets enclose it. -/
def plainRest (flow : Bool) (indent : Nat) : Nat → Scan (List Char)
  | 0 => return []
  | fuel + 1 => do
    let before ← get
    let gap ← Scan.takeWhile isGap
    let here ← get
    -- on a further line the scalar may have ended
    let crossed := before.line < here.line
    if tabsTooEarly indent gap then failure
    else if gap.isEmpty || here.rest.head? = some '#' ||
        (crossed && (atMark here || (!flow && here.column < indent))) then
      set before
      return []
    else
      match plainPart? flow here.rest with
      | none => failure
      | some [] =>
        set before
        return []
      | some part =>
        Scan.skip part.length
        let more ← plainRest flow indent fuel
        return foldGap gap ++ part ++ more

/-- A plain scalar. -/
def plainScalar (flow : Bool) (indent : Nat) : Scan String := do
  let cs ← Scan.rest
  match plainPart? flow cs with
  | none => failure
  | some first =>
    Scan.skip first.length
    let more ← plainRest flow indent cs.length
    return String.ofList (first ++ more)

/-- Whether a plain scalar can begin here. -/
def beginsPlain (flow : Bool) : List Char → Bool
  | [] => false
  | c :: rest =>
    let indicators := "-?:,[]#&*!|>'\"%@\x60\x7b\x7d".toList
    if isGap c then false
    else if !indicators.contains c then true
    else if c = '-' then !atGap rest
    else (c = '?' || c = ':') && !flow && !atGap rest

/-! ## Quoted scalars -/

/-- The number that `width` hexadecimal digits write. -/
def hexNumber (width : Nat) : Scan Nat := do
  let digits := (← Scan.rest).take width
  match numberIn? 16 digits with
  | some n =>
    if digits.length < width then failure
    else
      Scan.skip width
      return n
  | none => failure

/-- The character with a code point. -/
def codePoint (n : Nat) : Scan Char :=
  if n < 0xd800 ∨ (0xdfff < n ∧ n ≤ 0x10ffff) then return Char.ofNat n else failure

/-- The character that an escape stands for. -/
def escape : Scan Char := do
  match ← Scan.next with
  | '0' => return Char.ofNat 0
  | 'a' => return Char.ofNat 7
  | 'b' => return Char.ofNat 8
  | 't' => return '\t'
  | '\t' => return '\t'
  | 'n' => return '\n'
  | 'v' => return Char.ofNat 11
  | 'f' => return Char.ofNat 12
  | 'r' => return '\r'
  | 'e' => return Char.ofNat 27
  | ' ' => return ' '
  | '"' => return '"'
  | '/' => return '/'
  | '\\' => return '\\'
  | 'N' => return Char.ofNat 0x85
  | '_' => return Char.ofNat 0xa0
  | 'L' => return Char.ofNat 0x2028
  | 'P' => return Char.ofNat 0x2029
  | 'x' => codePoint (← hexNumber 2)
  | 'u' => codePoint (← hexNumber 4)
  | 'U' => codePoint (← hexNumber 8)
  | _ => failure

/-- The rest of a quoted scalar, up to its closing quote. -/
def quotedRest (double : Bool) : Nat → Scan (List Char)
  | 0 => failure
  | fuel + 1 => do
    let here ← get
    if atMark here then failure
    else
      match double, here.rest with
      | _, [] => failure
      | false, '\'' :: '\'' :: _ =>
        Scan.skip 2
        return '\'' :: (← quotedRest double fuel)
      | false, '\'' :: _ =>
        Scan.skip 1
        return []
      | true, '"' :: _ =>
        Scan.skip 1
        return []
      -- an escaped line break joins two lines without a blank
      | true, '\\' :: '\n' :: _ =>
        Scan.skip 2
        let gap ← Scan.takeWhile isGap
        return List.replicate (gap.count '\n') '\n' ++ (← quotedRest double fuel)
      | true, '\\' :: _ =>
        Scan.skip 1
        let c ← escape
        return c :: (← quotedRest double fuel)
      | _, c :: _ =>
        if isGap c then
          let gap ← Scan.takeWhile isGap
          return foldGap gap ++ (← quotedRest double fuel)
        else
          Scan.skip 1
          return c :: (← quotedRest double fuel)

/-- A quoted scalar, at its opening quote. -/
def quotedScalar : Scan String := do
  let cs ← Scan.rest
  match ← Scan.next with
  | '\'' => return String.ofList (← quotedRest false cs.length)
  | '"' => return String.ofList (← quotedRest true cs.length)
  | _ => failure

/-! ## Block scalars -/

/-- What becomes of the line breaks at the end of a block scalar. -/
inductive Chomp where
  | strip | clip | keep
  deriving DecidableEq

/-- The indicators behind the sign of a block scalar: what becomes of the last breaks, and a
depth. -/
def blockHeader : List Char → Option (Chomp × Option Nat)
  | [] => some (.clip, none)
  | ['-'] => some (.strip, none)
  | ['+'] => some (.keep, none)
  | [d] => if '1' ≤ d ∧ d ≤ '9' then some (.clip, some (d.toNat - 48)) else none
  | [a, b] =>
    match blockSign a, blockSign b with
    | some chomp, none =>
      if '1' ≤ b ∧ b ≤ '9' then some (chomp, some (b.toNat - 48)) else none
    | none, some chomp =>
      if '1' ≤ a ∧ a ≤ '9' then some (chomp, some (a.toNat - 48)) else none
    | _, _ => none
  | _ => none
where
  /-- What a sign says. -/
  blockSign : Char → Option Chomp
    | '-' => some .strip
    | '+' => some .keep
    | _ => none

/-- How deep the leading empty lines and the first other line are indented, at most. -/
def leadingDepth (deepest : Nat) : List (List Char) → Nat
  | [] => deepest
  | line :: rest =>
    let depth := (line.takeWhile (· = ' ')).length
    if depth = line.length then leadingDepth (max deepest depth) rest else max deepest depth

/-- A part of a block scalar: the line breaks before a line, and the line without its
indentation. -/
structure BlockLine where
  breaks : Nat
  text : List Char

/-- The lines of a block scalar at a depth, and how many line breaks come after the last. A line
that is indented less and not empty ends the scalar; `taken` counts the characters that belong to
it. -/
def blockLines (depth : Nat) (breaks taken : Nat) : List (List Char) → List BlockLine × Nat × Nat
  | [] => ([], breaks, taken)
  | line :: rest =>
    let blanks := (line.takeWhile (· = ' ')).length
    let last := rest.isEmpty
    -- a line of blanks up to the depth is empty, a deeper one has text
    if blanks = line.length && blanks ≤ depth then
      if last then ([], breaks, taken + line.length)
      else blockLines depth (breaks + 1) (taken + line.length + 1) rest
    else if blanks < depth then ([], breaks, taken)
    else
      let text := line.drop depth
      if last then ([⟨breaks, text⟩], 0, taken + line.length)
      else
        let (lines, after, taken) := blockLines depth 1 (taken + line.length + 1) rest
        (⟨breaks, text⟩ :: lines, after, taken)

/-- Whether a line begins with a blank, which keeps the breaks around it from being folded. -/
def isIndented (text : List Char) : Bool :=
  text.head?.any isTabOrSpace

/-- Lines with the breaks between them; a single break is folded into a blank in a folded scalar. -/
def joinBlock (literal : Bool) (previous : Option (List Char)) : List BlockLine → List Char
  | [] => []
  | line :: rest =>
    let gap :=
      match previous with
      | none => List.replicate line.breaks '\n'
      | some before =>
        if literal || isIndented before || isIndented line.text then
          List.replicate line.breaks '\n'
        else foldBreaks line.breaks
    gap ++ line.text ++ joinBlock literal (some line.text) rest

/-- The breaks at the end of a block scalar. -/
def chompBreaks (chomp : Chomp) (empty : Bool) (breaks : Nat) : List Char :=
  match chomp with
  | .strip => []
  | .clip => if empty then [] else List.replicate (min 1 breaks) '\n'
  | .keep => List.replicate breaks '\n'

/-- A block scalar, at its sign. `parent` is the column of the collection around it. -/
def blockScalar (parent : Int) : Scan String := do
  let literal := (← Scan.next) = '|'
  let header ← Scan.takeWhile fun c => c = '-' || c = '+' || c.isDigit
  let _ ← Scan.takeWhile isTabOrSpace
  if (← Scan.peek?) = some '#' then
    let _ ← Scan.takeWhile (· != '\n')
  match blockHeader header with
  | none => failure
  | some (chomp, depth?) =>
    match ← Scan.peek? with
    | none => return ""
    | some '\n' =>
      Scan.skip 1
      let cs ← Scan.rest
      let lines := splitLines cs
      let depth := match depth? with
        | some d => if 0 ≤ parent then parent.toNat + d else d
        | none => max (leadingDepth 0 lines) (max (parent + 1).toNat 1)
      let (parts, after, taken) := blockLines depth 0 0 lines
      if parts.isEmpty && tabsTooEarly depth ('\n' :: cs) then failure
      else
        Scan.skip taken
        return String.ofList (joinBlock literal none parts ++ chompBreaks chomp parts.isEmpty after)
    | some _ => failure

end Chalkboard.Yaml
