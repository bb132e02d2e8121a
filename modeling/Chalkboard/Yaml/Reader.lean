import Chalkboard.Yaml.Node
import Chalkboard.Yaml.Scalar

/-!
# Reading YAML

A text holds at most one document. In block style the structure of a document is given by columns:
the entries of a collection stand at its column, and what belongs to an entry stands deeper. A
sequence in a mapping may also stand at the column of the mapping. A key is a node on a single line
with a colon behind it; a block collection begins only where a key may stand.

`Node.read?` gives nothing for a text that is not a document.
-/

namespace Chalkboard.Yaml

open Text

/-- How far a document was read. -/
structure Progress where
  cursor : Cursor
  /-- A key, and so a block collection, may begin here. -/
  keyAllowed : Bool
  /-- The nodes that were given a name. -/
  anchors : List (String × Node)

/-- Reads a part of a document. -/
abbrev Read := StateT Progress Option

namespace Read

/-- A scanner at work on a document. -/
def scan {α : Type} (s : Scan α) : Read α := fun p =>
  (s.run p.cursor).map fun (a, cursor) => (a, { p with cursor })

/-- The rest of the text. -/
def rest : Read (List Char) := do
  return (← get).cursor.rest

/-- The column of the next character. -/
def column : Read Nat := do
  return (← get).cursor.column

/-- The line of the next character. -/
def line : Read Nat := do
  return (← get).cursor.line

/-- Says whether a key may begin here. -/
def allowKey (allowed : Bool) : Read Unit :=
  modify fun p => { p with keyAllowed := allowed }

/-- The end of the document has come. -/
def atEnd : Read Bool := do
  let c := (← get).cursor
  return c.rest.isEmpty || atMark c

/-- An indicator comes next: the character `c` before a gap. -/
def atIndicator (c : Char) : Read Bool := do
  match ← rest with
  | d :: tail => return c = d && atGap tail
  | [] => return false

/-- Passes blanks, comments and line breaks; `breaks` bounds the number of lines. A tab may not
stand where a key may. Outside of brackets a key may begin a line. -/
def skipGaps (flow : Bool) : Nat → Read Unit
  | 0 => return ()
  | breaks + 1 => do
    -- a tab in front of a key would leave its column open
    let tabs := flow || !(← get).keyAllowed
    let _ ← scan (Scan.takeWhile fun c => c = ' ' || (tabs && c = '\t'))
    if (← rest).head? = some '#' then
      let _ ← scan (Scan.takeWhile (· != '\n'))
    if (← rest).head? = some '\n' then
      scan (Scan.skip 1)
      if !flow then allowKey true
      skipGaps flow breaks

/-- Passes everything up to the next token. -/
def toToken (flow : Bool) : Read Unit := do
  skipGaps flow ((← rest).length + 1)

/-- Passes an indicator of one character. -/
def indicator (keyAllowed : Bool) : Read Unit := do
  scan (Scan.skip 1)
  allowKey keyAllowed

end Read

open Read

/-! ## Names and tags -/

/-- The characters of an anchor. -/
def isAnchorChar (c : Char) : Bool :=
  c.isAlphanum || c = '-' || c = '_'

/-- The name of an anchor or an alias, behind its sign. -/
def anchorName : Read String := do
  scan (Scan.skip 1)
  let name ← scan (Scan.takeWhile isAnchorChar)
  let after ← rest
  let closed := atGap after || after.head?.any fun c => "?:,]%@\x60\x7d".toList.contains c
  if name.isEmpty || !closed then failure
  else
    allowKey false
    return String.ofList name

/-- A tag, which says nothing here. -/
def tag (flow : Bool) : Read Unit := do
  let _ ← scan (Scan.takeWhile fun c => !isGap c && !(flow && isFlowEnd c))
  allowKey false

/-- The anchor and the tag in front of a node, in any order; each at most once. -/
def properties (flow : Bool) : Read (Option String × Bool) := do
  let anchor? : Read (Option String) := do
    if (← rest).head? = some '&' then
      let name ← anchorName
      return some name
    else return none
  let tag? : Read Bool := do
    if (← rest).head? = some '!' then
      tag flow
      return true
    else return false
  let first ← anchor?
  if first.isSome then toToken flow
  let tagged ← tag?
  if tagged then
    toToken flow
    if first.isNone then
      let second ← anchor?
      if second.isSome then toToken flow
      return (second, true)
  return (first, tagged)

/-- Gives a node its name. -/
def name (anchor : Option String) (node : Node) : Read Node := do
  match anchor with
  | none => return node
  | some a =>
    modify fun p => { p with anchors := (a, node) :: p.anchors }
    return node

/-- The node that an alias stands for. -/
def aliasNode : Read Node := do
  let a ← anchorName
  match (← get).anchors.find? (·.1 == a) with
  | some (_, node) => return node
  | none => failure

/-! ## Flow style -/

mutual

/-- A node between brackets or braces, or on a line of its own: an alias, a collection in brackets
or braces, or a scalar. `indent` is the least column of the lines of a plain scalar. -/
def flowNode (flow : Bool) (indent : Nat) : Nat → Read Node
  | 0 => failure
  | fuel + 1 => do
    let cs ← rest
    match cs.head? with
    | some '*' => aliasNode
    | some '[' =>
      indicator true
      let items ← flowItems indent fuel
      allowKey false
      return .sequence items
    | some '\'' | some '"' =>
      let text ← scan quotedScalar
      allowKey false
      return .scalar false text
    | some c =>
      if c.toNat = 0x7b then
        indicator true
        let entries ← flowEntries indent fuel
        allowKey false
        return .mapping entries
      else if beginsPlain flow cs then
        let text ← scan (plainScalar flow indent)
        allowKey false
        return .scalar true text
      else failure
    | none => failure

/-- A node between brackets or braces with its properties; nothing may stand there. -/
def flowContent (indent : Nat) : Nat → Read Node
  | 0 => failure
  | fuel + 1 => do
    let (anchor, tagged) ← properties true
    let bare := anchor.isSome || tagged
    match (← rest).head? with
    | some c =>
      if c = ',' || c = ']' || c.toNat = 0x7d || c = ':' then
        if bare then name anchor .absent else failure
      else name anchor (← flowNode true indent fuel)
    | none => failure

/-- The value behind a colon between brackets or braces. -/
def flowValue (indent : Nat) : Nat → Read Node
  | 0 => failure
  | fuel + 1 => do
    indicator false
    toToken true
    match (← rest).head? with
    | some c =>
      if c = ',' || c = ']' || c.toNat = 0x7d then return .absent else flowContent indent fuel
    | none => failure

/-- A key with its value, or a node alone. Whether there was a colon or a question mark is
returned. -/
def flowPair (indent : Nat) : Nat → Read (Node × Node × Bool)
  | 0 => failure
  | fuel + 1 => do
    let asked ← atIndicator '?'
    if asked then
      indicator true
      toToken true
    let start ← line
    let empty := (← rest).head?.any fun c => c = ',' || c = ']' || c = ':' || c.toNat = 0x7d
    let key ← if empty then pure Node.absent else flowContent indent fuel
    let stop ← line
    toToken true
    if (← rest).head? = some ':' then
      if !asked && (start != stop || (← line) != stop) then failure
      else
        let value ← flowValue indent fuel
        return (key, value, true)
    else if empty && !asked then failure
    else return (key, .absent, asked)

/-- What comes behind an item: another one or the end. -/
def flowMore (close : Char) : Nat → Read Bool
  | 0 => failure
  | _ + 1 => do
    toToken true
    match (← rest).head? with
    | some c =>
      if c = close then
        indicator false
        return false
      else if c = ',' then
        indicator true
        toToken true
        if (← rest).head? = some close then
          indicator false
          return false
        else return true
      else failure
    | none => failure

/-- The items of a sequence in brackets. A key with a value is a mapping of its own. -/
def flowItems (indent : Nat) : Nat → Read (List Node)
  | 0 => failure
  | fuel + 1 => do
    toToken true
    if (← rest).head? = some ']' then
      indicator false
      return []
    else
      let (key, value, paired) ← flowPair indent fuel
      -- a pair in brackets is a mapping of one entry
      let item := if paired then Node.mapping [(key, value)] else key
      if ← flowMore ']' fuel then
        let items ← flowItems indent fuel
        return item :: items
      else return [item]

/-- The entries of a mapping in braces. -/
def flowEntries (indent : Nat) : Nat → Read (List (Node × Node))
  | 0 => failure
  | fuel + 1 => do
    toToken true
    if (← rest).head?.any fun c => c.toNat = 0x7d then
      indicator false
      return []
    else
      let (key, value, _) ← flowPair indent fuel
      if ← flowMore (Char.ofNat 0x7d) fuel then
        let entries ← flowEntries indent fuel
        return (key, value) :: entries
      else return [(key, value)]

end

/-! ## Block style -/

/-- The longest key, in characters. -/
def maxKeyLength : Nat := 1024

/-- Whether the node that began at `start` is a key: a colon comes behind it on the same line. -/
def isKey (start : Cursor) : Read Bool := do
  let _ ← scan (Scan.takeWhile isTabOrSpace)
  if ← atIndicator ':' then
    if (← line) = start.line && (← column) - start.column ≤ maxKeyLength then return true
    else failure
  else return false

mutual

/-- A node in block style at the next token. `parent` is the column of the collection around it.
`level` says that a sequence may stand at that column itself. -/
def blockNode (parent : Int) (level : Bool) : Nat → Read Node
  | 0 => failure
  | fuel + 1 => do
    if ← atEnd then return .absent
    else
      let col := (← column : Int)
      -- what does not stand deeper belongs to a collection further out
      if col ≤ parent then
        if level && col = parent && (← atIndicator '-') then
          if (← get).keyAllowed then
            let items ← blockItems col.toNat true fuel
            return .sequence items
          else failure
        else return .absent
      else
        let start := (← get).cursor
        let allowed := (← get).keyAllowed
        let (anchor, tagged) ← properties false
        if anchor.isNone && !tagged then blockContent parent start allowed none fuel
        -- properties on a line of their own belong to whatever comes below them
        else if (← line) != start.line then
          let node ← blockNode parent level fuel
          name anchor node
        else if ← atEnd then name anchor .absent
        else blockContent parent start allowed anchor fuel
termination_by structural fuel => fuel

/-- A node whose properties were read on the same line. The properties of a key belong to the key,
all others to the node. `start` is where the properties begin, and `allowed` whether a key may begin
there. -/
def blockContent (parent : Int) (start : Cursor) (allowed : Bool) (anchor : Option String) :
    Nat → Read Node
  | 0 => failure
  | fuel + 1 => do
    let here := (← get).keyAllowed
    if ← atIndicator '-' then
      if here then
        let items ← blockItems start.column false fuel
        return .sequence items
      else failure
    else if (← atIndicator '?') || (← atIndicator ':') then
      if here then
        let entries ← blockEntries start.column fuel
        return .mapping entries
      else failure
    else
      match (← rest).head? with
      | some '|' | some '>' =>
        let text ← scan (blockScalar parent)
        allowKey true
        name anchor (.scalar false text)
      | _ =>
        let node ← flowNode false (parent + 1).toNat fuel
        let node ← name anchor node
        -- a colon behind the node makes it the first key of a mapping that begins at its column
        if ← isKey start then
          if allowed then
            indicator false
            let value ← blockValue start.column fuel
            let entries ← moreEntries start.column fuel
            return .mapping ((node, value) :: entries)
          else failure
        else return node
termination_by structural fuel => fuel

/-- The value behind a colon in a mapping at column `col`. -/
def blockValue (col : Nat) : Nat → Read Node
  | 0 => failure
  | fuel + 1 => do
    toToken false
    blockNode col true fuel
termination_by structural fuel => fuel

/-- The entries of a mapping at column `col`, at one of them. -/
def blockEntries (col : Nat) : Nat → Read (List (Node × Node))
  | 0 => failure
  | fuel + 1 => do
    if ← atIndicator '?' then
      indicator true
      let key ← blockValue col fuel
      toToken false
      if !(← atEnd) && (← column) = col && (← atIndicator ':') then
        if (← get).keyAllowed then
          indicator true
          let value ← blockValue col fuel
          let entries ← moreEntries col fuel
          return (key, value) :: entries
        else failure
      else
        let entries ← moreEntries col fuel
        return (key, .absent) :: entries
    else if ← atIndicator ':' then
      indicator true
      let value ← blockValue col fuel
      let entries ← moreEntries col fuel
      return (.absent, value) :: entries
    else
      let start := (← get).cursor
      let (anchor, tagged) ← properties false
      if (← line) != start.line then failure
      else
        let key ← if (anchor.isSome || tagged) && (← atIndicator ':') then pure Node.absent
          else flowNode false (col + 1) fuel
        let key ← name anchor key
        if ← isKey start then
          indicator false
          let value ← blockValue col fuel
          let entries ← moreEntries col fuel
          return (key, value) :: entries
        else failure
termination_by structural fuel => fuel

/-- The further entries of a mapping at column `col`. -/
def moreEntries (col : Nat) : Nat → Read (List (Node × Node))
  | 0 => failure
  | fuel + 1 => do
    toToken false
    if (← atEnd) || (← column) < col then return []
    else if (← column) = col && (← get).keyAllowed then blockEntries col fuel
    else failure
termination_by structural fuel => fuel

/-- The items of a sequence at column `col`, at one of them. A sequence at the `level` of its
mapping ends where the mapping goes on. -/
def blockItems (col : Nat) (level : Bool) : Nat → Read (List Node)
  | 0 => failure
  | fuel + 1 => do
    indicator true
    toToken false
    let item ← blockNode col false fuel
    toToken false
    if (← atEnd) || (← column) < col then return [item]
    else if (← column) = col && (← get).keyAllowed then
      if ← atIndicator '-' then
        let items ← blockItems col level fuel
        return item :: items
      else if level then return [item]
      else failure
    else failure
termination_by structural fuel => fuel

end

/-! ## Documents -/

/-- The characters that a document may hold. -/
def isAllowed (c : Char) : Bool :=
  let n := c.toNat
  n = 9 || n = 10 || n = 13 || (0x20 ≤ n && n ≤ 0x7e) || n = 0x85 || (0xa0 ≤ n && n ≤ 0xfffd) ||
    0x10000 ≤ n

/-- The text with every line break written as one character. -/
def normalBreaks : List Char → List Char
  | [] => []
  | '\r' :: '\n' :: rest => '\n' :: normalBreaks rest
  | '\r' :: rest => '\n' :: normalBreaks rest
  | c :: rest => (if c.toNat = 0x85 then '\n' else c) :: normalBreaks rest

/-- The words of a line. -/
def words (line : List Char) : List String :=
  ((String.ofList line).splitOn " ").filter (· != "")

/-- The directives in front of a document; whether there are any is returned. -/
def directives : Nat → Read Bool
  | 0 => failure
  | fuel + 1 => do
    toToken false
    if (← column) = 0 && (← rest).head? = some '%' then
      let line ← scan (Scan.takeWhile (· != '\n'))
      match words line with
      | ["%YAML", "1.1"] | ["%YAML", "1.2"] => pure ()
      | "%TAG" :: _ :: _ :: [] => pure ()
      | _ => failure
      let _ ← directives fuel
      return true
    else return false

/-- The only document of a text. -/
def document (fuel : Nat) : Read Node := do
  let directed ← directives fuel
  toToken false
  -- three dashes open the document, and must do so behind directives
  let opened := (← column) = 0 && ['-', '-', '-'].isPrefixOf (← rest) && atMark (← get).cursor
  if directed && !opened then failure
  else
    if opened then
      scan (Scan.skip 3)
      allowKey false
      toToken false
    let node ← blockNode (-1) false fuel
    toToken false
    closing fuel
    return node
where
  /-- Nothing but end marks may follow a document. -/
  closing : Nat → Read Unit
    | 0 => failure
    | fuel + 1 => do
      if (← rest).isEmpty then return ()
      else if atMark (← get).cursor && ['.', '.', '.'].isPrefixOf (← rest) then
        scan (Scan.skip 3)
        allowKey false
        toToken false
        closing fuel
      else failure

/-- The document that a text holds. -/
def Node.read? (text : String) : Option Node :=
  let cs := match text.toList with
    | c :: rest => if c.toNat = 0xfeff then rest else c :: rest
    | [] => []
  if cs.all isAllowed then
    let cs := normalBreaks cs
    ((document (4 * cs.length + 16)).run ⟨.start cs, true, []⟩).map Prod.fst
  else none

end Chalkboard.Yaml
