import Chalkboard.Toml.Literal

/-!
# Reading TOML

A document is a sequence of lines. Each adds a value under a key to the current table, or opens
another table.
-/

namespace Chalkboard.Toml

open Text

mutual

/-- A value; it may contain arrays and tables up to `depth`. -/
def value (depth : Nat) : Nat → Scan Value
  | 0 => failure
  | fuel + 1 => do
    match ← Scan.peek? with
    | none => failure
    | some '"' => return .string (← string '"')
    | some '\'' => return .string (← string '\'')
    | some '[' =>
      Scan.skip 1
      if depth = 0 then failure else return .array (← items (depth - 1) fuel)
    | some c =>
      if c.toNat = 0x7b then
        Scan.skip 1
        spacing
        if depth = 0 then failure
        else if ← Scan.accept [Char.ofNat 0x7d] then return .table .braces []
        else return .table .braces (← fields (depth - 1) fuel [])
      else word

/-- The items of an array, up to its end. A comma may stand behind the last one. -/
def items (depth : Nat) : Nat → Scan (List Value)
  | 0 => failure
  | fuel + 1 => do
    gaps fuel
    if ← Scan.accept [']'] then return []
    else
      let item ← value depth fuel
      gaps fuel
      if ← Scan.accept [','] then return item :: (← items depth fuel)
      else
        Scan.expect [']']
        return [item]

/-- The entries of a table in braces, up to its end, added to those that come before. -/
def fields (depth : Nat) : Nat → Entries → Scan Entries
  | 0, _ => failure
  | fuel + 1, entries => do
    spacing
    let (path, key) ← dottedKey
    Scan.expect ['=']
    spacing
    let v ← value depth fuel
    spacing
    match entries.add path key v with
    | none => failure
    | some entries =>
      if ← Scan.accept [','] then fields depth fuel entries
      else
        Scan.expect [Char.ofNat 0x7d]
        return entries

end

/-- A document while it is read: its entries, and the path of the table that values are added to. -/
structure Draft where
  entries : Entries
  current : List String

namespace Draft

/-- The header of a table, behind its opening bracket. -/
def header (d : Draft) : Scan Draft := do
  let item ← Scan.accept ['[']
  spacing
  let (path, key) ← dottedKey
  Scan.expect (if item then [']', ']'] else [']'])
  let opened := if item then d.entries.openItem path key else d.entries.openTable path key
  match opened with
  | some entries => return ⟨entries, path ++ [key]⟩
  | none => failure

/-- A key with its value. -/
def entry (d : Draft) (fuel : Nat) : Scan Draft := do
  let (path, key) ← dottedKey
  Scan.expect ['=']
  spacing
  let v ← value maxDepth fuel
  match d.entries.under (fun inner => inner.add path key v) d.current with
  | some entries => return { d with entries }
  | none => failure

/-- All lines from here on. -/
def lines (d : Draft) : Nat → Scan Draft
  | 0 => failure
  | fuel + 1 => do
    spacing
    let c ← Scan.peek?
    let d ←
      -- a line may be empty, or hold a comment only
      if c.isNone || c = some '#' || c = some '\n' || c = some '\r' then pure d
      else if ← Scan.accept ['['] then d.header
      else d.entry fuel
    spacing
    comment
    if ← lineBreak then d.lines fuel
    else if (← Scan.rest).isEmpty then return d
    else failure

end Draft

/-- The entries of the document that a text holds. -/
def read? (text : String) : Option Entries :=
  let cs := match text.toList with
    | c :: rest => if c.toNat = 0xfeff then rest else c :: rest
    | [] => []
  (Scan.run? (Draft.lines ⟨[], []⟩ (cs.length + 2)) cs).map Draft.entries

end Chalkboard.Toml
