/-!
# TOML values

A document is a table. How a table came about is kept, because it says what may still be added to
it.
-/

namespace Chalkboard.Toml

/-- How a table came about. -/
inductive Origin where
  /-- It has a header of its own. -/
  | header
  /-- Only headers of tables inside it have been seen. -/
  | implied
  /-- By a dotted key. -/
  | dotted
  /-- It is written in braces. -/
  | braces
  deriving DecidableEq, Repr, Inhabited

/-- A value. -/
inductive Value where
  | string (s : String)
  | integer (n : Int)
  | float (x : Float)
  | bool (b : Bool)
  /-- A date, a time of day, or both. -/
  | moment (text : String)
  | array (items : List Value)
  | table (origin : Origin) (entries : List (String × Value))
  /-- An array of tables with headers of their own. -/
  | tables (items : List (List (String × Value)))
  deriving Repr, Inhabited

/-- The entries of a table. -/
abbrev Entries := List (String × Value)

namespace Entries

/-- The value of a key. -/
def get? (entries : Entries) (key : String) : Option Value :=
  (entries.find? fun entry => entry.1 == key).map Prod.snd

/-- The entries with another value for a key, which is added where it is new. -/
def put (entries : Entries) (key : String) (value : Value) : Entries :=
  if (entries.get? key).isSome then
    entries.map fun entry => if entry.1 == key then (key, value) else entry
  else entries ++ [(key, value)]

/-! ## Adding to tables -/

/-- Changes the table at the end of a dotted key, creating what is missing on the way. A dotted key
does not lead into a table that has a header, nor into a value. -/
def within (f : Origin → Entries → Option Entries) (origin : Origin) (entries : Entries) :
    List String → Option Entries
  | [] => f origin entries
  | key :: path =>
    match entries.get? key with
    | none => (within f .dotted [] path).map fun inner => entries.put key (.table .dotted inner)
    | some (.table .header _) => none
    | some (.table .braces _) => none
    | some (.table origin inner) =>
      (within f origin inner path).map fun inner => entries.put key (.table origin inner)
    | some (.tables items) =>
      match items.getLast? with
      | none => none
      | some inner =>
        (within f .header inner path).map fun inner =>
          entries.put key (.tables (items.dropLast ++ [inner]))
    | some _ => none

/-- Adds a value under a dotted key. The key must be new, and a table that came about otherwise than
by dotted keys is not extended by them. -/
def add (entries : Entries) (path : List String) (key : String) (value : Value) : Option Entries :=
  within
    (fun origin inner =>
      if !path.isEmpty && origin != .dotted then none
      else if (inner.get? key).isSome then none
      else some (inner.put key value))
    .header entries path

/-- Changes the table that headers lead to, creating what is missing on the way. In an array of
tables the last one is meant. -/
def under (f : Entries → Option Entries) (entries : Entries) : List String → Option Entries
  | [] => f entries
  | key :: path =>
    match entries.get? key with
    | none => (under f [] path).map fun inner => entries.put key (.table .implied inner)
    | some (.table .braces _) => none
    | some (.table origin inner) =>
      (under f inner path).map fun inner => entries.put key (.table origin inner)
    | some (.tables items) =>
      match items.getLast? with
      | none => none
      | some inner =>
        (under f inner path).map fun inner =>
          entries.put key (.tables (items.dropLast ++ [inner]))
    | some _ => none

/-- Opens a table with a header of its own. It must be new, or implied so far. -/
def openTable (entries : Entries) (path : List String) (key : String) : Option Entries :=
  under
    (fun inner =>
      match inner.get? key with
      | none => some (inner.put key (.table .header []))
      | some (.table .implied rest) => some (inner.put key (.table .header rest))
      | some _ => none)
    entries path

/-- Opens one more table of an array of tables. -/
def openItem (entries : Entries) (path : List String) (key : String) : Option Entries :=
  under
    (fun inner =>
      match inner.get? key with
      | none => some (inner.put key (.tables [[]]))
      | some (.tables items) => some (inner.put key (.tables (items ++ [[]])))
      | some _ => none)
    entries path

end Entries

end Chalkboard.Toml
