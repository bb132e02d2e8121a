import Chalkboard.Text.Quoted

/-!
# Request targets

What a web client asks a server for: the path and the query of an address, in visible characters of
ASCII. Everything else is written in percent signs and hexadecimal digits. Path segments that are
single or double points are resolved, and a fragment is not sent.
-/

namespace Chalkboard.Target

/-- A byte behind a percent sign. -/
def percent (byte : UInt8) : List Char :=
  '%' :: (Text.hexFixed 2 byte.toNat).map Char.toUpper

/-- Escapes the characters of a list, controls, and all beyond ASCII. -/
def escape (special : List Char) (cs : List Char) : List Char :=
  cs.flatMap fun c =>
    if c.toNat ≤ 0x20 || 0x7f ≤ c.toNat || special.contains c then
      (String.ofList [c]).toUTF8.toList.flatMap percent
    else [c]

/-- The characters that are escaped in a path. -/
def pathSpecial : List Char :=
  ['"', '#', '<', '>', '?', Char.ofNat 0x60, Char.ofNat 0x7b, Char.ofNat 0x7d]

/-- The characters that are escaped in a query. -/
def querySpecial : List Char :=
  ['"', '#', '<', '>', '\'']

/-- A segment without the difference between a point and its escape. -/
def plainSegment (segment : String) : String :=
  (segment.replace "%2e" ".").replace "%2E" "."

/-- Adds a segment to the segments before it, the last first; `isLast` says whether it ends the
path. -/
def pushSegment (done : List String) (segment : String) (isLast : Bool) : List String :=
  if plainSegment segment = "." then (if isLast then "" :: done else done)
  else if plainSegment segment = ".." then (if isLast then "" :: done.tail else done.tail)
  else segment :: done

/-- Resolves points among segments. -/
def resolve (done : List String) : List String → List String
  | [] => done.reverse
  | [segment] => (pushSegment done segment true).reverse
  | segment :: rest => resolve (pushSegment done segment false) rest

/-- The path behind its first slash. -/
def path (cs : List Char) : String :=
  let parts := (String.ofList (cs.map fun c => if c = '\\' then '/' else c)).splitOn "/"
  let escaped := parts.map fun part => String.ofList (escape pathSpecial part.toList)
  "/" ++ String.intercalate "/" (resolve [] escaped)

/-- What is asked of the server in an address, given the part of the address behind the server's
name. That part must begin with a slash, a query or a fragment. -/
def ofAddress? (tail : String) : Option String :=
  let cs := tail.toList.filter fun c => !(c = '\t' || c = '\n' || c = '\r')
  let sent := cs.takeWhile (· != '#')
  let route := sent.takeWhile (· != '?')
  let query := (sent.dropWhile (· != '?')).drop 1
  let asked := if (sent.contains '?') then "?" ++ String.ofList (escape querySpecial query) else ""
  match route with
  | [] => if cs.head? = some '?' || cs.head? = some '#' then some ("/" ++ asked) else none
  | c :: rest => if c = '/' || c = '\\' then some (path rest ++ asked) else none

end Chalkboard.Target
