import Chalkboard.Result.Basic
import Chalkboard.Text.SipHash

/-!
# Plotted functions as elements

Each function becomes a curve and each labelled point a fixed point. Their ids are made from their
content, so an entry that stays in the next result keeps its id, and with it the object that is
drawn for it. Of entries with equal content the second and all later ones have a number behind their
id.

A function that cannot be drawn becomes an inline error instead.
-/

namespace Chalkboard

/-- A failure that is shown beside what it concerns. -/
structure InlineError where
  /-- The expression that the failure is about, where it is known. -/
  target : Option String
  message : String
  deriving DecidableEq, Repr, Inhabited

/-! ## Ids -/

/-- The bytes of a list of texts: how many there are, in eight bytes, and each text with a byte
behind it that no text contains. -/
def fingerprintBytes (parts : List String) : List UInt8 :=
  let count := (List.range 8).map fun i => UInt8.ofNat (parts.length >>> (8 * i))
  count ++ parts.flatMap fun part => part.toUTF8.toList ++ [0xff]

/-- Eight hexadecimal digits that depend on the content of a list of texts. -/
def fingerprint (parts : List String) : String :=
  String.ofList (Text.hexFixed 8 (Text.SipHash.hash (fingerprintBytes parts)).toNat)

/-- The ids that are tried for an entry, in order: the base, and the base with the numbers from
two. -/
def numberedId (base : String) : Nat → ElementId
  | 0 => ⟨base⟩
  | n + 1 => ⟨base ++ "-" ++ toString (n + 2)⟩

/-- The first id for a base that is not taken. -/
def untakenId (taken : List ElementId) (base : String) : ElementId :=
  (((List.range (taken.length + 1)).map (numberedId base)).find? fun id => !taken.contains id).getD
    (numberedId base (taken.length + 1))

/-! ## Curves and points -/

namespace GraphEntry

/-- What a failure of this entry is about. -/
def target (g : GraphEntry) : Option String :=
  g.expression <|> g.label

/-- Why the entry is not drawn, if it is not. -/
def fault? (g : GraphEntry) : Option InlineError :=
  match g.error.filter fun message => !Text.allBlank message with
  | some message => some ⟨g.target, message⟩
  | none => if Text.allBlank g.function then some ⟨g.target, "empty function body"⟩ else none

/-- The id of the entry before any number. -/
def baseId (g : GraphEntry) : String :=
  "graph-" ++ fingerprint [g.function, g.color]

/-- The curve of the entry. -/
def curve (g : GraphEntry) (id : ElementId) : Element :=
  let texts := [("fn", some g.function), ("strokeColor", some g.color), ("latex", g.latex),
    ("name", g.label)]
  texts.foldl
    (fun e (name, text) =>
      match text with
      | some text => e.withProp name (.string text)
      | none => e)
    (.new id .curve [])

end GraphEntry

namespace Annotation

/-- The id of the point before any number. -/
def baseId (a : Annotation) : String :=
  "note-" ++ fingerprint [a.text]

/-- The point of the annotation, which cannot be dragged. -/
def point (a : Annotation) (id : ElementId) : Element :=
  ((Element.freePoint id a.x a.y).withProp "name" (.string a.text)).withProp "fixed" (.bool true)

end Annotation

/-! ## Plots -/

/-- The elements and inline errors so far. -/
structure Plot where
  elements : List Element
  errors : List InlineError
  deriving Repr

namespace Plot

/-- Nothing yet. -/
def empty : Plot :=
  ⟨[], []⟩

/-- One more element, under the first id for its base that is not taken. -/
def add (p : Plot) (base : String) (element : ElementId → Element) : Plot :=
  { p with elements := p.elements ++ [element (untakenId (p.elements.map Element.id) base)] }

/-- One more function. -/
def addEntry (p : Plot) (g : GraphEntry) : Plot :=
  match g.fault? with
  | some e => { p with errors := p.errors ++ [e] }
  | none => p.add g.baseId g.curve

/-- One more labelled point. -/
def addAnnotation (p : Plot) (a : Annotation) : Plot :=
  p.add a.baseId a.point

end Plot

/-- The elements that show a result, and what could not be drawn. -/
def GraphResult.plot (r : GraphResult) : Plot :=
  r.annotations.foldl Plot.addAnnotation (r.graphs.foldl Plot.addEntry .empty)

end Chalkboard
