import Chalkboard.Decimal.Layout
import Chalkboard.Text.Blank

/-!
# Commands

What a user asks the mathematics engine to do. An intent has one variant for each thing that can be
asked for, with typed data. A command is an intent that was checked, with an explanation for the
user; `Command.new` is the check.
-/

namespace Chalkboard

/-- The kinds of requests that the engine's host understands. -/
inductive RequestKind where
  | init | convert | process | differentiate | integrate | geometry | calculate
  deriving DecidableEq, Repr, Inhabited

namespace RequestKind

/-- Every kind. -/
def all : List RequestKind :=
  [init, convert, process, differentiate, integrate, geometry, calculate]

/-- The name of a kind. -/
def name : RequestKind → String
  | init => "init"
  | convert => "convert"
  | process => "process"
  | differentiate => "differentiate"
  | integrate => "integrate"
  | geometry => "geometry"
  | calculate => "calculate"

end RequestKind

/-- What can be asked for. -/
inductive Intent where
  | plotFunction (expressions colors : List String)
  | plotDerivative (expression : String) (order : UInt32)
  | plotIntegral (expression : String)
  | solveAndPlot (expression : String)
  | findExtrema (expression : String)
  | convert (expression : String)
  | calculate (expression : String)
  | drawPoint (x y : Float) (name : Option String)
  | drawSegment (start finish : Float × Float)
  | drawCircle (center : Float × Float) (radius : Float)
  | drawPolygon (vertices : List (Float × Float))
  deriving BEq, Repr, Inhabited

/-- The variants of an intent without their data. -/
inductive IntentKind where
  | plotFunction | plotDerivative | plotIntegral | solveAndPlot | findExtrema | convert | calculate
  | drawPoint | drawSegment | drawCircle | drawPolygon
  deriving DecidableEq, Repr, Inhabited

namespace IntentKind

/-- Every variant. -/
def all : List IntentKind :=
  [plotFunction, plotDerivative, plotIntegral, solveAndPlot, findExtrema, convert, calculate,
   drawPoint, drawSegment, drawCircle, drawPolygon]

/-- The name of a variant. -/
def name : IntentKind → String
  | plotFunction => "plot_function"
  | plotDerivative => "plot_derivative"
  | plotIntegral => "plot_integral"
  | solveAndPlot => "solve_and_plot"
  | findExtrema => "find_extrema"
  | convert => "convert"
  | calculate => "calculate"
  | drawPoint => "draw_point"
  | drawSegment => "draw_segment"
  | drawCircle => "draw_circle"
  | drawPolygon => "draw_polygon"

/-- The request that carries out an intent of this variant. -/
def request : IntentKind → RequestKind
  | plotFunction | solveAndPlot | findExtrema => .process
  | plotDerivative => .differentiate
  | plotIntegral => .integrate
  | convert => .convert
  | calculate => .calculate
  | drawPoint | drawSegment | drawCircle | drawPolygon => .geometry

end IntentKind

/-- Why something is not a command. -/
inductive CommandError where
  /-- The intent is unknown or its data has the wrong form. -/
  | malformed (intent message : String)
  /-- The data has the right form and makes no sense. -/
  | invalid (field message : String)
  deriving DecidableEq, Repr

/-- The wording of a command error. -/
def CommandError.message : CommandError → String
  | .malformed intent message => "Unknown or malformed intent '" ++ intent ++ "': " ++ message
  | .invalid field message => "Invalid " ++ field ++ ": " ++ message

/-- The name of an error's kind. -/
def CommandError.kindName : CommandError → String
  | .malformed .. => "Malformed"
  | .invalid .. => "Invalid"

/-- Numbers in a list, between brackets. -/
def listedFloats (xs : List Float) : String :=
  "[" ++ String.intercalate ", " (xs.map Decimal.listed.write) ++ "]"

/-- An expression must hold more than blanks. -/
def checkExpression (expression : String) : Except CommandError Unit :=
  if Text.allBlank expression then .error (.invalid "expression" "expression cannot be empty")
  else .ok ()

/-- Coordinates must be finite. -/
def checkFinite (field : String) (coordinates : List Float) : Except CommandError Unit :=
  if coordinates.all Float.isFinite then .ok ()
  else .error (.invalid field ("coordinates must be finite, got " ++ listedFloats coordinates))

namespace Intent

/-- The variant of an intent. -/
def kind : Intent → IntentKind
  | plotFunction .. => .plotFunction
  | plotDerivative .. => .plotDerivative
  | plotIntegral _ => .plotIntegral
  | solveAndPlot _ => .solveAndPlot
  | findExtrema _ => .findExtrema
  | convert _ => .convert
  | calculate _ => .calculate
  | drawPoint .. => .drawPoint
  | drawSegment .. => .drawSegment
  | drawCircle .. => .drawCircle
  | drawPolygon _ => .drawPolygon

/-- The name of an intent. -/
def name (i : Intent) : String :=
  i.kind.name

/-- The request that carries out an intent. -/
def request (i : Intent) : RequestKind :=
  i.kind.request

/-- Whether the data of an intent makes sense; of several faults the first in the order of the
fields is reported. -/
def check : Intent → Except CommandError Unit
  | plotFunction expressions _ =>
    if expressions.isEmpty then
      .error (.invalid "expressions" "at least one expression is required")
    else expressions.forM checkExpression
  | plotDerivative expression order => do
    checkExpression expression
    if order = 0 then .error (.invalid "order" "derivative order must be at least 1")
  | plotIntegral expression => checkExpression expression
  | solveAndPlot expression => checkExpression expression
  | findExtrema expression => checkExpression expression
  | convert expression => checkExpression expression
  | calculate expression => checkExpression expression
  | drawPoint x y _ => checkFinite "x/y" [x, y]
  | drawSegment start finish => do
    checkFinite "from" [start.1, start.2]
    checkFinite "to" [finish.1, finish.2]
  | drawCircle center radius => do
    checkFinite "center" [center.1, center.2]
    if !radius.isFinite || radius <= 0 then
      .error
        (.invalid "radius" ("radius must be a positive number, got " ++ Decimal.plain.write radius))
  | drawPolygon vertices =>
    if vertices.length < 3 then
      .error (.invalid "vertices" ("a polygon needs 3 vertices, got " ++ toString vertices.length))
    else vertices.forM fun v => checkFinite "vertices" [v.1, v.2]

end Intent

/-- A checked intent with an explanation for the user. -/
structure Command where
  intent : Intent
  explanation : Option String
  deriving BEq, Repr, Inhabited

namespace Command

/-- The command for an intent, if its data makes sense. -/
def new (intent : Intent) : Except CommandError Command := do
  intent.check
  pure ⟨intent, none⟩

/-- The command with an explanation. -/
def withExplanation (c : Command) (explanation : String) : Command :=
  { c with explanation := some explanation }

/-- The request that carries out a command. -/
def request (c : Command) : RequestKind :=
  c.intent.request

end Command

end Chalkboard
