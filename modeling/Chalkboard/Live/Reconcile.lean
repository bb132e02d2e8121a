import Chalkboard.Live.Basic
import Chalkboard.Scene.Basic

/-!
# Reconciliation

One pass brings the live graph and the canvas in line with the scene. Objects whose element is gone,
or whose declaration changed in a way that the canvas cannot express in place, are torn down
together with all live objects that refer to them, children before parents. Then the elements are
visited by dependency class: what is not live is created if its parents are, what is live is moved,
shown or hidden in place. Elements whose parents were not live yet are tried again as long as that
helps. An element held by a gesture is left alone.
-/

namespace Chalkboard

/-- What a pass did. -/
structure ReconcileReport where
  created : List ElementId
  updated : List ElementId
  removed : List ElementId
  /-- Waiting for a parent that is not live. -/
  deferred : List ElementId
  /-- Turned down by the canvas. -/
  failed : List (ElementId × RenderError)
  /-- Left alone because a gesture holds them. -/
  skippedLocked : List ElementId
  deriving DecidableEq, Repr

namespace ReconcileReport

/-- The report of a pass that did nothing. -/
def empty : ReconcileReport :=
  ⟨[], [], [], [], [], []⟩

/-- The pass touched no live object. -/
def isNoop (r : ReconcileReport) : Bool :=
  r.created.isEmpty && r.updated.isEmpty && r.removed.isEmpty

end ReconcileReport

/-- A pass at work. -/
structure Pass where
  graph : LiveGraph
  canvas : Canvas
  report : ReconcileReport
  /-- Every error that the canvas answered with, and the element that it is about. -/
  warnings : List (ElementId × RenderError)

/-- Coordinates that differ by no more than this are taken to be equal. -/
def positionTolerance : Float := 1e-9

/-- The declaration changed in a way that the canvas cannot express in place: another kind, or other
parents unless the element was and is a free point. -/
def structurallyChanged (e : Element) (o : LiveObject) : Bool :=
  e.kind != o.kind || (e.parents != o.parents && !(o.isFreePoint && e.position?.isSome))

namespace Pass

/-! ## Tearing down -/

/-- The object must be torn down: its element is gone, or not held and structurally changed. -/
def isStale (scene : Scene) (locked : Option ElementId) (id : ElementId) (o : LiveObject) : Bool :=
  match scene.get? id with
  | none => true
  | some e => locked != some id && structurallyChanged e o

/-- The ids in `doomed` and all that refer to them, step by step; `fuel` bounds the steps. -/
def doom (objects : Table ElementId LiveObject) (doomed : List ElementId) : Nat → List ElementId
  | 0 => doomed
  | fuel + 1 =>
    let dependents := objects.filter fun entry =>
      !doomed.contains entry.1 && entry.2.refs.any doomed.contains
    match dependents with
    | [] => doomed
    | _ => doom objects (doomed ++ dependents.map Prod.fst) fuel

/-- The ids of all objects to tear down. -/
def doomed (scene : Scene) (locked : Option ElementId) (objects : Table ElementId LiveObject) :
    List ElementId :=
  let stale := (objects.filter fun entry => isStale scene locked entry.1 entry.2).map Prod.fst
  -- every step but the last dooms at least one more object
  doom objects stale objects.length

/-- Ids in the order of their names. -/
def sortById (entries : Table ElementId LiveObject) : Table ElementId LiveObject :=
  entries.mergeSort fun a b => decide (a.1.name ≤ b.1.name)

/-- The entries that no other entry refers to, by name; all of them if there are only cycles. -/
def leaves (entries : Table ElementId LiveObject) : Table ElementId LiveObject :=
  let referenced := entries.flatMap fun entry => entry.2.refs
  match entries.restrict fun id => !referenced.contains id with
  | [] => sortById entries
  | free => sortById free

/-- Takes one object off the canvas. Its element counts as removed in any case. -/
def removeOne (p : Pass) (entry : ElementId × LiveObject) : Pass :=
  let report := { p.report with removed := p.report.removed ++ [entry.1] }
  match p.canvas.remove entry.2.handle with
  | .ok canvas => { p with canvas, report }
  | .error error => { p with report, warnings := p.warnings ++ [(entry.1, error)] }

/-- Takes the entries off the canvas, children before parents; `fuel` is at least their number. -/
def removeAll (p : Pass) (entries : Table ElementId LiveObject) : Nat → Pass
  | 0 => p
  | fuel + 1 =>
    match entries with
    | [] => p
    | _ =>
      let free := leaves entries
      let rest := entries.restrict fun id => !free.keys.contains id
      removeAll (free.foldl removeOne p) rest fuel

/-- Tears down all stale objects with what refers to them. -/
def removeStale (scene : Scene) (locked : Option ElementId) (p : Pass) : Pass :=
  let objects := p.graph.objects
  let doomed := doomed scene locked objects
  let gone := objects.restrict doomed.contains
  let kept := objects.restrict fun id => !doomed.contains id
  removeAll { p with graph := { p.graph with objects := kept } } gone gone.length

/-! ## Creating -/

/-- The parents of an element as the canvas knows them; nothing if one is not live. -/
def resolve? (g : LiveGraph) (parents : List Parent) : Option (List DrawnParent) :=
  parents.mapM fun
    | .number x => some (.number x)
    | .ref id => (g.handle? id).map .object

/-- The pass with an element that the canvas turned down. -/
def fail (p : Pass) (id : ElementId) (error : RenderError) : Pass :=
  { p with
    report := { p.report with failed := p.report.failed ++ [(id, error)] }
    warnings := p.warnings ++ [(id, error)] }

/-- Draws an element under its parents on the canvas. -/
def create (p : Pass) (e : Element) (parents : List DrawnParent) : Pass :=
  let props := p.graph.defaults.merge e.kind e.props
  match p.canvas.create e.id e.kind parents props with
  | .ok (canvas, handle) =>
    let object : LiveObject :=
      ⟨handle, e.kind, e.parents, e.position?.isSome && !Element.flag props "fixed" false,
       e.isVisible⟩
    { p with
      graph := p.graph.add e.id object
      canvas
      report := { p.report with created := p.report.created ++ [e.id] } }
  -- what the canvas turned down does not wait, and is tried again in the next pass
  | .error error => p.fail e.id error

/-- Draws an element if its parents are live; nothing if one is not. -/
def create? (p : Pass) (e : Element) : Option Pass :=
  (resolve? p.graph e.parents).map (p.create e)

/-! ## Updating -/

/-- Whether two places are equal up to the tolerance. -/
def isNear (p q : Point Float) : Bool :=
  (p.x - q.x).abs ≤ positionTolerance && (p.y - q.y).abs ≤ positionTolerance

/-- Brings the position of a free point in line with its element; says whether it moved. -/
def place (canvas : Canvas) (e : Element) (o : LiveObject) :
    Except RenderError (LiveObject × Canvas × Bool) :=
  match e.position? with
  | none => .ok (o, canvas, false)
  | some (x, y) =>
    -- a point that is where it should be is not moved, so that nothing is painted for it
    if (canvas.position? o.handle).any fun q => isNear q ⟨x, y⟩ then
      .ok ({ o with parents := e.parents }, canvas, false)
    else
      (canvas.movePoint o.handle ⟨x, y⟩).map fun c => ({ o with parents := e.parents }, c, true)

/-- Brings position and visibility of an object in line with its element. The record and the canvas
keep what was done before an error; the outcome says whether anything changed. -/
def sync (canvas : Canvas) (e : Element) (o : LiveObject) :
    LiveObject × Canvas × Except RenderError Bool :=
  match place canvas e o with
  -- a point that cannot be moved is not shown or hidden either
  | .error error => (o, canvas, .error error)
  | .ok (o, canvas, changed) =>
    if e.isVisible = o.visible then (o, canvas, .ok changed)
    else
      match canvas.setVisible o.handle e.isVisible with
      | .error error => (o, canvas, .error error)
      | .ok c => ({ o with visible := e.isVisible }, c, .ok true)

/-- Updates the object of a live element in place. -/
def update (p : Pass) (e : Element) (o : LiveObject) : Pass :=
  let (object, canvas, outcome) := sync p.canvas e o
  let q : Pass := { p with graph := p.graph.replace e.id object, canvas }
  match outcome with
  | .ok true => { q with report := { q.report with updated := q.report.updated ++ [e.id] } }
  | .ok false => q
  | .error error => q.fail e.id error

/-- Leaves the object of an element alone. -/
def skip (p : Pass) (id : ElementId) : Pass :=
  { p with report := { p.report with skippedLocked := p.report.skippedLocked ++ [id] } }

/-! ## The pass -/

/-- One try to draw an element; the elements that must wait are collected. -/
def attempt (state : Pass × List Element) (e : Element) : Pass × List Element :=
  match state.1.create? e with
  | some p => (p, state.2)
  | none => (state.1, state.2 ++ [e])

/-- Visits one element: draws it, or leaves it alone if it is held, or brings it in line. -/
def visit (locked : Option ElementId) (state : Pass × List Element) (e : Element) :
    Pass × List Element :=
  match state.1.graph.get? e.id with
  | none => attempt state e
  | some o =>
    if locked = some e.id then (state.1.skip e.id, state.2) else (state.1.update e o, state.2)

/-- Tries the waiting elements again while that helps; `fuel` is at least their number. -/
def settle (p : Pass) (waiting : List Element) : Nat → Pass × List Element
  | 0 => (p, waiting)
  | fuel + 1 =>
    match waiting with
    | [] => (p, [])
    | _ =>
      -- elements created early in a round are parents for those that come later in it
      let (p, still) := waiting.foldl attempt (p, [])
      if still.length = waiting.length then (p, still) else settle p still fuel

/-- The elements by dependency class, in the order of the scene within a class. -/
def byClass (elements : List Element) : List Element :=
  (List.range 5).flatMap fun c => elements.filter fun e => e.kind.dependencyClass == c

/-- A pass before its first step. -/
def start (g : LiveGraph) (canvas : Canvas) : Pass :=
  ⟨g, canvas.suspend, .empty, []⟩

/-- All visits of a pass, with the elements that must wait after them. -/
def sweep (scene : Scene) (locked : Option ElementId) (p : Pass) : Pass × List Element :=
  (byClass scene.elements).foldl (visit locked) (p, [])

/-- The end of a pass: the waiting elements are deferred, and all is painted. -/
def finish (p : Pass) (deferred : List Element) : Pass :=
  { p with
    canvas := p.canvas.resume
    report := { p.report with deferred := deferred.map Element.id } }

/-- A whole pass. -/
def run (g : LiveGraph) (scene : Scene) (canvas : Canvas) (locked : Option ElementId) : Pass :=
  let (p, waiting) := sweep scene locked (removeStale scene locked (start g canvas))
  let (p, deferred) := p.settle waiting waiting.length
  p.finish deferred

end Pass

/-- One pass, shown as a single change. `locked` is the element that a gesture holds. -/
def LiveGraph.reconcile (g : LiveGraph) (scene : Scene) (canvas : Canvas)
    (locked : Option ElementId) : LiveGraph × Canvas × ReconcileReport :=
  let p := Pass.run g scene canvas locked
  (p.graph, p.canvas, p.report)

end Chalkboard
