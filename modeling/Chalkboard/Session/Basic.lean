import Chalkboard.Config.Check
import Chalkboard.Engine.Computer
import Chalkboard.Session.Diagram
import Chalkboard.Session.Error

/-!
# The session

A session is one diagram and the computation host that serves it. Commands run on the host, and
their results are shown in the diagram in the order of the commands.
-/

namespace Chalkboard

/-- A diagram with its computation host. -/
structure Session (σ : Type) where
  diagram : Diagram
  computer : Computer σ

namespace Session

variable {σ : Type}

/-- A session with the view and the gestures of a configuration, on an engine that is not loaded
yet. -/
def new (c : Config) (engine : σ) : Session σ :=
  let canvas := (Canvas.empty .standard).setViewport c.viewport
  ⟨.start c.gestures canvas, .start engine⟩

/-- A session for a configuration, if that makes sense. -/
def ofConfig (c : Config) (engine : σ) : Except SessionError (Session σ) :=
  match c.checked with
  | .ok c => .ok (new c engine)
  | .error e => .error (.config e)

/-- The status of the host. -/
def status (s : Session σ) : Status :=
  s.computer.bridge.status

/-! ## The host -/

/-- Makes one call to the bridge and waits for its outcome. -/
def call (setup : BridgeSetup) (e : Engine σ) (s : Session σ) (request : CallRequest) :
    Session σ × Except SessionError Unit :=
  let (computer, answers) := s.computer.callAll setup e [request]
  let outcome : Except SessionError Unit := match answers with
    | [.error error] => .error (.bridge error)
    | _ => .ok ()
  ({ s with computer }, outcome)

/-- Starts the host. -/
def start (setup : BridgeSetup) (e : Engine σ) (s : Session σ) :
    Session σ × Except SessionError Unit :=
  s.call setup e .init

/-- Replaces the host. -/
def restart (setup : BridgeSetup) (e : Engine σ) (s : Session σ) :
    Session σ × Except SessionError Unit :=
  s.call setup e .restart

/-- Stops the host. -/
def shutdown (setup : BridgeSetup) (s : Session σ) : Session σ :=
  { s with computer := s.computer.shutdown setup }

/-! ## Commands -/

/-- Shows the outcome of a command. -/
def showOutcome (d : Diagram) :
    Except BridgeError CommandResult → Diagram × Except SessionError ReconcileReport
  | .error e => (d, .error (.bridge e))
  | .ok result =>
    let (d, outcome) := d.applyResult result
    (d, outcome.mapError .scene)

/-- Shows the outcomes of several commands, one after the other. -/
def showAll (d : Diagram) :
    List (Except BridgeError CommandResult) → Diagram × List (Except SessionError ReconcileReport)
  | [] => (d, [])
  | outcome :: rest =>
    let (d, report) := showOutcome d outcome
    let (d, reports) := showAll d rest
    (d, report :: reports)

/-- Carries out commands at once and shows their results in order. A command that fails does not
stop the others. -/
def executeAll (setup : BridgeSetup) (e : Engine σ) (s : Session σ) (commands : List Command) :
    Session σ × List (Except SessionError ReconcileReport) :=
  let (computer, outcomes) := s.computer.executeAll setup e commands
  let (diagram, reports) := showAll s.diagram outcomes
  (⟨diagram, computer⟩, reports)

end Session

end Chalkboard
