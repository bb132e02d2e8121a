import Chalkboard.Bridge.Step
import Chalkboard.Engine.Worker
import Chalkboard.Result.Wire

/-!
# Commands on the engine

A bridge whose hosts are workers, with the commands that are being carried out. A command starts the
host if needed, sends its request, and reads the answer; several commands run at once.

`Computer.step` is one move of any of the parts. `Computer.complete` makes moves until nothing can
go on: whatever can be posted is posted before the worker takes its next request, and time passes
only when nothing else can happen.
-/

namespace Chalkboard

/-- How far a command has come. -/
inductive Job where
  /-- It waits for the host to start. -/
  | starting (call : Nat) (command : Command)
  /-- It waits for its answer. -/
  | sending (call : Nat)
  | done (result : Except BridgeError CommandResult)

/-- The result that an answer to a command carries. -/
def resultOfAnswer : Answer → Except BridgeError CommandResult
  | .error e => .error e
  | .ok answer => (CommandResult.ofAnswer answer).mapError fun e => .malformedResult e.message

/-- A bridge with the worker of its last host and the commands that were begun. -/
structure Computer (σ : Type) where
  bridge : Bridge
  worker : Worker σ
  /-- The generation that the worker belongs to. -/
  generation : Nat
  jobs : List Job

/-- One move. -/
inductive Move where
  | bridge (action : BridgeAction)
  /-- The worker takes its next request. -/
  | serve
  /-- A command begins. -/
  | begin (command : Command)
  /-- A command goes on. -/
  | proceed (job : Nat)

namespace Computer

variable {σ : Type}

/-- A computer without a host. -/
def start (engine : σ) : Computer σ :=
  ⟨.initial, .start engine, 0, []⟩

/-- The worker of the connected host, which is a new one if another host was connected since. -/
def workerOf (s : Computer σ) (generation : Nat) : Worker σ :=
  if s.generation = generation then s.worker else .start s.worker.engine

/-- The next request of the connected host, if its worker takes any. -/
def nextRequest? (s : Computer σ) : Option (Nat × HostRequest) :=
  match s.bridge.connection with
  | none => none
  | some g =>
    if (s.workerOf g).stopped then none
    else (s.bridge.host? g).bind fun h => h.requests.head?.map fun r => (g, r)

/-! ## Moves -/

/-- The worker takes its next request and reports what comes of it. Once it has stopped it is
gone. -/
def serve (setup : BridgeSetup) (e : Engine σ) (s : Computer σ) : Computer σ :=
  match s.nextRequest? with
  | none => s
  | some (g, request) =>
    let worker := (s.workerOf g).serve e request
    let reports := worker.reported.map fun event => BridgeAction.report g event
    let closing := if worker.stopped then [BridgeAction.closeRequests g, .closeEvents g] else []
    { s with
      bridge := s.bridge.run setup (.take g :: reports ++ closing)
      worker := { worker with reported := [] }
      generation := g }

/-- A command begins with the start of the host. -/
def begin (setup : BridgeSetup) (s : Computer σ) (command : Command) : Computer σ :=
  { s with
    bridge := s.bridge.begin setup .init
    jobs := s.jobs ++ [.starting s.bridge.calls.length command] }

/-- How a job goes on, if what it waits for is there. -/
def proceedJob (setup : BridgeSetup) (b : Bridge) : Job → Bridge × Job
  | .starting call command =>
    match b.calls[call]? with
    | some (.finished (.ok _)) =>
      (b.begin setup (.send command.request command.toJson), .sending b.calls.length)
    | some (.finished (.error e)) => (b, .done (.error e))
    | _ => (b, .starting call command)
  | .sending call =>
    match b.calls[call]? with
    | some (.finished answer) => (b, .done (resultOfAnswer answer))
    | _ => (b, .sending call)
  | .done result => (b, .done result)

/-- A command goes on. -/
def proceed (setup : BridgeSetup) (s : Computer σ) (job : Nat) : Computer σ :=
  match s.jobs[job]? with
  | none => s
  | some j =>
    let (bridge, j) := proceedJob setup s.bridge j
    { s with bridge, jobs := s.jobs.set job j }

/-- One move. -/
def step (setup : BridgeSetup) (e : Engine σ) (s : Computer σ) : Move → Computer σ
  | .bridge action => { s with bridge := s.bridge.step setup action }
  | .serve => s.serve setup e
  | .begin command => s.begin setup command
  | .proceed job => s.proceed setup job

/-! ## Running to completion -/

/-- The bridge comes to rest and every command goes on as far as it can. -/
def round (setup : BridgeSetup) (s : Computer σ) : Computer σ :=
  let s := { s with bridge := s.bridge.settle setup }
  -- a job has two steps, which may follow each other at once
  ((List.range s.jobs.length).flatMap fun job => [job, job]).foldl (proceed setup) s

/-- Everything but the worker comes to rest. -/
def rest (setup : BridgeSetup) (s : Computer σ) : Computer σ :=
  (s.round setup).round setup

/-- The worker takes request after request, and everything else comes to rest in between. -/
def serveAll (setup : BridgeSetup) (e : Engine σ) : Nat → Computer σ → Computer σ
  | 0, s => s.rest setup
  | fuel + 1, s =>
    let s := s.rest setup
    match s.nextRequest? with
    | none => s
    | some _ => serveAll setup e fuel (s.serve setup e)

/-- An upper bound for the requests that the worker may still take. -/
def workload (s : Computer σ) : Nat :=
  (s.bridge.hosts.flatMap HostLink.requests).length + s.jobs.length

/-- Runs until nothing can go on. Requests that will not be answered wait for their deadlines. -/
def complete (setup : BridgeSetup) (e : Engine σ) (s : Computer σ) : Computer σ :=
  let s := serveAll setup e s.workload s
  -- only a worker that died leaves requests without an answer
  if s.bridge.pending.isEmpty then s
  else
    { s with bridge := s.bridge.step setup (.elapse setup.settings.timeoutMs.toNat) }.rest setup

/-! ## Whole calls -/

/-- The answer to a call that has finished. -/
def answer? (s : Computer σ) (call : Nat) : Option Answer :=
  match s.bridge.calls[call]? with
  | some (.finished answer) => some answer
  | _ => none

/-- Makes calls at once and runs to completion; their answers in order. -/
def callAll (setup : BridgeSetup) (e : Engine σ) (s : Computer σ) (requests : List CallRequest) :
    Computer σ × List Answer :=
  let first := s.bridge.calls.length
  let s := { s with bridge := s.bridge.run setup (requests.map .begin) }.complete setup e
  (s, (List.range requests.length).filterMap fun i => s.answer? (first + i))

/-- The result of a job that is done. -/
def result? (s : Computer σ) (job : Nat) : Option (Except BridgeError CommandResult) :=
  match s.jobs[job]? with
  | some (.done result) => some result
  | _ => none

/-- Carries out commands at once; their results in order. Each command goes as far as it can before
the next one begins. -/
def executeAll (setup : BridgeSetup) (e : Engine σ) (s : Computer σ) (commands : List Command) :
    Computer σ × List (Except BridgeError CommandResult) :=
  let first := s.jobs.length
  let s := commands.foldl
    (fun s command =>
      let job := s.jobs.length
      ((s.begin setup command).proceed setup job).proceed setup job) s
  let s := s.complete setup e
  (s, (List.range commands.length).filterMap fun i => s.result? (first + i))

/-- Stops the host. -/
def shutdown (setup : BridgeSetup) (s : Computer σ) : Computer σ :=
  { s with bridge := s.bridge.step setup .shutdown }.rest setup

end Computer

end Chalkboard
