import Chalkboard.Bridge.Basic

/-!
# The engine's worker

A worker is a host that runs the mathematics engine. It takes requests strictly one after the other,
so its answers come in the order of the requests. The engine is loaded for the first request and,
while loading fails, once for each further one. A panic of the engine is the end of the worker.

A worker that is not wanted any more learns this from a flag, at which it looks before each request
and before each message. Termination is counted by these looks: how many more of them will find the
worker wanted is part of its state. A message goes out together with its look, so one that is on its
way when the flag is set counts as sent before.
-/

namespace Chalkboard

/-- How a call into the engine ends. -/
inductive EngineOutcome (α : Type) where
  | done (value : α)
  | failed (message : String)
  /-- The engine panicked; it may have said why. -/
  | panicked (message : Option String)
  deriving Repr

/-- A mathematics engine. All that it remembers is in `σ`. -/
structure Engine (σ : Type) where
  load : σ → EngineOutcome Unit × σ
  execute : RequestKind → Json → σ → EngineOutcome Json × σ

/-- A worker with its engine and all that it has reported. -/
structure Worker (σ : Type) where
  engine : σ
  /-- The engine is loaded. -/
  loaded : Bool
  /-- How many more times the worker finds that it is wanted; always where there is no number. -/
  wanted : Option Nat
  /-- The worker takes no more requests. -/
  stopped : Bool
  reported : List HostEvent

namespace Worker

variable {σ : Type}

/-- A worker before its first request. -/
def start (engine : σ) : Worker σ :=
  ⟨engine, false, none, false, []⟩

/-- Looks at the flag. -/
def look (w : Worker σ) : Bool × Worker σ :=
  match w.wanted with
  | none => (true, w)
  | some 0 => (false, w)
  | some (n + 1) => (true, { w with wanted := some n })

/-- Reports an event. -/
def report (w : Worker σ) (event : HostEvent) : Worker σ :=
  { w with reported := w.reported ++ [event] }

/-- Sends a message, if a look at the flag finds the worker still wanted. Look and report are one
step. -/
def say (w : Worker σ) (message : HostMessage) : Worker σ :=
  match w.look with
  | (true, w) => w.report (.frame message.toJson)
  | (false, w) => w

/-- The reason that is given for a panic. -/
def panicReason : Option String → String
  | some message => "engine panicked: " ++ message
  | none => "engine panicked"

/-- The engine panicked. -/
def crash (w : Worker σ) (message : Option String) : Worker σ :=
  { w.report (.crashed (panicReason message)) with stopped := true }

/-- Loads the engine if it is not loaded. If that fails, the request is answered with the failure;
whether the engine is loaded now is returned. -/
def prepare (e : Engine σ) (w : Worker σ) (r : HostRequest) : Bool × Worker σ :=
  if w.loaded then (true, w)
  else
    let w := w.say (.status ⟨.loading, "Loading math engine"⟩)
    let (outcome, engine) := e.load w.engine
    let w := { w with engine }
    match outcome with
    | .done _ => (true, { w with loaded := true }.say (.status ⟨.ready, "Math engine ready"⟩))
    -- the worker lives on, and loads again for its next request
    | .failed m => (false, (w.say (.status ⟨.error, m⟩)).say (.error r.id m))
    | .panicked m => (false, w.crash m)

/-- Answers a request with the loaded engine. -/
def answer (e : Engine σ) (w : Worker σ) (r : HostRequest) : Worker σ :=
  if r.kind = .init then w.say (.result r.id (.object [("ready", .bool true)]))
  else
    let (outcome, engine) := e.execute r.kind r.payload w.engine
    let w := { w with engine }
    match outcome with
    | .done payload => w.say (.result r.id payload)
    | .failed m => w.say (.error r.id m)
    | .panicked m => w.crash m

/-- Takes one request, unless the worker has stopped or is not wanted any more. -/
def serve (e : Engine σ) (w : Worker σ) (r : HostRequest) : Worker σ :=
  if w.stopped then w
  else
    match w.look with
    | (false, w) => { w with stopped := true }
    | (true, w) =>
      match w.prepare e r with
      | (true, w) => w.answer e r
      | (false, w) => w

/-- Takes several requests, one after the other. -/
def run (e : Engine σ) (w : Worker σ) (requests : List HostRequest) : Worker σ :=
  requests.foldl (serve e) w

end Worker

end Chalkboard
