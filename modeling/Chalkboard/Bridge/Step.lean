import Chalkboard.Bridge.Basic

/-!
# How the bridge goes on

Every change of the bridge is one of the actions below. Each is atomic: callers, hosts and the
passing of time interleave between actions, not within one. An action that is not possible changes
nothing.

* A call begins, and runs until it must wait: `Bridge.begin`.
* A host reports, and the bridge dispatches one report: `Bridge.dispatch`.
* A caller sees its answer, or that its deadline has passed: `Bridge.resume`, `Bridge.expire`. Only
  then does a caller that started a host say what became of it, so a lot may happen in between.
-/

namespace Chalkboard

/-- What a caller asks of the bridge. -/
inductive CallRequest where
  /-- Start the host, if it is idle. -/
  | init
  /-- Replace the host. -/
  | restart
  | send (kind : RequestKind) (payload : Json)
  deriving Repr

/-- One thing that happens. -/
inductive BridgeAction where
  | begin (request : CallRequest)
  /-- The caller stops waiting. -/
  | abandon (call : Nat)
  | resume (call : Nat)
  | expire (call : Nat)
  /-- The bridge takes the next report of a host. -/
  | dispatch (generation : Nat)
  /-- A host reports. -/
  | report (generation : Nat) (event : HostEvent)
  /-- A host takes its next request. -/
  | take (generation : Nat)
  /-- A host will not report any more. -/
  | closeEvents (generation : Nat)
  /-- A host will not take requests any more. -/
  | closeRequests (generation : Nat)
  | elapse (ms : Nat)
  | shutdown
  /-- All callers stop and the bridge goes away. -/
  | drop
  deriving Repr

namespace Bridge

/-! ## Calls -/

/-- What a caller makes of its answer. Who waited for a handshake says whether the host is ready,
unless another host has been started since. -/
def conclude (b : Bridge) (id : RequestId) : Purpose → Answer → Bridge × Answer
  | .answer, answer => (b, answer)
  | .handshake generation, answer =>
    if b.generation ≠ generation then (b, .error (.hostRestarted id))
    else
      match answer with
      | .ok _ =>
        ({ b with readyGeneration := generation }.publish .ready "Math engine ready", .ok .null)
      | .error e => (b.publish .error e.message, .error (.hostInit e.message))

/-- Sends a request under a new id. The caller waits, unless the request cannot be posted. -/
def ask (setup : BridgeSetup) (b : Bridge) (purpose : Purpose) (kind : RequestKind)
    (payload : Json) : Bridge × Call :=
  let id := setup.requestId (b.issued + 1)
  let b := { b with issued := b.issued + 1 }
  -- the id is used up even if there is no host to ask
  match b.post ⟨kind, id, payload⟩ with
  | .ok b => (b, .waiting id purpose (b.now + setup.settings.timeoutMs.toNat))
  | .error e =>
    let (b, answer) := b.conclude id purpose (.error e)
    (b, .finished answer)

/-- Spawns a host and asks for its handshake. -/
def startHost (setup : BridgeSetup) (b : Bridge) : Bridge × Call :=
  let generation := b.generation + 1
  let b := { b with generation }
  -- an attempt counts as a generation even if it fails
  match setup.refusal generation with
  | some e => (b.publish .error e.message, .finished (.error e))
  | none => (b.connect generation).ask setup (.handshake generation) .init .null

/-- Starts the host if it is idle. A host that failed needs a restart. -/
def init (setup : BridgeSetup) (b : Bridge) : Bridge × Call :=
  match b.board.beginLoading "Starting computation host" with
  | some board => { b with board }.startHost setup
  | none =>
    let answer : Answer :=
      if b.status.phase = .error then
        if b.reachedReady then .error (.hostCrashed b.status.message)
        else .error (.hostInit b.status.message)
      else .ok .null
    (b, .finished answer)

/-- Replaces the host. -/
def restart (setup : BridgeSetup) (b : Bridge) : Bridge × Call :=
  let b := b.disconnect
  -- requests that are not answered here wait for their deadlines
  let b := if setup.settings.rejectOnRestart then b.answerAll fun id => .error (.hostRestarted id)
    else b
  (b.publish .loading "Restarting computation host").startHost setup

/-- A call begins. -/
def begin (setup : BridgeSetup) (b : Bridge) (request : CallRequest) : Bridge :=
  let (b, call) := match request with
    | .init => b.init setup
    | .restart => b.restart setup
    | .send kind payload => b.ask setup .answer kind payload
  { b with calls := b.calls ++ [call] }

/-- A caller sees its answer. -/
def resume (b : Bridge) (call : Nat) : Bridge :=
  match b.calls[call]? with
  | some (.answered id purpose answer) =>
    let (b, answer) := b.conclude id purpose answer
    { b with calls := b.calls.set call (.finished answer) }
  | _ => b

/-- A caller sees that its deadline has passed. -/
def expire (setup : BridgeSetup) (b : Bridge) (call : Nat) : Bridge :=
  match b.calls[call]? with
  | some (.waiting id purpose deadline) =>
    if deadline ≤ b.now then
      -- an answer that came first has made this call `answered`, so the deadline loses
      let (b, answer) :=
        (b.forget id).conclude id purpose (.error (.timeout id setup.settings.timeoutMs))
      { b with calls := b.calls.set call (.finished answer) }
    else b
  | _ => b

/-- A caller stops waiting, and its request leaves the table. -/
def abandon (b : Bridge) (call : Nat) : Bridge :=
  match b.calls[call]? with
  | some (.waiting id _ _) => { b.forget id with calls := b.calls.set call .abandoned }
  | some (.answered _ _ _) => { b with calls := b.calls.set call .abandoned }
  | _ => b

/-! ## Reports -/

/-- Acts on one report of the host of a generation. What is not a message is passed over. After a
crash nothing more is heard. -/
def route (b : Bridge) (generation : Nat) : HostEvent → Bridge
  | .frame frame =>
    match HostMessage.decode frame with
    | .error _ => b
    | .ok (.status s) => b.publish s.phase s.message
    | .ok (.result id payload) => b.resolve generation id (.ok payload)
    | .ok (.error id message) => b.resolve generation id (.error (.hostRejected id message))
  | .crashed reason =>
    -- the requests of the host stay in the table until their deadlines
    (b.updateHost generation fun h => { h with listening := false }).publish .error reason

/-- Takes the next report of a host, or notices that there will be none. -/
def dispatch (b : Bridge) (generation : Nat) : Bridge :=
  match b.host? generation with
  | none => b
  | some h =>
    if h.listening then
      match h.events with
      | event :: events =>
        (b.updateHost generation fun h => { h with events }).route generation event
      | [] =>
        if h.reporting then b
        else
          (b.updateHost generation fun h => { h with listening := false }).publish .error
            "Computation host exited"
    else b

/-! ## Actions -/

/-- Stops the host and answers all requests. -/
def shutdown (b : Bridge) : Bridge :=
  (b.disconnect.answerAll fun id => .error (.cancelled id)).publish .idle
    "Computation host stopped"

/-- All callers stop and the bridge goes away. -/
def drop (b : Bridge) : Bridge :=
  ((List.range b.calls.length).foldl abandon b).disconnect

/-- One action. -/
def step (setup : BridgeSetup) (b : Bridge) : BridgeAction → Bridge
  | .begin request => b.begin setup request
  | .abandon call => b.abandon call
  | .resume call => b.resume call
  | .expire call => b.expire setup call
  | .dispatch generation => b.dispatch generation
  | .report generation event =>
    b.updateHost generation fun h =>
      if h.reporting then { h with events := h.events ++ [event] } else h
  | .take generation => b.updateHost generation fun h => { h with requests := h.requests.tail }
  | .closeEvents generation => b.updateHost generation fun h => { h with reporting := false }
  | .closeRequests generation => b.updateHost generation fun h => { h with accepting := false }
  | .elapse ms => { b with now := b.now + ms }
  | .shutdown => b.shutdown
  | .drop => b.drop

/-- Several actions, one after the other. -/
def run (setup : BridgeSetup) (b : Bridge) (actions : List BridgeAction) : Bridge :=
  actions.foldl (step setup) b

/-! ## Running to rest

The one order of actions in which the bridge is run here: first all reports are dispatched, then all
callers go on that can. -/

/-- The actions that dispatch all reports of a host. -/
def dispatches (h : HostLink) : List BridgeAction :=
  List.replicate (h.events.length + 1) (.dispatch h.generation)

/-- The actions that let a caller go on. -/
def wakes (call : Nat) : List BridgeAction :=
  [.resume call, .expire call]

/-- Runs until nothing can go on by itself. -/
def settle (setup : BridgeSetup) (b : Bridge) : Bridge :=
  let b := b.run setup (b.hosts.flatMap dispatches)
  b.run setup ((List.range b.calls.length).flatMap wakes)

end Bridge

end Chalkboard
