import Chalkboard.Bridge.Error
import Chalkboard.Status.Board

/-!
# The bridge to the computation host

The bridge owns the connection to one host at a time. Callers start the host or send requests, and
wait; each request waits in a table until its answer arrives, its deadline passes, or the host is
replaced or stopped. Every host has the generation in which it was spawned, and an answer counts
only if it comes from the host that was asked.

This module holds the state of the bridge and the changes that others are made of. Time is counted
in milliseconds from the start.
-/

namespace Chalkboard

/-- How a bridge behaves. -/
structure BridgeSettings where
  /-- How long a request may take. -/
  timeoutMs : UInt64
  /-- Whether a restart answers the requests that wait for the old host. -/
  rejectOnRestart : Bool
  deriving DecidableEq, Repr

/-- The settings that a board starts with. -/
def BridgeSettings.standard : BridgeSettings :=
  ⟨30000, true⟩

/-- What a bridge is built on: its settings, the ids of its requests by number, and which
generations of hosts cannot be spawned. -/
structure BridgeSetup where
  settings : BridgeSettings
  requestId : Nat → RequestId
  refusal : Nat → Option BridgeError

/-- The outcome of a call; starting a host yields `null`. -/
abbrev Answer := Except BridgeError Json

/-- Something that a host reports. -/
inductive HostEvent where
  | frame (frame : Json)
  /-- The host is gone. -/
  | crashed (reason : String)
  deriving BEq, Repr

/-- A host with the channels that connect it to the bridge. -/
structure HostLink where
  generation : Nat
  /-- The requests that the host has not taken yet. -/
  requests : List HostRequest
  /-- Whether the host still takes requests. -/
  accepting : Bool
  /-- The events that have not been dispatched yet. -/
  events : List HostEvent
  /-- Whether the host can still report. -/
  reporting : Bool
  /-- Whether the bridge still listens. -/
  listening : Bool
  terminated : Bool
  deriving Repr

/-- The channels of a new host. -/
def HostLink.new (generation : Nat) : HostLink :=
  ⟨generation, [], true, [], true, true, false⟩

/-- A request that has no answer yet. -/
structure PendingRequest where
  id : RequestId
  kind : RequestKind
  generation : Nat
  deriving DecidableEq, Repr

/-- What a caller wants with the answer to its request. -/
inductive Purpose where
  /-- The answer itself. -/
  | answer
  /-- The handshake of the host that it started. -/
  | handshake (generation : Nat)
  deriving DecidableEq, Repr

/-- How far a call has come. -/
inductive Call where
  | waiting (id : RequestId) (purpose : Purpose) (deadline : Nat)
  /-- The answer is there and the caller has not seen it yet. -/
  | answered (id : RequestId) (purpose : Purpose) (answer : Answer)
  | finished (answer : Answer)
  /-- The caller has stopped waiting. -/
  | abandoned

/-- The bridge with its hosts and its callers. -/
structure Bridge where
  now : Nat
  board : StatusBoard
  /-- The generation of the connected host. -/
  connection : Option Nat
  /-- All hosts that were spawned, in order. -/
  hosts : List HostLink
  /-- The requests that wait, in the order in which they were issued. -/
  pending : List PendingRequest
  /-- How many ids were used. -/
  issued : Nat
  /-- The number of attempts to spawn a host. -/
  generation : Nat
  /-- The last generation whose handshake succeeded. -/
  readyGeneration : Nat
  /-- All calls, in order. -/
  calls : List Call

namespace Bridge

/-- A bridge without a host. -/
def initial : Bridge :=
  ⟨0, .initial, none, [], [], 0, 0, 0, []⟩

/-- The status that the bridge shows. -/
def status (b : Bridge) : Status :=
  b.board.status

/-- The kind of the request that has waited longest. -/
def oldestPending? (b : Bridge) : Option RequestKind :=
  b.pending.head?.map PendingRequest.kind

/-- The host of a generation. -/
def host? (b : Bridge) (generation : Nat) : Option HostLink :=
  b.hosts.find? fun h => h.generation == generation

/-- The generations of the hosts that were terminated, in order. -/
def terminated (b : Bridge) : List Nat :=
  (b.hosts.filter HostLink.terminated).map HostLink.generation

/-- Whether the last host that was spawned has been ready. -/
def reachedReady (b : Bridge) : Bool :=
  b.readyGeneration == b.generation

/-! ## Changes -/

/-- Shows a status. -/
def publish (b : Bridge) (phase : Phase) (message : String) : Bridge :=
  { b with board := b.board.publish ⟨phase, message⟩ }

/-- Changes the host of a generation. -/
def updateHost (b : Bridge) (generation : Nat) (f : HostLink → HostLink) : Bridge :=
  { b with hosts := b.hosts.map fun h => if h.generation = generation then f h else h }

/-- Terminates the connected host; what it still reports is lost. -/
def disconnect (b : Bridge) : Bridge :=
  match b.connection with
  | none => b
  | some g =>
    { b.updateHost g fun h => { h with listening := false, terminated := true } with
      connection := none }

/-- Connects a new host in place of the connected one. -/
def connect (b : Bridge) (generation : Nat) : Bridge :=
  { b.disconnect with
    hosts := b.disconnect.hosts ++ [.new generation]
    connection := some generation }

/-- Hands an answer to the call that waits for a request. -/
def deliver (id : RequestId) (answer : Answer) (calls : List Call) : List Call :=
  calls.map fun
    | .waiting i purpose deadline =>
      if i = id then .answered i purpose answer else .waiting i purpose deadline
    | call => call

/-- Takes a request out of the table. -/
def forget (b : Bridge) (id : RequestId) : Bridge :=
  { b with pending := b.pending.filter fun p => p.id != id }

/-- Answers every request in the table. -/
def answerAll (b : Bridge) (answer : RequestId → Answer) : Bridge :=
  { b with
    pending := []
    calls := b.pending.foldl (fun calls p => deliver p.id (answer p.id) calls) b.calls }

/-- Answers a request, if it waits for a host of the given generation; any other answer is late,
repeated or unasked, and changes nothing. -/
def resolve (b : Bridge) (generation : Nat) (id : RequestId) (answer : Answer) : Bridge :=
  match b.pending.find? fun p => p.id == id && p.generation == generation with
  | some _ => { b.forget id with calls := deliver id answer b.calls }
  | none => b

/-- Posts a request to the connected host and enters it into the table. -/
def post (b : Bridge) (request : HostRequest) : Except BridgeError Bridge :=
  match b.connection with
  | none => .error (.hostUnavailable "computation host has not been started")
  | some g =>
    if (b.host? g).any HostLink.accepting then
      .ok
        { b.updateHost g fun h => { h with requests := h.requests ++ [request] } with
          pending := b.pending ++ [⟨request.id, request.kind, g⟩] }
    else
      .error (.hostUnavailable ("host stopped accepting request " ++ request.id.text))

end Bridge

end Chalkboard
