import Mathlib.Data.List.Basic
import Chalkboard.Bridge.Step

/-!
# The ledger of the bridge

The ledger is the part of the bridge that pairs answers with calls: the requests that wait, the
calls, and the number of ids used. Hosts, status and time change without it. The lemmas here say
what each action does to the ledger; nothing else about the actions is needed for the pairing.
-/

namespace Chalkboard

/-- The id that a call still has something to do with. -/
def Call.id? : Call → Option RequestId
  | .waiting id _ _ | .answered id _ _ => some id
  | .finished _ | .abandoned => none

/-- The requests that wait, the calls, and the number of ids used. -/
structure Ledger where
  pending : List PendingRequest
  calls : List Call
  issued : Nat

namespace Ledger

/-- A request leaves the table and its call gets the answer. -/
def settle (l : Ledger) (id : RequestId) (answer : Answer) : Ledger :=
  { l with
    pending := l.pending.filter fun p => p.id != id
    calls := Bridge.deliver id answer l.calls }

/-- All requests leave the table and their calls get answers. -/
def settleAll (l : Ledger) (answer : RequestId → Answer) : Ledger :=
  { l with
    pending := []
    calls := l.pending.foldl (fun calls p => Bridge.deliver p.id (answer p.id) calls) l.calls }

/-- A call ends, and its request leaves the table. -/
def close (l : Ledger) (call : Nat) (id : RequestId) (c : Call) : Ledger :=
  { l with
    pending := l.pending.filter fun p => p.id != id
    calls := l.calls.set call c }

/-- A call goes on. -/
def record (l : Ledger) (call : Nat) (c : Call) : Ledger :=
  { l with calls := l.calls.set call c }

/-- A new call. -/
def append (l : Ledger) (c : Call) : Ledger :=
  { l with calls := l.calls ++ [c] }

/-- What becomes of a new call: it waits under a new id, or is over at once. -/
inductive Opens (setup : BridgeSetup) (l : Ledger) : Ledger → Call → Prop
  | asked (kind : RequestKind) (generation : Nat) (purpose : Purpose) (deadline : Nat) :
      Opens setup l
        { l with
          pending := l.pending ++ [⟨setup.requestId (l.issued + 1), kind, generation⟩]
          issued := l.issued + 1 }
        (.waiting (setup.requestId (l.issued + 1)) purpose deadline)
  | ended (used : Nat) (answer : Answer) :
      Opens setup l { l with issued := l.issued + used } (.finished answer)

/-- Opening a call does not touch the other calls. -/
theorem Opens.calls {setup : BridgeSetup} {l l' : Ledger} {call : Call}
    (h : l.Opens setup l' call) : l'.calls = l.calls := by
  cases h <;> rfl

end Ledger

/-- The answer that a message has for a request. -/
def HostMessage.answer? : HostMessage → Option (RequestId × Answer)
  | .status _ => none
  | .result id payload => some (id, .ok payload)
  | .error id message => some (id, .error (.hostRejected id message))

namespace Bridge

/-- The part of the bridge that pairs answers with calls. -/
def ledger (b : Bridge) : Ledger :=
  ⟨b.pending, b.calls, b.issued⟩

/-- The message that the next dispatch for a generation routes. -/
def routed? (b : Bridge) (generation : Nat) : Option HostMessage :=
  match b.host? generation with
  | none => none
  | some h =>
    match h.listening, h.events with
    | true, .frame frame :: _ => (HostMessage.decode frame).toOption
    | _, _ => none

/-! ## Changes that leave the ledger alone -/

section Frame

variable (b : Bridge)

@[simp] theorem ledger_publish (phase : Phase) (message : String) :
    (b.publish phase message).ledger = b.ledger := rfl

@[simp] theorem ledger_disconnect : b.disconnect.ledger = b.ledger := by
  unfold disconnect
  split <;> rfl

@[simp] theorem ledger_connect (generation : Nat) : (b.connect generation).ledger = b.ledger :=
  b.ledger_disconnect

@[simp] theorem ledger_conclude (id : RequestId) (purpose : Purpose) (answer : Answer) :
    (b.conclude id purpose answer).1.ledger = b.ledger := by
  cases purpose with
  | answer => rfl
  | handshake generation =>
    unfold conclude
    dsimp only
    split
    · rfl
    · split <;> rfl

@[simp] theorem ledger_answerAll (answer : RequestId → Answer) :
    (b.answerAll answer).ledger = b.ledger.settleAll answer := rfl

end Frame

/-! ## Reports -/

section Reports

variable (b : Bridge) (generation : Nat)

theorem ledger_resolve (id : RequestId) (answer : Answer) :
    (b.resolve generation id answer).ledger =
      if ∃ p ∈ b.pending, p.id = id ∧ p.generation = generation then b.ledger.settle id answer
      else b.ledger := by
  unfold resolve
  split
  · next p hp =>
    have htest := List.find?_some hp
    rw [Bool.and_eq_true, beq_iff_eq, beq_iff_eq] at htest
    rw [if_pos ⟨p, List.mem_of_find?_eq_some hp, htest⟩]
    rfl
  · next hnone =>
    rw [if_neg]
    rintro ⟨p, hp, hid, hg⟩
    have htest := List.find?_eq_none.1 hnone p hp
    simp [hid, hg] at htest

/-- What an answer for a request of a generation does, if there is one. -/
def settleIf (b : Bridge) (generation : Nat) : Option (RequestId × Answer) → Ledger
  | none => b.ledger
  | some (id, answer) =>
    if ∃ p ∈ b.pending, p.id = id ∧ p.generation = generation then b.ledger.settle id answer
    else b.ledger

theorem ledger_route (event : HostEvent) :
    (b.route generation event).ledger =
      b.settleIf generation
        (match event with
        | .frame frame => (HostMessage.decode frame).toOption.bind HostMessage.answer?
        | .crashed _ => none) := by
  cases event with
  | crashed reason => rfl
  | frame frame =>
    simp only [route]
    cases HostMessage.decode frame with
    | error e => rfl
    | ok m =>
      cases m with
      | status s => rfl
      | result id payload => exact ledger_resolve b generation id (.ok payload)
      | error id message =>
        exact ledger_resolve b generation id (.error (.hostRejected id message))

/-- Dispatching settles a request exactly if it routes an answer for it and the request waits for
this generation. -/
theorem ledger_dispatch :
    (b.dispatch generation).ledger =
      b.settleIf generation ((b.routed? generation).bind HostMessage.answer?) := by
  unfold dispatch routed?
  cases b.host? generation with
  | none => rfl
  | some h =>
    cases hl : h.listening with
    | false => simp [hl, settleIf]
    | true =>
      cases he : h.events with
      | nil =>
        simp only [hl, he, if_true]
        split <;> rfl
      | cons event events =>
        have hroute := ledger_route
          (b.updateHost generation fun h => { h with events := events }) generation event
        simp only [hl, he, if_true]
        cases event with
        | frame frame => exact hroute
        | crashed reason => exact hroute

end Reports

/-! ## Calls -/

section Calls

variable (setup : BridgeSetup) (b : Bridge)

/-- Posting enters the request into the table, or fails and changes nothing. -/
theorem post_cases (request : HostRequest) :
    (∃ g b', b.connection = some g ∧ b.post request = .ok b' ∧ b'.now = b.now ∧
      b'.ledger =
        { b.ledger with pending := b.pending ++ [⟨request.id, request.kind, g⟩] }) ∨
    ∃ m, b.post request = .error (.hostUnavailable m) := by
  unfold post
  split
  · exact .inr ⟨_, rfl⟩
  · next g hg =>
    split
    · exact .inl ⟨g, _, hg, rfl, rfl, rfl⟩
    · exact .inr ⟨_, rfl⟩

/-- Asking opens a call. -/
theorem opens_ask (purpose : Purpose) (kind : RequestKind) (payload : Json) :
    b.ledger.Opens setup (b.ask setup purpose kind payload).1.ledger
      (b.ask setup purpose kind payload).2 := by
  unfold ask
  rcases post_cases { b with issued := b.issued + 1 }
    ⟨kind, setup.requestId (b.issued + 1), payload⟩ with ⟨g, b', -, hok, -, hl⟩ | ⟨m, herr⟩
  · dsimp only
    rw [hok]
    dsimp only
    rw [hl]
    exact .asked kind g purpose _
  · dsimp only
    rw [herr]
    dsimp only
    rw [ledger_conclude]
    exact .ended 1 _

theorem opens_startHost :
    b.ledger.Opens setup (b.startHost setup).1.ledger (b.startHost setup).2 := by
  unfold startHost
  dsimp only
  split
  · exact .ended 0 _
  · have hopens := opens_ask setup ({ b with generation := b.generation + 1 }.connect
      (b.generation + 1)) (.handshake (b.generation + 1)) .init .null
    rw [ledger_connect] at hopens
    exact hopens

theorem opens_init : b.ledger.Opens setup (b.init setup).1.ledger (b.init setup).2 := by
  unfold init
  split
  · next board _ => exact opens_startHost setup { b with board }
  · exact .ended 0 _

/-- What a new call finds: a restart may have answered all requests before. -/
def cleared : CallRequest → Ledger
  | .restart =>
    if setup.settings.rejectOnRestart then b.ledger.settleAll fun id => .error (.hostRestarted id)
    else b.ledger
  | .init | .send .. => b.ledger

theorem opens_restart :
    (b.cleared setup .restart).Opens setup (b.restart setup).1.ledger (b.restart setup).2 := by
  unfold restart cleared
  dsimp only
  split
  · have hopens := opens_startHost setup ((b.disconnect.answerAll fun id =>
      .error (.hostRestarted id)).publish .loading "Restarting computation host")
    rw [ledger_publish, ledger_answerAll, ledger_disconnect] at hopens
    exact hopens
  · have hopens := opens_startHost setup
      (b.disconnect.publish .loading "Restarting computation host")
    rw [ledger_publish, ledger_disconnect] at hopens
    exact hopens

/-- A beginning call is appended to what it finds. -/
theorem ledger_begin (request : CallRequest) :
    ∃ l call, (b.cleared setup request).Opens setup l call ∧
      (b.begin setup request).ledger = l.append call := by
  cases request with
  | init => exact ⟨_, _, opens_init setup b, rfl⟩
  | restart => exact ⟨_, _, opens_restart setup b, rfl⟩
  | send kind payload => exact ⟨_, _, opens_ask setup b .answer kind payload, rfl⟩

/-! ## Callers that go on -/

theorem ledger_resume (call : Nat) :
    (b.resume call).ledger = b.ledger ∨
      ∃ id purpose answer answer', b.calls[call]? = some (.answered id purpose answer) ∧
        (purpose = .answer → answer' = answer) ∧
        (b.resume call).ledger = b.ledger.record call (.finished answer') := by
  unfold resume
  split
  · next id purpose answer hcall =>
    refine .inr ⟨id, purpose, answer, (b.conclude id purpose answer).2, hcall, ?_, ?_⟩
    · rintro rfl
      rfl
    · change (b.conclude id purpose answer).1.ledger.record call _ = _
      rw [ledger_conclude]
  · exact .inl rfl

theorem ledger_expire (call : Nat) :
    (b.expire setup call).ledger = b.ledger ∨
      ∃ id purpose deadline answer, b.calls[call]? = some (.waiting id purpose deadline) ∧
        deadline ≤ b.now ∧
        (purpose = .answer → answer = .error (.timeout id setup.settings.timeoutMs)) ∧
        (b.expire setup call).ledger = b.ledger.close call id (.finished answer) := by
  unfold expire
  split
  · next id purpose deadline hcall =>
    split
    · next hdue =>
      refine .inr ⟨id, purpose, deadline, ((b.forget id).conclude id purpose
        (.error (.timeout id setup.settings.timeoutMs))).2, hcall, hdue, ?_, ?_⟩
      · rintro rfl
        rfl
      · change ((b.forget id).conclude id purpose _).1.ledger.record call _ = _
        rw [ledger_conclude]
        rfl
    · exact .inl rfl
  · exact .inl rfl

theorem ledger_abandon (call : Nat) :
    (b.abandon call).ledger = b.ledger ∨
      (∃ id purpose deadline, b.calls[call]? = some (.waiting id purpose deadline) ∧
        (b.abandon call).ledger = b.ledger.close call id .abandoned) ∨
      ∃ id purpose answer, b.calls[call]? = some (.answered id purpose answer) ∧
        (b.abandon call).ledger = b.ledger.record call .abandoned := by
  unfold abandon
  split
  · next id purpose deadline hcall => exact .inr (.inl ⟨id, purpose, deadline, hcall, rfl⟩)
  · next id purpose answer hcall => exact .inr (.inr ⟨id, purpose, answer, hcall, rfl⟩)
  · exact .inl rfl

theorem ledger_shutdown :
    b.shutdown.ledger = b.ledger.settleAll fun id => .error (.cancelled id) := by
  unfold shutdown
  rw [ledger_publish, ledger_answerAll, ledger_disconnect]

/-! ## All actions -/

/-- What an action does to the ledger. -/
inductive Moves : BridgeAction → Ledger → Prop
  /-- No request and no call is concerned. -/
  | rests (a : BridgeAction) : Moves a b.ledger
  | opens {request : CallRequest} {l : Ledger} {call : Call}
      (h : (b.cleared setup request).Opens setup l call) : Moves (.begin request) (l.append call)
  | settles {generation : Nat} {id : RequestId} {answer : Answer}
      (hrouted : (b.routed? generation).bind HostMessage.answer? = some (id, answer))
      (hwaits : ∃ p ∈ b.pending, p.id = id ∧ p.generation = generation) :
      Moves (.dispatch generation) (b.ledger.settle id answer)
  | cancels : Moves .shutdown (b.ledger.settleAll fun id => .error (.cancelled id))
  | returns {call : Nat} {id : RequestId} {purpose : Purpose} {answer answer' : Answer}
      (hcall : b.ledger.calls[call]? = some (.answered id purpose answer))
      (hanswer : purpose = .answer → answer' = answer) :
      Moves (.resume call) (b.ledger.record call (.finished answer'))
  | expires {call : Nat} {id : RequestId} {purpose : Purpose} {deadline : Nat} {answer : Answer}
      (hcall : b.ledger.calls[call]? = some (.waiting id purpose deadline))
      (hdue : deadline ≤ b.now)
      (hanswer : purpose = .answer → answer = .error (.timeout id setup.settings.timeoutMs)) :
      Moves (.expire call) (b.ledger.close call id (.finished answer))
  | leaves (call : Nat) : Moves (.abandon call) (b.abandon call).ledger
  | drops : Moves .drop b.drop.ledger

/-- Every action does one of these. -/
theorem step_moves (a : BridgeAction) : Moves setup b a (b.step setup a).ledger := by
  cases a with
  | begin request =>
    rcases b.ledger_begin setup request with ⟨l, call, hopens, hl⟩
    rw [step, hl]
    exact .opens hopens
  | dispatch generation =>
    rw [step, ledger_dispatch]
    cases hrouted : (b.routed? generation).bind HostMessage.answer? with
    | none => exact .rests _
    | some x =>
      dsimp only [settleIf]
      split
      · next hwaits => exact .settles hrouted hwaits
      · exact .rests _
  | resume call =>
    rcases b.ledger_resume call with hl | ⟨id, purpose, answer, answer', hcall, hanswer, hl⟩
    · rw [step, hl]
      exact .rests _
    · rw [step, hl]
      exact .returns hcall hanswer
  | expire call =>
    rcases b.ledger_expire setup call with hl | ⟨id, purpose, d, answer, hcall, hdue, hanswer, hl⟩
    · rw [step, hl]
      exact .rests _
    · rw [step, hl]
      exact .expires hcall hdue hanswer
  | abandon call => exact .leaves call
  | shutdown =>
    rw [step, ledger_shutdown]
    exact .cancels
  | drop => exact .drops
  | report generation event => exact .rests _
  | take generation => exact .rests _
  | closeEvents generation => exact .rests _
  | closeRequests generation => exact .rests _
  | elapse ms => exact .rests _

end Calls

end Bridge

end Chalkboard
