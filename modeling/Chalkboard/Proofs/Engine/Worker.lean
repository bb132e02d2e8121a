import Chalkboard.Engine.Worker
import Chalkboard.Proofs.Bridge.Ledger

/-!
# A worker that computes a function

An engine that remembers nothing is a function from requests to results. `Engine.ofFunction` is this
engine, with a count of how often it is loaded. A worker that runs it takes every request, reports
one reply to each (`reply`), and loads the engine for the first.
-/

namespace Chalkboard

/-- A computation takes the kind and the payload of a request, and may fail with a message. -/
abbrev Computation := RequestKind → Json → Except String Json

/-- The engine that computes a function. It counts how often it was loaded. -/
def Engine.ofFunction (f : Computation) : Engine Nat where
  load loads := (.done (), loads + 1)
  execute kind payload loads :=
    match f kind payload with
    | .ok result => (.done result, loads)
    | .error message => (.failed message, loads)

/-- What a worker has to say to a request. -/
def reply (f : Computation) (r : HostRequest) : HostMessage :=
  if r.kind = .init then .result r.id (.object [("ready", .bool true)])
  else
    match f r.kind r.payload with
    | .ok result => .result r.id result
    | .error message => .error r.id message

/-- The answer that a call gets by this. -/
def outcome (f : Computation) (r : HostRequest) : Answer :=
  if r.kind = .init then .ok (.object [("ready", .bool true)])
  else
    match f r.kind r.payload with
    | .ok result => .ok result
    | .error message => .error (.hostRejected r.id message)

section Reply

variable (f : Computation) (r : HostRequest)

theorem id?_reply : (reply f r).id? = some r.id := by
  unfold reply
  split
  · rfl
  · split <;> rfl

theorem answer?_reply : (reply f r).answer? = some (r.id, outcome f r) := by
  unfold reply outcome
  split
  · rfl
  · split <;> rfl

end Reply

/-! ## Reports -/

/-- A message as a host reports it. -/
def HostMessage.event (m : HostMessage) : HostEvent :=
  .frame m.toJson

/-- What is reported is read as it was meant. -/
theorem decode_of_toJson (m : HostMessage) : HostMessage.decode m.toJson = .ok m := by
  cases m with
  | status s =>
    obtain ⟨phase, message⟩ := s
    cases phase <;> rfl
  | result id payload => rfl
  | error id message => rfl

theorem event_injective : Function.Injective HostMessage.event := by
  intro m m' h
  have hframe : m.toJson = m'.toJson := HostEvent.frame.inj h
  have hdecode := decode_of_toJson m
  rw [hframe, decode_of_toJson m'] at hdecode
  exact (Except.ok.inj hdecode).symm

/-- What a worker says while it loads the engine. -/
def greeting : List HostMessage :=
  [.status ⟨.loading, "Loading math engine"⟩, .status ⟨.ready, "Math engine ready"⟩]

/-- A message that shows neither an idle host nor an error. -/
def HostMessage.Mild : HostMessage → Prop
  | .status s => s.phase = .loading ∨ s.phase = .ready
  | .result .. | .error .. => True

theorem mild_of_mem_greeting {m : HostMessage} (h : m ∈ greeting) : m.Mild := by
  simp only [greeting, List.mem_cons, List.not_mem_nil, or_false] at h
  rcases h with rfl | rfl
  · exact .inl rfl
  · exact .inr rfl

theorem id?_of_mem_greeting {m : HostMessage} (h : m ∈ greeting) : m.id? = none := by
  simp only [greeting, List.mem_cons, List.not_mem_nil, or_false] at h
  rcases h with rfl | rfl <;> rfl

namespace Worker

/-- The worker takes requests, and everything that it has said was passed on. -/
structure Steady (w : Worker Nat) : Prop where
  wanted : w.wanted = none
  stopped : w.stopped = false
  reported : w.reported = []

theorem steady_start (loads : Nat) : (start loads).Steady :=
  ⟨rfl, rfl, rfl⟩

/-- What a worker says when it takes a request. -/
def sayings (f : Computation) (w : Worker Nat) (r : HostRequest) : List HostMessage :=
  if w.loaded then [reply f r] else greeting ++ [reply f r]

theorem reply_mem_sayings (f : Computation) (w : Worker Nat) (r : HostRequest) :
    reply f r ∈ w.sayings f r := by
  unfold sayings
  split
  · exact List.mem_singleton_self _
  · exact List.mem_append_right _ (List.mem_singleton_self _)

theorem mem_sayings {f : Computation} {w : Worker Nat} {r : HostRequest} {m : HostMessage}
    (h : m ∈ w.sayings f r) : m = reply f r ∨ m ∈ greeting := by
  unfold sayings at h
  split at h
  · exact .inl (List.mem_singleton.1 h)
  · rcases List.mem_append.1 h with h | h
    · exact .inr h
    · exact .inl (List.mem_singleton.1 h)

theorem length_sayings_le (f : Computation) (w : Worker Nat) (r : HostRequest) :
    (w.sayings f r).length ≤ 3 := by
  unfold sayings greeting
  split <;> simp

variable {f : Computation} {w : Worker Nat}

theorem say_of_wanted (h : w.wanted = none) (m : HostMessage) : w.say m = w.report m.event := by
  unfold say look
  rw [h]
  rfl

/-- A loaded engine gives its reply. -/
theorem answer_ofFunction (h : w.wanted = none) (r : HostRequest) :
    w.answer (.ofFunction f) r = w.report (reply f r).event := by
  unfold answer reply
  split
  · exact say_of_wanted h _
  · dsimp only [Engine.ofFunction]
    cases f r.kind r.payload with
    | ok result => exact say_of_wanted h _
    | error message => exact say_of_wanted h _

/-- The engine is loaded once. -/
theorem prepare_ofFunction (h : w.wanted = none) (r : HostRequest) :
    w.prepare (.ofFunction f) r =
      (true,
        { w with
          engine := if w.loaded then w.engine else w.engine + 1
          loaded := true
          reported :=
            w.reported ++ (if w.loaded then [] else greeting.map HostMessage.event) }) := by
  unfold prepare
  cases hl : w.loaded with
  | true =>
    rw [if_pos rfl, if_pos rfl, if_pos rfl, List.append_nil]
    congr 1
    cases w
    cases hl
    rfl
  | false =>
    obtain ⟨engine, loaded, wanted, stopped, reported⟩ := w
    cases h
    cases hl
    simp [say, look, report, Engine.ofFunction, greeting, HostMessage.event]

/-- A steady worker takes a request and replies. -/
theorem serve_of_steady (h : w.Steady) (r : HostRequest) :
    w.serve (.ofFunction f) r =
      ⟨if w.loaded then w.engine else w.engine + 1, true, none, false,
        (w.sayings f r).map HostMessage.event⟩ := by
  have hlook : w.look = (true, w) := by
    unfold look
    rw [h.wanted]
  have hstopped : ¬w.stopped = true := by simp [h.stopped]
  -- the worker looks at its flag, prepares, and answers
  unfold serve
  rw [if_neg hstopped, hlook]
  dsimp only
  rw [prepare_ofFunction h.wanted]
  dsimp only
  rw [answer_ofFunction (by exact h.wanted)]
  unfold report sayings
  rw [h.reported, h.wanted, h.stopped]
  cases w.loaded <;> rfl

end Worker

end Chalkboard
