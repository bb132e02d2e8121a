import Chalkboard.Proofs.Bridge.Correlation
import Chalkboard.Proofs.Bridge.Reports
import Chalkboard.Proofs.Engine.Answers

/-!
# What a worker says is what the bridge hears

Messages and requests are read back from their frames as they were (`decode_of_toJson`,
`HostRequest.decode_of_toJson`). A worker reports nothing but frames of messages and its crash, so the
bridge passes over none of its frames, and acts on each as on the message that the worker had to say
(`Bridge.frames_heard`).
-/

namespace Chalkboard

/-- A request is read as it was meant. -/
theorem HostRequest.decode_of_toJson (r : HostRequest) :
    HostRequest.decode r.toJson = .ok r := by
  obtain ⟨kind, id, payload⟩ := r
  cases kind <;> rfl

/-! ## What a worker reports -/

namespace HostEvent

/-- The event is a message in its frame, or a crash. -/
def Spoken (event : HostEvent) : Prop :=
  (∃ m : HostMessage, event = m.event) ∨ ∃ reason, event = .crashed reason

/-- Some worker reports the event in some run, whatever its engine does and for how long it is
wanted. -/
def ByWorker (event : HostEvent) : Prop :=
  ∃ (σ : Type) (e : Engine σ) (engine : σ) (wanted : Option Nat) (requests : List HostRequest),
    event ∈ ({ Worker.start engine with wanted }.run e requests).reported

end HostEvent

namespace Worker

variable {σ : Type} {e : Engine σ} {w : Worker (σ × List EngineCall)}

/-- Everything that the worker has reported is a message or a crash. -/
def WellSpoken (w : Worker (σ × List EngineCall)) : Prop :=
  ∀ event ∈ w.reported, event.Spoken

/-- A turn reports messages, and at its end perhaps a crash. -/
theorem WellSpoken.after (hw : w.WellSpoken) (t : Turn σ) : (w.after t).WellSpoken := by
  intro event hevent
  rcases List.mem_append.1 hevent with hevent | hcrash
  · rcases List.mem_append.1 hevent with hbefore | hsaying
    · exact hw event hbefore
    · obtain ⟨m, -, rfl⟩ := List.mem_map.1 hsaying
      exact .inl ⟨m, rfl⟩
  · obtain ⟨reason, -, rfl⟩ := List.mem_map.1 hcrash
    exact .inr ⟨reason, rfl⟩

theorem WellSpoken.serve (hw : w.WellSpoken) (r : HostRequest) :
    (w.serve e.recorded r).WellSpoken := by
  by_cases htakes : w.Takes
  · rw [serve_of_takes htakes]
    have hlooked : w.looked.WellSpoken := hw
    exact hlooked.after _
  · rw [serve_of_not_takes htakes]
    exact hw

theorem WellSpoken.run (hw : w.WellSpoken) (requests : List HostRequest) :
    (w.run e.recorded requests).WellSpoken := by
  induction requests generalizing w with
  | nil => exact hw
  | cons r requests ih => exact ih (hw.serve r)

end Worker

/-- What a worker reports is a message or a crash, for every engine and every moment of
termination. -/
theorem HostEvent.ByWorker.spoken {event : HostEvent} (h : event.ByWorker) : event.Spoken := by
  obtain ⟨σ, e, engine, wanted, requests, hevent⟩ := h
  have hstart : { Worker.start (engine, ([] : List EngineCall)) with wanted }.WellSpoken := nofun
  have hrun := hstart.run (e := e) requests
  -- the record of calls changes nothing that is reported
  have hforget := Worker.forget_run (e := e) { Worker.start (engine, []) with wanted } requests
  have hreported := congrArg Worker.reported hforget
  exact hrun event (hreported ▸ hevent)

/-! ## What the bridge hears -/

namespace Bridge

variable {setup : BridgeSetup} {b : Bridge} {generation : Nat}

/-- The bridge acts on a message of the host of a generation. -/
def hear (b : Bridge) (generation : Nat) : HostMessage → Bridge
  | .status s => b.publish s.phase s.message
  | .result id payload => b.resolve generation id (.ok payload)
  | .error id message => b.resolve generation id (.error (.hostRejected id message))

/-- The frame of a message is heard as the message. -/
theorem route_event (b : Bridge) (generation : Nat) (m : HostMessage) :
    b.route generation m.event = b.hear generation m := by
  rw [HostMessage.event, route, decode_of_toJson]
  cases m <;> rfl

/-- What a worker has framed is a message, which every bridge hears. -/
theorem hears_of_byWorker {frame : Json} (h : (HostEvent.frame frame).ByWorker) :
    ∃ m : HostMessage, frame = m.toJson ∧ HostMessage.decode frame = .ok m ∧
      ∀ (b : Bridge) (generation : Nat),
        b.route generation (.frame frame) = b.hear generation m := by
  rcases h.spoken with ⟨m, hm⟩ | ⟨reason, hcrashed⟩
  · have hframe : frame = m.toJson := HostEvent.frame.inj hm
    refine ⟨m, hframe, ?_, fun b generation => ?_⟩
    · rw [hframe]
      exact decode_of_toJson m
    · rw [hm]
      exact route_event b generation m
  · cases hcrashed

/-- A dispatch acts on the next report. -/
theorem dispatch_of_next? {event : HostEvent} (hnext : b.next? generation = some event) :
    b.dispatch generation = (b.popped generation).route generation event := by
  rcases b.dispatch_cases generation with ⟨event', hnext', hdispatch⟩ | ⟨hnone, -⟩
  · rw [hnext] at hnext'
    cases hnext'
    exact hdispatch
  · rw [hnext] at hnone
    cases hnone

/-- Messages and requests survive their frames, and whatever a worker frames is a message that every
bridge hears as it was said. In every run the bridge hears of a host what that has reported, in
order; and if the host is a worker, a dispatch that takes a frame acts on the message that the host
has reported in it. -/
theorem frames_heard (setup : BridgeSetup) :
    (∀ m : HostMessage, HostMessage.decode m.toJson = .ok m) ∧
      (∀ r : HostRequest, HostRequest.decode r.toJson = .ok r) ∧
      (∀ frame, (HostEvent.frame frame).ByWorker →
        ∃ m : HostMessage, frame = m.toJson ∧ HostMessage.decode frame = .ok m ∧
          ∀ (b : Bridge) (g : Nat), b.route g (.frame frame) = b.hear g m) ∧
      ∀ (actions : List BridgeAction) (g : Nat),
        heardIn setup g initial actions <+: acceptedIn setup g initial actions ∧
          ((∀ event, .report g event ∈ actions → event.ByWorker) →
            ∀ frame, (initial.run setup actions).next? g = some (.frame frame) →
              ∃ m : HostMessage, frame = m.toJson ∧ .report g m.event ∈ actions ∧
                (initial.run setup actions).step setup (.dispatch g) =
                  ((initial.run setup actions).popped g).hear g m) := by
  refine ⟨decode_of_toJson, HostRequest.decode_of_toJson, fun frame => hears_of_byWorker, ?_⟩
  intro actions g
  refine ⟨heard_isPrefix setup g actions, ?_⟩
  intro hworker frame hnext
  -- the frame waited in the queue, so the host has reported it
  obtain ⟨h, -, hqueue⟩ := queue_of_next? hnext
  have hreported : .report g (.frame frame) ∈ actions :=
    report_mem_of_queue (hqueue ▸ List.mem_cons_self)
  obtain ⟨m, hframe, -, hhear⟩ := hears_of_byWorker (hworker _ hreported)
  refine ⟨m, hframe, ?_, ?_⟩
  · rw [HostMessage.event, ← hframe]
    exact hreported
  · rw [step, dispatch_of_next? hnext]
    exact hhear _ g

/-- A result that looks like an error reaches its caller as it was computed. -/
theorem frames_heard_sample :
    let payload : Json :=
      .object [("error", .string "no"), ("id", .string "r"), ("type", .string "error")]
    let event := (HostMessage.result ⟨"rr"⟩ payload).event
    let actions : List BridgeAction :=
      [.begin .init, .begin (.send .calculate .null), .report 1 event]
    let b := initial.run sampleSetup actions
    event.ByWorker ∧ b.next? 1 = some event ∧
      (∃ m : HostMessage, event = m.event ∧
        b.step sampleSetup (.dispatch 1) = (b.popped 1).hear 1 m) ∧
      (b.step sampleSetup (.dispatch 1)).calls[1]? =
        some (.answered ⟨"rr"⟩ .answer (.ok payload)) := by
  intro payload event actions b
  have hevent : event.ByWorker := by
    refine ⟨Nat, .ofFunction fun _ _ => .ok payload, 0, none, [⟨.calculate, ⟨"rr"⟩, .null⟩], ?_⟩
    exact List.mem_of_getLast? rfl
  have hworker : ∀ reported, .report 1 reported ∈ actions → reported.ByWorker := by
    intro reported hmem
    have hreported : reported = event := by
      simpa [actions] using hmem
    rw [hreported]
    exact hevent
  obtain ⟨m, hm, -, hdispatch⟩ :=
    ((frames_heard sampleSetup).2.2.2 actions 1).2 hworker _ (rfl : b.next? 1 = some event)
  exact ⟨hevent, rfl, ⟨m, congrArg HostEvent.frame hm, hdispatch⟩, rfl⟩

end Bridge

end Chalkboard
