import Mathlib.Data.List.Induction
import Chalkboard.Proofs.Engine.Turn

/-!
# The answers of a worker

Whatever its engine does and whenever it is terminated, a worker answers its requests in order and
each once, until it crashes or is not wanted any more. `Worker.orderly_run` says this of all runs,
together with how often the engine is loaded, what becomes of the request in which the worker
crashes, and which messages are reported before the look at the flag that finds it not wanted.
-/

namespace Chalkboard

variable {σ : Type}

namespace HostEvent

/-- The event is a message. -/
def isFrame : HostEvent → Bool
  | .frame _ => true
  | .crashed _ => false

/-- The id of the request that an event answers with a result or an error. -/
def answers? : HostEvent → Option RequestId
  | .frame j => (HostMessage.decode j).toOption.bind HostMessage.id?
  | .crashed _ => none

theorem answers?_event (m : HostMessage) : m.event.answers? = m.id? := by
  rw [HostMessage.event, answers?, decode_of_toJson]
  rfl

end HostEvent

namespace Worker

/-- The ids of the requests that a worker has answered, in the order of the answers. -/
def answered (w : Worker σ) : List RequestId :=
  w.reported.filterMap HostEvent.answers?

/-- All calls into an engine that records them. -/
def calls (w : Worker (σ × List EngineCall)) : List EngineCall :=
  w.engine.2

/-- The worker without the record of calls. -/
def forget (w : Worker (σ × List EngineCall)) : Worker σ :=
  ⟨w.engine.1, w.loaded, w.wanted, w.stopped, w.reported⟩

/-- A worker after some requests, with a record of the calls into its engine. It finds itself wanted
as often as `wanted` says. -/
def history (e : Engine σ) (engine : σ) (wanted : Option Nat) (requests : List HostRequest) :
    Worker (σ × List EngineCall) :=
  { start (engine, []) with wanted }.run e.recorded requests

/-- What follows when a worker looks at its flag: a request that it takes, or a message. This is
what would follow if it was always wanted. -/
def looks (e : Engine σ) (w : Worker σ) : List HostRequest → List (Option HostEvent)
  | [] => []
  | r :: requests =>
    if w.stopped then []
    else
      let w := { w with wanted := none, reported := [] }.serve e r
      none :: (w.reported.filter HostEvent.isFrame).map some ++ looks e w requests

/-! ## The record changes nothing -/

section Forget

variable {e : Engine σ} {w : Worker (σ × List EngineCall)}

theorem forget_say (w : Worker (σ × List EngineCall)) (m : HostMessage) :
    (w.say m).forget = w.forget.say m := by
  obtain ⟨engine, loaded, wanted, stopped, reported⟩ := w
  cases wanted with
  | none => rfl
  | some n => cases n <;> rfl

theorem forget_answer (w : Worker (σ × List EngineCall)) (r : HostRequest) :
    (w.answer e.recorded r).forget = w.forget.answer e r := by
  unfold answer
  split
  · exact forget_say ..
  · have hengine : w.forget.engine = w.engine.1 := rfl
    dsimp only [Engine.recorded]
    rw [hengine]
    cases (e.execute r.kind r.payload w.engine.1).1 with
    | done payload => exact forget_say ..
    | failed m => exact forget_say ..
    | panicked reason => rfl

theorem forget_prepare (w : Worker (σ × List EngineCall)) (r : HostRequest) :
    w.forget.prepare e r =
      ((w.prepare e.recorded r).1, (w.prepare e.recorded r).2.forget) := by
  unfold prepare
  have hloaded : w.forget.loaded = w.loaded := rfl
  rw [hloaded]
  split
  · rfl
  · rw [← forget_say]
    generalize w.say (.status ⟨.loading, "Loading math engine"⟩) = w₁
    have hengine : w₁.forget.engine = w₁.engine.1 := rfl
    dsimp only [Engine.recorded]
    rw [hengine]
    cases (e.load w₁.engine.1).1 with
    | done value =>
      rw [forget_say]
      rfl
    | failed m =>
      rw [forget_say, forget_say]
      rfl
    | panicked reason => rfl

theorem forget_serve (w : Worker (σ × List EngineCall)) (r : HostRequest) :
    (w.serve e.recorded r).forget = w.forget.serve e r := by
  have hlook : w.forget.look = (w.look.1, w.look.2.forget) := by
    obtain ⟨engine, loaded, wanted, stopped, reported⟩ := w
    cases wanted with
    | none => rfl
    | some n => cases n <;> rfl
  have hstopped : w.forget.stopped = w.stopped := rfl
  unfold serve
  rw [hstopped, hlook]
  split
  · rfl
  · obtain ⟨found, w₁⟩ := w.look
    cases found with
    | false => rfl
    | true =>
      dsimp only
      rw [forget_prepare]
      obtain ⟨ready, w₂⟩ := w₁.prepare e.recorded r
      cases ready with
      | true => exact forget_answer w₂ r
      | false => rfl

theorem forget_run (w : Worker (σ × List EngineCall)) (requests : List HostRequest) :
    (w.run e.recorded requests).forget = w.forget.run e requests := by
  induction requests generalizing w with
  | nil => rfl
  | cons r requests ih =>
    have hserve := forget_serve (e := e) w r
    rw [run, List.foldl_cons, ← run, ih, hserve]
    rfl

end Forget

/-! ## Loading -/

/-- Among these calls the engine was loaded at most once, and then it was not called to load again.
It is loaded now if one of them has loaded it. -/
structure LoadedOnce (loaded : Bool) (calls : List EngineCall) : Prop where
  loaded_iff : loaded = true ↔ .load (.done ()) ∈ calls
  once : calls.Pairwise fun c c' => c = .load (.done ()) → ¬c'.IsLoad

/-- A turn loads the engine only if it is not loaded. -/
theorem LoadedOnce.turn {loaded : Bool} {calls : List EngineCall} (h : LoadedOnce loaded calls)
    (e : Engine σ) (engine : σ) (r : HostRequest) :
    LoadedOnce (e.turn loaded engine r).loaded (calls ++ (e.turn loaded engine r).calls) := by
  have hquiet : ∀ later : List EngineCall, (∀ c ∈ later, ¬c.IsLoad) →
      later.Pairwise fun c c' => c = .load (.done ()) → ¬c'.IsLoad := by
    intro later hlater
    exact List.pairwise_of_forall_mem_list fun c _ c' hc' _ => hlater c' hc'
  cases loaded with
  | true =>
    obtain ⟨hloaded, hcalls⟩ := e.calls_answerTurn engine r
    have hdone : .load (.done ()) ∈ calls := h.loaded_iff.1 rfl
    constructor
    · exact iff_of_true hloaded (List.mem_append_left _ hdone)
    · exact List.pairwise_append.2 ⟨h.once, hquiet _ hcalls, fun c _ c' hc' _ => hcalls c' hc'⟩
  | false =>
    obtain ⟨outcome, later, hcalls, hlater, hloaded, -⟩ := e.calls_turn engine r
    -- the engine is loaded by none of the calls before, and by the first of this turn or by none
    have hnone : .load (.done ()) ∉ calls := fun hmem => Bool.noConfusion (h.loaded_iff.2 hmem)
    have hlast : .load (.done ()) ∉ later := fun hmem => hlater _ hmem trivial
    rw [hcalls]
    constructor
    · rw [hloaded, List.mem_append, List.mem_cons, EngineCall.load.injEq]
      constructor
      · rintro rfl
        exact .inr (.inl rfl)
      · rintro (hmem | hmem | hmem)
        · exact absurd hmem hnone
        · exact hmem.symm
        · exact absurd hmem hlast
    · refine List.pairwise_append.2 ⟨h.once, List.pairwise_cons.2 ⟨?_, hquiet _ hlater⟩, ?_⟩
      · intro c hc _
        exact hlater c hc
      · rintro c hc c' - rfl
        exact absurd hc hnone

/-! ## What every turn keeps -/

/-- What holds of a worker after it was given some requests. -/
structure Kept (requests : List HostRequest) (w : Worker (σ × List EngineCall)) : Prop where
  inOrder : w.answered <+: requests.map HostRequest.id
  complete : w.Takes → w.answered = requests.map HostRequest.id
  running : w.stopped = false →
    (∀ event ∈ w.reported, event.isFrame = true) ∧ ∀ c ∈ w.calls, ¬c.Panicked
  stopped : w.stopped = true → w.wanted = some 0 ∨ ∃ c ∈ w.calls, c.Panicked
  panicked : (∃ reason, .crashed reason ∈ w.reported) ↔ ∃ c ∈ w.calls, c.Panicked
  loaded : LoadedOnce w.loaded w.calls

theorem answered_after (w : Worker (σ × List EngineCall)) (t : Turn σ) :
    (w.after t).answered =
      w.answered ++ (upTo w.wanted t.sayings).filterMap HostMessage.id? := by
  have hframes : ∀ ms : List HostMessage,
      (ms.map HostMessage.event).filterMap HostEvent.answers? = ms.filterMap HostMessage.id? := by
    intro ms
    rw [List.filterMap_map]
    exact List.filterMap_congr fun m _ => HostEvent.answers?_event m
  have hcrash : (t.crash.toList.map HostEvent.crashed).filterMap HostEvent.answers? = [] := by
    cases t.crash <;> rfl
  simp only [answered, after, List.filterMap_append, hframes, hcrash, List.append_nil]

theorem kept_start (engine : σ) (wanted : Option Nat) :
    Kept [] ({ start (engine, []) with wanted } : Worker (σ × List EngineCall)) where
  inOrder := List.prefix_rfl
  complete _ := rfl
  running _ := by simp [start, calls]
  stopped h := by cases h
  panicked := by simp [start, calls]
  loaded := ⟨by simp [start, calls], List.Pairwise.nil⟩

namespace Kept

variable {requests : List HostRequest} {w : Worker (σ × List EngineCall)} {t : Turn σ}
  {r : HostRequest}

/-- A turn that answers its request. -/
theorem answer (h : Kept requests w) (hw : w.Takes)
    (hturn : t.sayings.filterMap HostMessage.id? = [r.id]) (hcrash : t.crash = none)
    (hcalls : ∀ c ∈ t.calls, ¬c.Panicked) (hloaded : LoadedOnce t.loaded (w.calls ++ t.calls)) :
    Kept (requests ++ [r]) (w.looked.after t) := by
  have hanswered : (w.looked.after t).answered = requests.map HostRequest.id ++
      (upTo w.looked.wanted t.sayings).filterMap HostMessage.id? := by
    rw [answered_after, ← h.complete hw]
    rfl
  have hframes : ∀ event ∈ (w.looked.after t).reported, event.isFrame = true := by
    intro event hevent
    simp only [after, hcrash, Option.toList_none, List.map_nil, List.append_nil, List.mem_append,
      List.mem_map] at hevent
    rcases hevent with hold | ⟨m, -, rfl⟩
    · exact (h.running hw.1).1 event hold
    · rfl
  have hquiet : ∀ c ∈ (w.looked.after t).calls, ¬c.Panicked := by
    intro c hc
    rcases List.mem_append.1 hc with hold | hnew
    · exact (h.running hw.1).2 c hold
    · exact hcalls c hnew
  exact
    { inOrder := by
        rw [hanswered, List.map_append]
        refine (List.prefix_append_right_inj _).2 ?_
        rw [List.map_singleton, ← hturn]
        exact (upTo_isPrefix ..).filterMap _
      complete := by
        intro htakes
        rw [hanswered, upTo_eq_self htakes.2, hturn, List.map_append]
        rfl
      running := fun _ => ⟨hframes, hquiet⟩
      stopped := by
        intro hstopped
        simp [after, hcrash] at hstopped
      panicked := by
        refine iff_of_false ?_ ?_
        · rintro ⟨reason, hmem⟩
          exact Bool.noConfusion (hframes _ hmem)
        · rintro ⟨c, hc, hpanicked⟩
          exact hquiet c hc hpanicked
      loaded := hloaded }

/-- A turn that ends with a crash. -/
theorem crash (h : Kept requests w) (hw : w.Takes)
    (hturn : t.sayings.filterMap HostMessage.id? = []) {reason : String}
    (hcrash : t.crash = some reason) (hcalls : ∃ c ∈ t.calls, c.Panicked)
    (hloaded : LoadedOnce t.loaded (w.calls ++ t.calls)) :
    Kept (requests ++ [r]) (w.looked.after t) ∧
      (w.looked.after t).answered = requests.map HostRequest.id := by
  have hnone : (upTo w.looked.wanted t.sayings).filterMap HostMessage.id? = [] := by
    rw [← List.prefix_nil, ← hturn]
    exact (upTo_isPrefix ..).filterMap _
  have hanswered : (w.looked.after t).answered = requests.map HostRequest.id := by
    rw [answered_after, hnone, List.append_nil, ← h.complete hw]
    rfl
  have hstopped : (w.looked.after t).stopped = true := by simp [after, hcrash]
  have hpanicked : ∃ c ∈ (w.looked.after t).calls, c.Panicked := by
    obtain ⟨c, hc, hpanicked⟩ := hcalls
    exact ⟨c, List.mem_append_right _ hc, hpanicked⟩
  refine ⟨?_, hanswered⟩
  exact
    { inOrder := by
        rw [hanswered, List.map_append]
        exact List.prefix_append ..
      complete := fun htakes => Bool.noConfusion (htakes.1.symm.trans hstopped)
      running := fun hrunning => Bool.noConfusion (hrunning.symm.trans hstopped)
      stopped := fun _ => .inr hpanicked
      panicked := by
        refine iff_of_true ⟨reason, ?_⟩ hpanicked
        simp [after, hcrash]
      loaded := hloaded }

/-- A turn that ends with a crash reports messages, and the crash after them. -/
theorem reported_of_crash (h : Kept requests w) (hw : w.Takes) {reason : String}
    (hcrash : t.crash = some reason) :
    ∃ frames : List HostEvent, (∀ event ∈ frames, event.isFrame = true) ∧
      (w.looked.after t).reported = frames ++ [.crashed reason] ∧ w.reported <+: frames := by
  refine ⟨w.reported ++ (upTo w.looked.wanted t.sayings).map HostMessage.event, ?_, ?_,
    List.prefix_append ..⟩
  · intro event hevent
    rcases List.mem_append.1 hevent with hold | hnew
    · exact (h.running hw.1).1 event hold
    · obtain ⟨m, -, rfl⟩ := List.mem_map.1 hnew
      rfl
  · simp [after, hcrash, looked]

/-- A worker that takes no more requests. -/
theorem idle (h : Kept requests w) (hw : ¬w.Takes) :
    Kept (requests ++ [r]) { w with stopped := true } where
  inOrder := by
    refine h.inOrder.trans ?_
    rw [List.map_append]
    exact List.prefix_append ..
  complete htakes := Bool.noConfusion htakes.1
  running hrunning := Bool.noConfusion hrunning
  stopped _ := by
    cases hstopped : w.stopped with
    | true => exact h.stopped hstopped
    | false =>
      left
      by_contra hwanted
      exact hw ⟨hstopped, hwanted⟩
  panicked := h.panicked
  loaded := h.loaded

theorem serve (h : Kept requests w) (e : Engine σ) (r : HostRequest) :
    Kept (requests ++ [r]) (w.serve e.recorded r) := by
  by_cases hw : w.Takes
  · rw [serve_of_takes hw]
    have hloaded := h.loaded.turn e w.engine.1 r
    cases e.ends_turn w.engine.1 r w.loaded with
    | answers hturn hcrash hcalls => exact h.answer hw hturn hcrash hcalls hloaded
    | crashes reason hturn hcrash hcalls => exact (h.crash hw hturn hcrash hcalls hloaded).1
  · rw [serve_of_not_takes hw]
    exact h.idle hw

end Kept

/-! ## Runs -/

section Runs

variable (e : Engine σ) (engine : σ) (wanted : Option Nat)

theorem history_append (requests : List HostRequest) (r : HostRequest) :
    history e engine wanted (requests ++ [r]) =
      (history e engine wanted requests).serve e.recorded r := by
  rw [history, run, List.foldl_append]
  rfl

theorem kept_history (requests : List HostRequest) :
    Kept requests (history e engine wanted requests) := by
  induction requests using List.reverseRecOn with
  | nil => exact kept_start engine wanted
  | append_singleton requests r ih =>
    rw [history_append]
    exact ih.serve e r

variable {e engine wanted}

/-- A crash is the last event. The request in whose turn it came is not answered, and neither is any
later one. -/
theorem crash_history {requests : List HostRequest} {reason : String}
    (h : .crashed reason ∈ (history e engine wanted requests).reported) :
    ∃ served r rest, requests = served ++ r :: rest ∧
      (history e engine wanted requests).answered = served.map HostRequest.id ∧
      (history e engine wanted requests).reported =
        (history e engine wanted (served ++ [r])).reported ∧
      ∃ frames : List HostEvent, (∀ event ∈ frames, event.isFrame = true) ∧
        (history e engine wanted requests).reported = frames ++ [.crashed reason] ∧
        (history e engine wanted served).reported <+: frames := by
  induction requests using List.reverseRecOn with
  | nil => cases h
  | append_singleton requests r ih =>
    have hkept := kept_history e engine wanted requests
    have hserve := history_append e engine wanted requests r
    by_cases hw : (history e engine wanted requests).Takes
    · rw [serve_of_takes hw] at hserve
      have hloaded := hkept.loaded.turn e (history e engine wanted requests).engine.1 r
      cases e.ends_turn (history e engine wanted requests).engine.1 r
        (history e engine wanted requests).loaded with
      | answers hturn hcrash hcalls =>
        -- the worker goes on, so it has reported nothing but messages
        have hnext := hkept.answer hw hturn hcrash hcalls hloaded
        rw [← hserve] at hnext
        have hrunning : (history e engine wanted (requests ++ [r])).stopped = false := by
          rw [hserve]
          simp [after, hcrash]
        exact Bool.noConfusion ((hnext.running hrunning).1 _ h)
      | crashes reason' hturn hcrash hcalls =>
        obtain ⟨-, hanswered⟩ := hkept.crash (r := r) hw hturn hcrash hcalls hloaded
        obtain ⟨frames, hframes, hreported, hbefore⟩ := hkept.reported_of_crash hw hcrash
        rw [← hserve] at hanswered hreported
        have hreason : reason = reason' := by
          rw [hreported] at h
          rcases List.mem_append.1 h with hmem | hmem
          · exact Bool.noConfusion (hframes _ hmem)
          · exact HostEvent.crashed.inj (List.mem_singleton.1 hmem)
        exact ⟨requests, r, [], rfl, hanswered, rfl, frames, hframes, hreason ▸ hreported,
          hbefore⟩
    · rw [serve_of_not_takes hw] at hserve
      rw [hserve] at h ⊢
      obtain ⟨served, r', rest, hrequests, hanswered, hreported, hframes⟩ := ih h
      exact ⟨served, r', rest ++ [r], by rw [hrequests, List.append_assoc]; rfl, hanswered,
        hreported, hframes⟩

/-- While no call has loaded the engine, each request that is taken makes one attempt. -/
theorem load_history {served : List HostRequest} (hw : (history e engine wanted served).Takes)
    (hnone : .load (.done ()) ∉ (history e engine wanted served).calls) (r : HostRequest) :
    ∃ outcome later,
      (history e engine wanted (served ++ [r])).calls =
        (history e engine wanted served).calls ++ .load outcome :: later ∧
      (∀ c ∈ later, ¬c.IsLoad) ∧
      ∀ m, outcome = .failed m → later = [] ∧
        ((history e engine wanted (served ++ [r])).wanted = some 0 ∨
          (history e engine wanted (served ++ [r])).reported =
            (history e engine wanted served).reported ++
              [Engine.loading, .status ⟨.error, m⟩, .error r.id m].map HostMessage.event) := by
  have hkept := kept_history e engine wanted served
  have hserve := history_append e engine wanted served r
  have hloaded : (history e engine wanted served).loaded = false := by
    rw [← Bool.not_eq_true]
    exact fun h => hnone (hkept.loaded.loaded_iff.1 h)
  generalize history e engine wanted served = w at *
  obtain ⟨outcome, later, hcalls, hlater, -, hfailed⟩ := e.calls_turn w.engine.1 r
  rw [hserve, serve_of_takes hw, hloaded]
  refine ⟨outcome, later, by rw [← hcalls]; rfl, hlater, ?_⟩
  intro m hm
  obtain ⟨hnil, hcrash, hsayings⟩ := hfailed m hm
  refine ⟨hnil, or_iff_not_imp_left.2 fun hwanted => ?_⟩
  -- the worker was wanted for all that it had to say
  have hall := upTo_eq_self hwanted
  simp only [after, hcrash, Option.toList_none, List.map_nil, List.append_nil]
  rw [hall, hsayings]
  rfl

/-! ## Termination -/

theorem run_of_stopped {τ : Type} {e : Engine τ} {w : Worker τ} (hw : w.stopped = true)
    (requests : List HostRequest) : w.run e requests = w := by
  induction requests with
  | nil => rfl
  | cons r requests ih =>
    have hserve : w.serve e r = w := if_pos hw
    rw [run, List.foldl_cons, hserve]
    exact ih

/-- It makes no difference to what follows the looks what a worker has reported and how often it is
wanted. -/
theorem looks_congr {τ : Type} (e : Engine τ) (w : Worker τ) (wanted : Option Nat)
    (reported : List HostEvent) (requests : List HostRequest) :
    looks e { w with wanted, reported } requests = looks e w requests := by
  cases requests <;> rfl

theorem frames_after (w : Worker (σ × List EngineCall)) (t : Turn σ) :
    (w.after t).reported.filter HostEvent.isFrame =
      w.reported.filter HostEvent.isFrame ++ (upTo w.wanted t.sayings).map HostMessage.event := by
  have hframes : ∀ ms : List HostMessage,
      (ms.map HostMessage.event).filter HostEvent.isFrame = ms.map HostMessage.event := by
    intro ms
    refine List.filter_eq_self.2 fun event hevent => ?_
    obtain ⟨m, -, rfl⟩ := List.mem_map.1 hevent
    rfl
  have hcrash : (t.crash.toList.map HostEvent.crashed).filter HostEvent.isFrame = [] := by
    cases t.crash <;> rfl
  simp only [after, List.filter_append, hframes, hcrash, List.append_nil]

/-- A turn takes one look for the request, and one for each of its messages. -/
theorem looks_cons {w : Worker (σ × List EngineCall)} (hw : w.stopped = false) (r : HostRequest)
    (requests : List HostRequest) :
    w.looks e.recorded (r :: requests) =
      none :: ((e.turn w.loaded w.engine.1 r).sayings.map HostMessage.event).map some ++
        (w.looked.after (e.turn w.loaded w.engine.1 r)).looks e.recorded requests := by
  have htakes : ({ w with wanted := none, reported := [] } : Worker _).Takes :=
    ⟨hw, Option.some_ne_none 0 |>.symm⟩
  rw [looks, if_neg (by simp [hw])]
  dsimp only
  rw [serve_of_takes htakes, frames_after]
  have hcongr := looks_congr e.recorded (w.looked.after (e.turn w.loaded w.engine.1 r)) none
    ([] ++ (e.turn w.loaded w.engine.1 r).sayings.map HostMessage.event ++
      (e.turn w.loaded w.engine.1 r).crash.toList.map HostEvent.crashed) requests
  rw [← hcongr]
  rfl

/-- A worker reports the messages that follow the looks at which it finds itself wanted. -/
theorem frames_run (w : Worker (σ × List EngineCall)) (requests : List HostRequest) :
    (w.run e.recorded requests).reported.filter HostEvent.isFrame =
      w.reported.filter HostEvent.isFrame ++
        (upTo w.wanted (w.looks e.recorded requests)).filterMap id := by
  induction requests generalizing w with
  | nil => simp [run, looks]
  | cons r requests ih =>
    by_cases hw : w.Takes
    · have hrest := ih (w.serve e.recorded r)
      rw [run, List.foldl_cons, ← run, hrest, looks_cons hw.1, serve_of_takes hw, frames_after]
      generalize e.turn w.loaded w.engine.1 r = t
      -- the look for the request is followed by no message
      have hlook : (upTo w.wanted [(none : Option HostEvent)]).filterMap id = [] := by
        rw [← List.prefix_nil]
        exact (upTo_isPrefix w.wanted [none]).filterMap id
      have hsayings : (upTo w.looked.wanted ((t.sayings.map HostMessage.event).map some)).filterMap
          id = (upTo w.looked.wanted t.sayings).map HostMessage.event := by
        rw [upTo_map, upTo_map, List.filterMap_map]
        exact List.filterMap_some
      have hleft :
          w.wanted.map (· - ([none] ++ (t.sayings.map HostMessage.event).map some).length) =
            (w.looked.after t).wanted := by
        cases hwanted : w.wanted with
        | none => simp [after, looked, hwanted]
        | some n => simp [after, looked, hwanted]; omega
      have hsplit : ∀ rest : List (Option HostEvent),
          none :: (t.sayings.map HostMessage.event).map some ++ rest =
            ([none] ++ (t.sayings.map HostMessage.event).map some) ++ rest := fun _ => rfl
      have hone : w.wanted.map (· - [(none : Option HostEvent)].length) = w.looked.wanted := rfl
      rw [hsplit, upTo_append, upTo_append, hleft, hone, List.filterMap_append,
        List.filterMap_append, hlook, hsayings, List.nil_append, List.append_assoc]
      rfl
    · have hserve := serve_of_not_takes (e := e.recorded) hw r
      have hnone : (upTo w.wanted (w.looks e.recorded (r :: requests))).filterMap id = [] := by
        cases hstopped : w.stopped with
        | true => simp [looks, hstopped]
        | false =>
          have hwanted : w.wanted = some 0 := by
            by_contra hne
            exact hw ⟨hstopped, hne⟩
          rw [hwanted]
          rfl
      rw [run, List.foldl_cons, ← run, hserve, run_of_stopped rfl, hnone, List.append_nil]

theorem looks_forget (w : Worker (σ × List EngineCall)) (requests : List HostRequest) :
    w.looks e.recorded requests = w.forget.looks e requests := by
  induction requests generalizing w with
  | nil => rfl
  | cons r requests ih =>
    have hserve : (({ w with wanted := none, reported := [] } : Worker _).serve
        e.recorded r).forget = serve e ⟨w.forget.engine, w.forget.loaded, none, w.stopped, []⟩ r :=
      forget_serve _ r
    have hstopped : w.forget.stopped = w.stopped := rfl
    rw [looks, looks, hstopped, ← hserve]
    dsimp only
    rw [ih]
    rfl

end Runs

/-- What a run of a worker is like: its answers, its crash, its loads, and its termination. -/
structure Orderly (e : Engine σ) (engine : σ) (wanted : Option Nat)
    (requests : List HostRequest) : Prop where
  /-- The record of calls changes nothing else. -/
  recorded : (history e engine wanted requests).forget =
    { start engine with wanted }.run e requests
  /-- The first requests are answered, once each and in order. -/
  inOrder : (history e engine wanted requests).answered <+: requests.map HostRequest.id
  /-- All are answered if the worker is wanted to the end and the engine never panics. -/
  complete : (history e engine wanted requests).wanted ≠ some 0 →
    (∀ c ∈ (history e engine wanted requests).calls, ¬c.Panicked) →
    (history e engine wanted requests).answered = requests.map HostRequest.id
  /-- The worker crashes if the engine panics. -/
  panicked : (∃ reason, .crashed reason ∈ (history e engine wanted requests).reported) ↔
    ∃ c ∈ (history e engine wanted requests).calls, c.Panicked
  /-- A crash comes last and once. The request in whose turn it came is not answered, and neither is
  any later one. -/
  crash : ∀ reason, .crashed reason ∈ (history e engine wanted requests).reported →
    ∃ served r rest, requests = served ++ r :: rest ∧
      (history e engine wanted requests).answered = served.map HostRequest.id ∧
      (history e engine wanted requests).reported =
        (history e engine wanted (served ++ [r])).reported ∧
      ∃ frames : List HostEvent, (∀ event ∈ frames, event.isFrame = true) ∧
        (history e engine wanted requests).reported = frames ++ [.crashed reason] ∧
        (history e engine wanted served).reported <+: frames
  /-- Once it is loaded, the engine is not loaded again. -/
  loadedOnce : (history e engine wanted requests).calls.Pairwise
    fun c c' => c = .load (.done ()) → ¬c'.IsLoad
  /-- Until then each request that is taken makes one attempt. If that fails, the request is
  answered with the failure, unless the worker is terminated before. -/
  retried : ∀ served r rest, requests = served ++ r :: rest →
    (history e engine wanted served).Takes →
    .load (.done ()) ∉ (history e engine wanted served).calls →
    ∃ outcome later,
      (history e engine wanted (served ++ [r])).calls =
        (history e engine wanted served).calls ++ .load outcome :: later ∧
      (∀ c ∈ later, ¬c.IsLoad) ∧
      ∀ m, outcome = .failed m → later = [] ∧
        ((history e engine wanted (served ++ [r])).wanted = some 0 ∨
          (history e engine wanted (served ++ [r])).reported =
            (history e engine wanted served).reported ++
              [Engine.loading, .status ⟨.error, m⟩, .error r.id m].map HostMessage.event)
  /-- A worker reports the messages whose look at the flag finds it wanted, and none after the first
  look that does not. -/
  cut : (history e engine wanted requests).reported.filter HostEvent.isFrame =
    (upTo wanted ((start engine).looks e requests)).filterMap id

/-- Every run is orderly, for every engine and whichever look at the flag is the first to find the
worker not wanted. -/
theorem orderly_run (e : Engine σ) (engine : σ) (wanted : Option Nat)
    (requests : List HostRequest) : Orderly e engine wanted requests := by
  have hkept := kept_history e engine wanted requests
  exact
    { recorded := forget_run _ requests
      inOrder := hkept.inOrder
      complete := by
        intro hwanted hquiet
        refine hkept.complete ⟨?_, hwanted⟩
        rw [← Bool.not_eq_true]
        intro hstopped
        -- a worker stops when it is terminated or when the engine panics
        rcases hkept.stopped hstopped with hzero | ⟨c, hc, hpanicked⟩
        · exact hwanted hzero
        · exact hquiet c hc hpanicked
      panicked := hkept.panicked
      crash := fun reason h => crash_history h
      loadedOnce := hkept.loaded.once
      retried := fun served r rest _ hw hnone => load_history hw hnone r
      cut := by
        -- the looks do not depend on whether the calls of the engine are written down
        have hframes := frames_run (e := e)
          ({ start (engine, []) with wanted } : Worker (σ × List EngineCall)) requests
        rw [history, hframes, looks_forget]
        have hlooks := looks_congr e (start engine) wanted [] requests
        rw [← hlooks]
        rfl }

/-- An engine that loads at the second attempt, and panics when it has to integrate. -/
def fragileEngine : Engine Nat where
  load attempts := (if attempts = 0 then .failed "no memory" else .done (), attempts + 1)
  execute kind payload attempts :=
    (if kind = .integrate then .panicked (some "no end") else .done payload, attempts)

/-- Of four requests the first two are answered, and the worker crashes in the third. -/
theorem orderly_run_sample :
    let requests : List HostRequest :=
      [⟨.calculate, ⟨"a"⟩, .null⟩, ⟨.calculate, ⟨"b"⟩, .null⟩, ⟨.integrate, ⟨"c"⟩, .null⟩,
       ⟨.convert, ⟨"d"⟩, .null⟩]
    let w := history fragileEngine 0 none requests
    .crashed "engine panicked: no end" ∈ w.reported ∧ w.answered = [⟨"a"⟩, ⟨"b"⟩] ∧
      w.calls.length = 4 ∧
      ∃ served r rest, requests = served ++ r :: rest ∧
        w.answered = served.map HostRequest.id := by
  intro requests w
  have hcrash : .crashed "engine panicked: no end" ∈ w.reported :=
    List.mem_of_getLast? rfl
  obtain ⟨served, r, rest, hrequests, hanswered, -⟩ :=
    (orderly_run fragileEngine 0 none requests).crash "engine panicked: no end" hcrash
  exact ⟨hcrash, rfl, rfl, served, r, rest, hrequests, hanswered⟩

end Worker

end Chalkboard
