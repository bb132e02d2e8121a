import Chalkboard.Proofs.Engine.Worker

/-!
# Turns of a worker

`Engine.turn` is what a worker does with one request that it takes: what it has to say, which calls
it makes into its engine, and how it ends. None of this depends on whether the worker is still
wanted. What it is wanted for limits how much of the sayings is reported
(`Worker.serve_of_takes`). The calls are seen through an engine that records them.
-/

namespace Chalkboard

variable {σ : Type}

/-! ## Recorded calls -/

/-- A call into an engine, with how it ended. -/
inductive EngineCall where
  | load (outcome : EngineOutcome Unit)
  | execute (kind : RequestKind) (payload : Json) (outcome : EngineOutcome Json)

namespace EngineCall

/-- The call loads the engine, or tries to. -/
def IsLoad : EngineCall → Prop
  | .load _ => True
  | .execute .. => False

/-- The engine panicked in the call. -/
def Panicked : EngineCall → Prop
  | .load (.panicked _) => True
  | .execute _ _ (.panicked _) => True
  | _ => False

end EngineCall

/-- The engine with a record of all calls into it. -/
def Engine.recorded (e : Engine σ) : Engine (σ × List EngineCall) where
  load s :=
    let (outcome, engine) := e.load s.1
    (outcome, engine, s.2 ++ [.load outcome])
  execute kind payload s :=
    let (outcome, engine) := e.execute kind payload s.1
    (outcome, engine, s.2 ++ [.execute kind payload outcome])

/-! ## Turns -/

/-- What a worker does with a request that it takes. -/
structure Turn (σ : Type) where
  sayings : List HostMessage
  calls : List EngineCall
  /-- The engine after the turn. -/
  engine : σ
  /-- The engine is loaded after the turn. -/
  loaded : Bool
  /-- Why the worker crashes at the end of the turn, if it does. -/
  crash : Option String

namespace Engine

/-- The turn of a worker whose engine is loaded. -/
def answerTurn (e : Engine σ) (engine : σ) (r : HostRequest) : Turn σ :=
  if r.kind = .init then
    ⟨[.result r.id (.object [("ready", .bool true)])], [], engine, true, none⟩
  else
    let (outcome, engine) := e.execute r.kind r.payload engine
    let calls := [EngineCall.execute r.kind r.payload outcome]
    match outcome with
    | .done payload => ⟨[.result r.id payload], calls, engine, true, none⟩
    | .failed m => ⟨[.error r.id m], calls, engine, true, none⟩
    | .panicked m => ⟨[], calls, engine, true, some (Worker.panicReason m)⟩

/-- What a worker says when it begins to load. -/
def loading : HostMessage :=
  .status ⟨.loading, "Loading math engine"⟩

/-- The turn of a worker. -/
def turn (e : Engine σ) (loaded : Bool) (engine : σ) (r : HostRequest) : Turn σ :=
  if loaded then e.answerTurn engine r
  else
    let (outcome, engine) := e.load engine
    match outcome with
    | .done _ =>
      let t := e.answerTurn engine r
      { t with
        sayings := loading :: .status ⟨.ready, "Math engine ready"⟩ :: t.sayings
        calls := .load outcome :: t.calls }
    | .failed m =>
      ⟨[loading, .status ⟨.error, m⟩, .error r.id m], [.load outcome], engine, false, none⟩
    | .panicked m => ⟨[loading], [.load outcome], engine, false, some (Worker.panicReason m)⟩

end Engine

/-! ## What is reported of a turn -/

/-- The first items of a list, if only so many are let through. -/
def upTo {α : Type} : Option Nat → List α → List α
  | none, l => l
  | some n, l => l.take n

@[simp] theorem upTo_nil {α : Type} (limit : Option Nat) : upTo limit ([] : List α) = [] := by
  cases limit <;> simp [upTo]

theorem upTo_isPrefix {α : Type} (limit : Option Nat) (l : List α) : upTo limit l <+: l := by
  cases limit with
  | none => exact List.prefix_rfl
  | some n => exact List.take_prefix n l

/-- What is let through of two lists. -/
theorem upTo_append {α : Type} (limit : Option Nat) (l l' : List α) :
    upTo limit (l ++ l') = upTo limit l ++ upTo (limit.map (· - l.length)) l' := by
  cases limit with
  | none => rfl
  | some n => exact List.take_append

theorem upTo_map {α β : Type} (f : α → β) (limit : Option Nat) (l : List α) :
    upTo limit (l.map f) = (upTo limit l).map f := by
  cases limit with
  | none => rfl
  | some n => exact List.map_take.symm

/-- What is let through is everything, if there is room for more. -/
theorem upTo_eq_self {α : Type} {limit : Option Nat} {l : List α}
    (h : limit.map (· - l.length) ≠ some 0) : upTo limit l = l := by
  cases limit with
  | none => rfl
  | some n =>
    have hn : n - l.length ≠ 0 := fun hzero => h (congrArg some hzero)
    exact List.take_of_length_le (by omega)

namespace Worker

/-- The worker takes the next request. -/
def Takes (w : Worker σ) : Prop :=
  w.stopped = false ∧ w.wanted ≠ some 0

/-- The worker after it has tried to send some messages. -/
def said (w : Worker σ) (ms : List HostMessage) : Worker σ :=
  { w with
    wanted := w.wanted.map (· - ms.length)
    reported := w.reported ++ (upTo w.wanted ms).map HostMessage.event }

theorem say_eq_said (w : Worker σ) (m : HostMessage) : w.say m = w.said [m] := by
  obtain ⟨engine, loaded, wanted, stopped, reported⟩ := w
  cases wanted with
  | none => rfl
  | some n =>
    cases n with
    | zero => simp [say, look, said, upTo]
    | succ n => simp [say, look, said, upTo, report, HostMessage.event]

theorem said_said (w : Worker σ) (ms ms' : List HostMessage) :
    (w.said ms).said ms' = w.said (ms ++ ms') := by
  have hwanted : (w.wanted.map (· - ms.length)).map (· - ms'.length) =
      w.wanted.map (· - (ms ++ ms').length) := by
    cases w.wanted with
    | none => rfl
    | some n => simp [Nat.sub_sub]
  simp only [said, hwanted, upTo_append, List.map_append, List.append_assoc]

/-- The worker after a turn. -/
def after (w : Worker (σ × List EngineCall)) (t : Turn σ) : Worker (σ × List EngineCall) where
  engine := (t.engine, w.engine.2 ++ t.calls)
  loaded := t.loaded
  wanted := w.wanted.map (· - t.sayings.length)
  stopped := t.crash.isSome
  reported := w.reported ++ (upTo w.wanted t.sayings).map HostMessage.event ++
    t.crash.toList.map HostEvent.crashed

variable {e : Engine σ} {w : Worker (σ × List EngineCall)}

theorem answer_recorded (hloaded : w.loaded = true) (hstopped : w.stopped = false)
    (r : HostRequest) : w.answer e.recorded r = w.after (e.answerTurn w.engine.1 r) := by
  obtain ⟨⟨engine, calls⟩, loaded, wanted, stopped, reported⟩ := w
  cases hloaded
  cases hstopped
  unfold answer Engine.answerTurn
  split
  · simp [say_eq_said, said, after]
  · dsimp only [Engine.recorded]
    cases (e.execute r.kind r.payload engine).1 with
    | done payload => simp [say_eq_said, said, after]
    | failed m => simp [say_eq_said, said, after]
    | panicked m => simp [crash, report, after]

/-- What was said before a turn belongs to it as well. -/
theorem after_said (ms : List HostMessage) (t : Turn σ) :
    (w.said ms).after t = w.after { t with sayings := ms ++ t.sayings } := by
  have hwanted : (w.wanted.map (· - ms.length)).map (· - t.sayings.length) =
      w.wanted.map (· - (ms ++ t.sayings).length) := by
    cases w.wanted with
    | none => rfl
    | some n => simp [Nat.sub_sub]
  simp only [after, said, hwanted, upTo_append, List.map_append, List.append_assoc]

/-! Loading succeeds, fails, or panics. -/

section Load

variable {engine : σ}

/-- The worker once the engine was called to load. -/
def loadedAs (w : Worker (σ × List EngineCall)) (outcome : EngineOutcome Unit) (engine : σ) :
    Worker (σ × List EngineCall) :=
  { w with engine := (engine, w.engine.2 ++ [.load outcome]) }

theorem load_recorded (w : Worker (σ × List EngineCall)) {outcome : EngineOutcome Unit}
    (hload : e.load w.engine.1 = (outcome, engine)) :
    e.recorded.load (w.say (.status ⟨.loading, "Loading math engine"⟩)).engine =
      (outcome, engine, w.engine.2 ++ [.load outcome]) := by
  rw [say_eq_said]
  simp only [Engine.recorded, said, hload]

theorem prepare_of_done (hloaded : w.loaded = false) (r : HostRequest)
    (hload : e.load w.engine.1 = (.done (), engine)) :
    w.prepare e.recorded r =
      (true,
        { w.loadedAs (.done ()) engine with loaded := true }.said
          [Engine.loading, .status ⟨.ready, "Math engine ready"⟩]) := by
  have hsaid := said_said { w.loadedAs (.done ()) engine with loaded := true } [Engine.loading]
    [.status ⟨.ready, "Math engine ready"⟩]
  unfold prepare
  rw [if_neg (by simp [hloaded])]
  simp only [load_recorded w hload]
  rw [say_eq_said, say_eq_said]
  exact congrArg (Prod.mk true) hsaid

theorem prepare_of_failed (hloaded : w.loaded = false) (r : HostRequest) {m : String}
    (hload : e.load w.engine.1 = (.failed m, engine)) :
    w.prepare e.recorded r =
      (false,
        (w.loadedAs (.failed m) engine).said
          [Engine.loading, .status ⟨.error, m⟩, .error r.id m]) := by
  have hsaid := said_said (w.loadedAs (.failed m) engine) [Engine.loading]
    [.status ⟨.error, m⟩, .error r.id m]
  unfold prepare
  rw [if_neg (by simp [hloaded])]
  simp only [load_recorded w hload]
  rw [say_eq_said, say_eq_said, say_eq_said, said_said]
  exact congrArg (Prod.mk false) hsaid

theorem prepare_of_panicked (hloaded : w.loaded = false) (r : HostRequest)
    {reason : Option String} (hload : e.load w.engine.1 = (.panicked reason, engine)) :
    w.prepare e.recorded r =
      (false, ((w.loadedAs (.panicked reason) engine).said [Engine.loading]).crash reason) := by
  unfold prepare
  rw [if_neg (by simp [hloaded])]
  simp only [load_recorded w hload]
  rw [say_eq_said]
  rfl

end Load

/-- A worker that finds itself wanted goes through its turn. -/
theorem serve_of_look {w₀ : Worker (σ × List EngineCall)} (hlook : w₀.look = (true, w))
    (hstopped₀ : w₀.stopped = false) (hstopped : w.stopped = false) (r : HostRequest) :
    w₀.serve e.recorded r = w.after (e.turn w.loaded w.engine.1 r) := by
  unfold serve
  rw [if_neg (by simp [hstopped₀]), hlook]
  dsimp only
  unfold Engine.turn
  cases hloaded : w.loaded with
  | true =>
    have hprepare : w.prepare e.recorded r = (true, w) := if_pos hloaded
    rw [hprepare]
    exact answer_recorded hloaded hstopped r
  | false =>
    obtain ⟨outcome, engine, hload⟩ : ∃ outcome engine, e.load w.engine.1 = (outcome, engine) :=
      ⟨_, _, rfl⟩
    rw [hload, if_neg Bool.false_ne_true]
    cases outcome with
    | done value =>
      rw [prepare_of_done hloaded r hload]
      dsimp only
      rw [answer_recorded, after_said]
      · simp [after, said, loadedAs]
      · rfl
      · exact hstopped
    | failed m =>
      rw [prepare_of_failed hloaded r hload]
      simp [after, said, loadedAs, hloaded, hstopped]
    | panicked reason =>
      rw [prepare_of_panicked hloaded r hload]
      simp [after, said, loadedAs, crash, report, hloaded]

/-- The worker after it has looked at its flag. -/
def looked (w : Worker (σ × List EngineCall)) : Worker (σ × List EngineCall) :=
  { w with wanted := w.wanted.map (· - 1) }

/-- A worker that takes a request looks at its flag once, and then goes through its turn. -/
theorem serve_of_takes (hw : w.Takes) (r : HostRequest) :
    w.serve e.recorded r = w.looked.after (e.turn w.loaded w.engine.1 r) := by
  obtain ⟨hstopped, hwanted⟩ := hw
  have hlook : w.look = (true, w.looked) := by
    obtain ⟨engine, loaded, wanted, stopped, reported⟩ := w
    cases wanted with
    | none => rfl
    | some n =>
      cases n with
      | zero => exact absurd rfl hwanted
      | succ n => rfl
  exact serve_of_look hlook hstopped hstopped r

/-- A worker that takes no request reports nothing, and takes no further one. -/
theorem serve_of_not_takes {τ : Type} {e : Engine τ} {w : Worker τ} (hw : ¬w.Takes)
    (r : HostRequest) : w.serve e r = { w with stopped := true } := by
  obtain ⟨engine, loaded, wanted, stopped, reported⟩ := w
  cases stopped with
  | true => rfl
  | false =>
    have hwanted : wanted = some 0 := by
      by_contra hne
      exact hw ⟨rfl, hne⟩
    cases hwanted
    rfl

end Worker

/-! ## What turns are like -/

/-- A turn answers its request, or it answers nothing and ends with a crash. It crashes exactly if
the engine panicked. -/
inductive Turn.Ends (t : Turn σ) (r : HostRequest) : Prop
  | answers (hids : t.sayings.filterMap HostMessage.id? = [r.id]) (hcrash : t.crash = none)
      (hcalls : ∀ c ∈ t.calls, ¬c.Panicked)
  | crashes (reason : String) (hids : t.sayings.filterMap HostMessage.id? = [])
      (hcrash : t.crash = some reason) (hcalls : ∃ c ∈ t.calls, c.Panicked)

namespace Engine

variable (e : Engine σ) (engine : σ) (r : HostRequest)

/-- A loaded engine is called once or not at all, and not to load. -/
theorem calls_answerTurn : (e.answerTurn engine r).loaded = true ∧
    ∀ c ∈ (e.answerTurn engine r).calls, ¬c.IsLoad := by
  unfold answerTurn
  split
  · simp
  · dsimp only
    cases (e.execute r.kind r.payload engine).1 <;> simp [EngineCall.IsLoad]

/-- The first call of a turn loads the engine if it is not loaded, and no other call does. If
loading fails, the failure is all that the worker has to say to the request. -/
theorem calls_turn : ∃ outcome later,
    (e.turn false engine r).calls = .load outcome :: later ∧ (∀ c ∈ later, ¬c.IsLoad) ∧
    ((e.turn false engine r).loaded = true ↔ outcome = .done ()) ∧
    ∀ m, outcome = .failed m → later = [] ∧ (e.turn false engine r).crash = none ∧
      (e.turn false engine r).sayings = [loading, .status ⟨.error, m⟩, .error r.id m] := by
  unfold turn
  rw [if_neg Bool.false_ne_true]
  dsimp only
  cases (e.load engine).1 with
  | done value =>
    obtain ⟨hloaded, hcalls⟩ := e.calls_answerTurn (e.load engine).2 r
    exact ⟨.done value, _, rfl, hcalls, by simp [hloaded], by simp⟩
  | failed m => exact ⟨.failed m, [], rfl, by simp, by simp, by simp⟩
  | panicked reason => exact ⟨.panicked reason, [], rfl, by simp, by simp, by simp⟩

theorem ends_answerTurn : (e.answerTurn engine r).Ends r := by
  unfold answerTurn
  split
  · exact .answers rfl rfl (by simp)
  · dsimp only
    cases (e.execute r.kind r.payload engine).1 with
    | done payload => exact .answers rfl rfl (by simp [EngineCall.Panicked])
    | failed m => exact .answers rfl rfl (by simp [EngineCall.Panicked])
    | panicked reason => exact .crashes _ rfl rfl (by simp [EngineCall.Panicked])

theorem ends_turn (loaded : Bool) : (e.turn loaded engine r).Ends r := by
  unfold turn
  cases loaded with
  | true => exact e.ends_answerTurn engine r
  | false =>
    rw [if_neg Bool.false_ne_true]
    dsimp only
    cases (e.load engine).1 with
    | done value =>
      cases e.ends_answerTurn (e.load engine).2 r with
      | answers hids hcrash hcalls =>
        exact .answers hids hcrash (by simpa [EngineCall.Panicked] using hcalls)
      | crashes reason hids hcrash hcalls =>
        exact .crashes reason hids hcrash (by simpa [EngineCall.Panicked] using hcalls)
    | failed m => exact .answers rfl rfl (by simp [EngineCall.Panicked])
    | panicked reason => exact .crashes _ rfl rfl (by simp [EngineCall.Panicked])

end Engine

end Chalkboard
