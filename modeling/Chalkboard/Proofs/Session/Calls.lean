import Chalkboard.Proofs.Gesture.Handle
import Chalkboard.Proofs.Live.Idempotence
import Chalkboard.Proofs.Live.Retain
import Chalkboard.Proofs.Scene.Changes
import Chalkboard.Session.Diagram

/-!
# Calls on a diagram

All that can be asked of a diagram, as one type of calls, and the states that calls lead to. A call
that is no event fails or makes a pass over some scene (`Diagram.Changes`); an event goes on with the
gesture without a pass, or ends the drag in progress with one (`Diagram.Handles`). Nothing else about
the calls is needed for what holds in every reachable state.
-/

namespace Chalkboard

/-- The calls that bring the live graph in line with the scene, after a change or without one. -/
inductive SceneCall where
  | applyResult (r : CommandResult)
  | delete (id : ElementId)
  | setVisibility (id : ElementId) (visible : Bool)
  | placePoint (candidates : Nat → ElementId) (x y : Float)
  | sync

/-- Anything that can be asked of a diagram. -/
inductive DiagramCall where
  | handle (event : PointerEvent Float)
  | change (c : SceneCall)

namespace Diagram

/-- A point is placed under an id that is new; nothing is asked of the other calls. -/
def Admits (d : Diagram) : DiagramCall → Prop
  | .change (.placePoint candidates _ _) => d.scene.contains (d.scene.freshId candidates) = false
  | _ => True

/-- The diagram after a call, with the report of the pass. A call that fails changes neither the
scene nor what is drawn. -/
def change (d : Diagram) : SceneCall → Diagram × Option ReconcileReport
  | .applyResult r => (d.applyResult r).map id Except.toOption
  | .delete id => mutated d (d.delete id)
  | .setVisibility id visible => mutated d (d.setVisibility id visible)
  | .placePoint candidates x y =>
    let (d, _, report) := d.placePoint candidates x y
    (d, some report)
  | .sync => d.sync.map id some
where
  /-- The outcome of a change that may fail. -/
  mutated (d : Diagram) : Except SceneError (Diagram × ReconcileReport) →
      Diagram × Option ReconcileReport
    | .ok (d, report) => (d, some report)
    | .error _ => (d, none)

/-- The diagram after a call of any kind, with the report of the pass if there was one. -/
def call (d : Diagram) : DiagramCall → Diagram × Option ReconcileReport
  | .handle event =>
    match d.handle event with
    | .ok result => result
    | .error _ => (d, none)
  | .change c => d.change c

/-- The diagrams that calls lead to. -/
inductive Reachable (start : Diagram) : Diagram → Prop
  | start : Reachable start start
  | call {d : Diagram} (h : Reachable start d) {c : DiagramCall} (hc : d.Admits c) :
      Reachable start (d.call c).1

/-! ## All that a call can do -/

/-- Nothing that matters for what is drawn is different. -/
structure Unchanged (d d' : Diagram) : Prop where
  scene : d'.scene = d.scene
  graph : d'.graph = d.graph
  gesture : d'.gesture = d.gesture
  canvas : d'.canvas = d.canvas

/-- `d'` is `d` after a pass over the scene `s`. -/
structure Passed (d : Diagram) (s : Scene) (d' : Diagram) (report : ReconcileReport) : Prop where
  scene : d'.scene = s
  gesture : d'.gesture = d.gesture
  graph : d'.graph = (Pass.run d.graph s d.canvas d.gesture.locked).graph
  canvas : d'.canvas = (Pass.run d.graph s d.canvas d.gesture.locked).canvas
  report : report = (Pass.run d.graph s d.canvas d.gesture.locked).report

theorem passed_sync (d : Diagram) : Passed d d.scene d.sync.1 d.sync.2 :=
  ⟨rfl, rfl, rfl, rfl, rfl⟩

/-- A call that is no event fails, or a pass is made over a consistent scene. -/
def Changes (d : Diagram) (outcome : Diagram × Option ReconcileReport) : Prop :=
  (Unchanged d outcome.1 ∧ outcome.2 = none) ∨
    ∃ s report, s.Consistent ∧ outcome.2 = some report ∧ Passed d s outcome.1 report

section Changes

variable {d : Diagram}

theorem changes_mutate (hd : d.scene.Consistent) (m : Mutation) :
    Changes d (change.mutated d (d.mutate m)) := by
  cases h : d.scene.apply m with
  | error error =>
    rw [mutate, h]
    exact .inl ⟨⟨rfl, rfl, rfl, rfl⟩, rfl⟩
  | ok s =>
    rw [mutate, h]
    exact .inr ⟨s, _, hd.apply h, rfl, rfl, rfl, rfl, rfl, rfl⟩

theorem changes_applyResult (hd : d.scene.Consistent) (r : CommandResult) :
    Changes d ((d.applyResult r).map id Except.toOption) := by
  unfold applyResult
  dsimp only
  split
  · split
    · next error herror => exact .inl ⟨⟨rfl, rfl, rfl, rfl⟩, rfl⟩
    · next s hs =>
      have hs : s.Consistent := Scene.Consistent.replaceAll hs
      exact .inr ⟨s, _, hs, rfl, rfl, rfl, rfl, rfl, rfl⟩
  · exact .inr ⟨d.scene, _, hd, rfl, rfl, rfl, rfl, rfl, rfl⟩

theorem changes_change (hd : d.scene.Consistent) {c : SceneCall} (hc : d.Admits (.change c)) :
    Changes d (d.change c) := by
  cases c with
  | applyResult r => exact changes_applyResult hd r
  | delete id => exact changes_mutate hd _
  | setVisibility id visible => exact changes_mutate hd _
  | placePoint candidates x y =>
    have hs : (d.scene.placePoint candidates x y).1.Consistent := hd.push hc
    exact .inr ⟨_, _, hs, rfl, rfl, rfl, rfl, rfl, rfl⟩
  | sync => exact .inr ⟨d.scene, _, hd, rfl, passed_sync d⟩

end Changes

/-! ## All that an event can do -/

/-- The scene after a drag has ended: the point is where its object is, if both are still there. -/
def afterDrop (d : Diagram) (id : ElementId) (h : Handle) : Scene :=
  (((d.canvas.position? h).bind fun p => (d.scene.setPosition id p.x p.y).toOption)).getD d.scene

theorem consistent_afterDrop {d : Diagram} (hd : d.scene.Consistent) (id : ElementId) (h : Handle) :
    (d.afterDrop id h).Consistent := by
  unfold afterDrop
  cases hp : d.canvas.position? h with
  | none => exact hd
  | some p =>
    cases hs : d.scene.setPosition id p.x p.y with
    | error error =>
      rw [Option.bind_some, hs]
      exact hd
    | ok s =>
      have hs' : d.scene.apply (.movePoint id p.x p.y) = .ok s := hs
      rw [Option.bind_some, hs]
      exact hd.apply hs'

/-- The diagram when a drag has ended, before the live graph is brought in line. -/
def dropped (d : Diagram) (id : ElementId) (h : Handle) : Diagram :=
  { d with gesture := { d.gesture with grip := .idle }, scene := d.afterDrop id h }

/-- An event ends the drag in progress, which makes a pass with nothing held, or it makes no
pass. -/
inductive Handles (d : Diagram) : Diagram × Option ReconcileReport → Prop
  | follows {gesture : Gesture Float} {canvas : Canvas}
      (h : d.gesture.Follows d.graph d.canvas gesture canvas) :
      Handles d ({ d with gesture, canvas }, none)
  | drops {id : ElementId} {h : Handle} (hgrip : d.gesture.grip = .dragging id h) :
      Handles d ((d.dropped id h).sync.1, some (d.dropped id h).sync.2)

section Handles

variable {d : Diagram} {id : ElementId} {h : Handle}

theorem handle_of_drops {event : PointerEvent Float} {g : Gesture Float} {m : Option Mutation}
    (hd : d.gesture.handle d.graph d.canvas event = .ok (g, d.canvas, m))
    (hdrops : d.gesture.Drops d.canvas id h g m) :
    d.handle event = .ok ((d.dropped id h).sync.1, some (d.dropped id h).sync.2) := by
  have hheld : d.gesture.locked = some id := by rw [Gesture.locked, hdrops.grip]
  have hfree : g.locked = none := by rw [hdrops.idle, Gesture.locked]
  have hscene : ((m.bind fun m => (d.scene.apply m).toOption).getD d.scene) = d.afterDrop id h := by
    rw [hdrops.mutation, afterDrop]
    cases d.canvas.position? h with
    | none => rfl
    | some p => rfl
  simp only [handle, hd, bind, Except.bind, hheld, hfree, hscene, Option.isSome_some,
    Option.isNone_none, Bool.and_true, Bool.or_true, if_true]
  rw [hdrops.idle]
  rfl

/-- Releasing what is held always succeeds. -/
theorem handle_release (hgrip : d.gesture.grip = .dragging id h) :
    d.handle (.released .left) = .ok ((d.dropped id h).sync.1, some (d.dropped id h).sync.2) :=
  handle_of_drops (Gesture.handle_release_of_dragging d.graph d.canvas hgrip) ⟨hgrip, rfl, rfl⟩

theorem handles_handle (hg : d.graph.OnCanvas d.canvas) {event : PointerEvent Float}
    {outcome : Diagram × Option ReconcileReport} (hd : d.handle event = .ok outcome) :
    Handles d outcome := by
  cases hgesture : d.gesture.handle d.graph d.canvas event with
  | error error =>
    rw [handle, hgesture] at hd
    cases hd
  | ok result =>
    obtain ⟨g, canvas, m⟩ := result
    rcases Gesture.handle_cases hg.nodup hgesture with ⟨hfollows, rfl⟩ | ⟨id, h, hdrops, rfl⟩
    · -- nothing was let go, so no pass is made
      have hreleased : (d.gesture.locked.isSome && g.locked.isNone) = false := by
        cases hfree : g.locked with
        | some id => simp
        | none => simp [hfollows.locked_eq_none hfree]
      simp only [handle, hgesture, bind, Except.bind, Option.bind_none, hreleased,
        Option.isSome_none, Option.getD_none, Bool.or_false, Bool.false_eq_true, if_false] at hd
      cases hd
      exact .follows hfollows
    · rw [handle_of_drops hgesture hdrops, Except.ok.injEq] at hd
      rw [← hd]
      exact .drops hdrops.grip

end Handles

end Diagram

end Chalkboard
