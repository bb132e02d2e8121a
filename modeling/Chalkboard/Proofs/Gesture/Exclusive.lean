import Mathlib.Logic.Relation
import Mathlib.Tactic.ByContra
import Chalkboard.Proofs.Canvas.Objects
import Chalkboard.Proofs.Gesture.Step

/-!
# One effect at a time

An event changes the view, or moves the object that is held, or asks for a change of the scene, and
never two of these (`Gesture.handle_arbitrated`). Whatever the canvas and the drawn points have become
since the last event, nothing else on the canvas changes. So over a whole run of events no object
comes, goes, appears or disappears (`Gesture.keys_run`), and an object that is never held stays as it
is (`Gesture.object?_run`).
-/

namespace Chalkboard

namespace Canvas

@[simp] theorem viewport_paint (c : Canvas) : c.paint.viewport = c.viewport := by
  unfold paint
  split <;> rfl

@[simp] theorem viewport_counted (c : Canvas) (f : Counters → Counters) :
    (c.counted f).viewport = c.viewport := by
  simp [counted]

/-- A drag moves the object, or does nothing where there is none to move. -/
theorem perform_drag (c : Canvas) (h : Handle) (p : Point Float) :
    c.perform (.drag h p) = c ∨ ∃ d, c.object? h = some d ∧
      c.perform (.drag h p) = (c.replace h { d with position := some p }).counted fun n =>
        { n with moves := n.moves + 1 } := by
  simp only [perform]
  split
  · next c' hc =>
    obtain ⟨d, hd, -, rfl⟩ := movePoint_eq_ok_iff.1 hc
    exact .inr ⟨d, hd, rfl⟩
  · exact .inl rfl

end Canvas

namespace Gesture

/-- What an event does to the canvas, and the change of the scene that it asks for. -/
structure Arbitrated (g : Gesture Float) (canvas : Canvas) (event : PointerEvent Float)
    (canvas' : Canvas) (m : Option Mutation) : Prop where
  /-- Where the view changes, no object moves and nothing is asked for. -/
  looks : canvas'.viewport ≠ canvas.viewport → canvas'.objects = canvas.objects ∧ m = none
  /-- Where an object moves, nothing is asked for. -/
  moves : canvas'.objects ≠ canvas.objects → m = none
  /-- The view changes with the wheel or during a pan only. -/
  viewport : canvas'.viewport ≠ canvas.viewport →
    (∃ delta, event = .wheel delta) ∨ ∃ pixel last, event = .moved pixel ∧ g.grip = .panning last
  /-- An object changes only in its place, and only while it is held and the pointer moves. -/
  object : ∀ h, canvas'.object? h ≠ canvas.object? h →
    (∃ id pixel, event = .moved pixel ∧ g.grip = .dragging id h) ∧
      ∃ d p, canvas.object? h = some d ∧ canvas'.object? h = some { d with position := some p }
  /-- The objects are the same. -/
  keys : canvas'.objects.keys = canvas.objects.keys
  /-- What is asked for is to move the point that a drag has just ended with to where its object
  is. -/
  mutation : ∀ change, m = some change ↔ ∃ id h p, event = .released .left ∧
    g.grip = .dragging id h ∧ canvas.position? h = some p ∧ change = .movePoint id p.x p.y

namespace Arbitrated

variable {g : Gesture Float} {canvas canvas' : Canvas} {event : PointerEvent Float}
  {m : Option Mutation}

/-- Nothing happens, unless a drag ends. -/
theorem unchanged (hevent : event = .released .left → ∀ id h, g.grip = .dragging id h →
    canvas.position? h = none) : Arbitrated g canvas event canvas none where
  looks h := absurd rfl h
  moves h := absurd rfl h
  viewport h := absurd rfl h
  object _ h := absurd rfl h
  keys := rfl
  mutation change := by
    constructor
    · intro hm
      cases hm
    · rintro ⟨id, h, p, hreleased, hgrip, hp, -⟩
      rw [hevent hreleased id h hgrip] at hp
      cases hp

/-- Only the view changes. -/
theorem setViewport (view : Viewport Float)
    (hevent : (∃ delta, event = .wheel delta) ∨
      ∃ pixel last, event = .moved pixel ∧ g.grip = .panning last) :
    Arbitrated g canvas event (canvas.setViewport view) none := by
  have hobjects : (canvas.setViewport view).objects = canvas.objects := by
    simp [Canvas.setViewport]
  have hobject (h : Handle) : (canvas.setViewport view).object? h = canvas.object? h := by
    rw [Canvas.object?, hobjects, Canvas.object?]
  refine ⟨fun _ => ⟨hobjects, rfl⟩, fun _ => rfl, fun _ => hevent, ?_, ?_, ?_⟩
  · intro h hne
    exact absurd (hobject h) hne
  · rw [hobjects]
  · intro change
    constructor
    · intro hm
      cases hm
    · rintro ⟨id, h, p, rfl, -⟩
      rcases hevent with ⟨delta, hwheel⟩ | ⟨pixel, last, hmoved, -⟩
      · cases hwheel
      · cases hmoved

/-- Only the object that is held moves. -/
theorem replace {id : ElementId} {h : Handle} {d : Drawn} {pixel : Point Float}
    (hgrip : g.grip = .dragging id h) (hd : canvas.object? h = some d) (p : Point Float)
    (f : Counters → Counters) :
    Arbitrated g canvas (.moved pixel)
      ((canvas.replace h { d with position := some p }).counted f) none where
  looks hne := by
    refine absurd ?_ hne
    simp [Canvas.replace]
  moves _ := rfl
  viewport hne := by
    refine absurd ?_ hne
    simp [Canvas.replace]
  object h' hne := by
    rw [Canvas.object?_counted, Canvas.object?_replace hd] at hne ⊢
    by_cases hsame : h' = h
    · rw [if_pos hsame, hsame]
      exact ⟨⟨id, pixel, rfl, hgrip⟩, d, p, hd, rfl⟩
    · rw [if_neg hsame] at hne
      exact absurd rfl hne
  keys := by simp [Canvas.replace]
  mutation change := by
    constructor
    · intro hm
      cases hm
    · rintro ⟨id', h', p', hreleased, -⟩
      cases hreleased

/-- A drag ends, and only the scene is to change. -/
theorem drop {id : ElementId} {h : Handle} {p : Point Float} (hgrip : g.grip = .dragging id h)
    (hp : canvas.position? h = some p) :
    Arbitrated g canvas (.released .left) canvas (some (.movePoint id p.x p.y)) where
  looks hne := absurd rfl hne
  moves hne := absurd rfl hne
  viewport hne := absurd rfl hne
  object _ hne := absurd rfl hne
  keys := rfl
  mutation change := by
    constructor
    · intro hm
      exact ⟨id, h, p, rfl, hgrip, hp, (Option.some.inj hm).symm⟩
    · rintro ⟨id', h', p', -, hgrip', hp', rfl⟩
      -- the drag and the place of its object are the same
      rw [hgrip] at hgrip'
      cases hgrip'
      rw [hp] at hp'
      cases hp'
      rfl

/-- An object is shown or hidden by no event. -/
theorem visible (ha : Arbitrated g canvas event canvas' m) (h : Handle) :
    (canvas'.object? h).map Drawn.visible = (canvas.object? h).map Drawn.visible := by
  by_cases hsame : canvas'.object? h = canvas.object? h
  · rw [hsame]
  · obtain ⟨-, d, p, hd, hd'⟩ := ha.object h hsame
    rw [hd, hd']
    rfl

end Arbitrated

/-! ## Every event -/

section Step

variable {g g' : Gesture Float} {canvas : Canvas} {event : PointerEvent Float}

theorem arbitrated_of_takes {targets : List (Target Float)} {effect : GestureEffect Float}
    (h : g.Takes canvas.viewport targets canvas.position? event g' effect) :
    Arbitrated g canvas event (canvas.perform effect) effect.mutation? := by
  cases h with
  | still event hevent => exact .unchanged fun hreleased => absurd hreleased hevent
  | points | slips | grabs | begins => exact .unchanged nofun
  | pans pixel hgrip => exact .setViewport _ (.inr ⟨pixel, _, rfl, hgrip⟩)
  | @drags id held p pixel hgrip hp =>
    rcases canvas.perform_drag held p with hsame | ⟨d, hd, hmoved⟩
    · rw [hsame]
      exact .unchanged nofun
    · rw [hmoved]
      exact .replace hgrip hd p _
  | ends hgone => exact .unchanged fun _ => hgone
  | drops hgrip hp => exact .drop hgrip hp
  | zooms delta => exact .setViewport _ (.inl ⟨delta, rfl⟩)

theorem arbitrated_of_handle {graph : LiveGraph} {canvas' : Canvas} {m : Option Mutation}
    (h : g.handle graph canvas event = .ok (g', canvas', m)) :
    Arbitrated g canvas event canvas' m := by
  obtain ⟨effect, htakes, rfl, rfl⟩ := takes_of_handle h
  exact arbitrated_of_takes htakes

theorem locked_eq_some_iff {id : ElementId} :
    g.locked = some id ↔ ∃ h, g.grip = .dragging id h := by
  unfold locked
  cases g.grip with
  | idle => simp
  | panning last => simp
  | dragging id' h => simp

end Step

/-- In whatever state, and whatever the canvas and the drawn points have become, an event has at
most one effect, and that is the one that the gesture in progress allows. No object comes, goes,
appears or disappears. Only the wheel can fail, with limits that leave no scale, and then nothing
has happened. An element is locked exactly while it is dragged. -/
theorem handle_arbitrated (g : Gesture Float) (graph : LiveGraph) (canvas : Canvas)
    (event : PointerEvent Float) :
    ((∃ g' canvas' m, g.handle graph canvas event = .ok (g', canvas', m) ∧
        Arbitrated g canvas event canvas' m ∧
        (∀ h, (canvas'.object? h).map Drawn.visible = (canvas.object? h).map Drawn.visible) ∧
        ∀ id, g'.locked = some id ↔ ∃ h, g'.grip = .dragging id h) ∨
      ∃ delta, event = .wheel delta ∧ ¬ g.settings.minScale ≤ g.settings.maxScale ∧
        g.handle graph canvas event = .error .noScale) ∧
    ∀ id, g.locked = some id ↔ ∃ h, g.grip = .dragging id h := by
  refine ⟨?_, fun id => locked_eq_some_iff⟩
  rcases hstep : g.step canvas.viewport (graph.targets canvas) canvas.position? event with
    e | ⟨g', effect⟩
  -- only the wheel can fail, and it does so before anything has changed
  · obtain ⟨delta, rfl, hnone⟩ := clamp?_of_step_error hstep
    refine .inr ⟨delta, rfl, ?_, ?_⟩
    · intro hlimits
      have hle : Scalar.le g.settings.minScale g.settings.maxScale = true := decide_eq_true hlimits
      simp [clamp?, hle] at hnone
    · cases e
      simp only [handle, hstep]
      rfl
  · have hhandle : g.handle graph canvas event =
        .ok (g', canvas.perform effect, effect.mutation?) := by
      simp only [handle, hstep]
      rfl
    have ha := arbitrated_of_handle hhandle
    exact .inl ⟨_, _, _, hhandle, ha, ha.visible, fun id => locked_eq_some_iff⟩

/-! ## Runs of events -/

/-- One event, whatever points are listed as drawn. -/
def Handles (x y : Gesture Float × Canvas) : Prop :=
  ∃ graph event m, x.1.handle graph x.2 event = .ok (y.1, y.2, m)

theorem keys_run {x y : Gesture Float × Canvas} (h : Relation.ReflTransGen Handles x y) :
    y.2.objects.keys = x.2.objects.keys ∧
      ∀ h, (y.2.object? h).map Drawn.visible = (x.2.object? h).map Drawn.visible := by
  induction h with
  | refl => exact ⟨rfl, fun _ => rfl⟩
  | tail _ hhandles ih =>
    obtain ⟨graph, event, m, hhandle⟩ := hhandles
    have ha := arbitrated_of_handle hhandle
    exact ⟨ha.keys.trans ih.1, fun h => (ha.visible h).trans (ih.2 h)⟩

/-- An object that is not held at any event of a run stays as it is. -/
theorem object?_run {h : Handle} {x y : Gesture Float × Canvas}
    (hrun : Relation.ReflTransGen
      (fun x y => (∀ id, x.1.grip ≠ .dragging id h) ∧ Handles x y) x y) :
    y.2.object? h = x.2.object? h := by
  induction hrun with
  | refl => rfl
  | tail _ hhandles ih =>
    obtain ⟨hfree, graph, event, m, hhandle⟩ := hhandles
    rw [← ih]
    by_contra hne
    obtain ⟨⟨id, pixel, -, hgrip⟩, -⟩ := (arbitrated_of_handle hhandle).object h hne
    exact hfree id hgrip

end Gesture

end Chalkboard
