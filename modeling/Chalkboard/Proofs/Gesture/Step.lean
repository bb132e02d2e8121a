import Chalkboard.Gesture.Step

/-!
# All that an event can do

`Gesture.Takes` lists, event by event, the gestures and effects that can follow a gesture;
`Gesture.step` does nothing else (`Gesture.takes_of_step`). This holds for any kind of numbers.
Invariants of gestures are shown by going through the list.
-/

namespace Chalkboard

/-- The view after an effect. -/
def GestureEffect.after {α : Type} (view : Viewport α) : GestureEffect α → Viewport α
  | .look view' => view'
  | _ => view

namespace Gesture

variable {α : Type} [Scalar α]

/-- The gesture and the effect that an event can lead to. -/
inductive Takes (g : Gesture α) (view : Viewport α) (targets : List (Target α))
    (position? : Handle → Option (Point α)) : PointerEvent α → Gesture α → GestureEffect α → Prop
  /-- The event changes nothing. The release of the left button always ends the gesture. -/
  | still (event : PointerEvent α) (hevent : event ≠ .released .left) :
      Takes g view targets position? event g .nothing
  /-- The pointer moves, and nothing with it. -/
  | points (pixel : Point α) (hgrip : ∀ last, g.grip ≠ .panning last) :
      Takes g view targets position? (.moved pixel) { g with pixel } .nothing
  /-- The view goes with the pointer. -/
  | pans {last a b : Point α} (pixel : Point α) (hgrip : g.grip = .panning last)
      (ha : view.toUser? last = some a) (hb : view.toUser? pixel = some b) :
      Takes g view targets position? (.moved pixel) { g with pixel, grip := .panning pixel }
        (.look { view with box := view.box.shift (a.x - b.x) (a.y - b.y) })
  /-- The pointer moves where the view has no user coordinates. -/
  | slips {last : Point α} (pixel : Point α) (hgrip : g.grip = .panning last)
      (hnone : view.toUser? last = none ∨ view.toUser? pixel = none) :
      Takes g view targets position? (.moved pixel) { g with pixel, grip := .panning pixel }
        .nothing
  /-- The object that is held goes with the pointer. -/
  | drags {id : ElementId} {handle : Handle} {p : Point α} (pixel : Point α)
      (hgrip : g.grip = .dragging id handle) (hp : view.toUser? pixel = some p) :
      Takes g view targets position? (.moved pixel) { g with pixel } (.drag handle p)
  /-- A point is taken hold of. -/
  | grabs {pointer : Point α} {t : Target α} (hpointer : view.toUser? g.pixel = some pointer)
      (ht : nearest? pointer (view.reach g.settings.reachDivisor) targets = some t)
      (hdrag : t.draggable = true) :
      Takes g view targets position? (.pressed .left)
        { g with grip := .dragging t.id t.handle } .nothing
  /-- A pan begins. -/
  | begins (hgrip : g.grip = .idle) :
      Takes g view targets position? (.pressed .left) { g with grip := .panning g.pixel } .nothing
  /-- The gesture ends. -/
  | ends (hgone : ∀ id handle, g.grip = .dragging id handle → position? handle = none) :
      Takes g view targets position? (.released .left) { g with grip := .idle } .nothing
  /-- A drag ends where its object is. -/
  | drops {id : ElementId} {handle : Handle} {p : Point α} (hgrip : g.grip = .dragging id handle)
      (hp : position? handle = some p) :
      Takes g view targets position? (.released .left) { g with grip := .idle } (.drop id p)
  /-- The view is scaled about the pointer. -/
  | zooms {anchor : Point α} {scale : α} (delta : WheelDelta α)
      (hscale : clamp? g.settings.minScale g.settings.maxScale
        (g.scale * Scalar.pow g.settings.zoomFactor (-delta.notches)) = some scale)
      (hanchor : view.toUser? g.pixel = some anchor) :
      Takes g view targets position? (.wheel delta) { g with scale }
        (.look { view with box := view.box.zoomAt anchor (scale / g.scale) })

variable {g : Gesture α} {view : Viewport α} {targets : List (Target α)}
  {position? : Handle → Option (Point α)}

theorem takes_move (pixel : Point α) :
    Takes g view targets position? (.moved pixel) (g.move view pixel).1 (g.move view pixel).2 := by
  unfold move
  split
  · exact .still _ nofun
  · dsimp only
    split
    · next hgrip =>
      refine .points pixel ?_
      intro last hpan
      rw [hgrip] at hpan
      cases hpan
    · next last hgrip =>
      dsimp only
      split
      · next a b ha hb => exact .pans pixel hgrip ha hb
      · next hnone =>
        refine .slips pixel hgrip ?_
        rcases ha : view.toUser? last with _ | a
        · exact .inl rfl
        · rcases hb : view.toUser? pixel with _ | b
          · exact .inr rfl
          · exact (hnone a b ha hb).elim
    · next id handle hgrip =>
      split
      · next p hp => exact .drags pixel hgrip hp
      · refine .points pixel ?_
        intro last hpan
        rw [hgrip] at hpan
        cases hpan

theorem takes_press :
    Takes g view targets position? (.pressed .left) (g.press view targets) .nothing := by
  unfold press
  split
  · exact .still _ nofun
  · next pointer hpointer =>
    split
    · next t ht =>
      split
      · next hdrag => exact .grabs hpointer ht hdrag
      · exact .still _ nofun
    · split
      · next hgrip => exact .begins hgrip
      · exact .still _ nofun

theorem takes_release :
    Takes g view targets position? (.released .left) (g.release position?).1
      (g.release position?).2 := by
  unfold release
  dsimp only
  split
  · next id handle hgrip =>
    split
    · next p hp => exact .drops hgrip hp
    · next hgone =>
      refine .ends ?_
      intro id' handle' hgrip'
      rw [hgrip] at hgrip'
      cases hgrip'
      exact hgone
  · next hfree =>
    refine .ends ?_
    intro id handle hgrip
    exact absurd hgrip (hfree id handle)

theorem takes_turn {delta : WheelDelta α} {g' : Gesture α} {effect : GestureEffect α}
    (h : g.turn view delta = .ok (g', effect)) :
    Takes g view targets position? (.wheel delta) g' effect := by
  unfold turn at h
  dsimp only at h
  split at h
  · cases h
    exact .still _ nofun
  · split at h
    · cases h
    · next scale hscale =>
      split at h
      · cases h
        exact .still _ nofun
      · split at h
        · cases h
          exact .still _ nofun
        · next anchor hanchor =>
          cases h
          exact .zooms delta hscale hanchor

/-- The list is complete. -/
theorem takes_of_step {event : PointerEvent α} {g' : Gesture α} {effect : GestureEffect α}
    (h : g.step view targets position? event = .ok (g', effect)) :
    Takes g view targets position? event g' effect := by
  cases event with
  | moved pixel =>
    have hmove : g.move view pixel = (g', effect) := Except.ok.inj h
    have htakes : Takes g view targets position? _ _ _ := takes_move pixel
    rw [hmove] at htakes
    exact htakes
  | pressed button =>
    cases button with
    | left =>
      cases h
      exact takes_press
    | right | middle =>
      cases h
      exact .still _ nofun
  | released button =>
    cases button with
    | left =>
      have hrelease : g.release position? = (g', effect) := Except.ok.inj h
      have htakes : Takes g view targets position? _ _ _ := takes_release
      rw [hrelease] at htakes
      exact htakes
    | right | middle =>
      cases h
      exact .still _ nofun
  | wheel delta => exact takes_turn h

/-- Only the wheel can fail, and only where no scale lies within the limits. -/
theorem clamp?_of_step_error {event : PointerEvent α} {e : GestureError}
    (h : g.step view targets position? event = .error e) :
    ∃ delta, event = .wheel delta ∧
      clamp? g.settings.minScale g.settings.maxScale
        (g.scale * Scalar.pow g.settings.zoomFactor (-delta.notches)) = none := by
  cases event with
  | moved pixel => cases h
  | pressed button =>
    cases button with
    | left | right | middle => cases h
  | released button =>
    cases button with
    | left | right | middle => cases h
  | wheel delta =>
    refine ⟨delta, rfl, ?_⟩
    simp only [step] at h
    unfold turn at h
    dsimp only at h
    split at h
    · cases h
    · split at h
      · next hnone => exact hnone
      · split at h
        · cases h
        · split at h
          · cases h
          · cases h

/-! ## On the canvas -/

/-- An event on the canvas is one of the list, carried out. -/
theorem takes_of_handle {g g' : Gesture Float} {graph : LiveGraph} {canvas canvas' : Canvas}
    {event : PointerEvent Float} {m : Option Mutation}
    (h : g.handle graph canvas event = .ok (g', canvas', m)) :
    ∃ effect, g.Takes canvas.viewport (graph.targets canvas) canvas.position? event g' effect ∧
      canvas' = canvas.perform effect ∧ m = effect.mutation? := by
  rcases hstep : g.step canvas.viewport (graph.targets canvas) canvas.position? event with
    e | ⟨g'', effect⟩
  · simp only [handle, hstep] at h
    cases h
  · simp only [handle, hstep] at h
    cases h
    exact ⟨effect, takes_of_step hstep, rfl, rfl⟩

end Gesture

end Chalkboard
