import Chalkboard.Proofs.Canvas.Objects
import Chalkboard.Proofs.Gesture.Step

/-!
# What an event does

`Gesture.Follows` lists all that an event can do to the gesture and the canvas while no drag ends,
`Gesture.Drops` says what the end of a drag does; an event does nothing else (`Gesture.handle_cases`).
Only a point that is drawn and can be dragged is ever taken hold of, and only the end of a drag asks
for a change of the scene.
-/

namespace Chalkboard

namespace Gesture

/-! ## What is under the pointer -/

section Nearest

variable {α : Type} [Scalar α] {pointer : Point α} {reach : α}

theorem nearer_eq_or (best : Option (α × Target α)) (t : Target α) :
    nearer pointer reach best t = best ∨ ∃ d, nearer pointer reach best t = some (d, t) := by
  unfold nearer
  split
  · exact .inl rfl
  · next d hd =>
    split
    · exact .inr ⟨d, rfl⟩
    · split
      · exact .inr ⟨d, rfl⟩
      · exact .inl rfl

/-- The nearest of some targets is one of them. -/
theorem mem_of_nearest? {targets : List (Target α)} {t : Target α}
    (h : nearest? pointer reach targets = some t) : t ∈ targets := by
  -- the best so far is one of those looked at, or the one to begin with
  have hbest : ∀ (rest : List (Target α)) (best : Option (α × Target α)) (d : α) (t : Target α),
      rest.foldl (nearer pointer reach) best = some (d, t) → best = some (d, t) ∨ t ∈ rest := by
    intro rest
    induction rest with
    | nil =>
      intro best d t heq
      exact .inl heq
    | cons t' rest ih =>
      intro best d t heq
      rcases ih _ d t heq with hfirst | hmem
      · rcases nearer_eq_or best t' with hsame | ⟨d', hnew⟩
        · exact .inl (hsame.symm.trans hfirst)
        · rw [hnew, Option.some.injEq, Prod.mk.injEq] at hfirst
          exact .inr (List.mem_cons.2 (.inl hfirst.2.symm))
      · exact .inr (List.mem_cons_of_mem _ hmem)
  obtain ⟨⟨d, t'⟩, hfold, rfl⟩ := Option.map_eq_some_iff.1 h
  rcases hbest targets none d t' hfold with hnone | hmem
  · cases hnone
  · exact hmem

end Nearest

/-- A target shows the record of a drawn point. -/
theorem get?_of_mem_targets {graph : LiveGraph} {canvas : Canvas} {t : Target Float}
    (hnodup : graph.objects.keys.Nodup) (h : t ∈ graph.targets canvas) :
    ∃ o, graph.get? t.id = some o ∧ o.handle = t.handle ∧ o.draggable = t.draggable := by
  obtain ⟨⟨id, o⟩, hmem, rfl⟩ := List.mem_map.1 h
  have hobj : (id, o) ∈ graph.objects := (List.mem_filter.1 hmem).1
  exact ⟨o, Table.get?_of_mem hnodup hobj, rfl, rfl⟩

/-! ## All that can happen -/

/-- The gesture and the canvas after an event that ends no drag. -/
inductive Follows (g : Gesture Float) (graph : LiveGraph) (canvas : Canvas) :
    Gesture Float → Canvas → Prop
  /-- Nothing but the view changes, and whatever is held stays held. -/
  | looks {g' : Gesture Float} {canvas' : Canvas}
      (hgrip : g'.grip = g.grip ∨ g.locked = none ∧ g'.locked = none)
      (hcanvas : canvas' = canvas ∨ ∃ view, canvas' = canvas.setViewport view) :
      Follows g graph canvas g' canvas'
  /-- The object that is held follows the pointer. -/
  | drags {g' : Gesture Float} {id : ElementId} {h : Handle} (p : Point Float)
      (hgrip : g.grip = .dragging id h) (hgrip' : g'.grip = .dragging id h) :
      Follows g graph canvas g' (canvas.perform (.drag h p))
  /-- A point is taken hold of, whatever was held before. -/
  | grabs {g' : Gesture Float} {id : ElementId} {o : LiveObject} (ho : graph.get? id = some o)
      (hdrag : o.draggable = true) (hgrip' : g'.grip = .dragging id o.handle) :
      Follows g graph canvas g' canvas

/-- The gesture after a drag has ended, and the change of the scene that is asked for then: the
point moves to where its object is, if that is still there. -/
structure Drops (g : Gesture Float) (canvas : Canvas) (id : ElementId) (h : Handle)
    (g' : Gesture Float) (m : Option Mutation) : Prop where
  grip : g.grip = .dragging id h
  idle : g' = { g with grip := .idle }
  mutation : m = (canvas.position? h).map fun p => .movePoint id p.x p.y

section Cases

variable {g g' : Gesture Float} {graph : LiveGraph} {canvas canvas' : Canvas} {m : Option Mutation}

theorem locked_eq_none_of_panning {last : Point Float} (h : g.grip = .panning last) :
    g.locked = none := by
  rw [locked, h]

/-- Whatever an event does, it is one of these. -/
theorem follows_or_drops (hnodup : graph.objects.keys.Nodup) {event : PointerEvent Float}
    {effect : GestureEffect Float}
    (h : g.Takes canvas.viewport (graph.targets canvas) canvas.position? event g' effect) :
    (Follows g graph canvas g' (canvas.perform effect) ∧ effect.mutation? = none) ∨
      ∃ id handle, Drops g canvas id handle g' effect.mutation? ∧ canvas.perform effect = canvas := by
  cases h with
  | still | points => exact .inl ⟨.looks (.inl rfl) (.inl rfl), rfl⟩
  | pans pixel hgrip =>
    have hfree := locked_eq_none_of_panning hgrip
    exact .inl ⟨.looks (.inr ⟨hfree, rfl⟩) (.inr ⟨_, rfl⟩), rfl⟩
  | slips pixel hgrip =>
    have hfree := locked_eq_none_of_panning hgrip
    exact .inl ⟨.looks (.inr ⟨hfree, rfl⟩) (.inl rfl), rfl⟩
  | drags pixel hgrip hp => exact .inl ⟨.drags _ hgrip hgrip, rfl⟩
  | grabs hpointer ht hdrag =>
    obtain ⟨o, ho, hh, hd⟩ := get?_of_mem_targets hnodup (mem_of_nearest? ht)
    refine .inl ⟨.grabs ho (hd.trans hdrag) ?_, rfl⟩
    rw [hh]
  | begins hgrip =>
    have hfree : g.locked = none := by rw [locked, hgrip]
    exact .inl ⟨.looks (.inr ⟨hfree, rfl⟩) (.inl rfl), rfl⟩
  | ends hgone =>
    -- the end of a drag whose object is gone is a drop that asks for nothing
    cases hgrip : g.grip with
    | dragging id handle =>
      refine .inr ⟨id, handle, ⟨hgrip, rfl, ?_⟩, rfl⟩
      rw [hgone id handle hgrip]
      rfl
    | idle | panning =>
      have hfree : g.locked = none := by rw [locked, hgrip]
      exact .inl ⟨.looks (.inr ⟨hfree, rfl⟩) (.inl rfl), rfl⟩
  | drops hgrip hp =>
    refine .inr ⟨_, _, ⟨hgrip, rfl, ?_⟩, rfl⟩
    rw [hp]
    rfl
  | zooms => exact .inl ⟨.looks (.inl rfl) (.inr ⟨_, rfl⟩), rfl⟩

/-- The end of a drag asks to move the point to where its object is, if that is still there. -/
theorem handle_release_of_dragging {id : ElementId} {h : Handle} (graph : LiveGraph)
    (canvas : Canvas) (hgrip : g.grip = .dragging id h) :
    g.handle graph canvas (.released .left) =
      .ok ({ g with grip := .idle }, canvas,
        (canvas.position? h).map fun p => .movePoint id p.x p.y) := by
  cases hp : canvas.position? h with
  | none => simp [handle, step, release, hgrip, hp, Canvas.perform, GestureEffect.mutation?]
  | some p => simp [handle, step, release, hgrip, hp, Canvas.perform, GestureEffect.mutation?]

/-- An event ends the drag in progress, or it asks for no change of the scene. -/
theorem handle_cases (hnodup : graph.objects.keys.Nodup) {event : PointerEvent Float}
    (h : g.handle graph canvas event = .ok (g', canvas', m)) :
    (Follows g graph canvas g' canvas' ∧ m = none) ∨
      (∃ id handle, Drops g canvas id handle g' m ∧ canvas' = canvas) := by
  obtain ⟨effect, htakes, rfl, rfl⟩ := takes_of_handle h
  exact follows_or_drops hnodup htakes

/-! ## While no drag ends -/

namespace Follows

/-- What is held stays held, or a drawn point is taken hold of. -/
theorem locked_cases (h : Follows g graph canvas g' canvas') :
    g'.locked = g.locked ∨ ∃ id o, graph.get? id = some o ∧ g'.locked = some id := by
  cases h with
  | looks hgrip hcanvas =>
    rcases hgrip with hsame | ⟨hfree, hfree'⟩
    · exact .inl (by rw [locked, hsame, locked])
    · exact .inl (hfree'.trans hfree.symm)
  | drags p hgrip hgrip' => exact .inl (by rw [locked, hgrip', locked, hgrip])
  | grabs ho hdrag hgrip' => exact .inr ⟨_, _, ho, by rw [locked, hgrip']⟩

/-- Nothing is let go. -/
theorem locked_eq_none (h : Follows g graph canvas g' canvas') (hnone : g'.locked = none) :
    g.locked = none := by
  rcases h.locked_cases with hsame | ⟨id, o, -, hsome⟩
  · exact hsame.symm.trans hnone
  · rw [hnone] at hsome
    cases hsome

theorem alike (h : Follows g graph canvas g' canvas') : canvas.Alike canvas' := by
  cases h with
  | looks hgrip hcanvas =>
    rcases hcanvas with rfl | ⟨view, rfl⟩
    · exact .refl _
    · exact Canvas.alike_setViewport _ _
  | drags p hgrip hgrip' => exact Canvas.alike_perform _ _
  | grabs ho hdrag hgrip' => exact .refl _

theorem refusing (h : Follows g graph canvas g' canvas') :
    canvas'.refusing = canvas.refusing := by
  cases h with
  | looks hgrip hcanvas =>
    rcases hcanvas with rfl | ⟨view, rfl⟩
    · rfl
    · exact Canvas.refusing_perform canvas (.look view)
  | drags p hgrip hgrip' => exact Canvas.refusing_perform _ _
  | grabs ho hdrag hgrip' => rfl

/-- No object changes but the one that is held. -/
theorem object?_of_not_held (h : Follows g graph canvas g' canvas') {handle : Handle}
    (hfree : ∀ id, g.grip ≠ .dragging id handle) :
    canvas'.object? handle = canvas.object? handle := by
  cases h with
  | looks hgrip hcanvas =>
    rcases hcanvas with rfl | ⟨view, rfl⟩
    · rfl
    · simp [Canvas.object?, Canvas.setViewport]
  | @drags id held p hgrip hgrip' =>
    have hne : handle ≠ held := by
      rintro rfl
      exact hfree id hgrip
    simp only [Canvas.perform]
    split
    · next c hc =>
      obtain ⟨d, hd, -, rfl⟩ := Canvas.movePoint_eq_ok_iff.1 hc
      rw [Canvas.object?_counted, Canvas.object?_replace hd, if_neg hne]
    · rfl
  | grabs ho hdrag hgrip' => rfl

end Follows

end Cases

end Gesture

end Chalkboard
