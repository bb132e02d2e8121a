import Chalkboard.Proofs.Session.Hold

/-!
# The end of a drag

Releasing the pointer ends a drag in any case and always makes a pass. If the object is still that
of the element, and the element is still a free point, the element moves to where the object is, and
the object stays (`Diagram.afterDrop_of_position?`, `Diagram.Sound.drop_retains`); otherwise the
drag is dropped and the scene stays as it is (`Diagram.Sound.afterDrop_eq_self`).
-/

namespace Chalkboard

/-- Both coordinates are finite. -/
def Point.IsFinite (p : Point Float) : Prop :=
  p.x.isFinite = true ∧ p.y.isFinite = true

/-- A free point that is put anywhere is there. -/
theorem Element.position?_moved {e : Element} (hfree : e.position?.isSome = true) (x y : Float) :
    ({ e with parents := [.number x, .number y] } : Element).position? = some (x, y) := by
  obtain ⟨hkind, -⟩ := isSome_freePosition?_iff.1 hfree
  exact freePosition?_eq_some_iff.2 ⟨hkind, rfl⟩

namespace Diagram

/-! ## When the scene changes -/

/-- The point moves to where its object is. -/
theorem afterDrop_of_position? {d : Diagram} {id : ElementId} {h : Handle} {e : Element}
    {p : Point Float} (hp : d.canvas.position? h = some p) (he : d.scene.get? id = some e)
    (hfree : e.position?.isSome = true) :
    (d.afterDrop id h).get? id = some { e with parents := [.number p.x, .number p.y] } := by
  rcases Scene.setPosition_cases d.scene id p.x p.y with
    ⟨s, e', hok, he', -, hmoved⟩ | ⟨hnone, -⟩
  · rw [he, Option.some.injEq] at he'
    subst he'
    have hscene : d.afterDrop id h = s := by
      rw [afterDrop, hp, Option.bind_some, hok]
      rfl
    rw [hscene]
    exact hmoved
  · rw [hnone e he] at hfree
    cases hfree

namespace Sound

variable {d : Diagram} {id : ElementId} {h : Handle} {e : Element}

/-- The object of a held point has a place on the canvas. -/
theorem position?_of_live (hd : d.Sound) (hgrip : d.gesture.grip = .dragging id h)
    (hlive : d.graph.handle? id = some h) : ∃ p, d.canvas.position? h = some p := by
  obtain ⟨o, ho, rfl, hfree⟩ := hd.heldPoint hgrip hlive
  obtain ⟨x, hx, -⟩ := hd.onCanvas.drawn id o ho
  have hsome : x.position.isSome = true := (Pass.isSome_position hd.onCanvas ho hx).trans hfree
  obtain ⟨p, hp⟩ := Option.isSome_iff_exists.1 hsome
  exact ⟨p, by rw [Canvas.position?, hx, Option.bind_some, hp]⟩

/-- What is on the canvas under the handle that is held is the object of the element that is
held. -/
theorem live_of_position? (hd : d.Sound) (hgrip : d.gesture.grip = .dragging id h) {p : Point Float}
    (hp : d.canvas.position? h = some p) : d.graph.handle? id = some h := by
  obtain ⟨x, hx, -⟩ := Option.bind_eq_some_iff.1 hp
  obtain ⟨o, ho, hh⟩ := hd.onCanvas.live h x hx
  obtain ⟨hid, -⟩ := hd.held id h hgrip x.id o ho hh
  rw [hid] at ho
  exact LiveGraph.handle?_eq_some_iff.2 ⟨o, ho, hh⟩

/-- A drag whose point is gone, or not free any more, changes nothing. -/
theorem afterDrop_eq_self (hd : d.Sound) (hgrip : d.gesture.grip = .dragging id h)
    (hgone : d.graph.handle? id ≠ some h ∨ ∀ e, d.scene.get? id = some e → e.position? = none) :
    d.afterDrop id h = d.scene := by
  rw [afterDrop]
  cases hp : d.canvas.position? h with
  | none => rfl
  | some p =>
    rcases hgone with hgone | hbound
    · exact absurd (hd.live_of_position? hgrip hp) hgone
    · rcases Scene.setPosition_cases d.scene id p.x p.y with
        ⟨s, e, -, he, hfree, -⟩ | ⟨-, error, herror⟩
      · rw [hbound e he] at hfree
        cases hfree
      · rw [Option.bind_some, herror]
        rfl

/-! ## What becomes of the object -/

/-- The pass that ends a drag keeps the object where it is, and changes it only to show or hide
it. -/
theorem drop_retains (hd : d.Sound) {o : LiveObject} (ho : d.graph.get? id = some o)
    (hpoint : o.isFreePoint = true) {p : Point Float} (hp : d.canvas.position? o.handle = some p)
    (hfinite : p.IsFinite) (he : d.scene.get? id = some e) (hfree : e.position?.isSome = true) :
    (d.dropped id o.handle).sync.1.graph.handle? id = some o.handle ∧
      id ∉ (d.dropped id o.handle).sync.2.created ∧ id ∉ (d.dropped id o.handle).sync.2.removed ∧
      (id ∈ (d.dropped id o.handle).sync.2.updated → e.isVisible ≠ o.visible) := by
  have hs := consistent_afterDrop hd.scene id o.handle
  have hmoved := afterDrop_of_position? hp he hfree
  obtain ⟨x, hx, hplace⟩ := Option.bind_eq_some_iff.1 hp
  have hposition := Element.position?_moved hfree p.x p.y
  have hstale : Pass.isStale (d.afterDrop id o.handle) none id o = false := by
    rw [Pass.isStale, hmoved]
    have hsame := Pass.structurallyChanged_of_free hpoint (by rw [hposition]; rfl)
    simp [hsame]
  have hdoomed := Pass.not_mem_doomed hd.onCanvas.nodup ho hpoint hstale
  obtain ⟨⟨o', ho', hh⟩, -, hcreated, hremoved, hupdated⟩ :=
    Pass.run_retains none hd.onCanvas hs ho hx hdoomed
  refine ⟨LiveGraph.handle?_eq_some_iff.2 ⟨o', ho', hh⟩, hcreated, hremoved, ?_⟩
  intro hmem hvisible
  obtain ⟨e', he', hid, hchange⟩ := hupdated hmem
  have heq := hs.get?_eq_some_iff.2 ⟨he', hid⟩
  rw [hmoved, Option.some.injEq] at heq
  subst heq
  -- the object is exactly where the element is now
  apply hchange
  constructor
  · exact hvisible.symm
  · intro a b hab
    rw [hposition, Option.some.injEq, Prod.mk.injEq] at hab
    obtain ⟨rfl, rfl⟩ := hab
    exact ⟨p, hplace, Pass.AtPlace.isNear (.inl rfl) hfinite.1 hfinite.2⟩

end Sound

/-! ## The main result -/

/-- Releasing a held point lets go of it and makes a pass. If its object is still there and its
element still a free point, the element is exactly where the object is then, and the object has
neither been drawn anew nor removed, and counts as updated only to be shown or hidden. In all other
cases the scene is as it was. -/
theorem release_commits {gestures : GestureSettings Float} {canvas : Canvas}
    (hcanvas : canvas.objects = []) {d : Diagram} (hd : Reachable (start gestures canvas) d)
    {id : ElementId} {h : Handle} (hgrip : d.gesture.grip = .dragging id h)
    (hfinite : ∀ p, d.canvas.position? h = some p → p.IsFinite) :
    ∃ d' report, d.handle (.released .left) = .ok (d', some report) ∧
      d'.gesture.grip = .idle ∧
      (∀ o e, d.graph.get? id = some o → o.handle = h → d.scene.get? id = some e →
        e.position?.isSome = true →
          ∃ p e', d.canvas.position? h = some p ∧ d'.scene.get? id = some e' ∧
            e'.position? = some (p.x, p.y) ∧ d'.graph.handle? id = some h ∧
            id ∉ report.created ∧ id ∉ report.removed ∧
            (id ∈ report.updated → e.isVisible ≠ o.visible)) ∧
      (d.graph.handle? id ≠ some h ∨ (∀ e, d.scene.get? id = some e → e.position? = none) →
        d'.scene = d.scene) := by
  have hsound := sound_of_reachable hcanvas hd
  have hpassed := passed_sync (d.dropped id h)
  have hidle : (d.dropped id h).sync.1.gesture.grip = .idle := by
    rw [hpassed.gesture]
    rfl
  refine ⟨_, _, handle_release hgrip, hidle, ?_, ?_⟩
  -- the object that is held is live, so it has a place to which its element is moved
  · rintro o e ho rfl he hfree
    have hlive : d.graph.handle? id = some o.handle := LiveGraph.handle?_eq_some_iff.2 ⟨o, ho, rfl⟩
    obtain ⟨p, hp⟩ := hsound.position?_of_live hgrip hlive
    have hpoint : o.isFreePoint = true :=
      hsound.draggable id o ho (hsound.held id _ hgrip id o ho rfl).2
    have hmoved := afterDrop_of_position? hp he hfree
    refine ⟨p, _, hp, hmoved, Element.position?_moved hfree p.x p.y, ?_⟩
    exact hsound.drop_retains ho hpoint hp (hfinite p hp) he hfree
  · exact hsound.afterDrop_eq_self hgrip

/-- The point of the sample, dragged across the view. -/
def sampleDragged : Diagram :=
  (sampleHeld.call (.handle (.moved ⟨500, 150⟩))).1

theorem state_sampleDragged :
    sampleDragged.gesture.grip = .dragging ⟨"p"⟩ ⟨1⟩ ∧
      sampleDragged.canvas.position? ⟨1⟩ = some ⟨2.5, 5⟩ ∧
      sampleDragged.graph.handle? ⟨"p"⟩ = some ⟨1⟩ ∧
      sampleDragged.scene.elements.map (fun e => (e.id, e.position?.isSome)) =
        [(⟨"p"⟩, true)] := by
  decide +kernel

theorem release_commits_sample :
    ∃ d' report, sampleDragged.handle (.released .left) = .ok (d', some report) ∧
      d'.gesture.grip = .idle ∧ d'.graph.handle? ⟨"p"⟩ = some ⟨1⟩ ∧ ⟨"p"⟩ ∉ report.created ∧
      ∃ e, d'.scene.get? ⟨"p"⟩ = some e ∧ e.position? = some (2.5, 5) := by
  have hreachable : Reachable (start .standard (.empty .standard)) sampleDragged := by
    rw [sampleDragged]
    exact reachable_sampleHeld.call trivial
  obtain ⟨hgrip, hposition, hlive, hscene⟩ := state_sampleDragged
  have hfinite : ∀ p, sampleDragged.canvas.position? ⟨1⟩ = some p → p.IsFinite := by
    intro p hp
    rw [hposition, Option.some.injEq] at hp
    subst hp
    exact ⟨by decide, by decide⟩
  obtain ⟨o, ho, hh⟩ := LiveGraph.handle?_eq_some_iff.1 hlive
  obtain ⟨e, helements, heq⟩ := List.map_eq_singleton_iff.1 hscene
  obtain ⟨hid, hfree⟩ := Prod.mk.injEq .. ▸ heq
  have hsound := sound_of_reachable rfl hreachable
  have he : sampleDragged.scene.get? ⟨"p"⟩ = some e := by
    rw [hsound.scene.get?_eq_some_iff, helements]
    exact ⟨List.mem_cons_self .., hid⟩
  obtain ⟨d', report, hok, hidle, hcommit, -⟩ := release_commits rfl hreachable hgrip hfinite
  obtain ⟨p, e', hp, he', hplace, hkept, hcreated, -⟩ := hcommit o e ho hh he hfree
  rw [hposition, Option.some.injEq] at hp
  subst hp
  exact ⟨d', report, hok, hidle, hkept, hcreated, e', he', hplace⟩

end Diagram

end Chalkboard
