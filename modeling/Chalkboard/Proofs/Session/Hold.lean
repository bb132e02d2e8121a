import Chalkboard.Proofs.Session.Calls

/-!
# What is held stays as it is

While a point is held, calls may replace the whole scene, and yet the object under the pointer is
left alone as long as the scene has an element with its id, of whatever kind
(`Diagram.held_object_kept`). The reason is an invariant of all calls, `Diagram.Sound`: the handle
that is held was given out before, so that no later object can have it, and the object that has it is
a free point, which refers to nothing and is not torn down with anything else.
-/

namespace Chalkboard

namespace Diagram

/-- What holds of every diagram that calls lead to. -/
structure Sound (d : Diagram) : Prop where
  scene : d.scene.Consistent
  onCanvas : d.graph.OnCanvas d.canvas
  draggable : ∀ id o, d.graph.get? id = some o → o.draggable = true → o.isFreePoint = true
  issued : ∀ id h, d.gesture.grip = .dragging id h → h.number ≤ d.canvas.lastHandle
  /-- If the object that is held is live, it is that of the element that is held. -/
  held : ∀ id h, d.gesture.grip = .dragging id h → ∀ id' o, d.graph.get? id' = some o →
    o.handle = h → id' = id ∧ o.draggable = true

/-! ## Every call keeps a diagram sound -/

/-- Nothing is live, and nothing is on the canvas. -/
theorem onCanvas_of_objects_eq_nil (defaults : Defaults) {c : Canvas} (hc : c.objects = []) :
    (LiveGraph.empty defaults).OnCanvas c := by
  have hempty : ∀ h d, c.object? h ≠ some d := by
    intro h d hd
    rw [Canvas.object?, hc] at hd
    cases hd
  constructor
  · constructor
    · rw [hc]
      exact List.nodup_nil
    · exact fun h d hd => absurd hd (hempty h d)
    · exact fun h d hd => absurd hd (hempty h d)
    · exact fun h d hd => absurd hd (hempty h d)
  · exact List.nodup_nil
  · intro id o ho
    cases ho
  · exact fun h d hd => absurd hd (hempty h d)

theorem sound_start (gestures : GestureSettings Float) {canvas : Canvas}
    (hcanvas : canvas.objects = []) : (start gestures canvas).Sound where
  scene := Scene.consistent_empty
  onCanvas := onCanvas_of_objects_eq_nil .standard hcanvas
  draggable := nofun
  issued := nofun
  held := nofun

namespace Sound

variable {d d' : Diagram}

theorem unchanged (hd : d.Sound) (h : Unchanged d d') : d'.Sound := by
  obtain ⟨hscene, hgraph, hgesture, hcanvas⟩ := h
  constructor
  · rw [hscene]
    exact hd.scene
  · rw [hgraph, hcanvas]
    exact hd.onCanvas
  · rw [hgraph]
    exact hd.draggable
  · rw [hgesture, hcanvas]
    exact hd.issued
  · rw [hgesture, hgraph]
    exact hd.held

/-- New objects have new handles, so none of them can be the one that is held. -/
theorem passed (hd : d.Sound) {s : Scene} (hs : s.Consistent) {report : ReconcileReport}
    (h : Passed d s d' report) : d'.Sound := by
  have houtcome := Pass.run_outcome d.gesture.locked hd.onCanvas hs
  have hinherits := Pass.run_inherits d.gesture.locked hd.onCanvas hs
  rw [← h.graph, ← h.canvas] at hinherits
  constructor
  · rw [h.scene]
    exact hs
  · rw [h.graph, h.canvas]
    exact houtcome.onCanvas
  · intro id o' ho' hdrag
    rcases hinherits.origin id o' ho' with ⟨o, ho, -, hsame, hfree⟩ | ⟨-, hfree⟩
    · rw [← hfree]
      exact hd.draggable id o ho (hsame.trans hdrag)
    · exact hfree hdrag
  · intro id h' hgrip
    rw [h.gesture] at hgrip
    exact Nat.le_trans (hd.issued id h' hgrip) hinherits.lastHandle
  · intro id h' hgrip id' o' ho' hh
    rw [h.gesture] at hgrip
    rcases hinherits.origin id' o' ho' with ⟨o, ho, hsame, hdrag, -⟩ | ⟨hyoung, -⟩
    · obtain ⟨hid, hheld⟩ := hd.held id h' hgrip id' o ho (hsame.trans hh)
      exact ⟨hid, hdrag ▸ hheld⟩
    · have hold := hd.issued id h' hgrip
      rw [hh] at hyoung
      omega

/-- Letting go of what is held keeps a diagram sound. -/
theorem dropped (hd : d.Sound) (id : ElementId) (h : Handle) : (d.dropped id h).Sound where
  scene := consistent_afterDrop hd.scene id h
  onCanvas := hd.onCanvas
  draggable := hd.draggable
  issued := nofun
  held := nofun

/-- A gesture that goes on keeps the objects on the canvas, and holds only what can be dragged. -/
theorem follows (hd : d.Sound) {g : Gesture Float} {c : Canvas}
    (h : d.gesture.Follows d.graph d.canvas g c) :
    ({ d with gesture := g, canvas := c } : Diagram).Sound := by
  have halike : d.canvas.Alike c := h.alike
  -- what is held was held before, or is the object just taken hold of
  have hheld : ∀ id h', g.grip = .dragging id h' → d.gesture.grip = .dragging id h' ∨
      ∃ o, d.graph.get? id = some o ∧ o.handle = h' ∧ o.draggable = true := by
    intro id h' hgrip
    cases h with
    | looks hsame hcanvas =>
      rcases hsame with hsame | ⟨-, hfree⟩
      · exact .inl (hsame.symm.trans hgrip)
      · rw [Gesture.locked, hgrip] at hfree
        cases hfree
    | drags p hold hnew =>
      rw [hnew, Grip.dragging.injEq] at hgrip
      obtain ⟨rfl, rfl⟩ := hgrip
      exact .inl hold
    | grabs ho hdrag hnew =>
      rw [hnew, Grip.dragging.injEq] at hgrip
      obtain ⟨rfl, rfl⟩ := hgrip
      exact .inr ⟨_, ho, rfl, hdrag⟩
  constructor
  · exact hd.scene
  · exact hd.onCanvas.alike halike
  · exact hd.draggable
  · intro id h' hgrip
    have hlast : c.lastHandle = d.canvas.lastHandle := halike.lastHandle
    rcases hheld id h' hgrip with hold | ⟨o, ho, rfl, -⟩
    · exact hlast ▸ hd.issued id h' hold
    · obtain ⟨x, hx, -⟩ := hd.onCanvas.drawn id o ho
      exact hlast ▸ hd.onCanvas.wellFormed.issued _ x hx
  · intro id h' hgrip id' o' ho' hh
    rcases hheld id h' hgrip with hold | ⟨o, ho, hsame, hdrag⟩
    · exact hd.held id h' hold id' o' ho' hh
    · have hid : id' = id := hd.onCanvas.handle_injective ho' ho (hh.trans hsame.symm)
      subst hid
      have ho' : d.graph.get? id' = some o' := ho'
      rw [ho, Option.some.injEq] at ho'
      exact ⟨rfl, ho' ▸ hdrag⟩

theorem handles (hd : d.Sound) {outcome : Diagram × Option ReconcileReport}
    (h : Handles d outcome) : outcome.1.Sound := by
  cases h with
  | follows h => exact hd.follows h
  | @drops id h hgrip =>
    have hdropped := hd.dropped id h
    exact hdropped.passed hdropped.scene (passed_sync _)

theorem changes (hd : d.Sound) {outcome : Diagram × Option ReconcileReport}
    (h : Changes d outcome) : outcome.1.Sound := by
  rcases h with ⟨hsame, -⟩ | ⟨s, report, hs, -, hpassed⟩
  · exact hd.unchanged hsame
  · exact hd.passed hs hpassed

theorem call (hd : d.Sound) {c : DiagramCall} (hc : d.Admits c) : (d.call c).1.Sound := by
  cases c with
  | handle event =>
    rw [Diagram.call]
    split
    · next outcome hok => exact hd.handles (handles_handle hd.onCanvas hok)
    · exact hd
  | change c => exact hd.changes (changes_change hd.scene hc)

end Sound

theorem sound_of_reachable {gestures : GestureSettings Float} {canvas : Canvas}
    (hcanvas : canvas.objects = []) {d : Diagram} (h : Reachable (start gestures canvas) d) :
    d.Sound := by
  induction h with
  | start => exact sound_start gestures hcanvas
  | call h hc ih => exact ih.call hc

/-! ## What is held -/

section Held

variable {d : Diagram} {id : ElementId} {h : Handle}

/-- The record of what is held, as long as it is live, is that of a free point. -/
theorem Sound.heldPoint (hd : d.Sound) (hgrip : d.gesture.grip = .dragging id h)
    (hlive : d.graph.handle? id = some h) :
    ∃ o, d.graph.get? id = some o ∧ o.handle = h ∧ o.isFreePoint = true := by
  obtain ⟨o, ho, hh⟩ := LiveGraph.handle?_eq_some_iff.1 hlive
  obtain ⟨-, hdrag⟩ := hd.held id h hgrip id o ho hh
  exact ⟨o, ho, hh, hd.draggable id o ho hdrag⟩

/-- A pass over a scene that still has an element with the id leaves what is held as it is. -/
theorem Sound.held_kept (hd : d.Sound) (hgrip : d.gesture.grip = .dragging id h)
    (hlive : d.graph.handle? id = some h) {s : Scene} (hs : s.Consistent)
    (hkept : s.contains id = true) {d' : Diagram} {report : ReconcileReport}
    (hpassed : Passed d s d' report) :
    d'.graph.get? id = d.graph.get? id ∧ d'.canvas.object? h = d.canvas.object? h := by
  obtain ⟨o, ho, rfl, hfree⟩ := hd.heldPoint hgrip hlive
  obtain ⟨x, hx, -⟩ := hd.onCanvas.drawn id o ho
  have hlocked : d.gesture.locked = some id := by rw [Gesture.locked, hgrip]
  have hstale : Pass.isStale s d.gesture.locked id o = false := by
    obtain ⟨e, he, hid⟩ := hs.contains_iff.1 hkept
    rw [Pass.isStale, hs.get?_eq_some_iff.2 ⟨he, hid⟩, hlocked]
    simp
  have hdoomed := Pass.not_mem_doomed hd.onCanvas.nodup ho hfree hstale
  obtain ⟨-, huntouched, -⟩ := Pass.run_retains d.gesture.locked hd.onCanvas hs ho hx hdoomed
  obtain ⟨ho', hx'⟩ := huntouched hlocked
  rw [hpassed.graph, hpassed.canvas, ho, hx]
  exact ⟨ho', hx'⟩

/-- While a point is held, and its object is still there, no call but the pointer's own events
touches the object or its record, as long as the scene has an element with its id afterwards. -/
theorem held_object_kept {gestures : GestureSettings Float} {canvas : Canvas}
    (hcanvas : canvas.objects = []) (hd : Reachable (start gestures canvas) d)
    (hgrip : d.gesture.grip = .dragging id h) (hlive : d.graph.handle? id = some h)
    (c : SceneCall) (hc : d.Admits (.change c))
    (hkept : (d.change c).1.scene.contains id = true) :
    ∃ o x, d.graph.get? id = some o ∧ o.handle = h ∧ d.canvas.object? h = some x ∧
      (d.change c).1.graph.get? id = some o ∧ (d.change c).1.canvas.object? h = some x := by
  have hsound := sound_of_reachable hcanvas hd
  obtain ⟨o, ho, hh, -⟩ := hsound.heldPoint hgrip hlive
  obtain ⟨x, hx, -⟩ := hsound.onCanvas.drawn id o ho
  rw [hh] at hx
  refine ⟨o, x, ho, hh, hx, ?_⟩
  rcases changes_change hsound.scene hc with ⟨hsame, -⟩ | ⟨s, report, hs, -, hpassed⟩
  · rw [hsame.graph, hsame.canvas]
    exact ⟨ho, hx⟩
  · rw [hpassed.scene] at hkept
    obtain ⟨hgraph, hobject⟩ := hsound.held_kept hgrip hlive hs hkept hpassed
    exact ⟨hgraph.trans ho, hobject.trans hx⟩

end Held

/-! ## A sample -/

/-- A point beside the middle of the view. -/
def samplePoint : CommandResult :=
  .geometry ⟨true, [.freePoint ⟨"p"⟩ 0.25 0], "", none⟩

/-- The point is drawn, and the pointer takes hold of it from the middle of the view. -/
def sampleHeld : Diagram :=
  let drawn := ((start .standard (.empty .standard)).call (.change (.applyResult samplePoint))).1
  let pointed := (drawn.call (.handle (.moved ⟨400, 300⟩))).1
  (pointed.call (.handle (.pressed .left))).1

theorem reachable_sampleHeld : Reachable (start .standard (.empty .standard)) sampleHeld := by
  apply Reachable.call (c := .handle (.pressed .left)) _ trivial
  apply Reachable.call (c := .handle (.moved ⟨400, 300⟩)) _ trivial
  exact Reachable.start.call (c := .change (.applyResult samplePoint)) trivial

theorem grip_sampleHeld : sampleHeld.gesture.grip = .dragging ⟨"p"⟩ ⟨1⟩ := by decide +kernel

theorem handle?_sampleHeld : sampleHeld.graph.handle? ⟨"p"⟩ = some ⟨1⟩ := by decide +kernel

/-- The point has become a hidden glider on a segment. -/
def sampleGlider : List Element :=
  [(Element.new ⟨"p"⟩ .point [.ref ⟨"s"⟩]).withProp "visible" (.bool false),
    .freePoint ⟨"a"⟩ 1 1, .freePoint ⟨"b"⟩ 2 1, .new ⟨"s"⟩ .segment [.ref ⟨"a"⟩, .ref ⟨"b"⟩]]

theorem held_object_kept_sample :
    let d := (sampleHeld.change (.applyResult (.geometry ⟨true, sampleGlider, "", none⟩))).1
    d.scene.contains ⟨"p"⟩ = true ∧ ∃ o x, sampleHeld.graph.get? ⟨"p"⟩ = some o ∧
      sampleHeld.canvas.object? ⟨1⟩ = some x ∧ d.graph.get? ⟨"p"⟩ = some o ∧
      d.canvas.object? ⟨1⟩ = some x := by
  intro d
  have hscene : d.scene = ⟨sampleGlider, Scene.indexOf sampleGlider, 2⟩ := rfl
  have hconsistent : d.scene.Consistent := by
    rw [hscene]
    exact Scene.consistent_indexOf (by decide) 2
  have hkept : d.scene.contains ⟨"p"⟩ = true := by
    rw [hconsistent.contains_iff, hscene]
    exact ⟨_, List.mem_cons_self .., rfl⟩
  obtain ⟨o, x, ho, -, hx, ho', hx'⟩ := held_object_kept rfl reachable_sampleHeld grip_sampleHeld
    handle?_sampleHeld (.applyResult (.geometry ⟨true, sampleGlider, "", none⟩)) trivial hkept
  exact ⟨hkept, o, x, ho, hx, ho', hx'⟩

end Diagram

end Chalkboard
