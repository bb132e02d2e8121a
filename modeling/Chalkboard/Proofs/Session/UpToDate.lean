import Chalkboard.Proofs.Session.Hold

/-!
# When another pass has nothing to do

A diagram is up to date if a pass would have nothing to do for any element but the one that is held.
Every call that makes a pass leaves the diagram up to date, and a gesture keeps it so as long as no
other point is taken hold of while one is held. Such a hand-over exempts another element and makes no
pass (`Diagram.sync_isNoop`), so what the first one missed while it was held stays undone
(`Diagram.sync_after_hand_over`).
-/

namespace Chalkboard

namespace Diagram

/-- A pass has nothing to do. -/
def UpToDate (d : Diagram) : Prop :=
  Pass.Done d.scene d.gesture.locked (Pass.start d.graph d.canvas)

/-- Another element is held than before. -/
def HandsOver (d d' : Diagram) : Prop :=
  ∃ id id', d.gesture.locked = some id ∧ d'.gesture.locked = some id' ∧ id ≠ id'

section UpToDate

variable {d d' : Diagram}

theorem UpToDate.isNoop (hd : d.UpToDate) (hs : d.scene.Consistent) (hf : d.scene.IsFinite) :
    d.sync.2.isNoop = true := by
  obtain ⟨-, -, hcreated, hupdated, hremoved⟩ := Pass.Done.rerun hd hs hf
  have hreport := (passed_sync d).report
  rw [hreport, ReconcileReport.isNoop, hcreated, hupdated, hremoved]
  rfl

theorem upToDate_start (gestures : GestureSettings Float) {canvas : Canvas}
    (hcanvas : canvas.objects = []) : (start gestures canvas).UpToDate where
  onCanvas := (sound_start gestures hcanvas).onCanvas.alike (Canvas.alike_suspend _)
  inScene := nofun
  inLine := nofun
  turnedDown := nofun

/-- A pass leaves nothing to do. -/
theorem upToDate_of_passed (hd : d.Sound) {s : Scene} (hs : s.Consistent)
    {report : ReconcileReport} (h : Passed d s d' report) : d'.UpToDate := by
  have houtcome := Pass.run_outcome d.gesture.locked hd.onCanvas hs
  rw [UpToDate, h.scene, h.gesture, h.graph, h.canvas]
  exact houtcome.done

theorem UpToDate.unchanged (hd : d.UpToDate) (h : Unchanged d d') : d'.UpToDate := by
  rw [UpToDate, h.scene, h.gesture, h.graph, h.canvas]
  exact hd

/-- Without a hand-over, an element that is not held now was not held before. -/
theorem locked_ne_of_not_handsOver (hno : ¬HandsOver d d')
    (hkeep : d'.gesture.locked = none → d.gesture.locked = none) {id : ElementId}
    (hfree : d'.gesture.locked ≠ some id) : d.gesture.locked ≠ some id := by
  intro hheld
  cases hnow : d'.gesture.locked with
  | none =>
    rw [hkeep hnow] at hheld
    cases hheld
  | some id' =>
    by_cases hid : id = id'
    · exact hfree (hid ▸ hnow)
    · exact hno ⟨id, id', hheld, hnow, hid⟩

/-- A gesture moves at most the object that is held, which a pass leaves alone. -/
theorem UpToDate.follows (hd : d.UpToDate) (hsound : d.Sound) {g : Gesture Float} {c : Canvas}
    (h : d.gesture.Follows d.graph d.canvas g c)
    (hno : ¬HandsOver d { d with gesture := g, canvas := c }) :
    ({ d with gesture := g, canvas := c } : Diagram).UpToDate where
  onCanvas := (hsound.follows h).onCanvas.alike (Canvas.alike_suspend _)
  inScene := hd.inScene
  inLine := by
    intro e he hfree o x ho hx
    have hfree' : d.gesture.locked ≠ some e.id :=
      locked_ne_of_not_handsOver hno h.locked_eq_none hfree
    have hother : ∀ id, d.gesture.grip ≠ .dragging id o.handle := by
      intro id hgrip
      obtain ⟨hid, -⟩ := hsound.held id o.handle hgrip e.id o ho rfl
      rw [hid, Gesture.locked, hgrip] at hfree'
      exact hfree' rfl
    have hx : c.object? o.handle = some x := hx
    rw [h.object?_of_not_held hother] at hx
    exact hd.inLine e he hfree' o x ho hx
  turnedDown := by
    intro e he hnew hlive
    have hrefusing : (Pass.start d.graph c).canvas.refusing = d.canvas.refusing := h.refusing
    rw [hrefusing]
    exact hd.turnedDown e he hnew hlive

end UpToDate

/-! ## Calls -/

/-- The diagrams that calls lead to without a hand-over since the last pass. -/
inductive Undisturbed (start : Diagram) : Diagram → Prop
  | start : Undisturbed start start
  /-- A call makes a pass, whatever went before. -/
  | passed {d : Diagram} (h : Reachable start d) {c : DiagramCall} (hc : d.Admits c)
      (hpass : (d.call c).2.isSome = true) : Undisturbed start (d.call c).1
  | call {d : Diagram} (h : Undisturbed start d) {c : DiagramCall} (hc : d.Admits c)
      (hno : ¬HandsOver d (d.call c).1) : Undisturbed start (d.call c).1

theorem Undisturbed.reachable {start d : Diagram} (h : Undisturbed start d) :
    Reachable start d := by
  induction h with
  | start => exact .start
  | passed h hc hpass => exact h.call hc
  | call h hc hno ih => exact ih.call hc

section Calls

variable {d : Diagram}

/-- A call that makes a pass leaves the diagram up to date. -/
theorem Sound.upToDate_call (hd : d.Sound) {c : DiagramCall} (hc : d.Admits c)
    (hpass : (d.call c).2.isSome = true) : (d.call c).1.UpToDate := by
  cases c with
  | handle event =>
    rw [Diagram.call] at hpass ⊢
    split at hpass
    · next outcome hok =>
      cases handles_handle hd.onCanvas hok with
      | follows hfollows => cases hpass
      | @drops id h hgrip =>
        have hdropped := hd.dropped id h
        exact upToDate_of_passed hdropped hdropped.scene (passed_sync _)
    · cases hpass
  | change c =>
    rw [Diagram.call] at hpass ⊢
    rcases changes_change hd.scene hc with ⟨-, hnone⟩ | ⟨s, report, hs, -, hpassed⟩
    · rw [hnone] at hpass
      cases hpass
    · exact upToDate_of_passed hd hs hpassed

/-- A call without a hand-over keeps the diagram up to date. -/
theorem UpToDate.call (h : d.UpToDate) (hd : d.Sound) {c : DiagramCall} (hc : d.Admits c)
    (hno : ¬HandsOver d (d.call c).1) : (d.call c).1.UpToDate := by
  cases hpass : (d.call c).2 with
  | some report => exact hd.upToDate_call hc (by rw [hpass]; rfl)
  | none =>
    cases c with
    | handle event =>
      rw [Diagram.call] at hpass hno ⊢
      split at hpass
      · next outcome hok =>
        rw [hok] at hno
        cases handles_handle hd.onCanvas hok with
        | follows hfollows => exact h.follows hd hfollows hno
        | drops hgrip => cases hpass
      · exact h
    | change c =>
      rw [Diagram.call] at hpass ⊢
      rcases changes_change hd.scene hc with ⟨hsame, -⟩ | ⟨s, report, hs, hsome, -⟩
      · exact h.unchanged hsame
      · rw [hsome] at hpass
        cases hpass

theorem Undisturbed.upToDate {gestures : GestureSettings Float} {canvas : Canvas}
    (hcanvas : canvas.objects = []) (h : Undisturbed (Diagram.start gestures canvas) d) :
    d.UpToDate := by
  induction h with
  | start => exact upToDate_start gestures hcanvas
  | passed h hc hpass => exact (sound_of_reachable hcanvas h).upToDate_call hc hpass
  | call h hc hno ih => exact ih.call (sound_of_reachable hcanvas h.reachable) hc hno

end Calls

/-! ## The main result -/

/-- Unless another point was taken hold of while one was held, and no pass was made since, another
pass has nothing to do. An event that leaves nothing held where something was held makes a pass; one
that takes hold of another point makes none. -/
theorem sync_isNoop {gestures : GestureSettings Float} {canvas : Canvas}
    (hcanvas : canvas.objects = []) :
    (∀ d, Undisturbed (start gestures canvas) d → d.scene.IsFinite → d.sync.2.isNoop = true) ∧
    ∀ d, Reachable (start gestures canvas) d → ∀ event d' report,
      d.handle event = .ok (d', report) →
        (d.gesture.locked.isSome = true → d'.gesture.locked = none → report.isSome = true) ∧
        (HandsOver d d' → report = none) := by
  constructor
  · intro d hd hfinite
    have hsound := sound_of_reachable hcanvas hd.reachable
    exact (hd.upToDate hcanvas).isNoop hsound.scene hfinite
  · intro d hd event d' report hok
    have hsound := sound_of_reachable hcanvas hd
    cases handles_handle hsound.onCanvas hok with
    | follows hfollows =>
      refine ⟨fun hheld hnone => ?_, fun _ => rfl⟩
      rw [hfollows.locked_eq_none hnone] at hheld
      cases hheld
    | @drops id h hgrip =>
      refine ⟨fun _ _ => rfl, ?_⟩
      rintro ⟨i, j, -, hnow, -⟩
      rw [(passed_sync (d.dropped id h)).gesture] at hnow
      cases hnow

/-- Bringing the glider of the sample in line while its point is held leaves nothing else to do. -/
theorem sync_isNoop_sample :
    let d := (sampleHeld.call (.change (.applyResult (.geometry ⟨true, sampleGlider, "", none⟩)))).1
    d.scene.IsFinite ∧ d.sync.2.isNoop = true := by
  intro d
  have hscene : d.scene = ⟨sampleGlider, Scene.indexOf sampleGlider, 2⟩ := rfl
  have hfinite : d.scene.IsFinite := by
    rw [hscene]
    decide
  have hundisturbed : Undisturbed (start .standard (.empty .standard)) d :=
    .passed reachable_sampleHeld trivial rfl
  exact ⟨hfinite, (sync_isNoop rfl).1 d hundisturbed hfinite⟩

/-! ## A hand-over -/

/-- The visits of a pass, without the teardown. -/
def visits (scene : Scene) (locked : Option ElementId) (g : LiveGraph) (c : Canvas) : Pass :=
  let (p, waiting) := Pass.sweep scene locked (Pass.start g c)
  let (p, deferred) := p.settle waiting waiting.length
  p.finish deferred

/-- A press that takes hold of a point ends no drag, and makes no pass. -/
theorem handle_press {d : Diagram} {id : ElementId}
    (h : (d.gesture.press d.canvas.viewport (d.graph.targets d.canvas)).locked = some id) :
    d.handle (.pressed .left) =
      .ok ({ d with
        gesture := d.gesture.press d.canvas.viewport (d.graph.targets d.canvas) }, none) := by
  simp [handle, Gesture.handle, Gesture.step, bind, Except.bind, pure, Except.pure, h,
    Canvas.perform, GestureEffect.mutation?]

/-- A result that can be shown makes a pass over its elements. -/
theorem passed_replaceAll {d : Diagram} {elements : List Element} {s : Scene}
    (hs : d.scene.replaceAll elements = .ok s) :
    Passed d s (d.change (.applyResult (.geometry ⟨true, elements, "", none⟩))).1
      (Pass.run d.graph s d.canvas d.gesture.locked).report := by
  simp only [change, applyResult, CommandResult.success, if_true, hs]
  exact ⟨rfl, rfl, rfl, rfl, rfl⟩

/-- Over a scene in which all live objects are free points, nothing is torn down. -/
theorem run_of_free {scene : Scene} (hs : scene.Consistent) {g : LiveGraph}
    (hnodup : g.objects.keys.Nodup) (c : Canvas) (locked : Option ElementId)
    (h : ∀ entry ∈ g.objects, entry.2.isFreePoint = true ∧
      ∃ e ∈ scene.elements, e.id = entry.1 ∧ e.position?.isSome = true) :
    Pass.run g scene c locked = visits scene locked g c := by
  have hstale : ∀ id o, g.get? id = some o → Pass.isStale scene locked id o = false := by
    intro id o ho
    obtain ⟨hpoint, e, he, hid, hposition⟩ := h (id, o) (Table.mem_of_get? ho)
    rw [Pass.isStale, hs.get?_eq_some_iff.2 ⟨he, hid⟩]
    simp [Pass.structurallyChanged_of_free hpoint hposition]
  rw [Pass.run, Pass.removeStale_eq_self hnodup hstale]
  rfl

/-- The sample while its point is held, after a result with another scene. -/
def sampleShowing (s : Scene) : Diagram :=
  (sampleHeld.call (.change (.applyResult (.geometry ⟨true, s.elements, "", none⟩)))).1

/-- The same after another press. -/
def sampleRegripped (s : Scene) : Diagram :=
  ((sampleShowing s).call (.handle (.pressed .left))).1

/-- The pass over another scene while the point of the sample is held. -/
def samplePass (s : Scene) : Pass :=
  visits s (some ⟨"p"⟩) sampleHeld.graph sampleHeld.canvas

theorem state_sampleShowing {s : Scene} (hs : s.Consistent)
    (hreplace : sampleHeld.scene.replaceAll s.elements = .ok s)
    (hfree : ∃ e ∈ s.elements, e.id = ⟨"p"⟩ ∧ e.position?.isSome = true) :
    (sampleShowing s).scene = s ∧ (sampleShowing s).gesture = sampleHeld.gesture ∧
      (sampleShowing s).graph = (samplePass s).graph ∧
      (sampleShowing s).canvas = (samplePass s).canvas := by
  have hnodup : sampleHeld.graph.objects.keys.Nodup :=
    (sound_of_reachable rfl reachable_sampleHeld).onCanvas.nodup
  have hheld : sampleHeld.gesture.locked = some ⟨"p"⟩ := by rw [Gesture.locked, grip_sampleHeld]
  have honly : ∀ entry ∈ sampleHeld.graph.objects,
      entry.2.isFreePoint = true ∧ entry.1 = ⟨"p"⟩ := by decide +kernel
  have hrun := run_of_free hs hnodup sampleHeld.canvas (some ⟨"p"⟩) fun entry hentry =>
    ⟨(honly entry hentry).1, (honly entry hentry).2 ▸ hfree⟩
  obtain ⟨hscene, hgesture, hgraph, hcanvas, -⟩ := passed_replaceAll hreplace
  rw [hheld, hrun] at hgraph hcanvas
  exact ⟨hscene, hgesture, hgraph, hcanvas⟩

/-- If the press takes hold of another point, the pass that follows visits the first one. -/
theorem state_sampleRegripped {s : Scene} (id : ElementId) (hs : s.Consistent)
    (hreplace : sampleHeld.scene.replaceAll s.elements = .ok s)
    (hfree : ∃ e ∈ s.elements, e.id = ⟨"p"⟩ ∧ e.position?.isSome = true)
    (hlive : ∀ entry ∈ (samplePass s).graph.objects, entry.2.isFreePoint = true ∧
      ∃ e ∈ s.elements, e.id = entry.1 ∧ e.position?.isSome = true)
    (hpress : (sampleHeld.gesture.press (samplePass s).canvas.viewport
      ((samplePass s).graph.targets (samplePass s).canvas)).locked = some id) :
    let d := sampleRegripped s
    Reachable (start .standard (.empty .standard)) d ∧ d.scene = s ∧
      d.graph = (samplePass s).graph ∧ d.gesture.locked = some id ∧
      Pass.run d.graph d.scene d.canvas d.gesture.locked =
        visits s (some id) (samplePass s).graph (samplePass s).canvas := by
  intro d
  obtain ⟨hscene, hgesture, hgraph, hcanvas⟩ := state_sampleShowing hs hreplace hfree
  have hreachable : Reachable (start .standard (.empty .standard)) (sampleShowing s) :=
    reachable_sampleHeld.call trivial
  rw [← hgesture, ← hgraph, ← hcanvas] at hpress
  have hd : d = { sampleShowing s with
      gesture := (sampleShowing s).gesture.press (sampleShowing s).canvas.viewport
        ((sampleShowing s).graph.targets (sampleShowing s).canvas) } := by
    change ((sampleShowing s).call (.handle (.pressed .left))).1 = _
    rw [call, handle_press hpress]
  have hnodup : (samplePass s).graph.objects.keys.Nodup := by
    rw [← hgraph]
    exact (sound_of_reachable rfl hreachable).onCanvas.nodup
  have hrun := run_of_free hs hnodup (samplePass s).canvas (some id) hlive
  refine ⟨hreachable.call trivial, ?_, ?_, ?_, ?_⟩
  · rw [hd]
    exact hscene
  · rw [hd]
    exact hgraph
  · rw [hd]
    exact hpress
  · rw [hd]
    dsimp only
    rw [hpress, hscene, hgraph, hcanvas, hrun]

/-- The point is hidden, and there is another one under the pointer. -/
def sampleHidden : Scene :=
  let elements := [(Element.freePoint ⟨"p"⟩ 0.25 0).withProp "visible" (.bool false),
    .freePoint ⟨"q"⟩ 0 0]
  ⟨elements, Scene.indexOf elements, 2⟩

/-- The first point is hidden while it is held. -/
def sampleMissed : Diagram :=
  (sampleHeld.call (.change (.applyResult (.geometry ⟨true, sampleHidden.elements, "", none⟩)))).1

/-- Then the second point is taken hold of. -/
def sampleHandedOver : Diagram :=
  (sampleMissed.call (.handle (.pressed .left))).1

theorem sampleHandedOver_eq : sampleHandedOver = sampleRegripped sampleHidden := by
  unfold sampleHandedOver sampleMissed sampleRegripped sampleShowing
  rfl

/-- Nothing reconciles the first point when it is let go, so the next pass has to hide it. -/
theorem sync_after_hand_over :
    Reachable (start .standard (.empty .standard)) sampleHandedOver ∧
      sampleHandedOver.scene.IsFinite ∧ sampleHandedOver.sync.2.updated = [⟨"p"⟩] := by
  have hs : sampleHidden.Consistent := Scene.consistent_indexOf (by decide) 2
  obtain ⟨hreachable, hscene, -, -, hrun⟩ := state_sampleRegripped ⟨"q"⟩ hs rfl
    ⟨_, List.mem_cons_self .., rfl, rfl⟩ (by decide +kernel) (by decide +kernel)
  rw [sampleHandedOver_eq]
  refine ⟨hreachable, ?_, ?_⟩
  · rw [hscene]
    decide
  · rw [(passed_sync _).report, hrun]
    decide +kernel

end Diagram

end Chalkboard
