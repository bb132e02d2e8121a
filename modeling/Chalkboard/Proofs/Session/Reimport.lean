import Chalkboard.Proofs.Element.Codec
import Chalkboard.Proofs.Live.Convergence
import Chalkboard.Proofs.Live.Quiet
import Chalkboard.Proofs.Session.UpToDate

/-!
# Bringing back what was exported

The elements that are shown can be written as JSON, read back, and shown again as a new result. If a
pass would have nothing to report, that touches no object and reports nothing, whatever is held
(`Diagram.reimport`). The elements come back as they were since their numbers are finite. The scene
gets a new index and revision, but a pass sees of a scene its elements only (`Pass.run_congr`), so
showing them again is one more pass.

A pass that reports nothing may still write down the coordinates of a free point that is where it
should be within the tolerance. It does not where all free points are recorded under their
coordinates, which is just what a diagram lacks to be up to date (`Diagram.Sound.upToDate_iff`); and
only a hand-over of the hold can leave it so (`Diagram.reimport_after_hand_over`).
-/

namespace Chalkboard

open Json

/-- A consistent scene is known by its elements. -/
theorem Scene.Consistent.get?_congr {s s' : Scene} (hs : s.Consistent) (hs' : s'.Consistent)
    (h : s'.elements = s.elements) (id : ElementId) : s'.get? id = s.get? id := by
  ext e
  rw [hs'.get?_eq_some_iff, hs.get?_eq_some_iff, h]

theorem Pass.run_congr {s s' : Scene} (hs : s.Consistent) (hs' : s'.Consistent)
    (h : s'.elements = s.elements) (g : LiveGraph) (c : Canvas) (locked : Option ElementId) :
    run g s' c locked = run g s c locked := by
  have hstale : isStale s' locked = isStale s locked := by
    funext id o
    rw [isStale, isStale, hs.get?_congr hs' h]
  simp only [run, removeStale, doomed, sweep, hstale, h]

namespace Diagram

/-- Every free point that is live and not held is recorded under its coordinates. -/
def Recorded (d : Diagram) : Prop :=
  ∀ e ∈ d.scene.elements, e.position?.isSome = true → d.gesture.locked ≠ some e.id →
    ∀ o, d.graph.get? e.id = some o → o.parents = e.parents

/-- What is shown can be exported as JSON, with the fields of an element in either order, and brought
back as a successful result, and nothing changes but the live graph as far as `live` allows. -/
structure Reimports (d : Diagram) (live : LiveGraph → Prop) : Prop where
  sorted : decodeList Element.decode (Json.array (d.context.map Element.toJson)) =
    .ok d.scene.elements
  listed : decodeList Element.decode (Json.array (d.context.map Element.listing)) =
    .ok d.scene.elements
  shown : ∀ explanation error, ∃ d' report,
    d.applyResult (.geometry ⟨true, d.scene.elements, explanation, error⟩) = (d', .ok report) ∧
      d'.scene.elements = d.scene.elements ∧ live d'.graph ∧
      d'.canvas.objects = d.canvas.objects ∧ d'.gesture = d.gesture ∧
      report.created = [] ∧ report.updated = [] ∧ report.removed = []

section Reimport

variable {d : Diagram}

/-- Showing the elements that are shown already makes one more pass over them. -/
theorem applyResult_elements (hs : d.scene.Consistent) (explanation : String)
    (error : Option String) :
    ∃ d', d.applyResult (.geometry ⟨true, d.scene.elements, explanation, error⟩) =
        (d', .ok d.sync.2) ∧
      d'.scene.elements = d.scene.elements ∧ d'.graph = d.sync.1.graph ∧
      d'.canvas = d.sync.1.canvas ∧ d'.gesture = d.gesture := by
  have hs' : Scene.Consistent
      ⟨d.scene.elements, Scene.indexOf d.scene.elements, d.scene.revision + 1⟩ :=
    Scene.consistent_indexOf hs.ids_nodup _
  have hrun := Pass.run_congr hs hs' rfl d.graph d.canvas d.gesture.locked
  simp only [applyResult, CommandResult.success, if_true, hs.replaceAll_elements, sync,
    LiveGraph.reconcile, hrun]
  exact ⟨_, rfl, rfl, rfl, rfl, rfl⟩

/-- Where a pass would report nothing, what is exported can be brought back. -/
theorem reimports_of_isNoop (hs : d.scene.Consistent) (hf : d.scene.IsFinite)
    (hnoop : d.sync.2.isNoop = true) {live : LiveGraph → Prop} (hlive : live d.sync.1.graph) :
    d.Reimports live := by
  obtain ⟨hsorted, hlisted⟩ :=
    Element.decodeList_hold (fun e _ => e.open_of_whole Holder.whole_memory) hf
  refine ⟨hsorted, hlisted, fun explanation error => ?_⟩
  obtain ⟨d', happly, helements, hgraph, hcanvas, hgesture⟩ :=
    applyResult_elements hs explanation error
  obtain ⟨hobjects, -⟩ := Pass.run_still hnoop
  obtain ⟨hcreated, hupdated, hremoved⟩ := ReconcileReport.isNoop_iff.1 hnoop
  refine ⟨d', d.sync.2, happly, helements, ?_, ?_, hgesture, hcreated, hupdated, hremoved⟩
  · rw [hgraph]
    exact hlive
  · rw [hcanvas]
    exact hobjects

/-! ## Records that lag behind -/

theorem UpToDate.records (hd : d.UpToDate) : d.Recorded := by
  intro e he hfree hloose o ho
  obtain ⟨x, hx, -⟩ := hd.onCanvas.drawn e.id o ho
  rcases (hd.inLine e he hloose o x ho hx).parents with heq | ⟨hnone, -⟩
  · exact heq
  · rw [hnone] at hfree
    cases hfree

/-- Where the free points are recorded under their coordinates, a pass that reports nothing leaves
all records as they are. -/
theorem Recorded.get?_run (hd : d.Recorded)
    (hnoop : (Pass.run d.graph d.scene d.canvas d.gesture.locked).report.isNoop = true)
    (id : ElementId) :
    (Pass.run d.graph d.scene d.canvas d.gesture.locked).graph.get? id = d.graph.get? id := by
  refine ((Pass.run_still hnoop).2 id).eq fun e he hid hfree hloose o ho => ?_
  subst hid
  exact hd e he hfree hloose o ho

/-- A diagram is up to date just when another pass reports nothing and the free points are recorded
under their coordinates. -/
theorem Sound.upToDate_iff (hd : d.Sound) (hf : d.scene.IsFinite) :
    d.UpToDate ↔ d.sync.2.isNoop = true ∧ d.Recorded := by
  refine ⟨fun h => ⟨h.isNoop hd.scene hf, h.records⟩, fun ⟨hnoop, hrecorded⟩ => ?_⟩
  rw [(passed_sync d).report] at hnoop
  -- what the pass leads to is in line, and it has led to what was there before
  have houtcome := Pass.run_outcome d.gesture.locked hd.onCanvas hd.scene
  have hrefusing : (Pass.run d.graph d.scene d.canvas d.gesture.locked).canvas.refusing =
      d.canvas.refusing := (Pass.settings_run hd.onCanvas hd.scene).2
  obtain ⟨hobjects, -⟩ := Pass.run_still hnoop
  have hget := hrecorded.get?_run hnoop
  exact
    { onCanvas := hd.onCanvas.alike (Canvas.alike_suspend _)
      inScene := fun id o ho => houtcome.inScene id o ((hget id).trans ho)
      inLine := by
        intro e he hloose o x ho hx
        refine houtcome.inLine e he hloose o x ((hget e.id).trans ho) ?_
        rw [Canvas.object?, hobjects]
        exact hx
      turnedDown := by
        intro e he hnew hlive
        have hdraw := houtcome.turnedDown e he ((hget e.id).trans hnew) fun r hr => by
          obtain ⟨o, ho⟩ := hlive r hr
          exact ⟨o, (hget r).trans ho⟩
        rw [hrefusing] at hdraw
        exact hdraw }

/-- A pass that reports nothing leaves the live graph as it is just when the free points are recorded
under their coordinates. -/
theorem Sound.graph_sync_eq_iff (hd : d.Sound) (hf : d.scene.IsFinite)
    (hnoop : d.sync.2.isNoop = true) : d.sync.1.graph = d.graph ↔ d.Recorded := by
  constructor
  · intro hsame e he hfree hloose o ho
    have hup : d.sync.1.UpToDate := upToDate_of_passed hd hd.scene (passed_sync d)
    rw [← hsame] at ho
    exact hup.records e he hfree hloose o ho
  · intro hrecorded
    exact (Pass.Done.rerun ((hd.upToDate_iff hf).2 ⟨hnoop, hrecorded⟩) hd.scene hf).1

end Reimport

/-! ## The main result -/

/-- Where a pass would report nothing, whatever is held, the elements can be exported and brought
back, and no object is touched and nothing reported. The record of a free point that is not held may
take over the coordinates of its element. In a diagram that calls lead to, the live graph stays as it
is just when the free points are recorded under their coordinates; and they are, and a pass would
report nothing, unless another point was taken hold of while one was held, and no pass was made since.
-/
theorem reimport {gestures : GestureSettings Float} {canvas : Canvas}
    (hcanvas : canvas.objects = []) :
    (∀ d : Diagram, d.scene.Consistent → d.scene.IsFinite → d.sync.2.isNoop = true →
      d.Reimports fun g => ∀ id,
        Pass.Refreshed d.scene.elements d.gesture.locked id (d.graph.get? id) (g.get? id)) ∧
    (∀ d, Reachable (start gestures canvas) d → d.scene.IsFinite → d.sync.2.isNoop = true →
      d.Reimports fun g => g = d.graph ↔ d.Recorded) ∧
    ∀ d, Undisturbed (start gestures canvas) d → d.scene.IsFinite →
      d.sync.2.isNoop = true ∧ d.Recorded := by
  refine ⟨?_, ?_, ?_⟩
  · intro d hs hf hnoop
    exact reimports_of_isNoop hs hf hnoop (Pass.run_still hnoop).2
  · intro d hd hf hnoop
    have hsound := sound_of_reachable hcanvas hd
    exact reimports_of_isNoop hsound.scene hf hnoop (hsound.graph_sync_eq_iff hf hnoop)
  · intro d hd hf
    have hsound := sound_of_reachable hcanvas hd.reachable
    exact (hsound.upToDate_iff hf).1 (hd.upToDate hcanvas)

/-- The glider of the sample is brought back while its point is held, and the live graph stays as it
is. -/
theorem reimport_sample :
    let d := (sampleHeld.call (.change (.applyResult (.geometry ⟨true, sampleGlider, "", none⟩)))).1
    d.gesture.locked = some ⟨"p"⟩ ∧ d.scene.elements = sampleGlider ∧ d.scene.IsFinite ∧
      d.sync.2.isNoop = true ∧ d.Recorded ∧ d.Reimports fun g => g = d.graph ↔ d.Recorded := by
  intro d
  have hscene : d.scene = ⟨sampleGlider, Scene.indexOf sampleGlider, 2⟩ := rfl
  have hfinite : d.scene.IsFinite := by
    rw [hscene]
    decide
  have hundisturbed : Undisturbed (start .standard (.empty .standard)) d :=
    .passed reachable_sampleHeld trivial rfl
  have hall := @reimport .standard (.empty .standard) rfl
  obtain ⟨hnoop, hrecorded⟩ := hall.2.2 d hundisturbed hfinite
  have hreplace : sampleHeld.scene.replaceAll sampleGlider =
      .ok ⟨sampleGlider, Scene.indexOf sampleGlider, 2⟩ := rfl
  have hsame : d.gesture = sampleHeld.gesture := (passed_replaceAll hreplace).gesture
  have hheld : d.gesture.locked = some ⟨"p"⟩ := by rw [hsame, Gesture.locked, grip_sampleHeld]
  exact ⟨hheld, rfl, hfinite, hnoop, hrecorded,
    hall.2.1 d hundisturbed.reachable hfinite hnoop⟩

/-- The point has come closer to another place than the tolerance, and there is another point under
the pointer. -/
def sampleNudged : Scene :=
  let elements := [Element.freePoint ⟨"p"⟩ 0.25000000001 0, .freePoint ⟨"q"⟩ 0 0]
  ⟨elements, Scene.indexOf elements, 2⟩

/-- The first point is nudged while it is held, and then the second one is taken hold of. A pass has
nothing to report, and yet bringing the elements back changes what is recorded of the first point. -/
theorem reimport_after_hand_over :
    let d := sampleRegripped sampleNudged
    Reachable (start .standard (.empty .standard)) d ∧ d.scene.IsFinite ∧
      d.sync.2.isNoop = true ∧
      (d.graph.get? ⟨"p"⟩).map LiveObject.parents = some [.number 0.25, .number 0] ∧
      ∃ d' report,
        d.applyResult (.geometry ⟨true, d.scene.elements, "", none⟩) = (d', .ok report) ∧
          (d'.graph.get? ⟨"p"⟩).map LiveObject.parents =
            some [.number 0.25000000001, .number 0] := by
  intro d
  have hs : sampleNudged.Consistent := Scene.consistent_indexOf (by decide) 2
  obtain ⟨hreachable, hscene, hgraph, -, hrun⟩ := state_sampleRegripped ⟨"q"⟩ hs rfl
    ⟨_, List.mem_cons_self .., rfl, rfl⟩ (by decide +kernel) (by decide +kernel)
  obtain ⟨d', happly, -, hgraph', -⟩ :=
    applyResult_elements (d := d) (hscene ▸ hs) "" none
  refine ⟨hreachable, ?_, ?_, ?_, d', _, happly, ?_⟩
  · rw [hscene]
    decide
  · rw [(passed_sync _).report, hrun]
    decide +kernel
  · rw [hgraph]
    decide +kernel
  · rw [hgraph', (passed_sync _).graph, hrun]
    decide +kernel

end Diagram

end Chalkboard
