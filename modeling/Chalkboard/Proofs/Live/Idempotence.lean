import Chalkboard.Proofs.Live.Drawing

/-!
# A second pass does nothing

A pass leaves nothing for the next one over the same scene to do, as long as the numbers of the
scene are finite: nothing is stale (`Pass.isStale_of_inLine`), updating an object that is in line is
a no-op (`Pass.update_of_inLine`), and what could not be drawn before cannot be drawn now.
-/

namespace Chalkboard

/-- All coordinates in the scene are finite. -/
def Scene.IsFinite (s : Scene) : Prop :=
  ∀ e ∈ s.elements, e.IsFinite

instance (s : Scene) : Decidable s.IsFinite :=
  inferInstanceAs (Decidable (∀ e ∈ s.elements, e.IsFinite))

namespace Pass

variable {e : Element} {o : LiveObject} {d : Drawn}

/-- A finite coordinate is at its place only within the tolerance. -/
theorem AtPlace.isNear {q : Point Float} {x y : Float} (h : AtPlace q ⟨x, y⟩)
    (hx : x.isFinite = true) (hy : y.isFinite = true) : isNear q ⟨x, y⟩ = true := by
  rcases h with rfl | h
  · simp only [Pass.isNear, Bool.and_eq_true, decide_eq_true_eq]
    exact ⟨Number.abs_sub_self_le hx, Number.abs_sub_self_le hy⟩
  · exact h

theorem InLine.isNear (h : InLine e o d) (hf : e.IsFinite) {x y : Float}
    (hxy : e.position? = some (x, y)) :
    ∃ q, d.position = some q ∧ Pass.isNear q ⟨x, y⟩ = true := by
  rcases h.position x y hxy with ⟨q, hq, hplace⟩
  rcases freePosition?_eq_some_iff.1 hxy with ⟨-, hps⟩
  exact ⟨q, hq, hplace.isNear (hf x (by rw [hps]; simp)) (hf y (by rw [hps]; simp))⟩

/-- The parents of an object that is in line equal the declared ones. -/
theorem InLine.parents_beq (h : InLine e o d) (hf : e.IsFinite) :
    (e.parents == o.parents) = true := by
  rcases h.parents with heq | ⟨-, hbeq⟩
  · rw [heq]
    exact Parent.beq_self hf
  · exact hbeq

theorem isStale_of_inLine {scene : Scene} {locked : Option ElementId} (hscene : scene.Consistent)
    (he : e ∈ scene.elements) (hf : e.IsFinite) (h : locked ≠ some e.id → InLine e o d) :
    isStale scene locked e.id o = false := by
  rw [isStale, hscene.get?_eq_some_iff.2 ⟨he, rfl⟩]
  by_cases hl : locked = some e.id
  · simp [hl]
  · have hin := h hl
    simp [structurallyChanged, hin.kind, bne, hin.parents_beq hf]

/-- Updating an object that is in line changes nothing. -/
theorem update_of_inLine {p : Pass} (hg : p.graph.OnCanvas p.canvas)
    (ho : p.graph.get? e.id = some o) (hd : p.canvas.object? o.handle = some d)
    (h : InLine e o d) (hf : e.IsFinite) : p.update e o = p := by
  have hplace : place p.canvas e o = .ok (o, p.canvas, false) := by
    unfold place
    split
    · rfl
    · next x y hxy =>
      rcases h.isNear hf hxy with ⟨q, hq, hnear⟩
      have hpos : p.canvas.position? o.handle = some q := by rw [Canvas.position?, hd]; exact hq
      have hps : o.parents = e.parents := by
        rcases h.parents with heq | ⟨hnone, -⟩
        · exact heq
        · rw [hxy] at hnone
          cases hnone
      rw [hpos, Option.any_some, hnear, ← hps]
      rfl
  have hsync : sync p.canvas e o = (o, p.canvas, .ok false) := by
    rw [sync, hplace]
    exact if_pos h.visible.symm
  have hreplace : p.graph.replace e.id o = p.graph := by
    rw [LiveGraph.replace, Table.replace_self hg.nodup ho]
  rw [update, hsync]
  dsimp only
  rw [hreplace]

/-- `q` is `p` but for what its report says of elements that were not drawn or updated. -/
structure Unmoved (p q : Pass) : Prop where
  graph : q.graph = p.graph
  canvas : q.canvas = p.canvas
  created : q.report.created = p.report.created
  updated : q.report.updated = p.report.updated
  removed : q.report.removed = p.report.removed

section Second

variable {scene : Scene} {locked : Option ElementId} {p q : Pass}

/-- Nothing is left to do: the live elements are in line, and no other element can be drawn. -/
structure Done (scene : Scene) (locked : Option ElementId) (p : Pass) : Prop where
  onCanvas : p.graph.OnCanvas p.canvas
  inScene : ∀ id o, p.graph.get? id = some o → ∃ e ∈ scene.elements, e.id = id
  inLine : ∀ e ∈ scene.elements, locked ≠ some e.id → ∀ o d, p.graph.get? e.id = some o →
    p.canvas.object? o.handle = some d → InLine e o d
  turnedDown : ∀ e ∈ scene.elements, p.graph.get? e.id = none →
    (∀ r ∈ e.refs, ∃ o, p.graph.get? r = some o) → ¬e.IsDrawable p.canvas.refusing

/-- Where nothing is left to do, acting on an element does nothing. -/
theorem Done.act {e : Element} (hp : Done scene locked p) (he : e ∈ scene.elements)
    (hf : e.IsFinite) (h : Acts locked p e q) : Unmoved p q := by
  cases h with
  | draws hnew h =>
    have hdraw := hp.turnedDown e he hnew h.refs_live
    cases h with
    | drawn o d hdraw' h => exact absurd hdraw' hdraw
    | turnedDown error _ hlive herror => exact ⟨rfl, rfl, rfl, rfl, rfl⟩
  | @updates o o' d d' hl ho _ h =>
    have hin := hp.inLine e he hl o d ho h.before
    rw [update_of_inLine hp.onCanvas ho h.before hin hf]
    exact ⟨rfl, rfl, rfl, rfl, rfl⟩
  | skips hl ho => exact ⟨rfl, rfl, rfl, rfl, rfl⟩

theorem Done.of_unmoved (hp : Done scene locked p) (h : Unmoved p q) : Done scene locked q where
  onCanvas := by
    rw [h.graph, h.canvas]
    exact hp.onCanvas
  inScene := by
    rw [h.graph]
    exact hp.inScene
  inLine := by
    rw [h.graph, h.canvas]
    exact hp.inLine
  turnedDown := by
    rw [h.graph, h.canvas]
    exact hp.turnedDown

theorem Unmoved.trans {r : Pass} (h : Unmoved p q) (h' : Unmoved q r) : Unmoved p r :=
  ⟨h'.graph.trans h.graph, h'.canvas.trans h.canvas, h'.created.trans h.created,
    h'.updated.trans h.updated, h'.removed.trans h.removed⟩

/-- Where nothing is left to do, the whole course of a pass does nothing. -/
theorem Sweeps.unmoved {seen waiting : List Element}
    (h : Sweeps scene locked p seen waiting q) (hp : Done scene locked p) (hf : scene.IsFinite) :
    Unmoved p q := by
  refine h.acts_induction ⟨rfl, rfl, rfl, rfl, rfl⟩ fun _ he ha hunmoved => ?_
  exact hunmoved.trans ((hp.of_unmoved hunmoved).act he (hf _ he) ha)

/-- What a pass leads to leaves nothing to do for the next. -/
theorem Outcome.done (h : Outcome scene locked p) :
    Done scene locked (start p.graph p.canvas) where
  onCanvas := h.onCanvas.alike (Canvas.alike_suspend _)
  inScene := h.inScene
  inLine := h.inLine
  turnedDown := h.turnedDown

/-- Where nothing is left to do, nothing is stale. -/
theorem Done.removeStale_eq (h : Done scene locked p) (hscene : scene.Consistent)
    (hf : scene.IsFinite) : removeStale scene locked p = p := by
  refine removeStale_eq_self h.onCanvas.nodup fun id o ho => ?_
  rcases h.inScene id o ho with ⟨e, he, rfl⟩
  rcases h.onCanvas.drawn e.id o ho with ⟨d, hd, -⟩
  exact isStale_of_inLine hscene he (hf e he) fun hl => h.inLine e he hl o d ho hd

/-- So a pass does nothing but paint. -/
theorem Done.rerun {g : LiveGraph} {c : Canvas} (h : Done scene locked (start g c))
    (hscene : scene.Consistent) (hf : scene.IsFinite) :
    let next := run g scene c locked
    next.graph = g ∧ next.canvas = c.suspend.resume ∧ next.report.created = [] ∧
      next.report.updated = [] ∧ next.report.removed = [] := by
  have hg : g.OnCanvas c := h.onCanvas.alike (Canvas.alike_of_eq rfl rfl)
  rcases run_sweeps locked hg hscene with ⟨q, deferred, seen, hrun, -, hsweeps, -⟩
  rw [h.removeStale_eq hscene hf] at hsweeps
  have hq := hsweeps.unmoved h hf
  intro next
  have hnext : next = q.finish deferred := hrun
  rw [hnext]
  refine ⟨hq.graph, ?_, hq.created, hq.updated, hq.removed⟩
  rw [finish, hq.canvas]
  rfl

end Second

end Pass

namespace Drawing

/-- Two passes in a row over one scene, whatever is held: the second one creates, updates and
removes nothing, leaves the live graph, the objects and the counts of changes as they are, and
defers and fails the same elements. -/
theorem reconcile_idempotent (defaults : Defaults) (viewport : Viewport Float)
    (refusing : List ElementId) {actions : List DrawingAction}
    (hactions : ∀ a ∈ actions, a.Valid) {scene : Scene} (hscene : scene.Consistent)
    (hfinite : scene.IsFinite) (locked : Option ElementId) :
    let first := ((start defaults viewport refusing).run actions).reconcile scene locked
    let second := first.1.reconcile scene locked
    second.2.created = [] ∧ second.2.updated = [] ∧ second.2.removed = [] ∧
      second.1.graph = first.1.graph ∧ second.1.canvas.objects = first.1.canvas.objects ∧
      { second.1.canvas.counters with paints := 0 } =
        { first.1.canvas.counters with paints := 0 } ∧
      (∀ id, id ∈ second.2.deferred ↔ id ∈ first.2.deferred) ∧
      ∀ id, id ∈ second.2.failed.map Prod.fst ↔ id ∈ first.2.failed.map Prod.fst := by
  generalize hd : (start defaults viewport refusing).run actions = d
  have hlinked : d.IsLinked := hd ▸ isLinked_run hactions
  intro first second
  have hfirst : Pass.Outcome scene locked (d.pass scene locked) :=
    Pass.run_outcome locked hlinked hscene
  have hsecond : Pass.Outcome scene locked (first.1.pass scene locked) :=
    Pass.run_outcome locked hfirst.onCanvas hscene
  -- the second pass finds nothing to do, and only suspends and resumes painting
  rcases hfirst.done.rerun hscene hfinite with ⟨hgraph, hcanvas, hcreated, hupdated, hremoved⟩
  have hgraph : (first.1.pass scene locked).graph = (d.pass scene locked).graph := hgraph
  have hcanvas : (first.1.pass scene locked).canvas =
      (d.pass scene locked).canvas.suspend.resume := hcanvas
  refine ⟨hcreated, hupdated, hremoved, hgraph, ?_, ?_, fun id => ?_, fun id => ?_⟩
  · change (first.1.pass scene locked).canvas.objects = (d.pass scene locked).canvas.objects
    rw [hcanvas]
    simp [Canvas.resume, Canvas.suspend]
  · change { (first.1.pass scene locked).canvas.counters with paints := 0 } =
      { (d.pass scene locked).canvas.counters with paints := 0 }
    rw [hcanvas, Canvas.resume, Canvas.mutations_paint]
    rfl
  · refine (hsecond.deferred id).trans ?_
    rw [hgraph]
    exact (hfirst.deferred id).symm
  · refine (hsecond.failed id).trans ?_
    rw [hgraph]
    exact (hfirst.failed id).symm

theorem isFinite_sampleScene : sampleScene.IsFinite := by decide

theorem reconcile_idempotent_sample :
    (∀ a ∈ sampleActions, a.Valid) ∧ sampleScene.Consistent ∧ sampleScene.IsFinite ∧
      let d := (start .standard default []).run sampleActions
      let first := d.reconcile sampleScene (some ⟨"s"⟩)
      let second := first.1.reconcile sampleScene (some ⟨"s"⟩)
      second.2.created = [] ∧ second.1.graph = first.1.graph := by
  have h := reconcile_idempotent .standard default [] valid_sampleActions consistent_sampleScene
    isFinite_sampleScene (some ⟨"s"⟩)
  exact ⟨valid_sampleActions, consistent_sampleScene, isFinite_sampleScene, h.1, h.2.2.2.1⟩

end Drawing

end Chalkboard
