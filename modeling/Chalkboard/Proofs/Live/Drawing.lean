import Chalkboard.Proofs.Live.Outcome

/-!
# Drawings

A drawing is a live graph with its canvas. It starts empty and changes by passes over scenes of any
kind, by gestures, by ids that the canvas begins to refuse, and by other settings. The main result
is `Drawing.intact_pass`: after every pass of every run, the live graph and the canvas name each
other's objects one to one, every object is bound to the current objects of its parents, and no
operation of the pass met an unknown handle.
-/

namespace Chalkboard

/-- A live graph and the canvas that it is drawn on. -/
structure Drawing where
  graph : LiveGraph
  canvas : Canvas

/-- What may happen to a drawing. -/
inductive DrawingAction where
  /-- A pass over a scene while a gesture holds an element. -/
  | pass (scene : Scene) (locked : Option ElementId)
  /-- The effect of a gesture: a drag to some place, or another view. -/
  | gesture (effect : GestureEffect Float)
  /-- The canvas refuses to draw an element from now on. -/
  | refuse (id : ElementId)
  /-- Other settings for what is drawn from now on. -/
  | configure (defaults : Defaults)

/-- The scene of a pass lists its ids once; it may refer to anything. -/
def DrawingAction.Valid : DrawingAction → Prop
  | .pass scene _ => scene.Consistent
  | _ => True

namespace Drawing

/-- Nothing is drawn yet. -/
def start (defaults : Defaults) (viewport : Viewport Float) (refusing : List ElementId) : Drawing :=
  ⟨.empty defaults, { Canvas.empty viewport with refusing }⟩

/-- The pass over a scene. -/
def pass (d : Drawing) (scene : Scene) (locked : Option ElementId) : Pass :=
  Pass.run d.graph scene d.canvas locked

/-- The drawing after one pass, with the report. -/
def reconcile (d : Drawing) (scene : Scene) (locked : Option ElementId) :
    Drawing × ReconcileReport :=
  let (graph, canvas, report) := d.graph.reconcile scene d.canvas locked
  (⟨graph, canvas⟩, report)

/-- The drawing after something happened. -/
def step (d : Drawing) : DrawingAction → Drawing
  | .pass scene locked => (d.reconcile scene locked).1
  | .gesture effect => { d with canvas := d.canvas.perform effect }
  | .refuse id => { d with canvas := d.canvas.refuse id }
  | .configure defaults => { d with graph := { d.graph with defaults } }

/-- The drawing after a run. -/
def run (d : Drawing) (actions : List DrawingAction) : Drawing :=
  actions.foldl step d

/-- What one step keeps, a run keeps. -/
theorem run_induction {motive : Drawing → Prop} {actions : List DrawingAction}
    (hstep : ∀ d, ∀ a ∈ actions, motive d → motive (d.step a)) {d : Drawing} (hd : motive d) :
    motive (d.run actions) :=
  List.foldlRecOn actions _ hd fun d hd a ha => hstep d a ha hd

/-! ## The link -/

/-- The live graph and the canvas of a drawing tell the same story. -/
def IsLinked (d : Drawing) : Prop :=
  d.graph.OnCanvas d.canvas

theorem isLinked_start (defaults : Defaults) (viewport : Viewport Float)
    (refusing : List ElementId) : (start defaults viewport refusing).IsLinked :=
  (LiveGraph.onCanvas_empty defaults viewport).alike (Canvas.alike_of_eq rfl rfl)

theorem IsLinked.step {d : Drawing} (hd : d.IsLinked) {a : DrawingAction} (ha : a.Valid) :
    (d.step a).IsLinked := by
  cases a with
  | pass scene locked => exact (Pass.run_outcome locked hd ha).onCanvas
  | gesture effect => exact hd.alike (Canvas.alike_perform _ _)
  | refuse id => exact hd.alike (Canvas.alike_refuse _ _)
  | configure defaults => exact ⟨hd.wellFormed, hd.nodup, hd.drawn, hd.live⟩

theorem isLinked_run {defaults : Defaults} {viewport : Viewport Float} {refusing : List ElementId}
    {actions : List DrawingAction} (hactions : ∀ a ∈ actions, a.Valid) :
    ((start defaults viewport refusing).run actions).IsLinked :=
  run_induction (motive := IsLinked) (fun _ a ha hd => hd.step (hactions a ha))
    (isLinked_start defaults viewport refusing)

/-! ## All drawings -/

/-- The drawings that can come about. Painting may be suspended and resumed from outside, and the
counts may be reset. -/
inductive Reachable : Drawing → Prop
  | start (defaults : Defaults) (viewport : Viewport Float) (refusing : List ElementId) :
      Reachable (start defaults viewport refusing)
  | step {d : Drawing} (h : Reachable d) {a : DrawingAction} (ha : a.Valid) : Reachable (d.step a)
  | suspend {d : Drawing} (h : Reachable d) : Reachable { d with canvas := d.canvas.suspend }
  | resume {d : Drawing} (h : Reachable d) : Reachable { d with canvas := d.canvas.resume }
  | reset {d : Drawing} (h : Reachable d) : Reachable { d with canvas := d.canvas.resetCounters }

theorem Reachable.isLinked {d : Drawing} (h : d.Reachable) : d.IsLinked := by
  induction h with
  | start defaults viewport refusing => exact isLinked_start defaults viewport refusing
  | step h ha ih => exact ih.step ha
  | suspend h ih => exact ih.alike (Canvas.alike_suspend _)
  | resume h ih => exact ih.alike (Canvas.alike_resume _)
  | reset h ih => exact ih.alike (Canvas.alike_of_eq rfl rfl)

theorem Reachable.run {d : Drawing} (h : d.Reachable) {actions : List DrawingAction}
    (hactions : ∀ a ∈ actions, a.Valid) : (d.run actions).Reachable :=
  run_induction (fun _ a ha hd => hd.step (hactions a ha)) h

/-! ## A sample -/

/-- A segment between two points with a glider on it, a circle around a point that is missing, and
two lines that refer to each other. -/
def sampleElements : List Element :=
  [.new ⟨"g"⟩ .point [.ref ⟨"s"⟩], .freePoint ⟨"p"⟩ 0 0, .freePoint ⟨"q"⟩ 4 3,
   .new ⟨"s"⟩ .segment [.ref ⟨"p"⟩, .ref ⟨"q"⟩], .new ⟨"c"⟩ .circle [.ref ⟨"missing"⟩, .ref ⟨"p"⟩],
   .new ⟨"l"⟩ .line [.ref ⟨"p"⟩, .ref ⟨"m"⟩], .new ⟨"m"⟩ .line [.ref ⟨"l"⟩, .ref ⟨"q"⟩]]

/-- The scene of the sample. -/
def sampleScene : Scene :=
  ⟨sampleElements, Scene.indexOf sampleElements, 1⟩

theorem consistent_sampleScene : sampleScene.Consistent :=
  Scene.consistent_indexOf (by decide) 1

/-- The segment is drawn and one of its points dragged; then the other one is refused, and the
scene is emptied while the first point is held. -/
def sampleActions : List DrawingAction :=
  [.pass sampleScene none, .gesture (.drag ⟨1⟩ ⟨2, 2⟩), .refuse ⟨"q"⟩,
   .pass ⟨[], Scene.indexOf [], 2⟩ (some ⟨"p"⟩)]

theorem valid_sampleActions : ∀ a ∈ sampleActions, a.Valid := by
  intro a ha
  simp only [sampleActions, List.mem_cons, List.not_mem_nil, or_false] at ha
  rcases ha with rfl | rfl | rfl | rfl
  · exact consistent_sampleScene
  · trivial
  · trivial
  · exact Scene.consistent_indexOf (by decide) 2

/-! ## Handles -/

/-- The live graph and the canvas name each other's objects, within a scene. -/
structure Intact (scene : Scene) (d : Drawing) : Prop where
  /-- Each id and each handle is listed once. -/
  distinct : d.graph.objects.keys.Nodup ∧ d.canvas.objects.keys.Nodup
  /-- A record names an object with its id and kind. -/
  named : ∀ id o, d.graph.get? id = some o →
    ∃ x, d.canvas.object? o.handle = some x ∧ x.id = id ∧ x.kind = o.kind
  /-- Two ids never share a handle. -/
  injective : ∀ id id' o o', d.graph.get? id = some o → d.graph.get? id' = some o' →
    o.handle = o'.handle → id = id'
  /-- The canvas holds no other object. -/
  only : ∀ h x, d.canvas.object? h = some x → ∃ o, d.graph.get? x.id = some o ∧ o.handle = h
  /-- A parent that is referred to is live, and the object is bound to its current object. -/
  bound : ∀ id o x, d.graph.get? id = some o → d.canvas.object? o.handle = some x →
    ∀ (i : Nat) (r : ElementId), o.parents[i]? = some (.ref r) →
      ∃ p, d.graph.get? r = some p ∧ x.parents[i]? = some (.object p.handle)
  /-- What is live belongs to the scene. -/
  inScene : ∀ id o, d.graph.get? id = some o → ∃ e ∈ scene.elements, e.id = id

/-- After every pass of a run the live graph and the canvas name each other's objects one to one,
bound as declared, and within the scene; and the canvas met no unknown handle in the pass. -/
theorem intact_pass (defaults : Defaults) (viewport : Viewport Float) (refusing : List ElementId)
    {actions : List DrawingAction} (hactions : ∀ a ∈ actions, a.Valid) {scene : Scene}
    (hscene : scene.Consistent) (locked : Option ElementId) :
    Intact scene (((start defaults viewport refusing).run actions).step (.pass scene locked)) ∧
      ∀ w ∈ (((start defaults viewport refusing).run actions).pass scene locked).warnings,
        ∀ h, w.2 ≠ .unknownHandle h := by
  generalize hd : (start defaults viewport refusing).run actions = d
  have hlinked : d.IsLinked := hd ▸ isLinked_run hactions
  have houtcome := Pass.run_outcome locked hlinked hscene
  have hg := houtcome.onCanvas
  refine ⟨?_, houtcome.known⟩
  exact
    { distinct := ⟨hg.nodup, hg.wellFormed.nodup⟩
      named := fun id o ho => by
        rcases hg.drawn id o ho with ⟨x, hx, hid, hk, -⟩
        exact ⟨x, hx, hid, hk⟩
      injective := fun id id' o o' ho ho' hh => hg.handle_injective ho ho' hh
      only := hg.live
      bound := fun id o x ho hx i r hi => by
        rcases hg.drawn id o ho with ⟨x', hx', -, -, hb⟩
        have hxx : x' = x := Option.some.inj (hx'.symm.trans hx)
        exact LiveGraph.Binds.getElem? (hxx ▸ hb) hi
      inScene := houtcome.inScene }

theorem intact_pass_sample :
    (∀ a ∈ sampleActions, a.Valid) ∧ sampleScene.Consistent ∧
      Intact sampleScene (((start .standard default []).run sampleActions).step
        (.pass sampleScene (some ⟨"s"⟩))) :=
  ⟨valid_sampleActions, consistent_sampleScene,
    (intact_pass .standard default [] valid_sampleActions consistent_sampleScene (some ⟨"s"⟩)).1⟩

end Drawing

end Chalkboard
