import Chalkboard.Proofs.Live.Idempotence
import Chalkboard.Proofs.Live.Visited

/-!
# What an unlocked pass converges to

`Scene.Supported` is the least set of ids of elements that the canvas can draw and whose references
are in the set. After a pass with nothing held the live ids are exactly these, whatever came before,
and records and objects say what the elements declare (`Drawing.converged_pass`). So the drawing
depends on the elements alone, and not on their order or on the history.
-/

namespace Chalkboard

/-- The elements that can be drawn on what can be drawn: no missing and no circular parents. -/
inductive Scene.Supported (scene : Scene) (refusing : List ElementId) : ElementId → Prop
  | intro {e : Element} (he : e ∈ scene.elements) (hdraw : e.IsDrawable refusing)
      (hrefs : ∀ r ∈ e.refs, Supported scene refusing r) : Supported scene refusing e.id

theorem Scene.Supported.of_perm {s t : Scene} (h : s.elements.Perm t.elements)
    {refusing : List ElementId} {id : ElementId} (hid : s.Supported refusing id) :
    t.Supported refusing id := by
  induction hid with
  | intro he hdraw hrefs ih => exact .intro (h.mem_iff.1 he) hdraw ih

/-! ## What is shown -/

/-- The settings of no kind say whether an element is visible. -/
def Defaults.Plain (d : Defaults) : Prop :=
  ∀ kind, ((d.get? kind).getD []).get? "visible" = Option.none

theorem Defaults.plain_standard : Defaults.standard.Plain := by
  intro kind
  cases kind <;> rfl

/-- Plain settings leave it to the element whether it is visible. -/
theorem Defaults.Plain.flag_merge {d : Defaults} (hd : d.Plain) (e : Element) :
    Element.flag (d.merge e.kind e.props) "visible" true = e.isVisible := by
  rw [Element.flag, Defaults.get?_merge, hd e.kind, Option.or_none]
  rfl

/-- A gesture shows and hides nothing. -/
theorem Canvas.visible_perform {c : Canvas} {effect : GestureEffect Float} {h : Handle} {x' : Drawn}
    (hx' : (c.perform effect).object? h = some x') :
    ∃ x, c.object? h = some x ∧ x.visible = x'.visible := by
  cases effect with
  | nothing => exact ⟨x', hx', rfl⟩
  | drop id p => exact ⟨x', hx', rfl⟩
  | look v => exact ⟨x', by simpa [perform, setViewport, object?] using hx', rfl⟩
  | drag i p =>
    rw [perform] at hx'
    split at hx'
    · next c' hc =>
      rcases movePoint_eq_ok_iff.1 hc with ⟨x, hx, hp, rfl⟩
      have hshape : Drawn.shape { x with position := some p } = x.shape := by
        simp [Drawn.shape, hp]
      rw [(changes_replace hx hshape fun n => { n with moves := n.moves + 1 }).object] at hx'
      split at hx'
      · next hi =>
        cases hx'
        exact ⟨x, hi ▸ hx, rfl⟩
      · exact ⟨x', hx', rfl⟩
    · exact ⟨x', hx', rfl⟩

namespace LiveGraph

/-- No live element is refused, and an object is shown exactly if its record says so. -/
structure Faithful (g : LiveGraph) (c : Canvas) : Prop where
  plain : g.defaults.Plain
  accepted : ∀ id o, g.get? id = some o → id ∉ c.refusing
  shown : ∀ id o x, g.get? id = some o → c.object? o.handle = some x → x.visible = o.visible

/-- Objects may move, and no others be refused. -/
theorem Faithful.of_objects {g : LiveGraph} {c c' : Canvas} (h : g.Faithful c)
    (hr : c'.refusing = c.refusing)
    (hx : ∀ i x', c'.object? i = some x' → ∃ x, c.object? i = some x ∧ x.visible = x'.visible) :
    g.Faithful c' where
  plain := h.plain
  accepted := by
    rw [hr]
    exact h.accepted
  shown id o x' ho hx' := by
    rcases hx o.handle x' hx' with ⟨x, hx, hv⟩
    rw [← hv]
    exact h.shown id o x ho hx

/-- A gesture moves objects or the view. -/
theorem Faithful.perform {g : LiveGraph} {c : Canvas} (h : g.Faithful c)
    (effect : GestureEffect Float) : g.Faithful (c.perform effect) :=
  h.of_objects (Canvas.refusing_perform c effect) fun _ _ hx => Canvas.visible_perform hx

end LiveGraph

namespace Pass

section Faithful

variable {scene : Scene} {locked : Option ElementId}

/-- A pass keeps the settings of graph and canvas. -/
theorem settings_run {g : LiveGraph} {c : Canvas} (hg : g.OnCanvas c) (hscene : scene.Consistent) :
    (run g scene c locked).graph.defaults = g.defaults ∧
      (run g scene c locked).canvas.refusing = c.refusing := by
  rcases run_sweeps locked hg hscene with ⟨p, deferred, seen, hrun, -, hsweeps, -⟩
  obtain ⟨hdefaults, hrefusing, -⟩ := removeStale_frame scene locked (p := start g c)
    (hg.alike (Canvas.alike_suspend c)) (Nat.succ_pos _)
  rcases hsweeps.settings with ⟨hdefaults', hrefusing'⟩
  rw [hrun]
  refine ⟨hdefaults'.trans hdefaults, ?_⟩
  have hfinish : (p.finish deferred).canvas.refusing = p.canvas.refusing := by
    simp [finish, Canvas.resume]
  exact hfinish.trans (hrefusing'.trans hrefusing)

theorem Visited.faithful {g : LiveGraph} {c : Canvas} {e : Element} {o : LiveObject} {x : Drawn}
    (h : Visited locked g c e o x) (hg : g.Faithful c) :
    e.id ∉ c.refusing ∧ x.visible = o.visible := by
  cases h with
  | drawn hnew hdraw hkind hvisible hshown =>
    exact ⟨hdraw.1, by rw [hshown, hg.plain.flag_merge, hvisible]⟩
  | updated hl ho hx hf hsynced =>
    refine ⟨hg.accepted _ _ ho, ?_⟩
    rw [hsynced.shown, hsynced.visible]
    split
    · next hv => rw [hg.shown _ _ _ ho hx, hv]
    · rfl
  | held hl ho hx => exact ⟨hg.accepted _ _ ho, hg.shown _ _ _ ho hx⟩

theorem faithful_run {g : LiveGraph} {c : Canvas} (hg : g.OnCanvas c) (hscene : scene.Consistent)
    (h : g.Faithful c) :
    (run g scene c locked).graph.Faithful (run g scene c locked).canvas := by
  have hsettings : (run g scene c locked).graph.defaults = g.defaults ∧
      (run g scene c locked).canvas.refusing = c.refusing := settings_run hg hscene
  have houtcome := run_outcome locked hg hscene
  have hlive : ∀ id o x, (run g scene c locked).graph.get? id = some o →
      (run g scene c locked).canvas.object? o.handle = some x →
      id ∉ c.refusing ∧ x.visible = o.visible := by
    intro id o x ho hx
    obtain ⟨e, he, rfl⟩ := houtcome.inScene id o ho
    exact (run_visited hg hscene he ho hx).faithful h
  exact
    { plain := by
        rw [hsettings.1]
        exact h.plain
      accepted := fun id o ho => by
        obtain ⟨x, hx, -⟩ := houtcome.onCanvas.drawn id o ho
        rw [hsettings.2]
        exact (hlive id o x ho hx).1
      shown := fun id o x ho hx => (hlive id o x ho hx).2 }

end Faithful

/-! ## The live elements -/

section Live

variable {scene : Scene} {p : Pass}

theorem InLine.refs_eq {e : Element} {o : LiveObject} {d : Drawn} (h : InLine e o d) :
    o.refs = e.refs := by
  rcases h.parents with heq | ⟨-, hbeq⟩
  · rw [LiveObject.refs, heq, Element.refs]
  · exact (Parent.refs_eq_of_beq hbeq).symm

/-- A live element that is in line could be drawn anew. -/
theorem InLine.placeable {e : Element} {id : ElementId} {o : LiveObject} {d : Drawn}
    (h : InLine e o d) (hg : p.graph.OnCanvas p.canvas) (ho : p.graph.get? id = some o)
    (hd : p.canvas.object? o.handle = some d) : Placeable e.kind e.parents := by
  rcases hg.drawn id o ho with ⟨d', hd', -, hk, hb⟩
  rw [hd, Option.some.injEq] at hd'
  subst hd'
  rcases hg.wellFormed.placed _ d hd with ⟨place, hplace, -⟩
  have hp : Placeable o.kind o.parents := by
    rcases placement_binds d.kind hb with ⟨-, m, herr⟩ | ⟨hp, -⟩
    · rw [hplace] at herr
      cases herr
    · exact hk ▸ hp
  rw [← h.kind]
  rcases h.parents with heq | ⟨-, hbeq⟩
  · exact heq ▸ hp
  · exact hp.of_beq (Parent.beq_symm hbeq)

/-- What is live is supported: what it refers to is live and older. -/
theorem Outcome.supported (h : Outcome scene none p) (hf : p.graph.Faithful p.canvas)
    {id : ElementId} {o : LiveObject} (ho : p.graph.get? id = some o) :
    scene.Supported p.canvas.refusing id := by
  induction hn : o.handle.number using Nat.strongRecOn generalizing id o with
  | ind n ih =>
    rcases h.inScene id o ho with ⟨e, he, rfl⟩
    rcases h.onCanvas.drawn e.id o ho with ⟨d, hd, -⟩
    have hin := h.inLine e he (by simp) o d ho hd
    refine .intro he ⟨hf.accepted _ o ho, hin.placeable h.onCanvas ho hd⟩ fun r hr => ?_
    rcases h.onCanvas.ref_live ho (hin.refs_eq ▸ hr) with ⟨q, hq, hlt⟩
    exact ih q.handle.number (hn ▸ hlt) hq rfl

/-- What is supported is live: with its parents live it would have been drawn. -/
theorem Outcome.live {locked : Option ElementId} (h : Outcome scene locked p) {id : ElementId}
    (hid : scene.Supported p.canvas.refusing id) : ∃ o, p.graph.get? id = some o := by
  induction hid with
  | @intro e he hdraw hrefs ih =>
    cases hnew : p.graph.get? e.id with
    | some o => exact ⟨o, rfl⟩
    | none => exact absurd hdraw (h.turnedDown e he hnew ih)

end Live

end Pass

/-! ## Drawings -/

/-- Neither what the canvas refuses nor the settings change. -/
def DrawingAction.KeepsSettings : DrawingAction → Prop
  | .pass .. | .gesture _ => True
  | .refuse _ | .configure _ => False

namespace Drawing

/-- The drawing shows what the scene declares, as far as the canvas can draw it. -/
structure Converged (scene : Scene) (refusing : List ElementId) (d : Drawing) : Prop where
  live : ∀ id, (∃ o, d.graph.get? id = some o) ↔ scene.Supported refusing id
  recorded : ∀ e ∈ scene.elements, ∀ o, d.graph.get? e.id = some o →
    o.kind = e.kind ∧ (o.parents == e.parents) = true ∧ o.visible = e.isVisible
  shown : ∀ e ∈ scene.elements, ∀ o, d.graph.get? e.id = some o →
    ∃ x, d.canvas.object? o.handle = some x ∧ x.visible = e.isVisible
  placed : ∀ e ∈ scene.elements, ∀ o, d.graph.get? e.id = some o →
    ∀ a b, e.position? = some (a, b) → ∃ q, d.canvas.position? o.handle = some q ∧
      (q.x - a).abs ≤ positionTolerance ∧ (q.y - b).abs ≤ positionTolerance

/-- Two drawings are the same but for handles, for where points lie within the tolerance, and for
what is settled once when an object is drawn, as whether it can be dragged. -/
structure Corresponds (d d' : Drawing) : Prop where
  live : ∀ id, (∃ o, d.graph.get? id = some o) ↔ ∃ o, d'.graph.get? id = some o
  recorded : ∀ id o o', d.graph.get? id = some o → d'.graph.get? id = some o' →
    o.kind = o'.kind ∧ (o.parents == o'.parents) = true ∧ o.visible = o'.visible
  drawn : ∀ id o o', d.graph.get? id = some o → d'.graph.get? id = some o' →
    ∃ x x', d.canvas.object? o.handle = some x ∧ d'.canvas.object? o'.handle = some x' ∧
      x.kind = x'.kind ∧ x.visible = x'.visible ∧
      ∀ (i : Nat) (r : ElementId), o.parents[i]? = some (.ref r) →
        ∃ q q', d.graph.get? r = some q ∧ d'.graph.get? r = some q' ∧
          x.parents[i]? = some (.object q.handle) ∧ x'.parents[i]? = some (.object q'.handle)

/-- What passes and gestures keep of a drawing that starts with plain settings. -/
structure Unconfigured (refusing : List ElementId) (d : Drawing) : Prop where
  linked : d.IsLinked
  faithful : d.graph.Faithful d.canvas
  refusing : d.canvas.refusing = refusing

section Runs

variable {refusing : List ElementId} {d d' : Drawing}

theorem unconfigured_start (viewport : Viewport Float) (refusing : List ElementId) :
    (start .standard viewport refusing).Unconfigured refusing where
  linked := isLinked_start .standard viewport refusing
  faithful :=
    { plain := Defaults.plain_standard
      accepted := fun _ _ ho => by cases ho
      shown := fun _ _ _ ho => by cases ho }
  refusing := rfl

theorem Unconfigured.step (hd : d.Unconfigured refusing) {a : DrawingAction} (ha : a.Valid)
    (hk : a.KeepsSettings) : (d.step a).Unconfigured refusing := by
  refine ⟨hd.linked.step ha, ?_, ?_⟩
  · cases a with
    | pass scene locked => exact Pass.faithful_run hd.linked ha hd.faithful
    | gesture effect => exact hd.faithful.perform effect
    | refuse id => exact hk.elim
    | configure defaults => exact hk.elim
  · rw [← hd.refusing]
    cases a with
    | pass scene locked => exact (Pass.settings_run hd.linked ha).2
    | gesture effect => exact Canvas.refusing_perform d.canvas effect
    | refuse id => exact hk.elim
    | configure defaults => exact hk.elim

theorem unconfigured_run (viewport : Viewport Float) (refusing : List ElementId)
    {actions : List DrawingAction}
    (hactions : ∀ a ∈ actions, a.Valid ∧ a.KeepsSettings) :
    ((start .standard viewport refusing).run actions).Unconfigured refusing :=
  run_induction (motive := Unconfigured refusing)
    (fun _ a ha hd => hd.step (hactions a ha).1 (hactions a ha).2)
    (unconfigured_start viewport refusing)

/-- A pass with nothing held converges. -/
theorem Unconfigured.converged (hd : d.Unconfigured refusing) {scene : Scene}
    (hscene : scene.Consistent) (hfinite : scene.IsFinite) :
    Converged scene refusing (d.step (.pass scene none)) := by
  have houtcome : Pass.Outcome scene none (d.pass scene none) :=
    Pass.run_outcome none hd.linked hscene
  have hnext := hd.step (a := .pass scene none) hscene trivial
  have hfaithful : (d.pass scene none).graph.Faithful (d.pass scene none).canvas := hnext.faithful
  have hrefusing : (d.pass scene none).canvas.refusing = refusing := hnext.refusing
  -- every live element has its object, and is in line with it
  have hin : ∀ e ∈ scene.elements, ∀ o, (d.pass scene none).graph.get? e.id = some o →
      ∃ x, (d.pass scene none).canvas.object? o.handle = some x ∧ Pass.InLine e o x := by
    intro e he o ho
    rcases houtcome.onCanvas.drawn e.id o ho with ⟨x, hx, -⟩
    exact ⟨x, hx, houtcome.inLine e he (by simp) o x ho hx⟩
  exact
    { live := fun id => by
        rw [← hrefusing]
        exact ⟨fun ⟨o, ho⟩ => houtcome.supported hfaithful ho, houtcome.live⟩
      recorded := fun e he o ho => by
        rcases hin e he o ho with ⟨x, hx, hline⟩
        exact ⟨hline.kind, Parent.beq_symm (hline.parents_beq (hfinite e he)), hline.visible⟩
      shown := fun e he o ho => by
        rcases hin e he o ho with ⟨x, hx, hline⟩
        exact ⟨x, hx, (hfaithful.shown e.id o x ho hx).trans hline.visible⟩
      placed := fun e he o ho a b hab => by
        rcases hin e he o ho with ⟨x, hx, hline⟩
        rcases hline.isNear (hfinite e he) hab with ⟨q, hq, hnear⟩
        rw [Pass.isNear, Bool.and_eq_true, decide_eq_true_eq, decide_eq_true_eq] at hnear
        refine ⟨q, ?_, hnear⟩
        rw [Canvas.position?,
          show (d.step (.pass scene none)).canvas.object? o.handle = some x from hx]
        exact hq }

/-- Two drawings that have converged to the same elements correspond. -/
theorem Converged.corresponds {scene scene' : Scene} (hc : d.Converged scene refusing)
    (hc' : d'.Converged scene' refusing) (hd : d.IsLinked) (hd' : d'.IsLinked)
    (hperm : scene'.elements.Perm scene.elements) : Corresponds d d' := by
  -- both graphs hold the elements of the one list, in whatever order
  have helement : ∀ id o, d.graph.get? id = some o →
      ∃ e, e ∈ scene.elements ∧ e ∈ scene'.elements ∧ e.id = id := by
    intro id o ho
    cases (hc.live id).1 ⟨o, ho⟩ with
    | @intro e he hdraw hrefs => exact ⟨e, he, hperm.mem_iff.2 he, rfl⟩
  have hparents : ∀ id o o', d.graph.get? id = some o → d'.graph.get? id = some o' →
      (o.parents == o'.parents) = true := by
    intro id o o' ho ho'
    rcases helement id o ho with ⟨e, he, he', rfl⟩
    exact Parent.beq_trans (hc.recorded e he o ho).2.1
      (Parent.beq_symm (hc'.recorded e he' o' ho').2.1)
  exact
    { live := fun id => by
        rw [hc.live id, hc'.live id]
        exact ⟨Scene.Supported.of_perm hperm.symm, Scene.Supported.of_perm hperm⟩
      recorded := fun id o o' ho ho' => by
        refine ⟨?_, hparents id o o' ho ho', ?_⟩ <;> obtain ⟨e, he, he', rfl⟩ := helement id o ho
        · rw [(hc.recorded e he o ho).1, (hc'.recorded e he' o' ho').1]
        · rw [(hc.recorded e he o ho).2.2, (hc'.recorded e he' o' ho').2.2]
      drawn := fun id o o' ho ho' => by
        have hsame := hparents id o o' ho ho'
        rcases helement id o ho with ⟨e, he, he', rfl⟩
        rcases hd.drawn e.id o ho with ⟨x, hx, -, hk, hb⟩
        rcases hd'.drawn e.id o' ho' with ⟨x', hx', -, hk', hb'⟩
        rcases hc.shown e he o ho with ⟨y, hy, hv⟩
        rcases hc'.shown e he' o' ho' with ⟨y', hy', hv'⟩
        rw [hx, Option.some.injEq] at hy
        rw [hx', Option.some.injEq] at hy'
        subst hy hy'
        refine ⟨x, x', hx, hx', ?_, hv.trans hv'.symm, fun i r hi => ?_⟩
        · rw [hk, hk', (hc.recorded e he o ho).1, (hc'.recorded e he' o' ho').1]
        -- equal parents refer to the same ids, each to the live object in its own drawing
        · rcases LiveGraph.Binds.getElem? hb hi with ⟨q, hq, hxq⟩
          obtain ⟨q', hq', hxq'⟩ :=
            LiveGraph.Binds.getElem? hb' (Parent.getElem?_ref_of_beq hsame hi)
          exact ⟨q, q', hq, hq', hxq, hxq'⟩ }

end Runs

/-- With the built-in settings and an unchanging set of refused ids, a pass with nothing held over a
scene with finite coordinates draws exactly what is supported, as declared; and two runs that end so
over the same elements in any order end with the same drawing but for handles. -/
theorem converged_pass (viewport : Viewport Float) (refusing : List ElementId)
    {actions : List DrawingAction} (hactions : ∀ a ∈ actions, a.Valid ∧ a.KeepsSettings)
    {scene : Scene} (hscene : scene.Consistent) (hfinite : scene.IsFinite) :
    Converged scene refusing
        (((start .standard viewport refusing).run actions).step (.pass scene none)) ∧
      ∀ (viewport' : Viewport Float) (actions' : List DrawingAction) (scene' : Scene),
        (∀ a ∈ actions', a.Valid ∧ a.KeepsSettings) → scene'.Consistent →
        scene'.elements.Perm scene.elements →
        Corresponds (((start .standard viewport refusing).run actions).step (.pass scene none))
          (((start .standard viewport' refusing).run actions').step (.pass scene' none)) := by
  have hd := unconfigured_run viewport refusing hactions
  have hc := hd.converged hscene hfinite
  refine ⟨hc, fun viewport' actions' scene' hactions' hscene' hperm => ?_⟩
  have hd' := unconfigured_run viewport' refusing hactions'
  have hfinite' : scene'.IsFinite := fun e he => hfinite e (hperm.mem_iff.1 he)
  have hc' := hd'.converged hscene' hfinite'
  exact hc.corresponds hc' (hd.linked.step hscene) (hd'.linked.step hscene') hperm

theorem supported_sample : sampleScene.Supported [] ⟨"s"⟩ := by
  have hpoint : ∀ e ∈ sampleScene.elements, e.kind = .point → e.position?.isSome = true →
      sampleScene.Supported [] e.id := by
    intro e he hk hp
    rcases Option.isSome_iff_exists.1 hp with ⟨⟨x, y⟩, hxy⟩
    rcases freePosition?_eq_some_iff.1 hxy with ⟨-, hps⟩
    refine .intro he ⟨List.not_mem_nil, fun _ => .inl ⟨x, y, hps⟩⟩ fun r hr => ?_
    rw [Element.refs, hps] at hr
    cases hr
  refine .intro (e := .new ⟨"s"⟩ .segment [.ref ⟨"p"⟩, .ref ⟨"q"⟩])
    (by simp [sampleScene, sampleElements]) ⟨List.not_mem_nil, fun hk => by cases hk⟩ fun r hr => ?_
  rcases List.mem_cons.1 hr with rfl | hr
  · exact hpoint (.freePoint ⟨"p"⟩ 0 0) (by simp [sampleScene, sampleElements]) rfl rfl
  · rw [List.mem_singleton.1 hr]
    exact hpoint (.freePoint ⟨"q"⟩ 4 3) (by simp [sampleScene, sampleElements]) rfl rfl

/-- The sample in reverse order, after a drag and after nothing at all. -/
theorem converged_pass_sample :
    let reversed : Scene := ⟨sampleElements.reverse, Scene.indexOf sampleElements.reverse, 0⟩
    let actions : List DrawingAction := [.pass reversed (some ⟨"p"⟩), .gesture (.drag ⟨1⟩ ⟨2, 2⟩)]
    let dragged := ((start .standard default []).run actions).step (.pass sampleScene none)
    let fresh := ((start .standard default []).run []).step (.pass reversed none)
    (∀ a ∈ actions, a.Valid ∧ a.KeepsSettings) ∧ sampleScene.Consistent ∧ sampleScene.IsFinite ∧
      (∃ o, dragged.graph.get? ⟨"s"⟩ = some o) ∧ Corresponds dragged fresh := by
  intro reversed actions dragged fresh
  have hreversed : reversed.Consistent := Scene.consistent_indexOf (by decide) 0
  have hactions : ∀ a ∈ actions, a.Valid ∧ a.KeepsSettings := by
    intro a ha
    simp only [actions, List.mem_cons, List.not_mem_nil, or_false] at ha
    rcases ha with rfl | rfl
    · exact ⟨hreversed, trivial⟩
    · exact ⟨trivial, trivial⟩
  have h := converged_pass default [] hactions consistent_sampleScene isFinite_sampleScene
  refine ⟨hactions, consistent_sampleScene, isFinite_sampleScene, ?_, ?_⟩
  · exact (h.1.live ⟨"s"⟩).2 supported_sample
  · exact h.2 default [] reversed (by simp) hreversed (List.reverse_perm _)

end Drawing

end Chalkboard
