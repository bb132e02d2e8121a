import Chalkboard.Proofs.Live.Sweep

/-!
# The outcome of a pass

In every state of a pass, the elements that were seen are live, or waiting, or turned down, and an
element that is live and not held is in line with its record and its object. At the end it follows
that exactly the elements with a parent that is not live are deferred, and that exactly the others
that are not live have failed.
-/

namespace Chalkboard

namespace Pass

/-- The record and the object say what the element declares. Parents that are not those of a free
point may differ from the declared ones as long as they are equal as numbers. -/
structure InLine (e : Element) (o : LiveObject) (d : Drawn) : Prop where
  kind : o.kind = e.kind
  parents : o.parents = e.parents ∨ (e.position? = none ∧ (e.parents == o.parents) = true)
  visible : o.visible = e.isVisible
  position : ∀ x y, e.position? = some (x, y) → ∃ q, d.position = some q ∧ AtPlace q ⟨x, y⟩

/-- What holds of the elements that were seen. -/
structure Settled (locked : Option ElementId) (seen waiting : List Element) (p : Pass) : Prop where
  accounted : ∀ e ∈ seen, (∃ o, p.graph.get? e.id = some o) ∨ e ∈ waiting ∨
    e.id ∈ p.report.failed.map Prod.fst
  failed : ∀ id ∈ p.report.failed.map Prod.fst, ∃ e ∈ seen, e.id = id ∧ e ∉ waiting ∧
    p.graph.get? id = none ∧ ¬e.IsDrawable p.canvas.refusing ∧
    ∀ r ∈ e.refs, ∃ o, p.graph.get? r = some o
  inLine : ∀ e ∈ seen, locked ≠ some e.id → ∀ o d, p.graph.get? e.id = some o →
    p.canvas.object? o.handle = some d → InLine e o d

section Acts

variable {locked : Option ElementId} {p q : Pass} {e : Element}

/-- An element that was acted on is live or turned down. -/
theorem Acts.accounted (h : Acts locked p e q) :
    (∃ o, q.graph.get? e.id = some o) ∨ e.id ∈ q.report.failed.map Prod.fst := by
  cases h with
  | draws hnew h =>
    cases h with
    | drawn o d hdraw h =>
      exact .inl ⟨o, by rw [h.graph, LiveGraph.get?_add_of_new hnew, if_pos rfl]⟩
    | turnedDown error hdraw hlive herror => exact .inr (by simp [fail])
  | @updates o o' d d' hl ho hf h =>
    exact .inl ⟨o', by rw [h.graph, LiveGraph.get?_replace ho, if_pos rfl]⟩
  | skips hl ho => exact .inl ⟨_, ho⟩

/-- An element that was acted on and is not held is in line. -/
theorem Acts.inLine (h : Acts locked p e q) (hg : p.graph.OnCanvas p.canvas)
    (hl : locked ≠ some e.id) {o : LiveObject} {d : Drawn} (ho : q.graph.get? e.id = some o)
    (hd : q.canvas.object? o.handle = some d) : InLine e o d := by
  cases h with
  | draws hnew h =>
    cases h with
    | drawn o' d' hdraw h =>
      rw [h.graph, LiveGraph.get?_add_of_new hnew, if_pos rfl, Option.some.injEq] at ho
      subst ho
      rw [h.canvas, Canvas.object?_draw hg.wellFormed, if_pos h.handle, Option.some.injEq] at hd
      subst hd
      refine ⟨h.kind, .inl h.parents, h.visible, fun x y hxy => ?_⟩
      exact ⟨⟨x, y⟩, by rw [h.position, hxy]; rfl, .inl rfl⟩
    | turnedDown error hdraw hlive herror =>
      rw [show (p.fail e.id error).graph = p.graph from rfl, hnew] at ho
      cases ho
  | @updates o₁ o' d₁ d' _ ho₁ hf h =>
    rw [h.graph, LiveGraph.get?_replace ho₁, if_pos rfl, Option.some.injEq] at ho
    subst ho
    rw [h.canvas.object, if_pos h.synced.handle, Option.some.injEq] at hd
    subst hd
    exact ⟨h.synced.kind.trans hf.1, h.synced.parents_eq hf, h.synced.visible, h.synced.position⟩
  | skips hl' ho' => exact absurd hl' hl

/-- Whoever failed stays on the list. -/
theorem Acts.failed_subset (h : Acts locked p e q) :
    p.report.failed.map Prod.fst ⊆ q.report.failed.map Prod.fst := by
  rcases h.failed with hf | ⟨-, -, -, -, error, hf⟩
  · rw [hf]
    exact List.Subset.refl _
  · rw [hf, List.map_append]
    exact List.subset_append_left ..

/-- Only the element that was acted on can be new on the list, and then nothing was drawn. -/
theorem Acts.newly_failed (h : Acts locked p e q) {id : ElementId}
    (hid : id ∈ q.report.failed.map Prod.fst) (hold : id ∉ p.report.failed.map Prod.fst) :
    e.id = id ∧ q.graph.get? id = none ∧ ¬e.IsDrawable p.canvas.refusing ∧
      ∀ r ∈ e.refs, ∃ o, p.graph.get? r = some o := by
  rcases h.failed with hf | ⟨hnew, hgraph, hdraw, hlive, error, hf⟩
  · rw [hf] at hid
    exact absurd hid hold
  · rw [hf, List.map_append, List.mem_append] at hid
    have hid : id = e.id := List.mem_singleton.1 (hid.resolve_left hold)
    exact ⟨hid.symm, by rw [hid, hgraph, hnew], hdraw, hlive⟩

/-- What the canvas does not draw though all its parents are live, it does not draw later in the
pass: the canvas refuses the same elements, and live objects stay live. -/
theorem Acts.undrawable (h : Acts locked p e q) {e' : Element}
    (hdraw : ¬e'.IsDrawable p.canvas.refusing) (hlive : ∀ r ∈ e'.refs, ∃ o, p.graph.get? r = some o) :
    ¬e'.IsDrawable q.canvas.refusing ∧ ∀ r ∈ e'.refs, ∃ o, q.graph.get? r = some o := by
  constructor
  · rwa [h.settings.2]
  · intro r hr
    obtain ⟨o, ho⟩ := hlive r hr
    obtain ⟨o', ho', -⟩ := h.live ho
    exact ⟨o', ho'⟩

/-- Acting on an element that is new or has waited settles it, and leaves the others settled. -/
theorem Settled.act {scene : Scene} {seen seen' waiting waiting' : List Element}
    (hs : Settled locked seen waiting p) (hscene : scene.Consistent)
    (hg : p.graph.OnCanvas p.canvas) (h : Acts locked p e q) (he : e ∈ waiting ∨ e ∉ seen)
    (hsub : seen' ⊆ scene.elements) (hseen : ∀ e', e' ∈ seen' ↔ e' ∈ seen ∨ e' = e)
    (hwaiting : ∀ e', e' ∈ waiting' ↔ e' ∈ waiting ∧ e' ≠ e) :
    Settled locked seen' waiting' q := by
  have hmem : e ∈ scene.elements := hsub ((hseen e).2 (.inr rfl))
  -- ids are distinct, so the other elements keep their records and objects
  have hne : ∀ e' ∈ seen, e' ≠ e → e'.id ≠ e.id := fun e' he' hne hid =>
    hne (hscene.eq_of_id_eq (hsub ((hseen e').2 (.inl he'))) hmem hid)
  exact
    { accounted := by
        intro e' he'
        by_cases heq : e' = e
        · subst heq
          exact h.accounted.imp_right .inr
        · have hold := ((hseen e').1 he').resolve_right heq
          rcases hs.accounted e' hold with ⟨o, ho⟩ | hwait | hfailed
          · exact .inl ⟨o, by rw [h.get?_of_ne (hne e' hold heq), ho]⟩
          · exact .inr (.inl ((hwaiting e').2 ⟨hwait, heq⟩))
          · exact .inr (.inr (h.failed_subset hfailed))
      failed := by
        intro id hid
        by_cases hold : id ∈ p.report.failed.map Prod.fst
        · obtain ⟨e', he', rfl, hwait, hnone, hdraw, hlive⟩ := hs.failed id hold
          have heq : e' ≠ e := by
            rintro rfl
            exact he.elim hwait (fun h => h he')
          refine ⟨e', (hseen e').2 (.inl he'), rfl, fun h' => hwait ((hwaiting e').1 h').1, ?_,
            h.undrawable hdraw hlive⟩
          rw [h.get?_of_ne (hne e' he' heq), hnone]
        · obtain ⟨hid, hnone, hdraw, hlive⟩ := h.newly_failed hid hold
          exact ⟨e, (hseen e).2 (.inr rfl), hid, fun h' => ((hwaiting e).1 h').2 rfl, hnone,
            h.undrawable hdraw hlive⟩
      inLine := by
        intro e' he' hl o d ho hd
        by_cases heq : e' = e
        · subst heq
          exact h.inLine hg hl ho hd
        · have hold := ((hseen e').1 he').resolve_right heq
          rw [h.get?_of_ne (hne e' hold heq)] at ho
          rw [h.object?_of_ne hg ho (hne e' hold heq)] at hd
          exact hs.inLine e' hold hl o d ho hd }

end Acts

/-- In every state of a pass, the elements seen so far are settled. -/
theorem Sweeps.settled {scene : Scene} {locked : Option ElementId} {p₀ p : Pass}
    {seen waiting : List Element} (h : Sweeps scene locked p₀ seen waiting p)
    (hp₀ : Linked scene locked p₀) (hscene : scene.Consistent) (hf : p₀.report.failed = []) :
    Settled locked seen waiting p := by
  -- on the course of the pass: waiting settles an element, and so does acting on it
  induction h with
  | start => exact ⟨by simp, by simp [hf], by simp⟩
  | @wait seen waiting p e h he hseen hnew ih =>
    have hfresh : e ∉ seen := fun hmem => hseen (List.mem_map_of_mem hmem)
    refine ⟨fun e' he' => ?_, fun id hid => ?_, fun e' he' hl o d ho hd => ?_⟩
    · rcases List.mem_append.1 he' with he' | he'
      · rcases ih.accounted e' he' with hlive | hwait | hfailed
        · exact .inl hlive
        · exact .inr (.inl (List.mem_append_left _ hwait))
        · exact .inr (.inr hfailed)
      · exact .inr (.inl (List.mem_append_right _ he'))
    · rcases ih.failed id hid with ⟨e', he', hid', hwait, hrest⟩
      refine ⟨e', List.mem_append_left _ he', hid', fun hmem => ?_, hrest⟩
      rcases List.mem_append.1 hmem with hmem | hmem
      · exact hwait hmem
      · exact hfresh (List.mem_singleton.1 hmem ▸ he')
    · rcases List.mem_append.1 he' with he' | he'
      · exact ih.inLine e' he' hl o d ho hd
      · rw [List.mem_singleton.1 he', hnew] at ho
        cases ho
  | @visit seen waiting p q e h he hseen ha ih =>
    have hfresh : e ∉ seen := fun hmem => hseen (List.mem_map_of_mem hmem)
    have hqueued := (Sweeps.visit h he hseen ha).queued
    refine ih.act hscene (h.linked hp₀).onCanvas ha (.inr hfresh) hqueued.subset (by simp) ?_
    refine fun e' => ⟨fun hwait => ⟨hwait, ?_⟩, And.left⟩
    rintro rfl
    exact hfresh (h.queued.sublist.mem hwait)
  | @retry seen before after p q e h ha ih =>
    have hwaits : e ∈ before ++ e :: after := List.mem_append_right _ (List.mem_cons_self ..)
    refine ih.act hscene (h.linked hp₀).onCanvas ha (.inl hwaits) h.queued.subset (fun e' => ?_)
      fun e' => h.mem_rest_iff
    exact ⟨.inl, fun hor => hor.elim id fun heq => heq ▸ h.mem_of_retry⟩

/-! ## The end of a pass -/

section End

variable {scene : Scene} {locked : Option ElementId} {seen waiting : List Element} {p : Pass}
  {e : Element}

/-- An element that failed is not drawable, though its parents are live. -/
theorem Settled.of_failed (hs : Settled locked seen waiting p) (hscene : scene.Consistent)
    (hsub : seen ⊆ scene.elements) (he : e ∈ scene.elements)
    (hfail : e.id ∈ p.report.failed.map Prod.fst) :
    ¬e.IsDrawable p.canvas.refusing ∧ ∀ r ∈ e.refs, ∃ o, p.graph.get? r = some o := by
  rcases hs.failed e.id hfail with ⟨e', he', hid, -, -, hdraw, hlive⟩
  have heq : e' = e := hscene.eq_of_id_eq (hsub he') he hid
  subst heq
  exact ⟨hdraw, hlive⟩

/-- Once the waiting elements are stuck, an element that is not live though its parents are has
failed. -/
theorem Settled.mem_failed (hs : Settled locked seen waiting p)
    (hstuck : ∀ e ∈ waiting, p.create? e = none) (he : e ∈ seen)
    (hnone : p.graph.get? e.id = none) (hlive : ∀ r ∈ e.refs, ∃ o, p.graph.get? r = some o) :
    e.id ∈ p.report.failed.map Prod.fst := by
  rcases hs.accounted e he with ⟨o, ho⟩ | hwait | hfail
  · rw [hnone] at ho
    cases ho
  · rcases create?_eq_none_iff.1 (hstuck e hwait) with ⟨r, hr, hmissing⟩
    rcases hlive r hr with ⟨o, ho⟩
    rw [hmissing] at ho
    cases ho
  · exact hfail

/-- An element with a parent that is not live waits. -/
theorem Settled.mem_waiting (hs : Settled locked seen waiting p) (hscene : scene.Consistent)
    (hsub : seen ⊆ scene.elements) (he : e ∈ seen) (hnone : p.graph.get? e.id = none)
    {r : ElementId} (hr : r ∈ e.refs) (hmissing : p.graph.get? r = none) : e ∈ waiting := by
  rcases hs.accounted e he with ⟨o, ho⟩ | hwait | hfail
  · rw [hnone] at ho
    cases ho
  · exact hwait
  · rcases (hs.of_failed hscene hsub (hsub he) hfail).2 r hr with ⟨o, ho⟩
    rw [hmissing] at ho
    cases ho

end End

/-- What a pass over a scene leads to. -/
structure Outcome (scene : Scene) (locked : Option ElementId) (p : Pass) : Prop where
  onCanvas : p.graph.OnCanvas p.canvas
  inScene : ∀ id o, p.graph.get? id = some o → ∃ e ∈ scene.elements, e.id = id
  inLine : ∀ e ∈ scene.elements, locked ≠ some e.id → ∀ o d, p.graph.get? e.id = some o →
    p.canvas.object? o.handle = some d → InLine e o d
  deferred : ∀ id, id ∈ p.report.deferred ↔ ∃ e ∈ scene.elements, e.id = id ∧
    p.graph.get? id = none ∧ ∃ r ∈ e.refs, p.graph.get? r = none
  failed : ∀ id, id ∈ p.report.failed.map Prod.fst ↔ ∃ e ∈ scene.elements, e.id = id ∧
    p.graph.get? id = none ∧ ∀ r ∈ e.refs, ∃ o, p.graph.get? r = some o
  turnedDown : ∀ e ∈ scene.elements, p.graph.get? e.id = none →
    (∀ r ∈ e.refs, ∃ o, p.graph.get? r = some o) → ¬e.IsDrawable p.canvas.refusing
  known : ∀ w ∈ p.warnings, ∀ h, w.2 ≠ .unknownHandle h

theorem run_outcome {g : LiveGraph} {scene : Scene} {c : Canvas} (locked : Option ElementId)
    (hg : g.OnCanvas c) (hscene : scene.Consistent) :
    Outcome scene locked (run g scene c locked) := by
  rcases run_sweeps locked hg hscene with ⟨p, deferred, seen, hrun, hperm, hsweeps, hstuck⟩
  have hp₀ := linked_removeStale locked hg hscene
  obtain ⟨-, -, -, hwarnings, hfailed⟩ := removeStale_frame scene locked (p := start g c)
    (hg.alike (Canvas.alike_suspend c)) (Nat.succ_pos _)
  have hlinked := hsweeps.linked hp₀
  have hsettled := hsweeps.settled hp₀ hscene hfailed
  have hsub : seen ⊆ scene.elements := hperm.subset
  -- a pass has visited every element at its end, and what still waits cannot be drawn
  have hseen : ∀ {e}, e ∈ scene.elements → e ∈ seen := fun he => hperm.mem_iff.2 he
  have hobject : ∀ h, p.canvas.resume.object? h = p.canvas.object? h := by
    simp [Canvas.object?, Canvas.resume]
  have hrefusing : p.canvas.resume.refusing = p.canvas.refusing := by simp [Canvas.resume]
  rw [hrun]
  exact
    { onCanvas := hlinked.onCanvas.alike (Canvas.alike_resume _)
      inScene := fun id o ho => by
        rcases hlinked.fits id o ho with ⟨e, he, hid, -⟩
        exact ⟨e, he, hid⟩
      inLine := fun e he hl o d ho hd =>
        hsettled.inLine e (hseen he) hl o d ho ((hobject _).symm.trans hd)
      deferred := fun id => by
        rw [show (p.finish deferred).report.deferred = deferred.map Element.id from rfl,
          List.mem_map]
        constructor
        · rintro ⟨e, he, rfl⟩
          exact ⟨e, hsub (hsweeps.queued.sublist.mem he), rfl, hsweeps.queued.notLive e he,
            (create?_eq_none_iff (p := p)).1 (hstuck e he)⟩
        · rintro ⟨e, he, rfl, hnone, r, hr, hmissing⟩
          exact ⟨e, hsettled.mem_waiting hscene hsub (hseen he) hnone hr hmissing, rfl⟩
      failed := fun id => by
        constructor
        · intro hid
          rcases hsettled.failed id hid with ⟨e, he, rfl, -, hnone, -, hlive⟩
          exact ⟨e, hsub he, rfl, hnone, hlive⟩
        · rintro ⟨e, he, rfl, hnone, hlive⟩
          exact hsettled.mem_failed hstuck (hseen he) hnone hlive
      turnedDown := fun e he hnone hlive => by
        have hfail := hsettled.mem_failed hstuck (hseen he) hnone hlive
        rw [show (p.finish deferred).canvas.refusing = p.canvas.refusing from hrefusing]
        exact (hsettled.of_failed hscene hsub he hfail).1
      known := hsweeps.known (by
        rw [hwarnings]
        simp [start]) }

end Pass

end Chalkboard
