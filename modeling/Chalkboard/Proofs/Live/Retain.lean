import Chalkboard.Proofs.Live.Sweep

/-!
# What a pass leaves in place

An object is torn down only if it is stale itself or refers to an object that is torn down
(`Pass.mem_doomed_cases`). One that is not keeps its handle through the whole pass, is reported as
updated only if there was something to change, and is not touched at all while it is held
(`Pass.run_retains`). What is live after a pass either was live before, under the same handle, or is
younger than all objects that were on the canvas (`Pass.run_inherits`).
-/

namespace Chalkboard

namespace Pass

/-! ## Why an object is doomed -/

theorem mem_doom_cases {objects : Table ElementId LiveObject} {doomed : List ElementId} {n : Nat}
    {id : ElementId} (h : id ∈ doom objects doomed n) :
    id ∈ doomed ∨ ∃ o, (id, o) ∈ objects ∧ ∃ r ∈ o.refs, r ∈ doom objects doomed n := by
  induction n generalizing doomed with
  | zero => exact .inl h
  | succ n ih =>
    simp only [doom] at h ⊢
    split at h
    · exact .inl h
    · rcases ih h with hmem | hrefers
      · rcases List.mem_append.1 hmem with hold | hnew
        · exact .inl hold
        · -- it refers to an id that was doomed before, and stays so
          obtain ⟨entry, hentry, rfl⟩ := List.mem_map.1 hnew
          obtain ⟨hobj, htest⟩ := List.mem_filter.1 hentry
          rw [Bool.and_eq_true, List.any_eq_true] at htest
          obtain ⟨r, hr, hdoomed⟩ := htest.2
          have hr' : r ∈ doomed := by simpa using hdoomed
          exact .inr ⟨entry.2, hobj, r, hr, subset_doom _ _ _ r (List.mem_append_left _ hr')⟩
      · exact .inr hrefers

section Doomed

variable {scene : Scene} {locked : Option ElementId} {g : LiveGraph} {id : ElementId}
  {o : LiveObject}

/-- A doomed object is stale, or it refers to a doomed one. -/
theorem mem_doomed_cases (hnodup : g.objects.keys.Nodup) (ho : g.get? id = some o)
    (h : id ∈ doomed scene locked g.objects) :
    isStale scene locked id o = true ∨ ∃ r ∈ o.refs, r ∈ doomed scene locked g.objects := by
  rcases mem_doom_cases h with hstale | ⟨o', hobj, hrefers⟩
  · obtain ⟨entry, hentry, rfl⟩ := List.mem_map.1 hstale
    obtain ⟨hobj, htest⟩ := List.mem_filter.1 hentry
    have heq : g.get? entry.1 = some entry.2 := Table.get?_of_mem hnodup hobj
    rw [ho, Option.some.injEq] at heq
    exact .inl (heq ▸ htest)
  · have heq : g.get? id = some o' := Table.get?_of_mem hnodup hobj
    rw [ho, Option.some.injEq] at heq
    exact .inr (heq ▸ hrefers)

/-- A free point that becomes one at another place has not changed structurally. -/
theorem structurallyChanged_of_free {e : Element} (hfree : o.isFreePoint = true)
    (he : e.position?.isSome = true) : structurallyChanged e o = false := by
  obtain ⟨hkind, -⟩ := isSome_freePosition?_iff.1 hfree
  obtain ⟨hkind', -⟩ := isSome_freePosition?_iff.1 he
  simp [structurallyChanged, hkind, hkind', hfree, he]

/-- A free point refers to nothing. -/
theorem refs_of_isFreePoint (h : o.isFreePoint = true) : o.refs = [] := by
  obtain ⟨-, x, y, hps⟩ := isSome_freePosition?_iff.1 h
  rw [LiveObject.refs, hps]
  rfl

/-- So a free point is torn down only if it is stale. -/
theorem not_mem_doomed (hnodup : g.objects.keys.Nodup) (ho : g.get? id = some o)
    (hfree : o.isFreePoint = true) (hstale : isStale scene locked id o = false) :
    id ∉ doomed scene locked g.objects := by
  intro hdoomed
  rcases mem_doomed_cases hnodup ho hdoomed with htrue | ⟨r, hr, -⟩
  · rw [hstale] at htrue
    cases htrue
  · rw [refs_of_isFreePoint hfree] at hr
    cases hr

end Doomed

/-! ## One object through a pass -/

/-- What has become of one object, drawn as `d` and recorded as `o` in `p₀`, in a later state of the
pass. -/
structure Retains (scene : Scene) (locked : Option ElementId) (p₀ : Pass) (seen : List Element)
    (id : ElementId) (o : LiveObject) (d : Drawn) (p : Pass) : Prop where
  live : ∃ o', p.graph.get? id = some o' ∧ o'.handle = o.handle
  /-- Until its element is visited, and for ever if it is held, nothing happens to it. -/
  untouched : locked = some id ∨ id ∉ seen.map Element.id →
    p.graph.get? id = some o ∧ p.canvas.object? o.handle = some d
  created : id ∈ p.report.created → id ∈ p₀.report.created
  updated : id ∈ p.report.updated → id ∈ p₀.report.updated ∨
    ∃ e ∈ scene.elements, e.id = id ∧ ¬Matches e o d
  removed : p.report.removed = p₀.report.removed

section Retains

variable {scene : Scene} {locked : Option ElementId} {p₀ p q : Pass} {e : Element}
  {seen : List Element} {id : ElementId} {o : LiveObject} {d : Drawn}

/-- Acting on an element says nothing new about the others. -/
theorem Acts.report_of_ne (h : Acts locked p e q) (hne : id ≠ e.id) :
    (id ∈ q.report.created → id ∈ p.report.created) ∧
    (id ∈ q.report.updated → id ∈ p.report.updated) := by
  have hlast : ∀ {ids : List ElementId}, id ∈ ids ++ [e.id] → id ∈ ids := by
    intro ids hmem
    rcases List.mem_append.1 hmem with hmem | hmem
    · exact hmem
    · exact absurd (List.mem_singleton.1 hmem) hne
  cases h with
  | draws hnew h =>
    cases h with
    | drawn o d hdraw h =>
      rw [h.report]
      exact ⟨hlast, fun hmem => hmem⟩
    | turnedDown error hdraw hlive herror => exact ⟨fun hmem => hmem, fun hmem => hmem⟩
  | updates hl ho hf h =>
    rcases h.report with hr | ⟨-, hr⟩
    · rw [hr]
      exact ⟨fun hmem => hmem, fun hmem => hmem⟩
    · rw [hr]
      exact ⟨fun hmem => hmem, hlast⟩
  | skips hl ho => exact ⟨fun hmem => hmem, fun hmem => hmem⟩

theorem Acts.removed (h : Acts locked p e q) : q.report.removed = p.report.removed := by
  cases h with
  | draws hnew h =>
    cases h with
    | drawn o d hdraw h => rw [h.report]
    | turnedDown error hdraw hlive herror => rfl
  | updates hl ho hf h =>
    rcases h.report with hr | ⟨-, hr⟩
    · rw [hr]
    · rw [hr]
  | skips hl ho => rfl

/-- Acting on another element leaves the object as it is. -/
theorem Retains.act_of_ne (hp : Retains scene locked p₀ seen id o d p)
    (hg : p.graph.OnCanvas p.canvas) (h : Acts locked p e q) (hne : id ≠ e.id)
    {seen' : List Element} (hseen : seen ⊆ seen') : Retains scene locked p₀ seen' id o d q where
  live := by
    rw [h.get?_of_ne hne]
    exact hp.live
  untouched := by
    intro hor
    have hor' : locked = some id ∨ id ∉ seen.map Element.id :=
      hor.imp_right fun hnew hmem => hnew (List.map_subset _ hseen hmem)
    obtain ⟨ho, hd⟩ := hp.untouched hor'
    exact ⟨by rw [h.get?_of_ne hne, ho], by rw [h.object?_of_ne hg ho hne, hd]⟩
  created := fun hmem => hp.created ((h.report_of_ne hne).1 hmem)
  updated := fun hmem => hp.updated ((h.report_of_ne hne).2 hmem)
  removed := h.removed.trans hp.removed

/-- Visiting the object's own element leaves it alone if it is held, and else brings it in line. -/
theorem Retains.act_self (hp : Retains scene locked p₀ seen id o d p) (h : Acts locked p e q)
    (he : e ∈ scene.elements) (hid : e.id = id) (hnew : id ∉ seen.map Element.id) :
    Retains scene locked p₀ (seen ++ [e]) id o d q := by
  obtain ⟨ho, hd⟩ := hp.untouched (.inr hnew)
  have hseen : id ∈ (seen ++ [e]).map Element.id := by simp [hid]
  subst hid
  cases h with
  | draws hnone h =>
    rw [hnone] at ho
    cases ho
  | @updates o₁ o' d₁ d' hl ho₁ hf h =>
    rw [ho, Option.some.injEq] at ho₁
    subst ho₁
    have hbefore := h.before
    rw [hd, Option.some.injEq] at hbefore
    subst hbefore
    refine ⟨⟨o', ?_, h.synced.handle⟩, ?_, ?_, ?_, (Acts.updates hl ho hf h).removed.trans hp.removed⟩
    · rw [h.graph, LiveGraph.get?_replace ho, if_pos rfl]
    · rintro (hlocked | hnotSeen)
      · exact absurd hlocked hl
      · exact absurd hseen hnotSeen
    · intro hmem
      rcases h.report with hr | ⟨-, hr⟩
      · exact hp.created (hr ▸ hmem)
      · rw [hr] at hmem
        exact hp.created hmem
    · intro hmem
      rcases h.report with hr | ⟨hchange, -⟩
      · exact hp.updated (hr ▸ hmem)
      · exact .inr ⟨e, he, rfl, hchange⟩
  | skips hl ho₁ =>
    exact
      { live := hp.live
        untouched := fun _ => ⟨ho, hd⟩
        created := hp.created
        updated := hp.updated
        removed := hp.removed }

/-- In every state of a pass, an object that was live at its start is still there. -/
theorem Sweeps.retains {waiting : List Element} (h : Sweeps scene locked p₀ seen waiting p)
    (hp₀ : Linked scene locked p₀) (ho : p₀.graph.get? id = some o)
    (hd : p₀.canvas.object? o.handle = some d) : Retains scene locked p₀ seen id o d p := by
  induction h with
  | start => exact ⟨⟨o, ho, rfl⟩, fun _ => ⟨ho, hd⟩, fun h => h, fun h => .inl h, rfl⟩
  | @wait seen waiting p e h he hseen hnone ih =>
    exact
      { ih with
        untouched := fun hor => ih.untouched (hor.imp_right fun hnew hmem =>
          hnew (List.map_subset _ (List.subset_append_left ..) hmem)) }
  | @visit seen waiting p q e h he hseen ha ih =>
    by_cases hid : e.id = id
    · exact ih.act_self ha he hid (hid ▸ hseen)
    · exact ih.act_of_ne (h.linked hp₀).onCanvas ha (Ne.symm hid) (List.subset_append_left ..)
  | @retry seen before after p q e h ha ih =>
    -- what waits is not live
    have hne : id ≠ e.id := by
      rintro rfl
      obtain ⟨o', ho', -⟩ := ih.live
      have hnone := h.queued.notLive e (List.mem_append_right _ (List.mem_cons_self ..))
      rw [hnone] at ho'
      cases ho'
    exact ih.act_of_ne (h.linked hp₀).onCanvas ha hne (List.Subset.refl _)

end Retains

/-! ## Where the live objects come from -/

/-- What is live in `g'` was live in `g` under the same handle, or is younger than all objects of
the canvas `c`. -/
structure Inherits (g : LiveGraph) (c : Canvas) (g' : LiveGraph) (c' : Canvas) : Prop where
  lastHandle : c.lastHandle ≤ c'.lastHandle
  origin : ∀ id o', g'.get? id = some o' →
    (∃ o, g.get? id = some o ∧ o.handle = o'.handle ∧ o.draggable = o'.draggable ∧
      o.isFreePoint = o'.isFreePoint) ∨
    (c.lastHandle < o'.handle.number ∧ (o'.draggable = true → o'.isFreePoint = true))

section Inherits

variable {g g' g'' : LiveGraph} {c c' c'' : Canvas}

theorem Inherits.refl (g : LiveGraph) (c : Canvas) : Inherits g c g c :=
  ⟨Nat.le_refl _, fun _ o' ho' => .inl ⟨o', ho', rfl, rfl, rfl⟩⟩

theorem Inherits.trans (h : Inherits g c g' c') (h' : Inherits g' c' g'' c'') :
    Inherits g c g'' c'' where
  lastHandle := Nat.le_trans h.lastHandle h'.lastHandle
  origin := by
    intro id o'' ho''
    rcases h'.origin id o'' ho'' with ⟨o', ho', hh', hd', hf'⟩ | ⟨hyoung, hfree⟩
    · rcases h.origin id o' ho' with ⟨o, ho, hh, hd, hf⟩ | ⟨hyoung, hfree⟩
      · exact .inl ⟨o, ho, hh.trans hh', hd.trans hd', hf.trans hf'⟩
      · refine .inr ⟨hh' ▸ hyoung, fun hdrag => ?_⟩
        rw [← hf']
        exact hfree (hd'.trans hdrag)
    · exact .inr ⟨Nat.lt_of_le_of_lt h.lastHandle hyoung, hfree⟩

/-- Bringing a record in line keeps whether it is that of a free point. -/
theorem Synced.isFreePoint {e : Element} {o o' : LiveObject} {d d' : Drawn}
    (h : Synced e o o' d d') (hf : Fits e o) : o.isFreePoint = o'.isFreePoint := by
  rw [LiveObject.isFreePoint, LiveObject.isFreePoint, h.kind, h.parents]
  split
  · next he =>
    have hfree : o.isFreePoint = true := hf.isFreePoint he
    have he' : (freePosition? o.kind e.parents).isSome = true := by
      rw [hf.1]
      exact he
    rw [he']
    exact hfree
  · rfl

theorem Acts.inherits {locked : Option ElementId} {p q : Pass} {e : Element}
    (h : Acts locked p e q) : Inherits p.graph p.canvas q.graph q.canvas := by
  cases h with
  | draws hnew h =>
    cases h with
    | drawn o d hdraw h =>
      have hlast : (p.canvas.draw d).1.lastHandle = p.canvas.lastHandle + 1 := by
        simp [Canvas.draw]
      have hhandle : o.handle.number = p.canvas.lastHandle + 1 := by
        rw [h.handle]
        rfl
      constructor
      · rw [h.canvas, hlast]
        omega
      · intro id o' ho'
        rw [h.graph, LiveGraph.get?_add_of_new hnew] at ho'
        split at ho'
        · cases ho'
          exact .inr ⟨by omega, h.draggable⟩
        · exact .inl ⟨o', ho', rfl, rfl, rfl⟩
    | turnedDown error hdraw hlive herror => exact .refl _ _
  | @updates o o₁ d d' hl ho hf h =>
    constructor
    · exact Nat.le_of_eq h.canvas.alike.lastHandle.symm
    · intro id o' ho'
      rw [h.graph, LiveGraph.get?_replace ho] at ho'
      split at ho'
      · next hid =>
        cases ho'
        refine .inl ⟨o, hid ▸ ho, h.synced.handle.symm, h.synced.draggable.symm, ?_⟩
        exact h.synced.isFreePoint hf
      · exact .inl ⟨o', ho', rfl, rfl, rfl⟩
  | skips hl ho => exact .refl _ _

theorem Sweeps.inherits {scene : Scene} {locked : Option ElementId} {p₀ p : Pass}
    {seen waiting : List Element} (h : Sweeps scene locked p₀ seen waiting p) :
    Inherits p₀.graph p₀.canvas p.graph p.canvas :=
  h.acts_induction (.refl _ _) fun _ _ ha hp => hp.trans ha.inherits

theorem inherits_removeStale (scene : Scene) (locked : Option ElementId) {p : Pass}
    (hg : p.graph.OnCanvas p.canvas) (hs : 0 < p.canvas.suspended) :
    Inherits p.graph p.canvas (removeStale scene locked p).graph
      (removeStale scene locked p).canvas where
  lastHandle := by
    obtain ⟨order, -, heq⟩ := removeStale_eq scene locked hg hs
    rw [heq]
    exact Nat.le_refl _
  origin := by
    intro id o' ho'
    rw [get?_removeStale hg hs] at ho'
    split at ho'
    · cases ho'
    · exact .inl ⟨o', ho', rfl, rfl, rfl⟩

end Inherits

/-! ## A whole pass -/

section Run

variable {g : LiveGraph} {scene : Scene} {c : Canvas} {id : ElementId} {o : LiveObject} {d : Drawn}

/-- An object that is not torn down keeps its handle, and is reported as updated only if there was
something to change about it. While it is held, nothing about it changes. -/
theorem run_retains (locked : Option ElementId) (hg : g.OnCanvas c) (hscene : scene.Consistent)
    (ho : g.get? id = some o) (hd : c.object? o.handle = some d)
    (hkept : id ∉ doomed scene locked g.objects) :
    let p := run g scene c locked
    (∃ o', p.graph.get? id = some o' ∧ o'.handle = o.handle) ∧
      (locked = some id → p.graph.get? id = some o ∧ p.canvas.object? o.handle = some d) ∧
      id ∉ p.report.created ∧ id ∉ p.report.removed ∧
      (id ∈ p.report.updated → ∃ e ∈ scene.elements, e.id = id ∧ ¬Matches e o d) := by
  have hstart : (start g c).graph.OnCanvas (start g c).canvas := hg.alike (Canvas.alike_suspend c)
  have hs : 0 < (start g c).canvas.suspended := Nat.succ_pos _
  have hkept : id ∉ doomed scene locked (start g c).graph.objects := hkept
  obtain ⟨p, deferred, seen, hrun, -, hsweeps, -⟩ := run_sweeps locked hg hscene
  obtain ⟨order, hperm, hstale⟩ := removeStale_eq scene locked hstart hs
  have ho₀ : (removeStale scene locked (start g c)).graph.get? id = some o := by
    rw [get?_removeStale hstart hs, if_neg hkept]
    exact ho
  have hd₀ : (removeStale scene locked (start g c)).canvas.object? o.handle = some d := by
    rw [object?_removeStale hstart hs ho, if_neg hkept]
    exact hd
  have hr := hsweeps.retains (linked_removeStale locked hg hscene) ho₀ hd₀
  -- the teardown lists nothing but what it takes off
  have hreport : (removeStale scene locked (start g c)).report =
      { ReconcileReport.empty with removed := Table.keys order } := by
    rw [hstale]
    rfl
  have hobject : ∀ h, p.canvas.resume.object? h = p.canvas.object? h := by
    simp [Canvas.object?, Canvas.resume]
  intro run
  have hrun' : run = p.finish deferred := hrun
  rw [hrun']
  refine ⟨hr.live, ?_, ?_, ?_, ?_⟩
  · intro hlocked
    obtain ⟨ho', hd'⟩ := hr.untouched (.inl hlocked)
    exact ⟨ho', (hobject _).trans hd'⟩
  · intro hmem
    have hmem₀ := hr.created hmem
    rw [hreport] at hmem₀
    cases hmem₀
  · intro hmem
    have hmem : id ∈ p.report.removed := hmem
    rw [hr.removed, hreport] at hmem
    exact hkept ((mem_keys_doomed hperm).1 hmem).1
  · intro hmem
    rcases hr.updated hmem with hmem₀ | hchange
    · rw [hreport] at hmem₀
      cases hmem₀
    · exact hchange

/-- What is live after a pass was live before it, or is younger than all objects on the canvas. -/
theorem run_inherits (locked : Option ElementId) (hg : g.OnCanvas c) (hscene : scene.Consistent) :
    Inherits g c (run g scene c locked).graph (run g scene c locked).canvas := by
  have hstart : (start g c).graph.OnCanvas (start g c).canvas := hg.alike (Canvas.alike_suspend c)
  obtain ⟨p, deferred, seen, hrun, -, hsweeps, -⟩ := run_sweeps locked hg hscene
  have hstale := inherits_removeStale scene locked hstart (Nat.succ_pos _)
  have hall := hstale.trans hsweeps.inherits
  rw [hrun]
  constructor
  · have hlast : p.canvas.resume.lastHandle = p.canvas.lastHandle := by simp [Canvas.resume]
    exact hlast ▸ hall.lastHandle
  · exact hall.origin

end Run

end Pass

end Chalkboard
