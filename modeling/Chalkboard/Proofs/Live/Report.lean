import Chalkboard.Proofs.Live.Count
import Chalkboard.Proofs.Live.Drawing

/-!
# The report of a pass

The report accounts for each element of the scene: it is listed once, as created, updated, deferred,
failed or left alone, or it keeps the object that it had. `Pass.Reported` is what the acts of a pass
keep of this, and `Drawing.accounted_pass` says what a whole pass reports, counts and paints.
-/

namespace Chalkboard

namespace ReconcileReport

/-- The ids that a pass acted on. One that is deferred only waited. -/
def acted (r : ReconcileReport) : List ElementId :=
  r.created ++ r.updated ++ r.failed.map Prod.fst ++ r.skippedLocked

theorem count_acted (r : ReconcileReport) (id : ElementId) :
    r.acted.count id = r.created.count id + r.updated.count id + (r.failed.map Prod.fst).count id +
      r.skippedLocked.count id := by
  simp only [acted, List.count_append]

end ReconcileReport

namespace Pass

variable {scene : Scene} {locked : Option ElementId} {p₀ p q : Pass} {e : Element}
  {seen waiting : List Element}

/-- Acting on an element lists it at most once. -/
theorem Books.acted_perm (h : Books p e q) :
    q.report.acted.Perm p.report.acted ∨ q.report.acted.Perm (e.id :: p.report.acted) := by
  simp only [List.perm_iff_count, List.count_cons, ReconcileReport.count_acted]
  cases h with
  | created hnew hparents hlive hreport hcounts =>
    right
    intro id
    simp only [hreport, List.count_append, List.count_singleton]
    omega
  | failed error hlive hreport hcounts =>
    right
    intro id
    simp only [hreport, List.map_append, List.map_cons, List.map_nil, List.count_append,
      List.count_singleton]
    omega
  | updated moved shown hlive hreport hcounts =>
    cases hchanged : moved || shown with
    | false =>
      left
      intro id
      rw [hreport, hchanged]
      rfl
    | true =>
      right
      intro id
      simp only [hreport, hchanged, if_true, List.count_append, List.count_singleton]
      omega
  | skipped hlive hreport hcounts =>
    right
    intro id
    simp only [hreport, List.count_append, List.count_singleton]
    omega

/-- What the report and the counts of a pass at work say, compared with the pass `p₀` before its
first visit. -/
structure Reported (scene : Scene) (p₀ p : Pass) : Prop where
  distinct : p.report.acted.Nodup
  removed : p.report.removed = p₀.report.removed
  live : ∀ id, p.graph.contains id = true ↔ p₀.graph.contains id = true ∨ id ∈ p.report.created
  new : ∀ id ∈ p.report.created, p₀.graph.contains id = false
  parents : ∀ e ∈ scene.elements, e.id ∈ p.report.created → ∀ r ∈ e.refs,
    p.graph.contains r = true
  /-- Parents are created before their children. -/
  ordered : ∀ e ∈ scene.elements, ∀ r ∈ e.refs, ∀ i j : Nat,
    p.report.created[i]? = some e.id → p.report.created[j]? = some r → j < i
  counts : ∃ moves visibility, p₀.canvas.Counts p.report.created.length moves visibility p.canvas ∧
    p.report.updated.length ≤ moves + visibility ∧
    moves + visibility ≤ 2 * p.report.updated.length

/-- An order in which `r` comes before `x` is kept when something else than `r` is put last. -/
theorem lt_of_append {l : List ElementId} {a x r : ElementId} (hne : r ≠ a)
    (hl : ∀ i j : Nat, l[i]? = some x → l[j]? = some r → j < i) {i j : Nat}
    (hi : (l ++ [a])[i]? = some x) (hj : (l ++ [a])[j]? = some r) : j < i := by
  have hjlt : j < l.length := by
    by_contra hge
    rw [List.getElem?_append_right (by omega)] at hj
    exact hne (List.mem_singleton.1 (List.mem_of_getElem? hj))
  rw [List.getElem?_append_left hjlt] at hj
  rcases Nat.lt_or_ge i l.length with hilt | hige
  · rw [List.getElem?_append_left hilt] at hi
    exact hl i j hi hj
  · omega

namespace Reported

/-- A pass that has listed nothing. -/
theorem start (hnil : p₀.report.acted = []) : Reported scene p₀ p₀ := by
  have hlists := hnil
  simp only [ReconcileReport.acted, List.append_eq_nil_iff] at hlists
  obtain ⟨⟨⟨hcreated, hupdated⟩, -⟩, -⟩ := hlists
  exact
    { distinct := hnil ▸ List.nodup_nil
      removed := rfl
      live := by simp [hcreated]
      new := by simp [hcreated]
      parents := by simp [hcreated]
      ordered := by simp [hcreated]
      counts := ⟨0, 0, by rw [hcreated]; exact .refl _, by simp [hupdated]⟩ }

/-- Drawing one more element. -/
theorem create (hp : Reported scene p₀ p) (hscene : scene.Consistent) (he : e ∈ scene.elements)
    (hdistinct : q.report.acted.Nodup) (hnew : p.graph.contains e.id = false)
    (hparents : ∀ r ∈ e.refs, p.graph.contains r = true)
    (hlive : ∀ id, q.graph.contains id = true ↔ p.graph.contains id = true ∨ id = e.id)
    (hreport : q.report = { p.report with created := p.report.created ++ [e.id] })
    (hcounts : p.canvas.Counts 1 0 0 q.canvas) : Reported scene p₀ q := by
  have hcreated : q.report.created = p.report.created ++ [e.id] := by rw [hreport]
  have hne : ∀ r, p.graph.contains r = true → r ≠ e.id := by
    rintro r hr rfl
    rw [hnew] at hr
    cases hr
  -- whoever was created has its parents, the new element as well
  have hrefs : ∀ e' ∈ scene.elements, e'.id ∈ q.report.created → ∀ r ∈ e'.refs,
      p.graph.contains r = true := by
    intro e' he' hid r hr
    rw [hcreated, List.mem_append, List.mem_singleton] at hid
    rcases hid with hid | hid
    · exact hp.parents e' he' hid r hr
    · have heq : e' = e := hscene.eq_of_id_eq he' he hid
      exact hparents r (heq ▸ hr)
  obtain ⟨moves, visibility, hsum, hlow, hhigh⟩ := hp.counts
  exact
    { distinct := hdistinct
      removed := by
        rw [hreport]
        exact hp.removed
      live := by
        intro id
        rw [hlive, hp.live, hcreated, List.mem_append, List.mem_singleton, or_assoc]
      new := by
        intro id hid
        rw [hcreated, List.mem_append, List.mem_singleton] at hid
        rcases hid with hid | rfl
        · exact hp.new id hid
        · rw [← Bool.not_eq_true]
          intro hold
          exact hne e.id ((hp.live e.id).2 (.inl hold)) rfl
      parents := by
        intro e' he' hid r hr
        exact (hlive r).2 (.inl (hrefs e' he' hid r hr))
      ordered := by
        intro e' he' r hr i j hi hj
        have hearlier : r ≠ e.id := hne r (hrefs e' he' (List.mem_of_getElem? hi) r hr)
        rw [hcreated] at hi hj
        exact lt_of_append hearlier (hp.ordered e' he' r hr) hi hj
      counts := by
        refine ⟨moves, visibility, ?_, ?_⟩
        · rw [hcreated, List.length_append]
          exact hsum.trans hcounts
        · rw [hreport]
          exact ⟨hlow, hhigh⟩ }

/-- Listing an element without drawing it. -/
theorem keep (hp : Reported scene p₀ p) (hdistinct : q.report.acted.Nodup)
    (hlive : ∀ id, q.graph.contains id = p.graph.contains id)
    (hcreated : q.report.created = p.report.created)
    (hremoved : q.report.removed = p.report.removed) {m v : Nat}
    (hcounts : p.canvas.Counts 0 m v q.canvas)
    (hlow : q.report.updated.length ≤ p.report.updated.length + (m + v))
    (hhigh : 2 * p.report.updated.length + (m + v) ≤ 2 * q.report.updated.length) :
    Reported scene p₀ q := by
  obtain ⟨moves, visibility, hsum, hlow', hhigh'⟩ := hp.counts
  exact
    { distinct := hdistinct
      removed := hremoved.trans hp.removed
      live := by
        intro id
        rw [hlive, hcreated]
        exact hp.live id
      new := hcreated ▸ hp.new
      parents := by
        intro e he hid r hr
        rw [hlive]
        exact hp.parents e he (hcreated ▸ hid) r hr
      ordered := hcreated ▸ hp.ordered
      counts := by
        refine ⟨moves + m, visibility + v, ?_, by omega, by omega⟩
        rw [hcreated]
        exact hsum.trans hcounts }

theorem act (hp : Reported scene p₀ p) (hscene : scene.Consistent) (he : e ∈ scene.elements)
    (hfresh : e.id ∉ p.report.acted) (h : Books p e q) : Reported scene p₀ q := by
  have hdistinct : q.report.acted.Nodup := by
    rcases h.acted_perm with hperm | hperm
    · exact hperm.nodup_iff.2 hp.distinct
    · exact hperm.nodup_iff.2 (List.nodup_cons.2 ⟨hfresh, hp.distinct⟩)
  cases h with
  | created hnew hparents hlive hreport hcounts =>
    exact hp.create hscene he hdistinct hnew hparents hlive hreport hcounts
  | failed error hlive hreport hcounts =>
    exact hp.keep hdistinct hlive (by rw [hreport]) (by rw [hreport]) hcounts
      (by simp [hreport]) (by simp [hreport])
  | updated moved shown hlive hreport hcounts =>
    -- listed once for a move, a change of visibility, or both
    have hlists : q.report.created = p.report.created ∧ q.report.removed = p.report.removed ∧
        q.report.updated.length = p.report.updated.length + (moved || shown).toNat := by
      rw [hreport]
      cases moved || shown <;> simp
    obtain ⟨hcreated, hremoved, hlength⟩ := hlists
    have hleast : (moved || shown).toNat ≤ moved.toNat + shown.toNat := by
      cases moved <;> cases shown <;> decide
    have hmost : moved.toNat + shown.toNat ≤ 2 * (moved || shown).toNat := by
      cases moved <;> cases shown <;> decide
    exact hp.keep hdistinct hlive hcreated hremoved hcounts (by omega) (by omega)
  | skipped hlive hreport hcounts =>
    exact hp.keep hdistinct hlive (by rw [hreport]) (by rw [hreport]) hcounts
      (by simp [hreport]) (by simp [hreport])

end Reported

theorem Books.mem_acted (h : Books p e q) {id : ElementId} (hid : id ∈ q.report.acted) :
    id = e.id ∨ id ∈ p.report.acted := by
  rcases h.acted_perm with hperm | hperm
  · exact .inr (hperm.mem_iff.1 hid)
  · exact List.mem_cons.1 (hperm.mem_iff.1 hid)

/-! ## The states of a pass -/

/-- In every state of a pass the report is right, and lists only elements that were seen and do not
wait. -/
theorem Sweeps.reported (h : Sweeps scene locked p₀ seen waiting p)
    (hp₀ : Linked scene locked p₀) (hscene : scene.Consistent) (hs : 0 < p₀.canvas.suspended)
    (hnil : p₀.report.acted = []) :
    Reported scene p₀ p ∧ ∀ id ∈ p.report.acted, ∃ e ∈ seen, e.id = id ∧ e ∉ waiting := by
  have hbooks : ∀ {seen waiting p q e}, Sweeps scene locked p₀ seen waiting p →
      Reported scene p₀ p → Acts locked p e q → Books p e q := by
    intro seen waiting p q e h hp ha
    obtain ⟨moves, visibility, hcounts, -⟩ := hp.counts
    exact ha.books (h.linked hp₀).onCanvas (hcounts.suspended ▸ hs)
  -- on the course of the pass; an element that acts was not listed, because it is new or waited
  induction h with
  | start => exact ⟨.start hnil, by simp [hnil]⟩
  | @wait seen waiting p e h he hseen hnew ih =>
    refine ⟨ih.1, ?_⟩
    intro id hid
    obtain ⟨e', he', rfl, hwait⟩ := ih.2 id hid
    refine ⟨e', List.mem_append_left _ he', rfl, ?_⟩
    rw [List.mem_append, List.mem_singleton]
    rintro (hmem | rfl)
    · exact hwait hmem
    · exact hseen (List.mem_map_of_mem he')
  | @visit seen waiting p q e h he hseen ha ih =>
    have hb : Books p e q := hbooks h ih.1 ha
    have hfresh : e.id ∉ p.report.acted := by
      intro hid
      obtain ⟨e', he', hid', -⟩ := ih.2 e.id hid
      exact hseen (hid' ▸ List.mem_map_of_mem he')
    refine ⟨ih.1.act hscene he hfresh hb, ?_⟩
    intro id hid
    rcases hb.mem_acted hid with rfl | hid
    · refine ⟨e, List.mem_append_right _ (List.mem_singleton_self e), rfl, ?_⟩
      intro hwait
      exact hseen (List.mem_map_of_mem (h.queued.sublist.mem hwait))
    · obtain ⟨e', he', hid', hwait⟩ := ih.2 id hid
      exact ⟨e', List.mem_append_left _ he', hid', hwait⟩
  | @retry seen before after p q e h ha ih =>
    have hb : Books p e q := hbooks h ih.1 ha
    have he : e ∈ scene.elements := h.queued.subset h.mem_of_retry
    have hwaits : e ∈ before ++ e :: after := List.mem_append_right _ (List.mem_cons_self ..)
    have hfresh : e.id ∉ p.report.acted := by
      intro hid
      obtain ⟨e', he', hid', hwait⟩ := ih.2 e.id hid
      have heq : e' = e := hscene.eq_of_id_eq (h.queued.subset he') he hid'
      exact hwait (heq ▸ hwaits)
    refine ⟨ih.1.act hscene he hfresh hb, ?_⟩
    intro id hid
    rcases hb.mem_acted hid with rfl | hid
    · exact ⟨e, h.mem_of_retry, rfl, fun hmem => (h.mem_rest_iff.1 hmem).2 rfl⟩
    · obtain ⟨e', he', hid', hwait⟩ := ih.2 id hid
      exact ⟨e', he', hid', fun hmem => hwait (h.mem_rest_iff.1 hmem).1⟩

/-- What is live after the teardown keeps its handle. -/
theorem Sweeps.live (h : Sweeps scene locked p₀ seen waiting p) {id : ElementId} {o : LiveObject}
    (ho : p₀.graph.get? id = some o) : ∃ o', p.graph.get? id = some o' ∧ o'.handle = o.handle := by
  refine h.acts_induction ⟨o, ho, rfl⟩ ?_
  rintro _ _ _ _ _ - - ha ⟨o₁, ho₁, hh₁⟩
  obtain ⟨o₂, ho₂, hh₂⟩ := ha.live ho₁
  exact ⟨o₂, ho₂, hh₂.trans hh₁⟩

/-! ## The teardown -/

/-- What the teardown reports and counts: each object that was live and is gone once, as removed. -/
structure Cleared (g : LiveGraph) (c : Canvas) (p : Pass) : Prop where
  acted : p.report.acted = []
  distinct : p.report.removed.Nodup
  removed : ∀ id ∈ p.report.removed, g.contains id = true
  live : ∀ id o, p.graph.get? id = some o ↔ g.get? id = some o ∧ id ∉ p.report.removed
  suspended : p.canvas.suspended = c.suspended + 1
  counters : p.canvas.counters =
    { c.counters with removes := c.counters.removes + p.report.removed.length }

theorem cleared_removeStale {g : LiveGraph} {c : Canvas} (scene : Scene)
    (locked : Option ElementId) (hg : g.OnCanvas c) :
    Cleared g c (removeStale scene locked (start g c)) := by
  have hstart : (start g c).graph.OnCanvas (start g c).canvas := hg.alike (Canvas.alike_suspend c)
  have hs : 0 < (start g c).canvas.suspended := Nat.succ_pos _
  obtain ⟨order, hperm, heq⟩ := removeStale_eq scene locked hstart hs
  have hremoved : (removeStale scene locked (start g c)).report.removed = order.keys := by
    rw [heq]
    exact List.nil_append _
  have hmem : ∀ id, id ∈ order.keys ↔
      id ∈ doomed scene locked g.objects ∧ g.contains id = true := by
    intro id
    rw [LiveGraph.contains_iff]
    exact mem_keys_doomed hperm
  exact
    { acted := by rw [heq]; rfl
      distinct := by
        rw [hremoved]
        exact (hperm.map Prod.fst).nodup_iff.2 (Table.keys_restrict_nodup hg.nodup _)
      removed := by
        intro id hid
        rw [hremoved] at hid
        exact ((hmem id).1 hid).2
      live := by
        intro id o
        rw [get?_removeStale hstart hs, hremoved, hmem, LiveGraph.contains_iff]
        by_cases hid : id ∈ doomed scene locked g.objects
        · simp +contextual [hid, start]
        · simp [hid, start]
      suspended := by rw [heq]; rfl
      counters := by
        rw [hremoved, heq, Table.keys, List.length_map]
        rfl }

/-- A pass clears the graph, and then reports in every state as it should. -/
theorem run_reported {g : LiveGraph} {c : Canvas} (locked : Option ElementId) (hg : g.OnCanvas c)
    (hscene : scene.Consistent) :
    ∃ p₀ p deferred seen, run g scene c locked = p.finish deferred ∧ Cleared g c p₀ ∧
      Sweeps scene locked p₀ seen deferred p ∧ Reported scene p₀ p ∧
      ∀ id ∈ p.report.acted, ∃ e ∈ seen, e.id = id ∧ e ∉ deferred := by
  have hcleared := cleared_removeStale scene locked hg
  obtain ⟨p, deferred, seen, hrun, -, hsweeps, -⟩ := run_sweeps locked hg hscene
  have hs : 0 < (removeStale scene locked (start g c)).canvas.suspended := by
    rw [hcleared.suspended]
    exact Nat.succ_pos _
  have hlinked := linked_removeStale locked hg hscene
  obtain ⟨hreported, hacted⟩ := hsweeps.reported hlinked hscene hs hcleared.acted
  exact ⟨_, p, deferred, seen, hrun, hcleared, hsweeps, hreported, hacted⟩

/-- No element is both waiting and listed. -/
theorem Sweeps.nodup_waiting_acted (h : Sweeps scene locked p₀ seen waiting p)
    (hscene : scene.Consistent) (hp : Reported scene p₀ p)
    (hacted : ∀ id ∈ p.report.acted, ∃ e ∈ seen, e.id = id ∧ e ∉ waiting) :
    (waiting.map Element.id ++ p.report.acted).Nodup := by
  have hqueued := h.queued
  have hwaiting : (waiting.map Element.id).Nodup :=
    (hqueued.sublist.map Element.id).nodup hqueued.nodup
  refine hwaiting.append hp.distinct ?_
  intro id hwait hid
  obtain ⟨e, he, rfl⟩ := List.mem_map.1 hwait
  obtain ⟨e', he', hid', hnot⟩ := hacted e.id hid
  have heq : e' = e :=
    hscene.eq_of_id_eq (hqueued.subset he') (hqueued.subset (hqueued.sublist.mem he)) hid'
  exact hnot (heq ▸ he)

/-- An element that is live and was not created has the handle that it had before the pass. -/
theorem Sweeps.handle_eq (h : Sweeps scene locked p₀ seen waiting p) {g : LiveGraph} {c : Canvas}
    (hcleared : Cleared g c p₀) (hp : Reported scene p₀ p) {id : ElementId}
    (hlive : p.graph.contains id = true) (hcreated : id ∉ p.report.created) :
    ∃ handle, g.handle? id = some handle ∧ p.graph.handle? id = some handle := by
  have hold : p₀.graph.contains id = true := ((hp.live id).1 hlive).resolve_right hcreated
  obtain ⟨o, ho⟩ := LiveGraph.contains_iff.1 hold
  obtain ⟨o', ho', hhandle⟩ := h.live ho
  refine ⟨o.handle, ?_, ?_⟩
  · rw [LiveGraph.handle?, ((hcleared.live id o).1 ho).1, Option.map_some]
  · rw [LiveGraph.handle?, ho', Option.map_some, hhandle]

/-- A pass ends the suspension that it starts with. -/
theorem suspended_run {g : LiveGraph} {c : Canvas} (locked : Option ElementId) (hg : g.OnCanvas c)
    (hscene : scene.Consistent) : (run g scene c locked).canvas.suspended = c.suspended := by
  obtain ⟨p₀, p, deferred, seen, hrun, hcleared, -, hreported, -⟩ := run_reported locked hg hscene
  obtain ⟨moves, visibility, hcounts, -⟩ := hreported.counts
  have hresume : p.canvas.resume.suspended = p.canvas.suspended - 1 := Canvas.suspended_paint _
  rw [hrun, finish, hresume, hcounts.suspended, hcleared.suspended, Nat.add_sub_cancel]

/-! ## The outcome -/

section Outcome

variable (h : Outcome scene locked p) (hscene : scene.Consistent) (he : e ∈ scene.elements)
include h hscene he

theorem Outcome.mem_deferred_iff : e.id ∈ p.report.deferred ↔
    p.graph.contains e.id = false ∧ ∃ r ∈ e.refs, p.graph.contains r = false := by
  simp only [LiveGraph.contains_eq_false_iff]
  rw [h.deferred, hscene.exists_id_iff he]

theorem Outcome.mem_failed_iff : e.id ∈ p.report.failed.map Prod.fst ↔
    p.graph.contains e.id = false ∧ ∀ r ∈ e.refs, p.graph.contains r = true := by
  simp only [LiveGraph.contains_eq_false_iff, LiveGraph.contains_iff]
  rw [h.failed, hscene.exists_id_iff he]

/-- An element that neither waits nor has failed is live. -/
theorem Outcome.contains_of_not_mem (hdeferred : e.id ∉ p.report.deferred)
    (hfailed : e.id ∉ p.report.failed.map Prod.fst) : p.graph.contains e.id = true := by
  rw [h.mem_deferred_iff hscene he] at hdeferred
  rw [h.mem_failed_iff hscene he] at hfailed
  by_contra hnot
  rw [Bool.not_eq_true] at hnot
  refine hfailed ⟨hnot, fun r hr => ?_⟩
  by_contra hmissing
  rw [Bool.not_eq_true] at hmissing
  exact hdeferred ⟨hnot, r, hr, hmissing⟩

end Outcome

end Pass

/-! ## Drawings -/

namespace Drawing

theorem suspended_step {d : Drawing} (hd : d.IsLinked) {a : DrawingAction} (ha : a.Valid) :
    (d.step a).canvas.suspended = d.canvas.suspended := by
  cases a with
  | pass scene locked => exact Pass.suspended_run locked hd ha
  | gesture effect => exact Canvas.suspended_perform d.canvas effect
  | refuse id => rfl
  | configure defaults => rfl

/-- No run leaves painting suspended. -/
theorem suspended_run (defaults : Defaults) (viewport : Viewport Float)
    (refusing : List ElementId) {actions : List DrawingAction}
    (hactions : ∀ a ∈ actions, a.Valid) :
    ((start defaults viewport refusing).run actions).canvas.suspended = 0 := by
  have h : ((start defaults viewport refusing).run actions).IsLinked ∧
      ((start defaults viewport refusing).run actions).canvas.suspended = 0 := by
    refine run_induction (motive := fun d => d.IsLinked ∧ d.canvas.suspended = 0) ?_
      ⟨isLinked_start defaults viewport refusing, rfl⟩
    intro d a ha hd
    exact ⟨hd.1.step (hactions a ha), (suspended_step hd.1 (hactions a ha)).trans hd.2⟩
  exact h.2

/-- The report `r` of a pass over a scene says what was done to the drawing `d` until it was
`d'`. -/
structure Accounts (scene : Scene) (d d' : Drawing) (r : ReconcileReport) : Prop where
  /-- No id is listed twice, neither in one list nor in two. -/
  distinct : (r.deferred ++ r.acted).Nodup
  inScene : ∀ id ∈ r.deferred ++ r.acted, ∃ e ∈ scene.elements, e.id = id
  removed : r.removed.Nodup ∧ ∀ id ∈ r.removed, d.graph.contains id = true
  live : ∀ id, d'.graph.contains id = true ↔
    d.graph.contains id = true ∧ id ∉ r.removed ∨ id ∈ r.created
  created : ∀ id ∈ r.created, d.graph.contains id = false ∨ id ∈ r.removed
  /-- All other elements that are not deferred and have not failed keep their objects. -/
  kept : ∀ e ∈ scene.elements, e.id ∉ r.created → e.id ∉ r.deferred →
    e.id ∉ r.failed.map Prod.fst →
      ∃ h, d.graph.handle? e.id = some h ∧ d'.graph.handle? e.id = some h
  deferred : ∀ e ∈ scene.elements, e.id ∈ r.deferred ↔
    d'.graph.contains e.id = false ∧ ∃ p ∈ e.refs, d'.graph.contains p = false
  failed : ∀ e ∈ scene.elements, e.id ∈ r.failed.map Prod.fst ↔
    d'.graph.contains e.id = false ∧ ∀ p ∈ e.refs, d'.graph.contains p = true
  /-- Parents are created before their children. -/
  ordered : ∀ e ∈ scene.elements, ∀ p ∈ e.refs, ∀ i j : Nat,
    r.created[i]? = some e.id → r.created[j]? = some p → j < i
  /-- Each update took a move, or a change of visibility, or both, and all was painted at once. -/
  counted : ∃ moves visibility,
    d'.canvas.counters =
      { creates := d.canvas.counters.creates + r.created.length
        moves := d.canvas.counters.moves + moves
        visibilityChanges := d.canvas.counters.visibilityChanges + visibility
        removes := d.canvas.counters.removes + r.removed.length
        paints := d.canvas.counters.paints + 1 } ∧
    r.updated.length ≤ moves + visibility ∧ moves + visibility ≤ 2 * r.updated.length
  resumed : d'.canvas.suspended = 0

/-- The report of a pass accounts exactly for what the pass did, while painting was not suspended
before it. -/
theorem accounted_pass {d : Drawing} (hd : d.Reachable) (hs : d.canvas.suspended = 0)
    {scene : Scene} (hscene : scene.Consistent) (locked : Option ElementId) :
    Accounts scene d (d.reconcile scene locked).1 (d.reconcile scene locked).2 := by
  have hg : d.graph.OnCanvas d.canvas := hd.isLinked
  have houtcome : Pass.Outcome scene locked (d.pass scene locked) :=
    Pass.run_outcome locked hg hscene
  -- `p₀` is the pass after the teardown, `p` after the last visit
  obtain ⟨p₀, p, deferred, seen, hrun, hcleared, hsweeps, hreported, hacted⟩ :=
    Pass.run_reported locked hg hscene
  have hpass : d.pass scene locked = p.finish deferred := hrun
  have hresult : d.reconcile scene locked =
      (⟨p.graph, p.canvas.resume⟩, { p.report with deferred := deferred.map Element.id }) := by
    simp only [reconcile, LiveGraph.reconcile, hrun]
    rfl
  rw [hpass] at houtcome
  rw [hresult]
  obtain ⟨moves, visibility, hcounts, hlow, hhigh⟩ := hreported.counts
  have hqueued := hsweeps.queued
  have hbefore : ∀ id, p₀.graph.contains id = true ↔
      d.graph.contains id = true ∧ id ∉ p₀.report.removed := by
    intro id
    simp only [LiveGraph.contains_iff, hcleared.live, exists_and_right]
  -- painting was suspended once, so resuming it paints once
  have hcanvas : p.canvas.suspended = 1 := by
    rw [hcounts.suspended, hcleared.suspended, hs]
  exact
    { distinct := hsweeps.nodup_waiting_acted hscene hreported hacted
      inScene := by
        intro id hid
        rcases List.mem_append.1 hid with hdeferred | hid
        · obtain ⟨e, he, rfl⟩ := List.mem_map.1 hdeferred
          exact ⟨e, hqueued.subset (hqueued.sublist.mem he), rfl⟩
        · obtain ⟨e, he, hid', -⟩ := hacted id hid
          exact ⟨e, hqueued.subset he, hid'⟩
      removed := by
        rw [hreported.removed]
        exact ⟨hcleared.distinct, hcleared.removed⟩
      live := by
        intro id
        rw [hreported.live, hbefore, hreported.removed]
      created := by
        intro id hid
        have hnew := hreported.new id hid
        rw [hreported.removed]
        by_contra hor
        rw [not_or, Bool.not_eq_false] at hor
        rw [(hbefore id).2 hor] at hnew
        cases hnew
      kept := by
        intro e he hcreated hdeferred hfailed
        have hlive := houtcome.contains_of_not_mem hscene he hdeferred hfailed
        exact hsweeps.handle_eq hcleared hreported hlive hcreated
      deferred := fun e he => houtcome.mem_deferred_iff hscene he
      failed := fun e he => houtcome.mem_failed_iff hscene he
      ordered := hreported.ordered
      counted := by
        refine ⟨moves, visibility, ?_, hlow, hhigh⟩
        rw [Canvas.resume_of_last hcanvas, hcounts.counters, hcleared.counters, hreported.removed]
      resumed := by rw [Canvas.resume_of_last hcanvas] }

/-- The sample is drawn again, with the segment held, after one of its points was dragged and the
other one refused. -/
theorem accounted_pass_sample :
    let d := (start .standard default []).run (sampleActions.take 3)
    d.Reachable ∧ d.canvas.suspended = 0 ∧ sampleScene.Consistent ∧
      Accounts sampleScene d (d.reconcile sampleScene (some ⟨"s"⟩)).1
        (d.reconcile sampleScene (some ⟨"s"⟩)).2 := by
  intro d
  have hactions : ∀ a ∈ sampleActions.take 3, a.Valid :=
    fun a ha => valid_sampleActions a (List.mem_of_mem_take ha)
  have hd : d.Reachable := (Reachable.start .standard default []).run hactions
  have hs : d.canvas.suspended = 0 := suspended_run .standard default [] hactions
  exact ⟨hd, hs, consistent_sampleScene,
    accounted_pass hd hs consistent_sampleScene (some ⟨"s"⟩)⟩

end Drawing

end Chalkboard
