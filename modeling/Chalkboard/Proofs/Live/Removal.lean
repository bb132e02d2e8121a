import Mathlib.Data.List.MinMax
import Mathlib.Logic.Relation
import Chalkboard.Proofs.Live.Report
import Chalkboard.Proofs.Live.Retain

/-!
# What a pass takes down

A pass takes down exactly the live objects that cannot stay and those that reach one of them through
their references (`Pass.mem_doomed_iff`). A live object refers to older ones only, so whatever is to
go, there is always one that no other refers to (`Pass.unreferenced_ne_nil`): however the elements of
the scenes refer to each other, the rounds of the teardown never meet a cycle (`Pass.Peels`), and take
children before their parents. `Drawing.pruned_pass` says all of this of a pass over any drawing.
-/

namespace Chalkboard

/-- The object of `id` refers to the element `r`. -/
def LiveGraph.Refers (g : LiveGraph) (id r : ElementId) : Prop :=
  ∃ o, g.get? id = some o ∧ r ∈ o.refs

namespace Pass

/-! ## What cannot stay -/

/-- The object of `id` cannot stay: the scene has no element for it, or declares one that is not held
and differs in kind, or in its parents if it is not a free point before and after. -/
inductive Outdated (scene : Scene) (locked : Option ElementId) (id : ElementId) (o : LiveObject) :
    Prop
  | gone (h : ∀ e ∈ scene.elements, e.id ≠ id)
  | kind {e : Element} (he : e ∈ scene.elements) (hid : e.id = id) (hl : locked ≠ some id)
      (h : e.kind ≠ o.kind)
  | parents {e : Element} (he : e ∈ scene.elements) (hid : e.id = id) (hl : locked ≠ some id)
      (h : (e.parents == o.parents) = false)
      (hfree : ¬(o.isFreePoint = true ∧ e.position?.isSome = true))

section Outdated

variable {scene : Scene} {locked : Option ElementId} {id : ElementId} {o : LiveObject}

theorem isStale_iff_outdated (hscene : scene.Consistent) :
    isStale scene locked id o = true ↔ Outdated scene locked id o := by
  rw [isStale]
  split
  · next hnone =>
    refine ⟨fun _ => .gone fun e he hid => ?_, fun _ => rfl⟩
    rw [hscene.get?_eq_some_iff.2 ⟨he, hid⟩] at hnone
    cases hnone
  · next e hsome =>
    obtain ⟨he, hid⟩ := hscene.get?_eq_some_iff.1 hsome
    -- ids are distinct, so whatever is said of an element with this id is said of `e`
    have hsame : ∀ {e'}, e' ∈ scene.elements → e'.id = id → e' = e := fun he' hid' =>
      hscene.eq_of_id_eq he' he (hid'.trans hid.symm)
    simp only [structurallyChanged, bne, Bool.and_eq_true, Bool.or_eq_true, Bool.not_eq_true',
      beq_eq_false_iff_ne, Bool.and_eq_false_iff]
    constructor
    · rintro ⟨hl, hkind | ⟨hparents, hfree⟩⟩
      · exact .kind he hid hl hkind
      · refine .parents he hid hl hparents ?_
        rintro ⟨hold, hnew⟩
        simp [hold, hnew] at hfree
    · rintro (hgone | ⟨he', hid', hl, hkind⟩ | ⟨he', hid', hl, hparents, hfree⟩)
      · exact absurd hid (hgone e he)
      · exact ⟨hl, .inl (hsame he' hid' ▸ hkind)⟩
      · obtain rfl := hsame he' hid'
        refine ⟨hl, .inr ⟨hparents, ?_⟩⟩
        rwa [← Bool.and_eq_false_iff, ← Bool.not_eq_true, Bool.and_eq_true]

/-- An object is doomed exactly if it is outdated, or reaches an outdated one. -/
theorem mem_doomed_iff {g : LiveGraph} {c : Canvas} (hg : g.OnCanvas c)
    (hscene : scene.Consistent) (ho : g.get? id = some o) :
    id ∈ doomed scene locked g.objects ↔
      ∃ q x, Relation.ReflTransGen g.Refers id q ∧ g.get? q = some x ∧
        Outdated scene locked q x := by
  constructor
  · -- references lead to older objects, so a chain of doomed ones ends
    intro hdoomed
    induction hn : o.handle.number using Nat.strongRecOn generalizing id o with
    | ind n ih =>
      rcases mem_doomed_cases hg.nodup ho hdoomed with hstale | ⟨r, hr, hdoomed'⟩
      · exact ⟨id, o, .refl, ho, (isStale_iff_outdated hscene).1 hstale⟩
      · obtain ⟨p, hp, hlt⟩ := hg.ref_live ho hr
        obtain ⟨q, x, hreach, hx, hout⟩ := ih p.handle.number (hn ▸ hlt) hp hdoomed' rfl
        exact ⟨q, x, hreach.head ⟨o, ho, hr⟩, hx, hout⟩
  · rintro ⟨q, x, hreach, hx, hout⟩
    have hstale := stale_mem_doomed hx ((isStale_iff_outdated hscene).2 hout)
    induction hreach using Relation.ReflTransGen.head_induction_on generalizing o with
    | refl => exact hstale
    | head href _ ih =>
      obtain ⟨o', ho', hr⟩ := href
      obtain ⟨p, hp, -⟩ := hg.ref_live ho' hr
      exact dependent_mem_doomed ho' hr (ih hp)

/-- Only what is live reaches anything live. -/
theorem live_of_reaches {g : LiveGraph} {q : ElementId} {x : LiveObject}
    (hreach : Relation.ReflTransGen g.Refers id q) (hx : g.get? q = some x) :
    ∃ o, g.get? id = some o := by
  rcases hreach.cases_head with rfl | ⟨r, ⟨o, ho, -⟩, -⟩
  · exact ⟨x, hx⟩
  · exact ⟨o, ho⟩

end Outdated

/-! ## The rounds -/

/-- The entries that no entry refers to. -/
def unreferenced (entries : Table ElementId LiveObject) : Table ElementId LiveObject :=
  entries.restrict fun id => !(entries.flatMap fun entry => entry.2.refs).contains id

/-- An order of entries that is made in rounds, each of the entries that no other one refers to, by
name. Every round finds such an entry. -/
inductive Peels : Table ElementId LiveObject → Table ElementId LiveObject → Prop
  | done : Peels [] []
  | round {entries order : Table ElementId LiveObject} (hne : unreferenced entries ≠ [])
      (h : Peels
        (entries.restrict fun id => !(sortById (unreferenced entries)).keys.contains id) order) :
      Peels entries (sortById (unreferenced entries) ++ order)

section Peels

variable {entries order : Table ElementId LiveObject}

theorem mem_unreferenced {entry : ElementId × LiveObject} :
    entry ∈ unreferenced entries ↔
      entry ∈ entries ∧ ∀ other ∈ entries, entry.1 ∉ other.2.refs := by
  rw [unreferenced, Table.mem_restrict]
  simp only [Bool.not_eq_true', List.contains_eq_mem, decide_eq_false_iff_not, List.mem_flatMap,
    not_exists, not_and]

/-- Where references lead to a lower rank, an entry of highest rank is not referred to. -/
theorem unreferenced_ne_nil {rank : ElementId → Nat}
    (hrank : ∀ entry ∈ entries, ∀ r ∈ entry.2.refs, rank r < rank entry.1) (hne : entries ≠ []) :
    unreferenced entries ≠ [] := by
  obtain ⟨top, htop⟩ := Option.ne_none_iff_exists'.1
    (mt (List.argmax_eq_none (f := fun entry : ElementId × LiveObject => rank entry.1)).1 hne)
  have hmem : top ∈ unreferenced entries := by
    refine mem_unreferenced.2 ⟨List.argmax_mem htop, fun other hother hr => ?_⟩
    have hle : rank other.1 ≤ rank top.1 :=
      List.le_of_mem_argmax (f := fun entry : ElementId × LiveObject => rank entry.1) hother htop
    have hlt := hrank other hother top.1 hr
    omega
  exact List.ne_nil_of_mem hmem

theorem leaves_eq_sortById (h : unreferenced entries ≠ []) :
    leaves entries = sortById (unreferenced entries) := by
  rw [leaves]
  split
  · next hnil => exact absurd hnil h
  · rfl

/-- Where references lead to a lower rank, no round meets a cycle. -/
theorem Rounds.peels (h : Rounds entries order) {rank : ElementId → Nat}
    (hrank : ∀ entry ∈ entries, ∀ r ∈ entry.2.refs, rank r < rank entry.1) :
    Peels entries order := by
  induction h with
  | done => exact .done
  | round hne h ih =>
    have hfree := unreferenced_ne_nil hrank hne
    rw [leaves_eq_sortById hfree] at ih ⊢
    exact .round hfree (ih fun entry he => hrank entry (Table.mem_restrict.1 he).1)

theorem Peels.subset (h : Peels entries order) : order ⊆ entries := by
  induction h with
  | done => exact List.nil_subset _
  | round hne h ih =>
    intro entry hentry
    rcases List.mem_append.1 hentry with hfree | hrest
    · exact (mem_unreferenced.1 ((sortById_perm _).mem_iff.1 hfree)).1
    · exact (Table.mem_restrict.1 (ih hrest)).1

/-- Whatever refers to an entry comes before it. -/
theorem Peels.earlier (h : Peels entries order) {entry : ElementId × LiveObject}
    (hentry : entry ∈ order) {r : ElementId} (hr : r ∈ entry.2.refs) {j : Nat}
    (hj : order.keys[j]? = some r) : ∃ i < j, order.keys[i]? = some entry.1 := by
  induction h generalizing j with
  | done => cases hentry
  | @round entries order hne h ih =>
    have hkeys : Table.keys (sortById (unreferenced entries) ++ order) =
        (sortById (unreferenced entries)).keys ++ order.keys := List.map_append
    rw [hkeys] at hj ⊢
    have hmem : entry ∈ entries := (Peels.round hne h).subset hentry
    -- what an entry refers to is not in the first round
    have hlate : (sortById (unreferenced entries)).keys.length ≤ j := by
      by_contra hlt
      rw [List.getElem?_append_left (by omega)] at hj
      obtain ⟨other, hother, rfl⟩ := List.mem_map.1 (List.mem_of_getElem? hj)
      exact (mem_unreferenced.1 ((sortById_perm _).mem_iff.1 hother)).2 entry hmem hr
    rcases List.mem_append.1 hentry with hfree | hrest
    · have hkey : entry.1 ∈ (sortById (unreferenced entries)).keys := List.mem_map_of_mem hfree
      obtain ⟨i, hi⟩ := List.getElem?_of_mem hkey
      have hlt := (List.getElem?_eq_some_iff.1 hi).1
      refine ⟨i, Nat.lt_of_lt_of_le hlt hlate, ?_⟩
      rw [List.getElem?_append_left hlt]
      exact hi
    · rw [List.getElem?_append_right hlate] at hj
      obtain ⟨i, hlt, hi⟩ := ih hrest hj
      refine ⟨(sortById (unreferenced entries)).keys.length + i, by omega, ?_⟩
      rw [List.getElem?_append_right (Nat.le_add_right ..), Nat.add_sub_cancel_left, hi]

end Peels

/-! ## What is reported -/

section Removed

variable {scene : Scene} {locked : Option ElementId} {p₀ p q : Pass} {e : Element}
  {seen waiting : List Element}

theorem Sweeps.removed (h : Sweeps scene locked p₀ seen waiting p) :
    p.report.removed = p₀.report.removed :=
  h.acts_induction rfl fun _ _ ha hp => ha.removed.trans hp

variable {g : LiveGraph} {c : Canvas}

/-- The ids that a pass reports as removed are those that are doomed, in the rounds in which their
objects are taken off. -/
theorem run_removed (locked : Option ElementId) (hg : g.OnCanvas c) (hscene : scene.Consistent) :
    ∃ order, order.Perm (g.objects.restrict (doomed scene locked g.objects).contains) ∧
      Peels (g.objects.restrict order.keys.contains) order ∧
      (run g scene c locked).report.removed = order.keys := by
  obtain ⟨p, deferred, seen, hrun, -, hsweeps, -⟩ := run_sweeps locked hg hscene
  obtain ⟨order, hrounds, hstale⟩ := removeStale_rounds scene locked (start g c)
  have hperm : order.Perm (g.objects.restrict (doomed scene locked g.objects).contains) :=
    hrounds.perm
  have hsame : g.objects.restrict order.keys.contains =
      g.objects.restrict (doomed scene locked g.objects).contains := by
    refine Table.restrict_congr fun entry hentry => ?_
    have hlive : ∃ o, g.get? entry.1 = some o := ⟨_, Table.get?_of_mem hg.nodup hentry⟩
    simp [mem_keys_doomed hperm, hlive]
  -- an object is younger than what it refers to, so handles rank the entries
  have hrank : ∀ entry ∈ g.objects.restrict (doomed scene locked g.objects).contains,
      ∀ r ∈ entry.2.refs, ((g.handle? r).map Handle.number).getD 0 <
        ((g.handle? entry.1).map Handle.number).getD 0 := by
    intro entry hentry r hr
    have ho : g.get? entry.1 = some entry.2 :=
      Table.get?_of_mem hg.nodup (Table.mem_restrict.1 hentry).1
    obtain ⟨parent, hparent, hlt⟩ := hg.ref_live ho hr
    simpa [LiveGraph.handle?, ho, hparent] using hlt
  have hreport : (removeStale scene locked (start g c)).report.removed = order.keys := by
    rw [hstale, removed_foldl_removeOne]
    exact List.nil_append _
  refine ⟨order, hperm, ?_, ?_⟩
  · rw [hsame]
    exact hrounds.peels hrank
  · rw [hrun]
    exact hsweeps.removed.trans hreport

/-- The canvas takes off as many objects as a pass reports. -/
theorem removes_run (locked : Option ElementId) (hg : g.OnCanvas c) (hscene : scene.Consistent) :
    (run g scene c locked).canvas.counters.removes =
      c.counters.removes + (run g scene c locked).report.removed.length := by
  obtain ⟨p₀, p, deferred, seen, hrun, hcleared, -, hreported, -⟩ :=
    run_reported locked hg hscene
  obtain ⟨moves, visibility, hcounts, -⟩ := hreported.counts
  have hresume : p.canvas.resume.counters.removes = p.canvas.counters.removes := by
    unfold Canvas.resume Canvas.paint
    split <;> rfl
  rw [hrun, finish]
  dsimp only
  rw [hresume, hcounts.counters, hcleared.counters, hreported.removed]

end Removed

/-! ## What stays and what goes -/

section Objects

variable {scene : Scene} {locked : Option ElementId} {p₀ p q : Pass} {e : Element}
  {seen waiting : List Element}

/-- Acting on an element takes no object off the canvas, nor makes it another. -/
theorem Acts.object (h : Acts locked p e q) (hg : p.graph.OnCanvas p.canvas) {i : Handle}
    {d : Drawn} (hd : p.canvas.object? i = some d) :
    ∃ d', q.canvas.object? i = some d' ∧ d'.shape = d.shape := by
  cases h with
  | draws hnew h =>
    cases h with
    | drawn o d' hdraw h =>
      refine ⟨d, ?_, rfl⟩
      rw [h.canvas, Canvas.object?_draw hg.wellFormed, if_neg, hd]
      -- the new object has a new handle
      rintro rfl
      exact Nat.not_succ_le_self _ (hg.wellFormed.issued _ d hd)
    | turnedDown error hdraw hlive herror => exact ⟨d, hd, rfl⟩
  | updates hl ho hf h => exact h.canvas.alike.object' hd
  | skips hl ho => exact ⟨d, hd, rfl⟩

theorem Sweeps.object (h : Sweeps scene locked p₀ seen waiting p) (hp₀ : Linked scene locked p₀)
    {i : Handle} {d : Drawn} (hd : p₀.canvas.object? i = some d) :
    ∃ d', p.canvas.object? i = some d' ∧ d'.shape = d.shape := by
  refine h.acts_induction ⟨d, hd, rfl⟩ ?_
  rintro _ _ _ _ _ h - ha ⟨d₁, hd₁, hs₁⟩
  obtain ⟨d₂, hd₂, hs₂⟩ := ha.object (h.linked hp₀).onCanvas hd₁
  exact ⟨d₂, hd₂, hs₂.trans hs₁⟩

variable {g : LiveGraph} {c : Canvas} {id : ElementId} {o : LiveObject}

/-- What is not doomed keeps its object. -/
theorem run_object_kept (locked : Option ElementId) (hg : g.OnCanvas c)
    (hscene : scene.Consistent) (ho : g.get? id = some o)
    (hkept : id ∉ doomed scene locked g.objects) :
    ∃ d d', c.object? o.handle = some d ∧
      (run g scene c locked).canvas.object? o.handle = some d' ∧ d'.shape = d.shape := by
  have hstart : (start g c).graph.OnCanvas (start g c).canvas := hg.alike (Canvas.alike_suspend c)
  have hkept' : id ∉ doomed scene locked (start g c).graph.objects := hkept
  obtain ⟨p, deferred, seen, hrun, -, hsweeps, -⟩ := run_sweeps locked hg hscene
  obtain ⟨d, hd, -⟩ := hg.drawn id o ho
  have hd₀ : (removeStale scene locked (start g c)).canvas.object? o.handle = some d := by
    rw [object?_removeStale hstart (Nat.succ_pos _) ho, if_neg hkept']
    exact hd
  obtain ⟨d', hd', hs⟩ := hsweeps.object (linked_removeStale locked hg hscene) hd₀
  refine ⟨d, d', hd, ?_, hs⟩
  rw [hrun]
  simpa [finish, Canvas.object?, Canvas.resume] using hd'

/-- What is doomed loses its object, and its handle is not given out again. -/
theorem run_object_gone (locked : Option ElementId) (hg : g.OnCanvas c)
    (hscene : scene.Consistent) (ho : g.get? id = some o)
    (hdoomed : id ∈ doomed scene locked g.objects) :
    (run g scene c locked).canvas.object? o.handle = none := by
  have hstart : (start g c).graph.OnCanvas (start g c).canvas := hg.alike (Canvas.alike_suspend c)
  have hs : 0 < (start g c).canvas.suspended := Nat.succ_pos _
  obtain ⟨p, deferred, seen, hrun, -, hsweeps, -⟩ := run_sweeps locked hg hscene
  have hlinked := hsweeps.linked (linked_removeStale locked hg hscene)
  have hobject : (run g scene c locked).canvas.object? o.handle = p.canvas.object? o.handle := by
    rw [hrun]
    simp [finish, Canvas.object?, Canvas.resume]
  rw [hobject, Option.eq_none_iff_forall_not_mem]
  intro d hd
  obtain ⟨o', ho', hh⟩ := hlinked.onCanvas.live o.handle d hd
  rcases hsweeps.inherits.origin d.id o' ho' with ⟨o₀, ho₀, hh₀, -⟩ | ⟨hyoung, -⟩
  · rw [get?_removeStale hstart hs] at ho₀
    split at ho₀
    · cases ho₀
    · next hkept =>
      have hid : d.id = id := hg.handle_injective ho₀ ho (hh₀.trans hh)
      exact hkept (hid ▸ hdoomed)
  · -- nor is it the object of a younger element
    obtain ⟨x, hx, -⟩ := hg.drawn id o ho
    have hold : o.handle.number ≤ c.lastHandle := hg.wellFormed.issued _ x hx
    have hlast := (inherits_removeStale scene locked hstart hs).lastHandle
    have hle : c.lastHandle ≤ (removeStale scene locked (start g c)).canvas.lastHandle := hlast
    rw [hh] at hyoung
    omega

end Objects

end Pass

namespace Drawing

/-- What a pass over a scene took down of the drawing `d` until it was `d'`, in the order
`removed`. -/
structure Pruned (scene : Scene) (locked : Option ElementId) (d d' : Drawing)
    (removed : List ElementId) : Prop where
  /-- Exactly what is outdated goes, with what reaches it through live references. -/
  exact : ∀ id, id ∈ removed ↔ ∃ q o, Relation.ReflTransGen d.graph.Refers id q ∧
    d.graph.get? q = some o ∧ Pass.Outdated scene locked q o
  once : removed.Nodup
  /-- What refers to an object that goes has gone before. -/
  ordered : ∀ id r, d.graph.Refers id r → ∀ j : Nat, removed[j]? = some r →
    ∃ i < j, removed[i]? = some id
  /-- No round of the teardown meets a cycle. -/
  rounds : ∃ order, Pass.Peels (d.graph.objects.restrict removed.contains) order ∧
    removed = order.keys
  /-- The canvas took off each object without an error, and gives out no handle again. -/
  gone : d'.canvas.counters.removes = d.canvas.counters.removes + removed.length ∧
    ∀ id ∈ removed, ∃ o, d.graph.get? id = some o ∧ d'.canvas.object? o.handle = none
  kept : ∀ id o, d.graph.get? id = some o → id ∉ removed →
    (∃ o', d'.graph.get? id = some o' ∧ o'.handle = o.handle) ∧
      ∃ x x', d.canvas.object? o.handle = some x ∧ d'.canvas.object? o.handle = some x' ∧
        x'.shape = x.shape

/-- A pass takes down exactly what cannot stay and what reaches it, each object once and after all
that refer to it, and leaves the objects of all others in place. -/
theorem pruned_pass {d : Drawing} (hd : d.Reachable) {scene : Scene} (hscene : scene.Consistent)
    (locked : Option ElementId) :
    Pruned scene locked d (d.reconcile scene locked).1
      (d.reconcile scene locked).2.removed := by
  have hg : d.graph.OnCanvas d.canvas := hd.isLinked
  obtain ⟨order, hperm, hpeels, hremoved⟩ := Pass.run_removed locked hg hscene
  have hremoved : (d.reconcile scene locked).2.removed = order.keys := hremoved
  have hmem : ∀ id, id ∈ order.keys ↔
      id ∈ Pass.doomed scene locked d.graph.objects ∧ ∃ o, d.graph.get? id = some o :=
    fun _ => Pass.mem_keys_doomed hperm
  rw [hremoved]
  exact
    { exact := by
        intro id
        rw [hmem]
        constructor
        · rintro ⟨hid, o, ho⟩
          exact (Pass.mem_doomed_iff hg hscene ho).1 hid
        · rintro ⟨q, x, hreach, hx, hout⟩
          obtain ⟨o, ho⟩ := Pass.live_of_reaches hreach hx
          exact ⟨(Pass.mem_doomed_iff hg hscene ho).2 ⟨q, x, hreach, hx, hout⟩, o, ho⟩
      once := (hperm.map Prod.fst).nodup_iff.2 (Table.keys_restrict_nodup hg.nodup _)
      ordered := by
        rintro id r ⟨o, ho, hr⟩ j hj
        -- with what it refers to, the object itself goes
        have hdoomed := ((hmem r).1 (List.mem_of_getElem? hj)).1
        have hid := Pass.dependent_mem_doomed ho hr hdoomed
        have hentry : (id, o) ∈ order :=
          hperm.mem_iff.2 (Table.mem_restrict.2 ⟨Table.mem_of_get? ho, by simpa using hid⟩)
        exact hpeels.earlier hentry hr hj
      rounds := ⟨order, hpeels, rfl⟩
      gone := by
        constructor
        · rw [← hremoved]
          exact Pass.removes_run locked hg hscene
        · intro id hid
          obtain ⟨hdoomed, o, ho⟩ := (hmem id).1 hid
          exact ⟨o, ho, Pass.run_object_gone locked hg hscene ho hdoomed⟩
      kept := by
        intro id o ho hnot
        have hkept : id ∉ Pass.doomed scene locked d.graph.objects :=
          fun hid => hnot ((hmem id).2 ⟨hid, o, ho⟩)
        obtain ⟨x, x', hx, hx', hs⟩ := Pass.run_object_kept locked hg hscene ho hkept
        obtain ⟨hlive, -⟩ := Pass.run_retains locked hg hscene ho hx hkept
        exact ⟨hlive, x, x', hx, hx', hs⟩ }

/-- The first point of the sample has become a glider on the segment, which has become a line through
it: each refers to the other. -/
def crossedElements : List Element :=
  [.new ⟨"p"⟩ .point [.ref ⟨"s"⟩], .new ⟨"s"⟩ .line [.ref ⟨"p"⟩, .ref ⟨"q"⟩],
   .freePoint ⟨"q"⟩ 5 5, .new ⟨"g"⟩ .point [.ref ⟨"s"⟩]]

def crossedScene : Scene :=
  ⟨crossedElements, Scene.indexOf crossedElements, 2⟩

/-- While the first point is held, the line takes the other glider down with it, and the point
stays. -/
theorem pruned_pass_sample :
    let d := (start .standard default []).run (sampleActions.take 2)
    let removed := (d.reconcile crossedScene (some ⟨"p"⟩)).2.removed
    d.Reachable ∧ crossedScene.Consistent ∧
      Pruned crossedScene (some ⟨"p"⟩) d (d.reconcile crossedScene (some ⟨"p"⟩)).1 removed ∧
      (⟨"g"⟩ : ElementId) ∈ removed ∧ (⟨"p"⟩ : ElementId) ∉ removed := by
  intro d removed
  have hactions : ∀ a ∈ sampleActions.take 2, a.Valid :=
    fun a ha => valid_sampleActions a (List.mem_of_mem_take ha)
  have hd : d.Reachable := (Reachable.start .standard default []).run hactions
  have hscene : crossedScene.Consistent := Scene.consistent_indexOf (by decide) 2
  have hpruned := pruned_pass hd hscene (some ⟨"p"⟩)
  have hp : (d.graph.get? ⟨"p"⟩).map LiveObject.refs = some [] := by decide +kernel
  have hg : (d.graph.get? ⟨"g"⟩).map LiveObject.refs = some [⟨"s"⟩] := by decide +kernel
  have hs : (d.graph.get? ⟨"s"⟩).map LiveObject.kind = some .segment := by decide +kernel
  obtain ⟨p, hp, hprefs⟩ := Option.map_eq_some_iff.1 hp
  obtain ⟨g, hg, hgrefs⟩ := Option.map_eq_some_iff.1 hg
  obtain ⟨s, hs, hskind⟩ := Option.map_eq_some_iff.1 hs
  refine ⟨hd, hscene, hpruned, ?_, ?_⟩
  · have hrefers : d.graph.Refers ⟨"g"⟩ ⟨"s"⟩ := ⟨g, hg, by simp [hgrefs]⟩
    have hline : Pass.Outdated crossedScene (some ⟨"p"⟩) ⟨"s"⟩ s :=
      .kind (e := .new ⟨"s"⟩ .line [.ref ⟨"p"⟩, .ref ⟨"q"⟩])
        (by simp [crossedScene, crossedElements]) rfl (by decide) (by simp [Element.new, hskind])
    exact (hpruned.exact ⟨"g"⟩).2 ⟨⟨"s"⟩, s, .single hrefers, hs, hline⟩
  · rw [hpruned.exact]
    rintro ⟨q, o, hreach, ho, hout⟩
    -- the point is still a free one, which refers to nothing
    rcases hreach.cases_head with rfl | ⟨r, ⟨o', ho', hr⟩, -⟩
    · rcases hout with hgone | ⟨-, -, hl, -⟩ | ⟨-, -, hl, -⟩
      · exact hgone _ (List.mem_cons_self ..) rfl
      · exact hl rfl
      · exact hl rfl
    · rw [hp, Option.some.injEq] at ho'
      rw [← ho', hprefs] at hr
      cases hr

end Drawing

end Chalkboard
