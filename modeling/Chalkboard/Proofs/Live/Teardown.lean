import Chalkboard.Proofs.Live.Link

/-!
# Tearing down

What a pass takes off the canvas before it visits the elements. The doomed ids are closed under
dependents (`Pass.dependent_mem_doomed`), every one of them leaves the canvas without an error
(`Pass.removeStale_eq`), and what stays is linked as before (`Pass.onCanvas_removeStale`).
-/

namespace Chalkboard

namespace Pass

/-! ## The doomed ids -/

theorem subset_doom (objects : Table ElementId LiveObject) (doomed : List ElementId) (n : Nat) :
    ∀ id ∈ doomed, id ∈ doom objects doomed n := by
  induction n generalizing doomed with
  | zero => exact fun _ h => h
  | succ n ih =>
    intro id h
    simp only [doom]
    split
    · exact h
    · exact ih _ id (List.mem_append_left _ h)

/-- Fewer objects are left when one more is doomed. -/
theorem length_restrict_append_lt {objects : Table ElementId LiveObject}
    {doomed dependents : List ElementId} {entry : ElementId × LiveObject} (ho : entry ∈ objects)
    (hold : (!doomed.contains entry.1) = true) (hnew : entry.1 ∈ dependents) :
    (objects.restrict fun id => !(doomed ++ dependents).contains id).length <
      (objects.restrict fun id => !doomed.contains id).length := by
  have hsub : objects.restrict (fun id => !(doomed ++ dependents).contains id) =
      (objects.restrict fun id => !doomed.contains id).restrict
        fun id => !dependents.contains id := by
    rw [Table.restrict_restrict]
    refine Table.restrict_congr fun e _ => ?_
    simp [Bool.and_comm]
  rw [hsub]
  refine List.length_filter_lt_length_iff_exists.2 ⟨entry, ?_, ?_⟩
  · exact Table.mem_restrict.2 ⟨ho, hold⟩
  · simpa using hnew

/-- The steps that are left suffice: whoever refers to a doomed id is doomed. -/
theorem dependent_mem_doom {objects : Table ElementId LiveObject} {doomed : List ElementId}
    {n : Nat} (hn : (objects.restrict fun id => !doomed.contains id).length ≤ n)
    {id r : ElementId} {o : LiveObject} (ho : (id, o) ∈ objects) (hr : r ∈ o.refs)
    (hd : r ∈ doom objects doomed n) : id ∈ doom objects doomed n := by
  induction n generalizing doomed with
  | zero =>
    have hall : objects.restrict (fun id => !doomed.contains id) = [] :=
      List.length_eq_zero_iff.1 (Nat.le_zero.1 hn)
    by_contra hid
    have hmem : (id, o) ∈ objects.restrict fun id => !doomed.contains id :=
      Table.mem_restrict.2 ⟨ho, by simpa [doom] using hid⟩
    rw [hall] at hmem
    cases hmem
  | succ n ih =>
    simp only [doom] at hd ⊢
    split at hd
    · next hnone =>
      by_contra hid
      have hmem := (List.filter_eq_nil_iff.1 hnone) (id, o) ho
      refine hmem ?_
      simp only [Bool.and_eq_true, Bool.not_eq_true', List.any_eq_true]
      exact ⟨by simpa using hid, r, hr, by simpa using hd⟩
    · next hsome =>
      refine ih ?_ hd
      -- one that was not doomed before is now
      rcases List.exists_mem_of_ne_nil _ hsome with ⟨entry, hentry⟩
      rcases List.mem_filter.1 hentry with ⟨hobj, htest⟩
      rw [Bool.and_eq_true] at htest
      have hlt := length_restrict_append_lt hobj htest.1 (List.mem_map_of_mem hentry)
      omega

section Doomed

variable {scene : Scene} {locked : Option ElementId} {g : LiveGraph} {c : Canvas}

theorem stale_mem_doomed {id : ElementId} {o : LiveObject} (ho : g.get? id = some o)
    (hs : isStale scene locked id o = true) : id ∈ doomed scene locked g.objects := by
  refine subset_doom _ _ _ id (List.mem_map.2 ⟨(id, o), ?_, rfl⟩)
  exact List.mem_filter.2 ⟨Table.mem_of_get? ho, hs⟩

theorem dependent_mem_doomed {id r : ElementId} {o : LiveObject} (ho : g.get? id = some o)
    (hr : r ∈ o.refs) (hd : r ∈ doomed scene locked g.objects) :
    id ∈ doomed scene locked g.objects :=
  dependent_mem_doom (List.length_filter_le ..) (Table.mem_of_get? ho) hr hd

/-- Nothing is doomed where nothing is stale. -/
theorem doomed_eq_nil (hnodup : g.objects.keys.Nodup)
    (h : ∀ id o, g.get? id = some o → isStale scene locked id o = false) :
    doomed scene locked g.objects = [] := by
  have hstale : (g.objects.filter fun entry => isStale scene locked entry.1 entry.2) = [] := by
    refine List.filter_eq_nil_iff.2 fun entry hentry => ?_
    simp [h entry.1 entry.2 (Table.get?_of_mem hnodup hentry)]
  rw [doomed, hstale, List.map_nil]
  cases g.objects.length with
  | zero => rfl
  | succ n =>
    have hdependents : (g.objects.filter fun entry =>
        !([] : List ElementId).contains entry.1 &&
          entry.2.refs.any ([] : List ElementId).contains) = [] :=
      List.filter_eq_nil_iff.2 fun entry _ => by simp
    rw [doom, hdependents]

end Doomed

/-! ## Taking objects off the canvas -/

theorem sortById_perm (entries : Table ElementId LiveObject) :
    (sortById entries).Perm entries :=
  List.mergeSort_perm ..

/-- A round takes the entries that no entry refers to, or all of them. -/
theorem leaves_cases (entries : Table ElementId LiveObject) :
    (∃ free : ElementId → Bool, (leaves entries).Perm (entries.restrict free) ∧
      leaves entries ≠ []) ∨ (leaves entries).Perm entries := by
  simp only [leaves]
  split
  · exact .inr (sortById_perm entries)
  · next hne =>
    refine .inl ⟨_, sortById_perm _, fun h => hne ?_⟩
    have hperm := sortById_perm (entries.restrict fun id =>
      !(entries.flatMap fun entry => entry.2.refs).contains id)
    rw [h] at hperm
    exact List.nil_perm.1 hperm

/-- A round and what it leaves are all entries. -/
theorem leaves_append_perm (entries : Table ElementId LiveObject) :
    (leaves entries ++ entries.restrict fun id => !(leaves entries).keys.contains id).Perm
      entries := by
  rcases leaves_cases entries with ⟨free, hfree, -⟩ | hall
  · have hrest : (entries.restrict fun id => !(leaves entries).keys.contains id) =
        entries.filter fun entry => !free entry.1 := by
      refine Table.restrict_congr (q := fun id => !free id) fun entry hentry => ?_
      have hmem : entry.1 ∈ (leaves entries).keys ↔ free entry.1 = true := by
        rw [Table.keys, (hfree.map Prod.fst).mem_iff, List.mem_map]
        constructor
        · rintro ⟨e, he, hk⟩
          rw [← hk]
          exact (Table.mem_restrict.1 he).2
        · intro hf
          exact ⟨entry, Table.mem_restrict.2 ⟨hentry, hf⟩, rfl⟩
      cases hf : free entry.1 <;> simp [hmem, hf]
    rw [hrest]
    exact (hfree.append_right _).trans (List.filter_append_perm _ entries)
  · have hrest : (entries.restrict fun id => !(leaves entries).keys.contains id) = [] := by
      refine List.filter_eq_nil_iff.2 fun entry hentry => ?_
      have hmem : entry.1 ∈ (leaves entries).keys :=
        List.mem_map_of_mem (hall.mem_iff.2 hentry)
      simpa using hmem
    rw [hrest, List.append_nil]
    exact hall

theorem leaves_ne_nil {entries : Table ElementId LiveObject} (h : entries ≠ []) :
    leaves entries ≠ [] := by
  rcases leaves_cases entries with ⟨-, -, hne⟩ | hall
  · exact hne
  · intro hnil
    rw [hnil] at hall
    exact h (List.nil_perm.1 hall)

/-- The rounds in which entries are taken off, and the order that they make. -/
inductive Rounds : Table ElementId LiveObject → Table ElementId LiveObject → Prop
  | done : Rounds [] []
  | round {entries order : Table ElementId LiveObject} (hne : entries ≠ [])
      (h : Rounds (entries.restrict fun id => !(leaves entries).keys.contains id) order) :
      Rounds entries (leaves entries ++ order)

theorem Rounds.perm {entries order : Table ElementId LiveObject} (h : Rounds entries order) :
    order.Perm entries := by
  induction h with
  | done => exact .refl _
  | round hne h ih => exact (ih.append_left _).trans (leaves_append_perm _)

/-- The rounds take each entry off once. -/
theorem removeAll_eq {entries : Table ElementId LiveObject} {n : Nat} (hn : entries.length ≤ n)
    (p : Pass) :
    ∃ order : Table ElementId LiveObject, Rounds entries order ∧
      removeAll p entries n = order.foldl removeOne p := by
  induction n generalizing entries p with
  | zero =>
    have hnil := List.length_eq_zero_iff.1 (Nat.le_zero.1 hn)
    subst hnil
    exact ⟨[], .done, rfl⟩
  | succ n ih =>
    unfold removeAll
    split
    · exact ⟨[], .done, rfl⟩
    · next hne =>
      have hpos := List.length_pos_iff.2 (leaves_ne_nil hne)
      have hlen : (entries.restrict fun id => !(leaves entries).keys.contains id).length ≤ n := by
        have hsum := (leaves_append_perm entries).length_eq
        rw [List.length_append] at hsum
        omega
      rcases ih hlen ((leaves entries).foldl removeOne p) with ⟨order, horder, heq⟩
      refine ⟨leaves entries ++ order, .round hne horder, ?_⟩
      rw [List.foldl_append]
      exact heq

/-- The ids that are taken off are reported, whatever the canvas answers. -/
theorem removed_foldl_removeOne (entries : Table ElementId LiveObject) (p : Pass) :
    (entries.foldl removeOne p).report.removed = p.report.removed ++ entries.keys := by
  induction entries generalizing p with
  | nil => simp [Table.keys]
  | cons entry entries ih =>
    have hone : (removeOne p entry).report.removed = p.report.removed ++ [entry.1] := by
      unfold removeOne
      dsimp only
      split <;> rfl
    rw [List.foldl_cons, ih, hone]
    simp [Table.keys]

/-- The handles of some entries. -/
def handles (entries : Table ElementId LiveObject) : List Handle :=
  entries.map fun entry => entry.2.handle

/-- The pass after the objects of some entries have left the canvas. -/
def without (p : Pass) (entries : Table ElementId LiveObject) : Pass :=
  { p with
    canvas :=
      { p.canvas with
        objects := p.canvas.objects.restrict fun h => !(handles entries).contains h
        counters :=
          { p.canvas.counters with removes := p.canvas.counters.removes + entries.length } }
    report := { p.report with removed := p.report.removed ++ entries.keys } }

theorem without_without (p : Pass) (entries entries' : Table ElementId LiveObject) :
    (p.without entries).without entries' = p.without (entries ++ entries') := by
  have hobjects : (p.canvas.objects.restrict fun h => !(handles entries).contains h).restrict
      (fun h => !(handles entries').contains h) =
      p.canvas.objects.restrict fun h => !(handles (entries ++ entries')).contains h := by
    rw [Table.restrict_restrict]
    refine Table.restrict_congr fun entry _ => ?_
    have hmem : entry.1 ∈ handles (entries ++ entries') ↔
        entry.1 ∈ handles entries ∨ entry.1 ∈ handles entries' := by
      rw [handles, List.map_append, List.mem_append]
      rfl
    simp [hmem, Bool.and_comm]
  have hcount : p.canvas.counters.removes + entries.length + entries'.length =
      p.canvas.counters.removes + (entries ++ entries').length := by
    rw [List.length_append]
    omega
  have hkeys : p.report.removed ++ entries.keys ++ entries'.keys =
      p.report.removed ++ Table.keys (entries ++ entries') := by
    simp [Table.keys]
  simp only [without]
  rw [hobjects, hcount, hkeys]

/-- While painting is suspended, objects with handles of their own leave the canvas one after the
other, and nothing goes wrong. -/
theorem foldl_removeOne {entries : Table ElementId LiveObject} {p : Pass}
    (hs : 0 < p.canvas.suspended) (hnodup : (handles entries).Nodup)
    (hlive : ∀ h ∈ handles entries, (p.canvas.object? h).isSome = true) :
    entries.foldl removeOne p = p.without entries := by
  induction entries generalizing p with
  | nil => simp [without, handles, Table.keys]
  | cons entry entries ih =>
    rcases List.nodup_cons.1 hnodup with ⟨hnew, hnodup⟩
    rcases Option.isSome_iff_exists.1 (hlive entry.2.handle (List.mem_cons_self ..)) with ⟨d, hd⟩
    have hone : removeOne p entry = p.without [entry] := by
      have hne : p.canvas.suspended ≠ 0 := Nat.ne_of_gt hs
      simp [removeOne, Canvas.remove, hd, Canvas.counted, Canvas.paint, hne, without, handles,
        Table.keys]
    have hkeep : ∀ h ∈ handles entries, ((p.without [entry]).canvas.object? h).isSome = true := by
      intro h hh
      have hne : h ≠ entry.2.handle := by
        rintro rfl
        exact hnew hh
      have hget : (p.without [entry]).canvas.object? h = p.canvas.object? h := by
        simp [without, Canvas.object?, handles, hne]
      rw [hget]
      exact hlive h (List.mem_cons_of_mem _ hh)
    rw [List.foldl_cons, hone, ih (p := p.without [entry]) hs hnodup hkeep]
    exact without_without p [entry] entries

/-! ## The whole of it -/

section RemoveStale

variable {scene : Scene} {locked : Option ElementId} {p : Pass}

/-- The live objects that are not doomed. -/
def survivors (scene : Scene) (locked : Option ElementId) (g : LiveGraph) : LiveGraph :=
  { g with objects := g.objects.restrict fun id => !(doomed scene locked g.objects).contains id }

theorem get?_survivors (g : LiveGraph) (id : ElementId) :
    (survivors scene locked g).get? id =
      if id ∈ doomed scene locked g.objects then none else g.get? id := by
  have h := Table.get?_restrict g.objects
    (fun id => !(doomed scene locked g.objects).contains id) id
  rw [LiveGraph.get?, survivors, h]
  by_cases hid : id ∈ doomed scene locked g.objects <;> simp [hid, LiveGraph.get?]

/-- The doomed objects are taken off in rounds. -/
theorem removeStale_rounds (scene : Scene) (locked : Option ElementId) (p : Pass) :
    ∃ order : Table ElementId LiveObject,
      Rounds (p.graph.objects.restrict (doomed scene locked p.graph.objects).contains) order ∧
      removeStale scene locked p =
        order.foldl removeOne { p with graph := survivors scene locked p.graph } :=
  removeAll_eq (Nat.le_refl _) _

/-- The entries that are taken off are those of the live ids that are doomed. -/
theorem mem_keys_doomed {g : LiveGraph} {order : Table ElementId LiveObject}
    (hperm : order.Perm (g.objects.restrict (doomed scene locked g.objects).contains))
    {id : ElementId} :
    id ∈ order.keys ↔ id ∈ doomed scene locked g.objects ∧ ∃ o, g.get? id = some o := by
  rw [Table.keys, (hperm.map Prod.fst).mem_iff, ← Table.keys, ← Table.isSome_get?_iff,
    Table.get?_restrict, List.contains_eq_mem, Option.isSome_iff_exists]
  by_cases hid : id ∈ doomed scene locked g.objects <;> simp [hid, LiveGraph.get?]

/-- Exactly the doomed objects leave the graph and the canvas, each without an error. -/
theorem removeStale_eq (scene : Scene) (locked : Option ElementId)
    (hg : p.graph.OnCanvas p.canvas) (hs : 0 < p.canvas.suspended) :
    ∃ order : Table ElementId LiveObject,
      order.Perm (p.graph.objects.restrict (doomed scene locked p.graph.objects).contains) ∧
      removeStale scene locked p =
        { p.without order with graph := survivors scene locked p.graph } := by
  obtain ⟨order, hrounds, heq⟩ := removeStale_rounds scene locked p
  have hperm := hrounds.perm
  refine ⟨order, hperm, heq.trans ?_⟩
  have hmem : ∀ entry ∈ order, p.graph.get? entry.1 = some entry.2 := fun entry hentry =>
    Table.get?_of_mem hg.nodup (Table.mem_restrict.1 (hperm.mem_iff.1 hentry)).1
  refine foldl_removeOne hs ?_ ?_
  · have hkeys : (Table.keys order).Nodup :=
      (hperm.map Prod.fst).nodup_iff.2 (Table.keys_restrict_nodup hg.nodup _)
    refine List.Nodup.map_on (fun entry he entry' he' hh => ?_) (List.Nodup.of_map _ hkeys)
    have hid := hg.handle_injective (hmem entry he) (hmem entry' he') hh
    have ho := hmem entry he
    rw [hid, hmem entry' he', Option.some.injEq] at ho
    exact Prod.ext hid ho.symm
  · intro h hh
    rcases List.mem_map.1 hh with ⟨entry, hentry, rfl⟩
    rcases hg.drawn entry.1 entry.2 (hmem entry hentry) with ⟨d, hd, -⟩
    rw [hd]
    rfl

/-- What stays keeps its object as it is. -/
theorem object?_removeStale (hg : p.graph.OnCanvas p.canvas) (hs : 0 < p.canvas.suspended)
    {id : ElementId} {o : LiveObject} (ho : p.graph.get? id = some o) :
    (removeStale scene locked p).canvas.object? o.handle =
      if id ∈ doomed scene locked p.graph.objects then none else p.canvas.object? o.handle := by
  rcases removeStale_eq scene locked hg hs with ⟨order, hperm, heq⟩
  have hmem : o.handle ∈ handles order ↔ id ∈ doomed scene locked p.graph.objects := by
    rw [handles, List.mem_map]
    constructor
    · rintro ⟨entry, hentry, hh⟩
      rcases Table.mem_restrict.1 (hperm.mem_iff.1 hentry) with ⟨hlive, hdoomed⟩
      have hid := hg.handle_injective (Table.get?_of_mem hg.nodup hlive) ho hh
      rw [← hid]
      simpa using hdoomed
    · intro hdoomed
      refine ⟨(id, o), hperm.mem_iff.2 (Table.mem_restrict.2 ⟨Table.mem_of_get? ho, ?_⟩), rfl⟩
      simpa using hdoomed
  have hget := Table.get?_restrict p.canvas.objects (fun h => !(handles order).contains h) o.handle
  rw [heq, Canvas.object?, without, hget]
  by_cases hid : id ∈ doomed scene locked p.graph.objects
  · simp [hmem, hid]
  · simp [hmem, hid, Canvas.object?]

theorem onCanvas_removeStale (hg : p.graph.OnCanvas p.canvas) (hs : 0 < p.canvas.suspended) :
    (removeStale scene locked p).graph.OnCanvas (removeStale scene locked p).canvas := by
  rcases removeStale_eq scene locked hg hs with ⟨order, hperm, heq⟩
  have hgraph : (removeStale scene locked p).graph = survivors scene locked p.graph := by rw [heq]
  have hobjects : (removeStale scene locked p).canvas.objects =
      p.canvas.objects.restrict fun h => !(handles order).contains h := by rw [heq]; rfl
  have hlast : (removeStale scene locked p).canvas.lastHandle = p.canvas.lastHandle := by
    rw [heq]
    rfl
  rw [hgraph]
  refine hg.restrict _ ?_ (hg.wellFormed.restrict _ hobjects hlast) ?_ ?_
  · -- a survivor refers to survivors
    intro id o ho hkeep r hr
    simp only [Bool.not_eq_true', List.contains_eq_mem, decide_eq_false_iff_not] at hkeep ⊢
    exact fun hd => hkeep (dependent_mem_doomed ho hr hd)
  · intro id o ho
    rw [object?_removeStale hg hs ho]
    by_cases hid : id ∈ doomed scene locked p.graph.objects <;> simp [hid]
  · intro h d hd
    rw [Canvas.object?, hobjects, Table.get?_restrict] at hd
    split at hd
    · exact hd
    · cases hd

/-- Tearing down changes neither settings nor warnings, and draws and changes nothing. -/
theorem removeStale_frame (scene : Scene) (locked : Option ElementId)
    (hg : p.graph.OnCanvas p.canvas) (hs : 0 < p.canvas.suspended) :
    (removeStale scene locked p).graph.defaults = p.graph.defaults ∧
    (removeStale scene locked p).canvas.refusing = p.canvas.refusing ∧
    (removeStale scene locked p).canvas.suspended = p.canvas.suspended ∧
    (removeStale scene locked p).warnings = p.warnings ∧
    (removeStale scene locked p).report.failed = p.report.failed := by
  rcases removeStale_eq scene locked hg hs with ⟨order, -, heq⟩
  rw [heq]
  exact ⟨rfl, rfl, rfl, rfl, rfl⟩

theorem get?_removeStale (hg : p.graph.OnCanvas p.canvas) (hs : 0 < p.canvas.suspended)
    (id : ElementId) :
    (removeStale scene locked p).graph.get? id =
      if id ∈ doomed scene locked p.graph.objects then none else p.graph.get? id := by
  rcases removeStale_eq scene locked hg hs with ⟨order, -, heq⟩
  rw [heq]
  exact get?_survivors p.graph id

/-- What stays is not stale. -/
theorem isStale_removeStale (hg : p.graph.OnCanvas p.canvas) (hs : 0 < p.canvas.suspended)
    {id : ElementId} {o : LiveObject} (ho : (removeStale scene locked p).graph.get? id = some o) :
    isStale scene locked id o = false := by
  rw [get?_removeStale hg hs] at ho
  split at ho
  · cases ho
  · next hid =>
    rw [← Bool.not_eq_true]
    exact fun hstale => hid (stale_mem_doomed ho hstale)

/-- Where nothing is stale, nothing is torn down. -/
theorem removeStale_eq_self (hnodup : p.graph.objects.keys.Nodup)
    (h : ∀ id o, p.graph.get? id = some o → isStale scene locked id o = false) :
    removeStale scene locked p = p := by
  have hgone : p.graph.objects.restrict ([] : List ElementId).contains = [] :=
    List.filter_eq_nil_iff.2 fun entry _ => by simp
  simp only [removeStale, doomed_eq_nil hnodup h, hgone]
  simp [removeAll]

end RemoveStale

end Pass

end Chalkboard
