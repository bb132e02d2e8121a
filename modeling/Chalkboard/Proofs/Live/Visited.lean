import Chalkboard.Proofs.Live.Retain

/-!
# What a pass makes of each element

An element that is live after a pass was drawn in it, with an object that is younger than all before,
or its object was there before and was brought in line, or it was held and nothing happened to it
(`Pass.run_visited`). This compares the states before and after a whole pass, so nothing about the
visits in between is needed for what follows from it.
-/

namespace Chalkboard

namespace Pass

/-- What a pass from `g` on `c` makes of an element that is live after it, with the record `o` and
the object `x`. -/
inductive Visited (locked : Option ElementId) (g : LiveGraph) (c : Canvas) (e : Element)
    (o : LiveObject) (x : Drawn) : Prop
  /-- The object is new. -/
  | drawn (hnew : c.lastHandle < o.handle.number) (hdraw : e.IsDrawable c.refusing)
      (hkind : o.kind = e.kind) (hvisible : o.visible = e.isVisible)
      (hshown : x.visible = Element.flag (g.defaults.merge e.kind e.props) "visible" true)
  /-- The object was there, and was brought in line. -/
  | updated {o₀ : LiveObject} {x₀ : Drawn} (hl : locked ≠ some e.id)
      (ho : g.get? e.id = some o₀) (hx : c.object? o₀.handle = some x₀) (hf : Fits e o₀)
      (hsynced : Synced e o₀ o x₀ x)
  | held (hl : locked = some e.id) (ho : g.get? e.id = some o)
      (hx : c.object? o.handle = some x)

section Visited

variable {scene : Scene} {locked : Option ElementId} {p₀ p q : Pass} {e : Element}
  {seen waiting : List Element} {o : LiveObject} {x : Drawn}

/-- Nothing happens to what is not an element seen so far. -/
theorem Sweeps.unseen (h : Sweeps scene locked p₀ seen waiting p) (hp₀ : Linked scene locked p₀)
    {id : ElementId} (hid : id ∉ seen.map Element.id) :
    p.graph.get? id = p₀.graph.get? id ∧ ∀ o, p₀.graph.get? id = some o →
      p.canvas.object? o.handle = p₀.canvas.object? o.handle := by
  have hact : ∀ {p q : Pass} {e : Element}, Linked scene locked p → Acts locked p e q →
      id ≠ e.id → (p.graph.get? id = p₀.graph.get? id ∧ ∀ o, p₀.graph.get? id = some o →
        p.canvas.object? o.handle = p₀.canvas.object? o.handle) →
      q.graph.get? id = p₀.graph.get? id ∧ ∀ o, p₀.graph.get? id = some o →
        q.canvas.object? o.handle = p₀.canvas.object? o.handle := by
    rintro p q e hp ha hne ⟨hlive, hobject⟩
    refine ⟨(ha.get?_of_ne hne).trans hlive, fun o ho => ?_⟩
    rw [ha.object?_of_ne hp.onCanvas (hlive.trans ho) hne, hobject o ho]
  induction h with
  | start => exact ⟨rfl, fun _ _ => rfl⟩
  | wait h he hseen hnew ih =>
    exact ih fun hmem => hid (List.map_subset _ (List.subset_append_left ..) hmem)
  | @visit seen waiting p q e h he hseen ha ih =>
    have hne : id ≠ e.id := by
      rintro rfl
      exact hid (by simp)
    refine hact (h.linked hp₀) ha hne (ih fun hmem => hid ?_)
    exact List.map_subset _ (List.subset_append_left ..) hmem
  | retry h ha ih =>
    have hne : id ≠ _ := fun heq => hid (heq ▸ List.mem_map_of_mem h.mem_of_retry)
    exact hact (h.linked hp₀) ha hne (ih hid)

/-- An element that is live once it was acted on was visited so, if nothing happened to it
before. -/
theorem Acts.visited (h : Acts locked p e q) (hg : p.graph.OnCanvas p.canvas)
    (hsettings : p.graph.defaults = p₀.graph.defaults ∧ p.canvas.refusing = p₀.canvas.refusing)
    (hlast : p₀.canvas.lastHandle ≤ p.canvas.lastHandle)
    (hsame : ∀ o, p.graph.get? e.id = some o → p₀.graph.get? e.id = some o ∧
      p.canvas.object? o.handle = p₀.canvas.object? o.handle)
    (ho : q.graph.get? e.id = some o) (hx : q.canvas.object? o.handle = some x) :
    Visited locked p₀.graph p₀.canvas e o x := by
  cases h with
  | draws hnew h =>
    cases h with
    | drawn o' d hdraw h =>
      rw [h.graph, LiveGraph.get?_add_of_new hnew, if_pos rfl, Option.some.injEq] at ho
      subst ho
      rw [h.canvas, Canvas.object?_draw hg.wellFormed, if_pos h.handle, Option.some.injEq] at hx
      subst hx
      refine .drawn ?_ (hsettings.2 ▸ hdraw) h.kind h.visible (hsettings.1 ▸ h.shown)
      rw [h.handle]
      exact Nat.lt_succ_of_le hlast
    | turnedDown error hdraw hlive herror =>
      rw [show (p.fail e.id error).graph = p.graph from rfl, hnew] at ho
      cases ho
  | @updates o₁ o' d d' hl ho₁ hf h =>
    rw [h.graph, LiveGraph.get?_replace ho₁, if_pos rfl, Option.some.injEq] at ho
    subst ho
    rw [h.canvas.object, if_pos h.synced.handle, Option.some.injEq] at hx
    subst hx
    obtain ⟨ho₀, hx₀⟩ := hsame o₁ ho₁
    exact .updated hl ho₀ (hx₀ ▸ h.before) hf h.synced
  | skips hl ho₁ =>
    obtain ⟨ho₀, hx₀⟩ := hsame o ho
    exact .held hl ho₀ (hx₀ ▸ hx)

theorem Sweeps.visited (h : Sweeps scene locked p₀ seen waiting p) (hp₀ : Linked scene locked p₀)
    (he : e ∈ seen) (ho : p.graph.get? e.id = some o)
    (hx : p.canvas.object? o.handle = some x) : Visited locked p₀.graph p₀.canvas e o x := by
  induction h with
  | start => cases he
  | wait h he' hseen hnew ih =>
    rcases List.mem_append.1 he with he | he
    · exact ih he ho hx
    · rw [List.mem_singleton.1 he, hnew] at ho
      cases ho
  | @visit seen waiting p q e' h he' hseen ha ih =>
    rcases List.mem_append.1 he with he | he
    · have hne : e.id ≠ e'.id := fun heq => hseen (heq ▸ List.mem_map_of_mem he)
      rw [ha.get?_of_ne hne] at ho
      rw [ha.object?_of_ne (h.linked hp₀).onCanvas ho hne] at hx
      exact ih he ho hx
    · cases List.mem_singleton.1 he
      obtain ⟨hlive, hobject⟩ := h.unseen hp₀ hseen
      exact ha.visited (h.linked hp₀).onCanvas h.settings h.inherits.lastHandle
        (fun o ho => ⟨hlive ▸ ho, hobject o (hlive ▸ ho)⟩) ho hx
  | @retry seen before after p q e' h ha ih =>
    by_cases hid : e.id = e'.id
    · -- it was not live while it waited
      have hnew := h.queued.notLive e' (List.mem_append_right _ (List.mem_cons_self ..))
      cases List.inj_on_of_nodup_map h.queued.nodup he h.mem_of_retry hid
      refine ha.visited (h.linked hp₀).onCanvas h.settings h.inherits.lastHandle ?_ ho hx
      intro o ho
      rw [hnew] at ho
      cases ho
    · rw [ha.get?_of_ne hid] at ho
      rw [ha.object?_of_ne (h.linked hp₀).onCanvas ho hid] at hx
      exact ih he ho hx

/-- The teardown takes objects away, and changes none. -/
theorem Visited.of_removeStale {g : LiveGraph} {c : Canvas} (hg : g.OnCanvas c)
    (h : Visited locked (removeStale scene locked (start g c)).graph
      (removeStale scene locked (start g c)).canvas e o x) : Visited locked g c e o x := by
  have hstart : (start g c).graph.OnCanvas (start g c).canvas := hg.alike (Canvas.alike_suspend c)
  have hs : 0 < (start g c).canvas.suspended := Nat.succ_pos _
  have hold : ∀ o x, (removeStale scene locked (start g c)).graph.get? e.id = some o →
      (removeStale scene locked (start g c)).canvas.object? o.handle = some x →
      g.get? e.id = some o ∧ c.object? o.handle = some x := by
    intro o x ho hx
    rw [get?_removeStale hstart hs] at ho
    split at ho
    · cases ho
    · next hid =>
      rw [object?_removeStale hstart hs ho, if_neg hid] at hx
      exact ⟨ho, hx⟩
  cases h with
  | drawn hnew hdraw hkind hvisible hshown =>
    have hlast := (inherits_removeStale scene locked hstart hs).lastHandle
    obtain ⟨hdefaults, hrefusing, -⟩ := removeStale_frame scene locked hstart hs
    rw [hdefaults] at hshown
    rw [hrefusing] at hdraw
    exact .drawn (Nat.lt_of_le_of_lt hlast hnew) hdraw hkind hvisible hshown
  | updated hl ho hx hf hsynced =>
    obtain ⟨ho, hx⟩ := hold _ _ ho hx
    exact .updated hl ho hx hf hsynced
  | held hl ho hx =>
    obtain ⟨ho, hx⟩ := hold _ _ ho hx
    exact .held hl ho hx

theorem run_visited {g : LiveGraph} {c : Canvas} (hg : g.OnCanvas c) (hscene : scene.Consistent)
    (he : e ∈ scene.elements) (ho : (run g scene c locked).graph.get? e.id = some o)
    (hx : (run g scene c locked).canvas.object? o.handle = some x) :
    Visited locked g c e o x := by
  obtain ⟨p, deferred, seen, hrun, hperm, hsweeps, -⟩ := run_sweeps locked hg hscene
  rw [hrun] at ho hx
  have hx : p.canvas.object? o.handle = some x := by
    simpa [finish, Canvas.resume, Canvas.object?] using hx
  have hlinked := linked_removeStale locked hg hscene
  exact (hsweeps.visited hlinked (hperm.mem_iff.2 he) ho hx).of_removeStale hg

end Visited

end Pass

end Chalkboard
