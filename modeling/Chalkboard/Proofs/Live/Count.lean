import Chalkboard.Proofs.Live.Sweep

/-!
# What a visit reports and counts

While painting is suspended the canvas counts each operation that succeeds, and nothing else.
`Pass.Acts.books` says what acting on one element adds to the report and to the counts: drawing it
counts one creation, and bringing its object in line counts at most one move and at most one change
of visibility, any of them exactly if the element is reported as updated.
-/

namespace Chalkboard

theorem LiveGraph.contains_iff {g : LiveGraph} {id : ElementId} :
    g.contains id = true ↔ ∃ o, g.get? id = some o :=
  Option.isSome_iff_exists

theorem LiveGraph.contains_eq_false_iff {g : LiveGraph} {id : ElementId} :
    g.contains id = false ↔ g.get? id = none :=
  Option.isSome_eq_false_iff.trans Option.isNone_iff_eq_none

namespace Canvas

/-- While painting is suspended, an operation is counted and nothing is painted. -/
theorem counted_of_suspended {c : Canvas} (hs : 0 < c.suspended) (f : Counters → Counters) :
    c.counted f = { c with counters := f c.counters } := by
  rw [counted, paint, if_neg]
  exact Nat.ne_of_gt hs

theorem suspended_paint (c : Canvas) : c.paint.suspended = c.suspended := by
  unfold paint
  split <;> rfl

/-- No gesture suspends painting. -/
theorem suspended_perform (c : Canvas) (effect : GestureEffect Float) :
    (c.perform effect).suspended = c.suspended := by
  cases effect with
  | nothing => rfl
  | look v => exact suspended_paint _
  | drop id p => rfl
  | drag h p =>
    rw [perform]
    split
    · next hc =>
      obtain ⟨d, -, -, rfl⟩ := movePoint_eq_ok_iff.1 hc
      exact suspended_paint _
    · rfl

/-- Ending the last suspension paints. -/
theorem resume_of_last {c : Canvas} (hs : c.suspended = 1) :
    c.resume =
      { c with
        suspended := 0
        counters := { c.counters with paints := c.counters.paints + 1 } } := by
  rw [resume, paint, hs]
  rfl

/-- `c'` has counted so many more operations than `c`. Nothing was painted or removed in between,
and painting is suspended as it was. -/
structure Counts (c : Canvas) (creates moves visibility : Nat) (c' : Canvas) : Prop where
  suspended : c'.suspended = c.suspended
  counters : c'.counters =
    { c.counters with
      creates := c.counters.creates + creates
      moves := c.counters.moves + moves
      visibilityChanges := c.counters.visibilityChanges + visibility }

namespace Counts

theorem refl (c : Canvas) : Counts c 0 0 0 c := ⟨rfl, rfl⟩

theorem trans {c c' c'' : Canvas} {n m v n' m' v' : Nat} (h : Counts c n m v c')
    (h' : Counts c' n' m' v' c'') : Counts c (n + n') (m + m') (v + v') c'' where
  suspended := h'.suspended.trans h.suspended
  counters := by
    rw [h'.counters, h.counters]
    simp only [Nat.add_assoc]

end Counts

variable {c c' : Canvas} {h : Handle}

theorem counts_draw (hs : 0 < c.suspended) (d : Drawn) : Counts c 1 0 0 (c.draw d).1 := by
  rw [draw, counted_of_suspended]
  · exact ⟨rfl, rfl⟩
  · exact hs

theorem counts_movePoint (hs : 0 < c.suspended) {p : Point Float} (hc : c.movePoint h p = .ok c') :
    Counts c 0 1 0 c' := by
  obtain ⟨d, -, -, rfl⟩ := movePoint_eq_ok_iff.1 hc
  rw [counted_of_suspended]
  · exact ⟨rfl, rfl⟩
  · exact hs

theorem counts_setVisible (hs : 0 < c.suspended) {visible : Bool}
    (hc : c.setVisible h visible = .ok c') : Counts c 0 0 1 c' := by
  obtain ⟨d, -, rfl⟩ := setVisible_eq_ok_iff.1 hc
  rw [counted_of_suspended]
  · exact ⟨rfl, rfl⟩
  · exact hs

end Canvas

namespace Pass

/-! ## Bringing an object in line -/

section Sync

variable {c c' : Canvas} {e : Element} {o o' : LiveObject} {changed : Bool}

/-- Placing a free point counts a move exactly if it moves. -/
theorem counts_place (hs : 0 < c.suspended) (h : place c e o = .ok (o', c', changed)) :
    c.Counts 0 changed.toNat 0 c' := by
  unfold place at h
  split at h
  · cases h
    exact .refl c
  · next x y hxy =>
    split at h
    · cases h
      exact .refl c
    · cases hmove : c.movePoint o.handle ⟨x, y⟩ with
      | error error =>
        rw [hmove] at h
        cases h
      | ok c₁ =>
        rw [hmove] at h
        cases h
        exact Canvas.counts_movePoint hs hmove

/-- Bringing an object in line counts what it changes. -/
theorem counts_sync (hs : 0 < c.suspended) (h : sync c e o = (o', c', .ok changed)) :
    ∃ moved shown : Bool, changed = (moved || shown) ∧ c.Counts 0 moved.toNat shown.toNat c' := by
  rw [sync] at h
  split at h
  · cases h
  · next o₁ c₁ moved hplace =>
    have hc₁ : c.Counts 0 moved.toNat 0 c₁ := counts_place hs hplace
    split at h
    · cases h
      exact ⟨changed, false, (Bool.or_false _).symm, hc₁⟩
    · split at h
      · cases h
      · next c₂ hshow =>
        cases h
        have hs₁ : 0 < c₁.suspended := hc₁.suspended ▸ hs
        exact ⟨moved, true, (Bool.or_true _).symm, hc₁.trans (Canvas.counts_setVisible hs₁ hshow)⟩

end Sync

/-! ## Acting on one element -/

/-- What acting on an element adds to the report and to the counts. Only drawing makes an element
live. -/
inductive Books (p : Pass) (e : Element) (q : Pass) : Prop
  | created (hnew : p.graph.contains e.id = false)
      (hparents : ∀ r ∈ e.refs, p.graph.contains r = true)
      (hlive : ∀ id, q.graph.contains id = true ↔ p.graph.contains id = true ∨ id = e.id)
      (hreport : q.report = { p.report with created := p.report.created ++ [e.id] })
      (hcounts : p.canvas.Counts 1 0 0 q.canvas)
  | failed (error : RenderError) (hlive : ∀ id, q.graph.contains id = p.graph.contains id)
      (hreport : q.report = { p.report with failed := p.report.failed ++ [(e.id, error)] })
      (hcounts : p.canvas.Counts 0 0 0 q.canvas)
  | updated (moved shown : Bool) (hlive : ∀ id, q.graph.contains id = p.graph.contains id)
      (hreport : q.report =
        if moved || shown then { p.report with updated := p.report.updated ++ [e.id] }
        else p.report)
      (hcounts : p.canvas.Counts 0 moved.toNat shown.toNat q.canvas)
  | skipped (hlive : ∀ id, q.graph.contains id = p.graph.contains id)
      (hreport : q.report = { p.report with skippedLocked := p.report.skippedLocked ++ [e.id] })
      (hcounts : p.canvas.Counts 0 0 0 q.canvas)

section Books

variable {locked : Option ElementId} {p q : Pass} {e : Element}

/-- An element that was live stays live. -/
theorem Acts.contains_eq (h : Acts locked p e q) {o : LiveObject}
    (ho : p.graph.get? e.id = some o) (id : ElementId) :
    q.graph.contains id = p.graph.contains id := by
  by_cases hid : id = e.id
  · obtain ⟨o', ho', -⟩ := h.live ho
    rw [hid, LiveGraph.contains, LiveGraph.contains, ho, ho', Option.isSome_some,
      Option.isSome_some]
  · rw [LiveGraph.contains, LiveGraph.contains, h.get?_of_ne hid]

theorem Acts.books (h : Acts locked p e q) (hg : p.graph.OnCanvas p.canvas)
    (hs : 0 < p.canvas.suspended) : Books p e q := by
  have hacts := h
  cases h with
  | draws hnew h =>
    have hparents : ∀ r ∈ e.refs, p.graph.contains r = true := by
      intro r hr
      exact LiveGraph.contains_iff.2 (h.refs_live r hr)
    cases h with
    | drawn o d hdraw h =>
      refine .created (LiveGraph.contains_eq_false_iff.2 hnew) hparents ?_ h.report ?_
      · intro id
        rw [LiveGraph.contains_iff, LiveGraph.contains_iff, h.graph,
          LiveGraph.get?_add_of_new hnew]
        by_cases hid : id = e.id <;> simp [hid]
      · rw [h.canvas]
        exact Canvas.counts_draw hs d
    | turnedDown error hdraw hlive herror => exact .failed error (fun _ => rfl) rfl (.refl _)
  | @updates o _ _ _ hl ho hf h =>
    obtain ⟨o', d, d', c', changed, -, hsync, -⟩ := sync_of_fits hg ho hf
    obtain ⟨moved, shown, rfl, hcounts⟩ := counts_sync hs hsync
    refine .updated moved shown (hacts.contains_eq ho) ?_ ?_
    · rw [update, hsync]
      cases hchanged : moved || shown <;> simp
    · rw [update, hsync]
      cases hchanged : moved || shown <;> exact hcounts
  | skips hl ho => exact .skipped (fun _ => rfl) rfl (.refl _)

end Books

end Pass

end Chalkboard
