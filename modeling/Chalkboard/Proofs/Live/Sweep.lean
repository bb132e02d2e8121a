import Chalkboard.Proofs.Live.Teardown
import Chalkboard.Proofs.Live.Visit
import Chalkboard.Proofs.Scene.Index

/-!
# The course of a pass

After the teardown a pass visits each element once and then tries those that had to wait again.
`Pass.Sweeps` is the relation of all states that this goes through, `Pass.run_sweeps` says that a
pass ends in one of them in which no waiting element can be drawn.
-/

namespace Chalkboard

namespace Pass

/-! ## The order of the visits -/

/-- Gathering a list by rank, rank after rank, rearranges it. -/
theorem flatMap_filter_perm {α : Type} (rank : α → Nat) (n : Nat) (l : List α)
    (h : ∀ a ∈ l, rank a < n) :
    ((List.range n).flatMap fun c => l.filter fun a => rank a == c).Perm l := by
  induction n generalizing l with
  | zero =>
    cases l with
    | nil => exact .refl _
    | cons a l => exact absurd (h a (List.mem_cons_self ..)) (Nat.not_lt_zero _)
  | succ n ih =>
    have hlow := ih (l.filter fun a => decide (rank a < n)) fun a ha => by
      simpa using (List.mem_filter.1 ha).2
    have hsame : ((List.range n).flatMap fun c =>
        (l.filter fun a => decide (rank a < n)).filter fun a => rank a == c) =
        (List.range n).flatMap fun c => l.filter fun a => rank a == c := by
      refine List.flatMap_congr fun c hc => ?_
      rw [List.filter_filter]
      refine List.filter_congr fun a _ => ?_
      have hc : c < n := List.mem_range.1 hc
      by_cases ha : rank a = c
      · simp [ha, hc]
      · simp [ha]
    have htop : (l.filter fun a => rank a == n) = l.filter fun a => !decide (rank a < n) := by
      refine List.filter_congr fun a ha => ?_
      have := h a ha
      by_cases hn : rank a = n
      · simp [hn]
      · have hlt : rank a < n := by omega
        simp [hn, hlt]
    rw [hsame] at hlow
    rw [List.range_succ, List.flatMap_append, List.flatMap_singleton, htop]
    exact (hlow.append_right _).trans (List.filter_append_perm _ l)

theorem byClass_perm (elements : List Element) : (byClass elements).Perm elements :=
  flatMap_filter_perm (fun e : Element => e.kind.dependencyClass) 5 elements fun e _ => by
    cases e.kind <;> decide

/-! ## The states of a pass -/

/-- The states of a pass from `p₀` on, with the elements seen so far and those that wait. -/
inductive Sweeps (scene : Scene) (locked : Option ElementId) (p₀ : Pass) :
    List Element → List Element → Pass → Prop
  | start : Sweeps scene locked p₀ [] [] p₀
  /-- A new element has to wait for a parent. -/
  | wait {seen waiting : List Element} {p : Pass} {e : Element}
      (h : Sweeps scene locked p₀ seen waiting p) (he : e ∈ scene.elements)
      (hseen : e.id ∉ seen.map Element.id) (hnew : p.graph.get? e.id = none) :
      Sweeps scene locked p₀ (seen ++ [e]) (waiting ++ [e]) p
  | visit {seen waiting : List Element} {p q : Pass} {e : Element}
      (h : Sweeps scene locked p₀ seen waiting p) (he : e ∈ scene.elements)
      (hseen : e.id ∉ seen.map Element.id) (ha : Acts locked p e q) :
      Sweeps scene locked p₀ (seen ++ [e]) waiting q
  /-- A waiting element has its parents at last. -/
  | retry {seen before after : List Element} {p q : Pass} {e : Element}
      (h : Sweeps scene locked p₀ seen (before ++ e :: after) p) (ha : Acts locked p e q) :
      Sweeps scene locked p₀ seen (before ++ after) q

/-- The graph is linked to the canvas, and what is live belongs to the scene and fits it unless it
is held. -/
structure Linked (scene : Scene) (locked : Option ElementId) (p : Pass) : Prop where
  onCanvas : p.graph.OnCanvas p.canvas
  fits : ∀ id o, p.graph.get? id = some o →
    ∃ e ∈ scene.elements, e.id = id ∧ (locked ≠ some id → Fits e o)

/-- The elements that wait are among those seen, and not live. -/
structure Queued (scene : Scene) (seen waiting : List Element) (p : Pass) : Prop where
  subset : seen ⊆ scene.elements
  nodup : (seen.map Element.id).Nodup
  sublist : waiting.Sublist seen
  notLive : ∀ e ∈ waiting, p.graph.get? e.id = none

section Sweeps

variable {scene : Scene} {locked : Option ElementId} {p₀ p q : Pass} {e : Element}
  {seen waiting : List Element}

/-- Acting on an element of the scene keeps the link. -/
theorem Acts.linked (h : Acts locked p e q) (he : e ∈ scene.elements)
    (hp : Linked scene locked p) : Linked scene locked q where
  onCanvas := h.onCanvas hp.onCanvas
  fits id o ho := by
    by_cases hne : id = e.id
    · subst hne
      refine ⟨e, he, rfl, fun hl => ?_⟩
      cases h with
      | draws hnew h =>
        cases h with
        | drawn o' d hdraw h =>
          rw [h.graph, LiveGraph.get?_add_of_new hnew, if_pos rfl, Option.some.injEq] at ho
          rw [← ho]
          exact ⟨h.kind, .inl h.parents⟩
        | turnedDown error hdraw hlive herror =>
          rw [show (p.fail e.id error).graph = p.graph from rfl, hnew] at ho
          cases ho
      | @updates o₁ o' d d' _ ho₁ hf h =>
        rw [h.graph, LiveGraph.get?_replace ho₁, if_pos rfl, Option.some.injEq] at ho
        subst ho
        refine ⟨h.synced.kind.trans hf.1, ?_⟩
        rcases h.synced.parents_eq hf with hps | ⟨-, hps⟩
        · exact .inl hps
        · exact .inr (.inl hps)
      | skips hl' ho' => exact absurd hl' hl
    · rw [h.get?_of_ne hne] at ho
      exact hp.fits id o ho

namespace Sweeps

theorem queued (h : Sweeps scene locked p₀ seen waiting p) : Queued scene seen waiting p := by
  have hmore : ∀ {seen : List Element} {e : Element}, (seen.map Element.id).Nodup →
      e.id ∉ seen.map Element.id → ((seen ++ [e]).map Element.id).Nodup := by
    intro seen e hnodup hseen
    rw [List.map_append]
    exact hnodup.append (List.nodup_singleton _) (by simpa using hseen)
  -- on the course of the pass; what waits is a part of what was seen, without repetition
  induction h with
  | start => exact ⟨List.nil_subset _, List.nodup_nil, .refl _, by simp⟩
  | wait h he hseen hnew ih =>
    refine ⟨List.append_subset.2 ⟨ih.subset, by simpa using he⟩, hmore ih.nodup hseen,
      ih.sublist.append_right _, fun e' he' => ?_⟩
    rcases List.mem_append.1 he' with he' | he'
    · exact ih.notLive e' he'
    · rwa [List.mem_singleton.1 he']
  | @visit seen waiting p q e h he hseen ha ih =>
    refine ⟨List.append_subset.2 ⟨ih.subset, by simpa using he⟩, hmore ih.nodup hseen,
      ih.sublist.trans (List.sublist_append_left ..), fun e' he' => ?_⟩
    have hne : e'.id ≠ e.id := by
      intro heq
      exact hseen (heq ▸ List.mem_map_of_mem (ih.sublist.mem he'))
    rw [ha.get?_of_ne hne]
    exact ih.notLive e' he'
  | @retry seen before after p q e h ha ih =>
    have hdrop : (before ++ after).Sublist (before ++ e :: after) :=
      (List.sublist_cons_self e after).append_left before
    refine ⟨ih.subset, ih.nodup, hdrop.trans ih.sublist, fun e' he' => ?_⟩
    have hids := (ih.sublist.map Element.id).nodup ih.nodup
    have hne : e'.id ≠ e.id := by
      intro heq
      rw [List.map_append, List.map_cons, List.nodup_middle, List.nodup_cons,
        ← List.map_append] at hids
      exact hids.1 (heq ▸ List.mem_map_of_mem he')
    rw [ha.get?_of_ne hne]
    exact ih.notLive e' (hdrop.mem he')

/-- An element that is tried again is one that was seen. -/
theorem mem_of_retry {before after : List Element}
    (h : Sweeps scene locked p₀ seen (before ++ e :: after) p) : e ∈ seen :=
  h.queued.sublist.mem (List.mem_append_right _ (List.mem_cons_self ..))

/-- An element waits only once, so none of it is left in the queue when it is tried again. -/
theorem mem_rest_iff {before after : List Element}
    (h : Sweeps scene locked p₀ seen (before ++ e :: after) p) {e' : Element} :
    e' ∈ before ++ after ↔ e' ∈ before ++ e :: after ∧ e' ≠ e := by
  have hperm : (before ++ e :: after).Perm (e :: (before ++ after)) := List.perm_middle
  have hwaiting := h.queued.sublist.nodup (List.Nodup.of_map _ h.queued.nodup)
  have hnew : e ∉ before ++ after := (List.nodup_cons.1 (hperm.nodup_iff.1 hwaiting)).1
  rw [hperm.mem_iff, List.mem_cons]
  constructor
  · intro hmem
    exact ⟨.inr hmem, fun heq => hnew (heq ▸ hmem)⟩
  · rintro ⟨hmem, hne⟩
    exact hmem.resolve_left hne

/-- Elements that wait change nothing, so what every act on an element of the scene keeps, the whole
course of a pass keeps. -/
@[elab_as_elim]
theorem acts_induction {motive : Pass → Prop} (h : Sweeps scene locked p₀ seen waiting p)
    (start : motive p₀)
    (act : ∀ {seen waiting p q e}, Sweeps scene locked p₀ seen waiting p → e ∈ scene.elements →
      Acts locked p e q → motive p → motive q) : motive p := by
  induction h with
  | start => exact start
  | wait h he hseen hnew ih => exact ih
  | visit h he hseen ha ih => exact act h he ha ih
  | retry h ha ih => exact act h (h.queued.subset h.mem_of_retry) ha ih

theorem linked (h : Sweeps scene locked p₀ seen waiting p) (hp₀ : Linked scene locked p₀) :
    Linked scene locked p :=
  h.acts_induction hp₀ fun _ he ha hp => ha.linked he hp

theorem settings (h : Sweeps scene locked p₀ seen waiting p) :
    p.graph.defaults = p₀.graph.defaults ∧ p.canvas.refusing = p₀.canvas.refusing := by
  refine h.acts_induction ⟨rfl, rfl⟩ fun _ _ ha hp => ?_
  exact ⟨ha.settings.1.trans hp.1, ha.settings.2.trans hp.2⟩

/-- The canvas never meets an unknown handle. -/
theorem known (h : Sweeps scene locked p₀ seen waiting p)
    (hp₀ : ∀ w ∈ p₀.warnings, ∀ i, w.2 ≠ .unknownHandle i) :
    ∀ w ∈ p.warnings, ∀ i, w.2 ≠ .unknownHandle i :=
  h.acts_induction hp₀ fun _ _ ha hp => ha.known hp

/-! ## The computation is such a course -/

/-- The visits, one after the other. -/
theorem foldl_visit (hp₀ : Linked scene locked p₀) (hscene : scene.Consistent)
    {rest : List Element} (hrest : rest ⊆ scene.elements)
    (hnodup : ((seen ++ rest).map Element.id).Nodup)
    (h : Sweeps scene locked p₀ seen waiting p) :
    Sweeps scene locked p₀ (seen ++ rest) (rest.foldl (Pass.visit locked) (p, waiting)).2
      (rest.foldl (Pass.visit locked) (p, waiting)).1 := by
  -- on the elements to visit, each of which goes to the end of those that were seen
  induction rest generalizing seen waiting p with
  | nil => rwa [List.append_nil]
  | cons e rest ih =>
    have he : e ∈ scene.elements := hrest (List.mem_cons_self ..)
    have hseen : e.id ∉ seen.map Element.id := by
      rw [List.map_append, List.map_cons, List.nodup_middle, List.nodup_cons] at hnodup
      exact fun hmem => hnodup.1 (List.mem_append_left _ hmem)
    rw [List.append_cons] at hnodup ⊢
    have hlinked := h.linked hp₀
    have hnext : Sweeps scene locked p₀ (seen ++ [e]) (Pass.visit locked (p, waiting) e).2
        (Pass.visit locked (p, waiting) e).1 := by
      unfold Pass.visit
      split
      · next hnew =>
        unfold attempt
        split
        · next q hq =>
          exact .visit h he hseen (.draws hnew (draws_of_create? hlinked.onCanvas hq))
        · exact .wait h he hseen hnew
      · next o ho =>
        split
        · next hl => exact .visit h he hseen (.skips hl ho)
        · next hl =>
          rcases hlinked.fits e.id o ho with ⟨e', he', hid, hf⟩
          have heq := hscene.eq_of_id_eq he' he hid
          subst heq
          rcases updated_of_fits hlinked.onCanvas ho (hf hl) with ⟨o', d, d', hu⟩
          exact .visit h he hseen (.updates hl ho (hf hl) hu)
    exact ih (List.cons_subset.1 hrest).2 hnodup hnext

/-- A round of further tries: the elements of `rest` are tried, those of `before` were. -/
theorem foldl_attempt (hp₀ : Linked scene locked p₀) {before rest : List Element}
    (h : Sweeps scene locked p₀ seen (before ++ rest) p) :
    Sweeps scene locked p₀ seen (rest.foldl attempt (p, before)).2
      (rest.foldl attempt (p, before)).1 := by
  induction rest generalizing before p with
  | nil => rwa [List.append_nil] at h
  | cons e rest ih =>
    rw [List.foldl_cons, attempt]
    split
    · next q hq =>
      have hnew : p.graph.get? e.id = none :=
        h.queued.notLive e (List.mem_append_right _ (List.mem_cons_self ..))
      exact ih (.retry h (.draws hnew (draws_of_create? (h.linked hp₀).onCanvas hq)))
    · rw [List.append_cons] at h
      exact ih h

end Sweeps

/-- A round that leaves as many elements as it found has drawn none. -/
theorem foldl_attempt_length (p : Pass) (before rest : List Element) :
    (rest.foldl attempt (p, before)).2.length ≤ before.length + rest.length ∧
    ((rest.foldl attempt (p, before)).2.length = before.length + rest.length →
      (rest.foldl attempt (p, before)).1 = p ∧
      (rest.foldl attempt (p, before)).2 = before ++ rest ∧
      ∀ e ∈ rest, p.create? e = none) := by
  induction rest generalizing before p with
  | nil => simp
  | cons e rest ih =>
    rw [List.foldl_cons, attempt, List.length_cons]
    split
    · next q hq =>
      rcases ih q before with ⟨hle, -⟩
      dsimp only
      exact ⟨by omega, fun heq => by omega⟩
    · next hnone =>
      rcases ih p (before ++ [e]) with ⟨hle, heq⟩
      rw [List.length_append, List.length_singleton] at hle heq
      refine ⟨by dsimp only; omega, fun hlen => ?_⟩
      rcases heq (by dsimp only at hlen; omega) with ⟨hp, hwait, hall⟩
      refine ⟨hp, hwait.trans (List.append_cons ..).symm, fun e' he' => ?_⟩
      rcases List.mem_cons.1 he' with rfl | he'
      · exact hnone
      · exact hall e' he'

/-- The rounds end with elements that cannot be drawn. -/
theorem settle_sweeps (hp₀ : Linked scene locked p₀) {n : Nat} (hn : waiting.length ≤ n)
    (h : Sweeps scene locked p₀ seen waiting p) :
    Sweeps scene locked p₀ seen (p.settle waiting n).2 (p.settle waiting n).1 ∧
      ∀ e ∈ (p.settle waiting n).2, (p.settle waiting n).1.create? e = none := by
  induction n generalizing waiting p with
  | zero =>
    have hnil := List.length_eq_zero_iff.1 (Nat.le_zero.1 hn)
    subst hnil
    exact ⟨h, by simp [settle]⟩
  | succ n ih =>
    unfold settle
    split
    · exact ⟨h, by simp⟩
    · have hround : Sweeps scene locked p₀ seen (waiting.foldl attempt (p, [])).2
          (waiting.foldl attempt (p, [])).1 := Sweeps.foldl_attempt hp₀ h
      rcases foldl_attempt_length p [] waiting with ⟨hle, heq⟩
      rw [List.length_nil, Nat.zero_add] at hle heq
      dsimp only
      split
      · next hlen =>
        rcases heq hlen with ⟨hp, hwait, hall⟩
        rw [hp, hwait]
        exact ⟨h, hall⟩
      · next hlen => exact ih (by omega) hround

end Sweeps

section Run

variable {g : LiveGraph} {scene : Scene} {c : Canvas} {locked : Option ElementId}

/-- After the teardown the graph is linked, and what is live fits its element. -/
theorem linked_removeStale (locked : Option ElementId) (hg : g.OnCanvas c)
    (hscene : scene.Consistent) :
    Linked scene locked (removeStale scene locked (start g c)) := by
  have hstart : (start g c).graph.OnCanvas (start g c).canvas := hg.alike (Canvas.alike_suspend c)
  refine ⟨onCanvas_removeStale hstart (Nat.succ_pos _), fun id o ho => ?_⟩
  have hstale := isStale_removeStale hstart (Nat.succ_pos _) ho
  unfold isStale at hstale
  split at hstale
  · cases hstale
  · next e he =>
    rcases hscene.get?_eq_some_iff.1 he with ⟨hmem, hid⟩
    refine ⟨e, hmem, hid, fun hl => fits_of_structurallyChanged ?_⟩
    simpa [hl] using hstale

/-- A pass is such a course over all elements, at whose end none that waits can be drawn. -/
theorem run_sweeps (locked : Option ElementId) (hg : g.OnCanvas c)
    (hscene : scene.Consistent) :
    ∃ p deferred seen, run g scene c locked = p.finish deferred ∧ seen.Perm scene.elements ∧
      Sweeps scene locked (removeStale scene locked (start g c)) seen deferred p ∧
      ∀ e ∈ deferred, p.create? e = none := by
  have hlinked := linked_removeStale locked hg hscene
  have hperm := byClass_perm scene.elements
  have hnodup : (([] ++ byClass scene.elements).map Element.id).Nodup :=
    (hperm.map Element.id).nodup_iff.2 hscene.ids_nodup
  have hvisits := Sweeps.foldl_visit hlinked hscene hperm.subset hnodup .start
  rcases settle_sweeps hlinked (Nat.le_refl _) hvisits with ⟨hrounds, hstuck⟩
  exact ⟨_, _, _, rfl, hperm, hrounds, hstuck⟩

end Run

end Pass

end Chalkboard
