import Mathlib.Data.List.Perm.Subperm
import Chalkboard.Proofs.Scene.Changes

/-!
# What depends on an element

`Scene.closure` gathers dependents layer by layer. The layers that it may take suffice: whoever
refers to an element of the closure belongs to it (`Scene.Consistent.mem_closure_of_refers`). So
deleting a closure leaves no reference behind.
-/

namespace Chalkboard

namespace Scene

variable {s : Scene}

theorem mem_dependents {id r : ElementId} :
    id ∈ s.dependents r ↔ ∃ e ∈ s.elements, e.id = id ∧ r ∈ e.refs := by
  simp only [dependents, List.mem_map, List.mem_filter, Element.references,
    List.contains_eq_mem, decide_eq_true_eq]
  constructor
  · rintro ⟨e, ⟨he, hr⟩, hid⟩
    exact ⟨e, he, hid, hr⟩
  · rintro ⟨e, he, hid, hr⟩
    exact ⟨e, ⟨he, hr⟩, hid⟩

/-! ## New ids -/

theorem mem_fresh {seen ids : List ElementId} {id : ElementId} :
    id ∈ fresh seen ids ↔ id ∈ ids ∧ id ∉ seen := by
  induction ids generalizing seen with
  | nil => simp [fresh]
  | cons first rest ih =>
    rw [fresh]
    split
    · next hold =>
      have hold : first ∈ seen := by simpa using hold
      rw [ih, List.mem_cons]
      constructor
      · intro h
        exact ⟨.inr h.1, h.2⟩
      · rintro ⟨rfl | hrest, hnew⟩
        · exact absurd hold hnew
        · exact ⟨hrest, hnew⟩
    · next hnew =>
      have hnew : first ∉ seen := by simpa using hnew
      rw [List.mem_cons, ih, List.mem_cons, List.mem_cons, not_or]
      constructor
      · rintro (rfl | ⟨hrest, -, hid⟩)
        · exact ⟨.inl rfl, hnew⟩
        · exact ⟨.inr hrest, hid⟩
      · rintro ⟨hmem, hid⟩
        by_cases hfirst : id = first
        · exact .inl hfirst
        · exact .inr ⟨hmem.resolve_left hfirst, hfirst, hid⟩

theorem nodup_fresh (seen ids : List ElementId) : (fresh seen ids).Nodup := by
  induction ids generalizing seen with
  | nil => exact List.nodup_nil
  | cons first rest ih =>
    rw [fresh]
    split
    · exact ih seen
    · refine List.nodup_cons.2 ⟨?_, ih _⟩
      intro hmem
      exact (mem_fresh.1 hmem).2 (List.mem_cons_self ..)

theorem nodup_append_fresh {seen : List ElementId} (h : seen.Nodup) (ids : List ElementId) :
    (seen ++ fresh seen ids).Nodup := by
  refine h.append (nodup_fresh ..) ?_
  intro id hold hnew
  exact (mem_fresh.1 hnew).2 hold

/-! ## Layers -/

/-- The next layer consists of ids of the scene. -/
theorem append_fresh_subset {seen : List ElementId} (h : seen ⊆ s.elements.map Element.id)
    (layer : List ElementId) :
    seen ++ fresh seen (layer.flatMap s.dependents) ⊆ s.elements.map Element.id := by
  refine List.append_subset.2 ⟨h, ?_⟩
  intro id hid
  obtain ⟨r, -, hr⟩ := List.mem_flatMap.1 (mem_fresh.1 hid).1
  obtain ⟨e, he, rfl, -⟩ := mem_dependents.1 hr
  exact List.mem_map_of_mem he

/-- Once as many ids were seen as there are elements, all were. -/
theorem ids_subset_of_length_le {seen : List ElementId} (hseen : seen ⊆ s.elements.map Element.id)
    (hnodup : seen.Nodup) (hlength : s.elements.length ≤ seen.length) :
    s.elements.map Element.id ⊆ seen := by
  have hperm := (hnodup.subperm hseen).perm_of_length_le (by rwa [List.length_map])
  exact hperm.symm.subset

/-- The layers start with the first one. -/
theorem layersFrom_eq_append (s : Scene) (seen layer : List ElementId) (n : Nat) :
    ∃ rest, s.layersFrom seen layer n = layer ++ rest := by
  cases n with
  | zero => exact ⟨[], (List.append_nil _).symm⟩
  | succ n =>
    rw [layersFrom]
    split
    · exact ⟨[], (List.append_nil _).symm⟩
    · exact ⟨_, rfl⟩

theorem layer_subset (s : Scene) (seen layer : List ElementId) (n : Nat) :
    layer ⊆ s.layersFrom seen layer n := by
  obtain ⟨rest, hrest⟩ := layersFrom_eq_append s seen layer n
  rw [hrest]
  exact List.subset_append_left ..

/-- The layers that are left suffice: a dependent of a layer was seen or follows in one of them.
Each layer but the last has an id that was not seen before, so there are no more than ids. -/
theorem mem_layersFrom_of_refers {seen layer : List ElementId} {n : Nat}
    (hlayer : layer ⊆ seen) (hseen : seen ⊆ s.elements.map Element.id) (hnodup : seen.Nodup)
    (hn : s.elements.length ≤ n + seen.length) {id r : ElementId}
    (hr : r ∈ s.layersFrom seen layer n) (hid : id ∈ s.dependents r) :
    id ∈ seen ∨ id ∈ s.layersFrom seen layer n := by
  induction n generalizing seen layer with
  | zero =>
    have hall := ids_subset_of_length_le hseen hnodup (by omega)
    obtain ⟨e, he, rfl, -⟩ := mem_dependents.1 hid
    exact .inl (hall (List.mem_map_of_mem he))
  | succ n ih =>
    have hnext : ∀ {i}, i ∈ layer → id ∈ s.dependents i →
        id ∈ seen ∨ id ∈ fresh seen (layer.flatMap s.dependents) := by
      intro i hi hmem
      by_cases hold : id ∈ seen
      · exact .inl hold
      · exact .inr (mem_fresh.2 ⟨List.mem_flatMap.2 ⟨i, hi, hmem⟩, hold⟩)
    rw [layersFrom] at hr ⊢
    split at hr
    · next hnone =>
      rw [hnone] at hnext
      exact .inl ((hnext hr hid).resolve_right List.not_mem_nil)
    · next hne =>
      have hmore := append_fresh_subset hseen layer
      have hmoreNodup := nodup_append_fresh hnodup (layer.flatMap s.dependents)
      generalize fresh seen (layer.flatMap s.dependents) = next at hne hr hnext hmore hmoreNodup ⊢
      -- one layer fewer is left, and at least one id more was seen
      have hpos : 0 < next.length := List.length_pos_iff.2 hne
      have hlength : s.elements.length ≤ n + (seen ++ next).length := by
        rw [List.length_append]
        omega
      rcases List.mem_append.1 hr with hr | hr
      · rcases hnext hr hid with hold | hnew
        · exact .inl hold
        · exact .inr (List.mem_append_right _ (layer_subset s _ _ n hnew))
      · rcases ih (List.subset_append_right ..) hmore hmoreNodup hlength hr with hold | hlater
        · rcases List.mem_append.1 hold with hold | hnew
          · exact .inl hold
          · exact .inr (List.mem_append_right _ (layer_subset s _ _ n hnew))
        · exact .inr (List.mem_append_right _ hlater)

/-! ## The closure -/

theorem closure_of_contains {root : ElementId} (hroot : s.contains root = true) :
    s.closure root = s.layersFrom [root] [root] s.size :=
  if_pos hroot

theorem closure_of_not_contains {root : ElementId} (hroot : s.contains root = false) :
    s.closure root = [] :=
  if_neg (by simp [hroot])

/-- The search starts with an id of the scene. -/
theorem Consistent.singleton_subset (hs : s.Consistent) {root : ElementId}
    (hroot : s.contains root = true) : [root] ⊆ s.elements.map Element.id := by
  obtain ⟨e, he, hid⟩ := hs.contains_iff.1 hroot
  exact List.cons_subset.2 ⟨hid ▸ List.mem_map_of_mem he, List.nil_subset _⟩

/-- What refers to an element of a closure belongs to the closure. -/
theorem Consistent.mem_closure_of_refers (hs : s.Consistent) {root r : ElementId} {e : Element}
    (hr : r ∈ s.closure root) (he : e ∈ s.elements) (href : r ∈ e.refs) :
    e.id ∈ s.closure root := by
  cases hroot : s.contains root with
  | false =>
    rw [closure_of_not_contains hroot] at hr
    cases hr
  | true =>
    rw [closure_of_contains hroot] at hr ⊢
    have hdependent : e.id ∈ s.dependents r := mem_dependents.2 ⟨e, he, rfl, href⟩
    rcases mem_layersFrom_of_refers (List.Subset.refl _) (hs.singleton_subset hroot)
      (List.nodup_singleton _) (by rw [size, List.length_singleton]; omega) hr hdependent with
      hmem | hmem
    · exact layer_subset s _ _ _ hmem
    · exact hmem

end Scene

end Chalkboard
