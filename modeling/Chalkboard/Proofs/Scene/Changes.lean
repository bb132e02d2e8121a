import Chalkboard.Proofs.Scene.Index

/-!
# Changes of a scene

Every change keeps a consistent scene consistent: replacing all elements, adding one under a new
id, changing one in place, and deleting one with all that depends on it. `Scene.setPosition_cases`
says when a point can be moved, and where it is then.
-/

namespace Chalkboard

namespace Scene

variable {s s' : Scene}

theorem consistent_empty : empty.Consistent := by
  intro id i
  simp [empty]

namespace Consistent

/-- A scene contains exactly the ids that it has an element for. -/
theorem contains_iff (hs : s.Consistent) {id : ElementId} :
    s.contains id = true ↔ ∃ e ∈ s.elements, e.id = id := by
  rw [contains, ← Std.HashMap.isSome_getElem?_eq_contains, Option.isSome_iff_exists]
  constructor
  · rintro ⟨i, hi⟩
    obtain ⟨e, he, hid⟩ := (hs id i).1 hi
    exact ⟨e, List.mem_of_getElem? he, hid⟩
  · rintro ⟨e, he, hid⟩
    obtain ⟨i, hi⟩ := List.getElem?_of_mem he
    exact ⟨i, (hs id i).2 ⟨e, hi, hid⟩⟩

/-! ## All elements at once -/

/-- A list in which no id is repeated, or seen before, has distinct ids. -/
theorem nodup_of_firstRepeated? {seen ids : List ElementId} (h : firstRepeated? seen ids = none) :
    ids.Nodup ∧ ∀ id ∈ ids, id ∉ seen := by
  induction ids generalizing seen with
  | nil => simp
  | cons id rest ih =>
    rw [firstRepeated?] at h
    split at h
    · cases h
    · next hnew =>
      obtain ⟨hnodup, hrest⟩ := ih h
      refine ⟨List.nodup_cons.2 ⟨fun hmem => ?_, hnodup⟩, fun id' hmem => ?_⟩
      · exact hrest id hmem (List.mem_cons_self ..)
      · rcases List.mem_cons.1 hmem with rfl | hmem
        · simpa using hnew
        · exact fun hseen => hrest id' hmem (List.mem_cons_of_mem _ hseen)

/-- No id is repeated among distinct ones that were not seen before. -/
theorem firstRepeated?_eq_none {seen ids : List ElementId} (hnodup : ids.Nodup)
    (hnew : ∀ id ∈ ids, id ∉ seen) : firstRepeated? seen ids = none := by
  induction ids generalizing seen with
  | nil => rfl
  | cons id rest ih =>
    obtain ⟨hid, hrest⟩ := List.nodup_cons.1 hnodup
    rw [firstRepeated?, if_neg (by simpa using hnew id (List.mem_cons_self ..))]
    refine ih hrest fun id' hmem hseen => ?_
    rcases List.mem_cons.1 hseen with rfl | hseen
    · exact hid hmem
    · exact hnew id' (List.mem_cons_of_mem _ hmem) hseen

theorem replaceAll {elements : List Element} (h : s.replaceAll elements = .ok s') :
    s'.Consistent := by
  rw [Scene.replaceAll] at h
  split at h
  · cases h
  · next hnone =>
    cases h
    exact consistent_indexOf (nodup_of_firstRepeated? hnone).1 _

/-- The elements of a consistent scene may take their own place. -/
theorem replaceAll_elements (hs : s.Consistent) :
    s.replaceAll s.elements = .ok ⟨s.elements, indexOf s.elements, s.revision + 1⟩ := by
  have hnone : firstRepeated? [] (s.elements.map Element.id) = none :=
    firstRepeated?_eq_none hs.ids_nodup fun _ _ => List.not_mem_nil
  rw [Scene.replaceAll, hnone]

/-! ## One element -/

/-- An element under a new id goes to the end. -/
theorem push (hs : s.Consistent) {e : Element} (hnew : s.contains e.id = false) :
    (s.push e).Consistent := by
  have hfresh : ∀ e' ∈ s.elements, e'.id ≠ e.id := by
    intro e' he' hid
    have hcontains := hs.contains_iff.2 ⟨e', he', hid⟩
    rw [hnew] at hcontains
    cases hcontains
  intro id i
  simp only [Scene.push, Std.HashMap.getElem?_insert, beq_iff_eq]
  by_cases hid : e.id = id
  · rw [if_pos hid, Option.some.injEq]
    constructor
    · rintro rfl
      exact ⟨e, by simp, hid⟩
    · rintro ⟨e', he', hid'⟩
      -- an older element has another id
      rcases Nat.lt_or_ge i s.elements.length with hi | hi
      · rw [List.getElem?_append_left hi] at he'
        exact absurd (hid'.trans hid.symm) (hfresh e' (List.mem_of_getElem? he'))
      · have hlt := (List.getElem?_eq_some_iff.1 he').1
        rw [List.length_append, List.length_singleton] at hlt
        omega
  · rw [if_neg hid, hs id i]
    constructor
    · rintro ⟨e', he', hid'⟩
      have hi := (List.getElem?_eq_some_iff.1 he').1
      exact ⟨e', by rw [List.getElem?_append_left hi, he'], hid'⟩
    · rintro ⟨e', he', hid'⟩
      rcases Nat.lt_or_ge i s.elements.length with hi | hi
      · rw [List.getElem?_append_left hi] at he'
        exact ⟨e', he', hid'⟩
      · rw [List.getElem?_append_right hi] at he'
        have he' := List.mem_singleton.1 (List.mem_of_getElem? he')
        subst he'
        exact absurd hid' hid

end Consistent

/-- Changing an element succeeds if there is one with the id and its change succeeds. -/
theorem update_eq_ok_iff {id : ElementId} {f : Element → Except SceneError Element} :
    s.update id f = .ok s' ↔ ∃ i e e', s.index[id]? = some i ∧ s.elements[i]? = some e ∧
      f e = .ok e' ∧
        s' = { s with elements := s.elements.set i e', revision := s.revision + 1 } := by
  rw [update]
  cases hi : s.index[id]? with
  | none => simp
  | some i =>
    cases he : s.elements[i]? with
    | none => simp [he]
    | some e =>
      cases hf : f e with
      | error error => simp [he, hf, bind, Except.bind]
      | ok e' => simp [he, hf, bind, Except.bind, pure, Except.pure, eq_comm]

namespace Consistent

/-- An element may change in place as long as it keeps its id. -/
theorem set (hs : s.Consistent) {i : Nat} {e e' : Element} (he : s.elements[i]? = some e)
    (hid : e'.id = e.id) (revision : Nat) :
    Consistent ⟨s.elements.set i e', s.index, revision⟩ := by
  intro id j
  have hi := (List.getElem?_eq_some_iff.1 he).1
  rw [hs id j]
  by_cases hij : i = j
  · subst hij
    rw [he, List.getElem?_set_self hi]
    simp [hid]
  · simp only [List.getElem?_set_ne hij]

theorem update (hs : s.Consistent) {id : ElementId} {f : Element → Except SceneError Element}
    (hf : ∀ e e', f e = .ok e' → e'.id = e.id) (h : s.update id f = .ok s') :
    s'.Consistent := by
  obtain ⟨i, e, e', hi, he, hfe, rfl⟩ := update_eq_ok_iff.1 h
  exact hs.set he (hf e e' hfe) _

/-! ## Deleting -/

theorem deleteCascade (hs : s.Consistent) {id : ElementId} {doomed : List ElementId}
    (h : s.deleteCascade id = .ok (s', doomed)) : s'.Consistent := by
  rw [Scene.deleteCascade] at h
  split at h
  · cases h
  · cases h
    exact consistent_indexOf ((List.filter_sublist.map Element.id).nodup hs.ids_nodup) _

/-- Every change that is asked for keeps a scene consistent. -/
theorem apply (hs : s.Consistent) {m : Mutation} (h : s.apply m = .ok s') : s'.Consistent := by
  cases m with
  | movePoint id x y =>
    refine hs.update (fun e e' he => ?_) h
    split at he
    · cases he
      rfl
    · cases he
  | setVisibility id visible =>
    refine hs.update (fun e e' he => ?_) h
    cases he
    rfl
  | delete id =>
    rw [Scene.apply] at h
    cases hd : s.deleteCascade id with
    | error error =>
      rw [hd] at h
      cases h
    | ok result =>
      rw [hd] at h
      cases h
      exact hs.deleteCascade hd

end Consistent

/-! ## Moving a point -/

/-- Exactly the free points can be moved, and the element has the new coordinates then. -/
theorem setPosition_cases (s : Scene) (id : ElementId) (x y : Float) :
    (∃ s' e, s.setPosition id x y = .ok s' ∧ s.get? id = some e ∧ e.position?.isSome = true ∧
      s'.get? id = some { e with parents := [.number x, .number y] }) ∨
    ((∀ e, s.get? id = some e → e.position? = none) ∧
      ∃ error, s.setPosition id x y = .error error) := by
  cases h : s.setPosition id x y with
  | ok s' =>
    obtain ⟨i, e, e', hi, he, hf, rfl⟩ := update_eq_ok_iff.1 h
    split at hf
    · next hfree =>
      cases hf
      have hlt := (List.getElem?_eq_some_iff.1 he).1
      refine .inl ⟨_, e, rfl, ?_, hfree, ?_⟩
      · rw [get?, hi, Option.bind_some, he]
      · rw [get?, hi, Option.bind_some, List.getElem?_set_self hlt]
    · cases hf
  | error error =>
    refine .inr ⟨fun e he => ?_, error, rfl⟩
    obtain ⟨i, hi, hie⟩ := Option.bind_eq_some_iff.1 he
    by_contra hfree
    -- a free point would have been moved
    have hfree := Option.isSome_iff_ne_none.2 hfree
    have hmoved : s.setPosition id x y = .ok _ :=
      update_eq_ok_iff.2 ⟨i, e, _, hi, hie, if_pos hfree, rfl⟩
    rw [hmoved] at h
    cases h

end Scene

end Chalkboard
