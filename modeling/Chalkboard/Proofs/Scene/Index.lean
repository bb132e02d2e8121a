import Mathlib.Data.List.Nodup
import Chalkboard.Scene.Basic

/-!
# The index of a scene

A scene is consistent if its index gives exactly the places of its elements. It follows that no two
elements share an id, and that looking up an id finds exactly the element that has it. A list of
elements with distinct ids makes a consistent scene.
-/

namespace Chalkboard

namespace Scene

/-- The index gives exactly the places of the elements. -/
def Consistent (s : Scene) : Prop :=
  ∀ id i, s.index[id]? = some i ↔ ∃ e : Element, s.elements[i]? = some e ∧ e.id = id

namespace Consistent

variable {s : Scene}

/-- Two elements with one id are one element at one place. -/
theorem ids_nodup (hs : s.Consistent) : (s.elements.map Element.id).Nodup := by
  rw [List.nodup_iff_getElem?_ne_getElem?]
  intro i j hij hj heq
  rw [List.length_map] at hj
  have hi : i < s.elements.length := Nat.lt_trans hij hj
  simp only [List.getElem?_map, List.getElem?_eq_getElem hi, List.getElem?_eq_getElem hj,
    Option.map_some, Option.some.injEq] at heq
  have h1 := (hs s.elements[j].id i).2 ⟨_, List.getElem?_eq_getElem hi, heq⟩
  have h2 := (hs s.elements[j].id j).2 ⟨_, List.getElem?_eq_getElem hj, rfl⟩
  rw [h1, Option.some.injEq] at h2
  omega

theorem get?_eq_some_iff (hs : s.Consistent) {id : ElementId} {e : Element} :
    s.get? id = some e ↔ e ∈ s.elements ∧ e.id = id := by
  rw [get?, Option.bind_eq_some_iff]
  constructor
  · rintro ⟨i, hi, he⟩
    rcases (hs id i).1 hi with ⟨e', he', hid⟩
    rw [he, Option.some.injEq] at he'
    exact ⟨List.mem_of_getElem? he, he' ▸ hid⟩
  · rintro ⟨hmem, hid⟩
    rcases List.getElem?_of_mem hmem with ⟨i, hi⟩
    exact ⟨i, (hs id i).2 ⟨e, hi, hid⟩, hi⟩

/-- Two elements with one id are the same. -/
theorem eq_of_id_eq (hs : s.Consistent) {e e' : Element} (he : e ∈ s.elements)
    (he' : e' ∈ s.elements) (hid : e.id = e'.id) : e = e' := by
  have h := hs.get?_eq_some_iff.2 ⟨he, hid⟩
  have h' := hs.get?_eq_some_iff.2 ⟨he', rfl⟩
  exact Option.some.inj (h.symm.trans h')

/-- What holds of some element with the id of `e` holds of `e`. -/
theorem exists_id_iff (hs : s.Consistent) {e : Element} (he : e ∈ s.elements)
    {P : Element → Prop} : (∃ e' ∈ s.elements, e'.id = e.id ∧ P e') ↔ P e := by
  constructor
  · rintro ⟨e', he', hid, h⟩
    exact hs.eq_of_id_eq he' he hid ▸ h
  · intro h
    exact ⟨e, he, rfl, h⟩

end Consistent

/-! ## Building an index -/

/-- Indexing more elements adds their places, and forgets the old places of their ids. -/
theorem getElem?_foldl_insert (elements : List Element) (hids : (elements.map Element.id).Nodup)
    (start : Nat) (index : Std.HashMap ElementId Nat) (id : ElementId) (i : Nat) :
    ((elements.zipIdx start).foldl (fun index (e, i) => index.insert e.id i) index)[id]? = some i ↔
      (∃ (j : Nat) (e : Element), elements[j]? = some e ∧ e.id = id ∧ i = start + j) ∨
        id ∉ elements.map Element.id ∧ index[id]? = some i := by
  induction elements generalizing start index with
  | nil => simp
  | cons e elements ih =>
    rcases List.nodup_cons.1 hids with ⟨hnew, hids⟩
    rw [List.zipIdx_cons, List.foldl_cons, ih hids, Std.HashMap.getElem?_insert]
    -- the first element hides older entries of its id, and no later element has that id
    constructor
    · rintro (⟨j, e', he', hid, rfl⟩ | ⟨hid, hi⟩)
      · exact .inl ⟨j + 1, e', he', hid, by omega⟩
      · by_cases heq : e.id = id
        · rw [if_pos (beq_iff_eq.2 heq), Option.some.injEq] at hi
          exact .inl ⟨0, e, rfl, heq, hi.symm⟩
        · rw [if_neg (by simpa using heq)] at hi
          refine .inr ⟨?_, hi⟩
          rw [List.map_cons, List.mem_cons]
          exact fun h => h.elim (fun h => heq h.symm) hid
    · rintro (⟨j, e', he', hid, rfl⟩ | ⟨hid, hi⟩)
      · cases j with
        | zero =>
          simp only [List.getElem?_cons_zero, Option.some.injEq] at he'
          subst he'
          subst hid
          exact .inr ⟨hnew, by simp⟩
        | succ j =>
          exact .inl ⟨j, e', by simpa using he', hid, by omega⟩
      · rw [List.map_cons, List.mem_cons, not_or] at hid
        refine .inr ⟨hid.2, ?_⟩
        rw [if_neg (by simpa using Ne.symm hid.1)]
        exact hi

/-- Elements with distinct ids make a consistent scene. -/
theorem consistent_indexOf {elements : List Element} (hids : (elements.map Element.id).Nodup)
    (revision : Nat) : Consistent ⟨elements, indexOf elements, revision⟩ := by
  intro id i
  have h := getElem?_foldl_insert elements hids 0 ∅ id i
  rw [indexOf, h]
  constructor
  · rintro (⟨j, e, he, hid, rfl⟩ | ⟨-, hi⟩)
    · exact ⟨e, by rwa [Nat.zero_add], hid⟩
    · simp at hi
  · rintro ⟨e, he, hid⟩
    exact .inl ⟨i, e, he, hid, (Nat.zero_add i).symm⟩

end Scene

end Chalkboard
