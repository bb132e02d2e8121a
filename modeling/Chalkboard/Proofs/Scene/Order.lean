import Mathlib.Logic.Relation
import Chalkboard.Proofs.Scene.Closure

/-!
# Scenes made by checked changes

Every change but replacing all elements at once checks what it is given. In a scene that only such
changes have made (`Scene.Checked`), failed ones among them, each element refers only to elements
that stand before it (`Scene.Checked.grounded`). So there is no reference to a missing element
(`Scene.Grounded.contains_ref`), and no element refers to itself through others
(`Scene.Grounded.acyclic`).
-/

namespace Chalkboard

/-- The changes that check what they are given. -/
inductive SceneChange where
  | insert (e : Element)
  | placePoint (candidates : Nat → ElementId) (x y : Float)
  | setPosition (id : ElementId) (x y : Float)
  | setVisibility (id : ElementId) (visible : Bool)
  | deleteCascade (id : ElementId)
  | apply (m : Mutation)
  | clear

/-- The candidates for the id of a new point are all different. -/
def SceneChange.Valid : SceneChange → Prop
  | .placePoint candidates _ _ => Function.Injective candidates
  | _ => True

namespace Scene

/-- The scene after a change. One that fails changes nothing. -/
def change (s : Scene) : SceneChange → Scene
  | .insert e => (s.insert e).toOption.getD s
  | .placePoint candidates x y => (s.placePoint candidates x y).1
  | .setPosition id x y => (s.setPosition id x y).toOption.getD s
  | .setVisibility id visible => (s.setVisibility id visible).toOption.getD s
  | .deleteCascade id => ((s.deleteCascade id).map Prod.fst).toOption.getD s
  | .apply m => (s.apply m).toOption.getD s
  | .clear => s.clear

/-- The scenes that checked changes lead to. -/
inductive Checked : Scene → Prop
  | empty : Checked .empty
  | change {s : Scene} (h : Checked s) {c : SceneChange} (hc : c.Valid) : Checked (s.change c)

/-! ## Elements in order -/

/-- Each element refers only to elements that stand before it. -/
inductive Ordered : List Element → Prop
  | nil : Ordered []
  | snoc {elements : List Element} {e : Element} (h : Ordered elements)
      (hrefs : ∀ r ∈ e.refs, r ∈ elements.map Element.id) : Ordered (elements ++ [e])

namespace Ordered

variable {elements : List Element}

/-- The place of what an element refers to is before its own. -/
theorem earlier (h : Ordered elements) {i : Nat} {e : Element} (he : elements[i]? = some e)
    {r : ElementId} (hr : r ∈ e.refs) : ∃ j p, j < i ∧ elements[j]? = some p ∧ p.id = r := by
  induction h with
  | nil => cases he
  | @snoc elements last h hrefs ih =>
    rcases Nat.lt_or_ge i elements.length with hi | hi
    · rw [List.getElem?_append_left hi] at he
      obtain ⟨j, p, hj, hp, hid⟩ := ih he
      exact ⟨j, p, hj, by rw [List.getElem?_append_left (by omega), hp], hid⟩
    · have hlast : last = e := by
        rw [List.getElem?_append_right hi] at he
        exact (List.mem_singleton.1 (List.mem_of_getElem? he)).symm
      subst hlast
      obtain ⟨p, hp, hid⟩ := List.mem_map.1 (hrefs r hr)
      obtain ⟨j, hj⟩ := List.getElem?_of_mem hp
      have hlt : j < elements.length := (List.getElem?_eq_some_iff.1 hj).1
      exact ⟨j, p, by omega, by rw [List.getElem?_append_left hlt, hj], hid⟩

/-- Elements may go as long as what the others refer to stays. -/
theorem filter (h : Ordered elements) {keep : Element → Bool}
    (hclosed : ∀ e ∈ elements, keep e = true → ∀ p ∈ elements, p.id ∈ e.refs → keep p = true) :
    Ordered (elements.filter keep) := by
  induction h with
  | nil => exact .nil
  | @snoc elements last h hrefs ih =>
    have hbefore : ∀ {e}, e ∈ elements → e ∈ elements ++ [last] := List.mem_append_left _
    have hlast : last ∈ elements ++ [last] :=
      List.mem_append_right _ (List.mem_singleton_self last)
    have hrest : Ordered (elements.filter keep) := by
      apply ih
      intro e he hkeep p hp hr
      exact hclosed e (hbefore he) hkeep p (hbefore hp) hr
    rw [List.filter_append]
    cases hkeep : keep last with
    | false => simpa [hkeep] using hrest
    | true =>
      rw [List.filter_singleton, hkeep]
      refine .snoc hrest ?_
      intro r hr
      obtain ⟨p, hp, rfl⟩ := List.mem_map.1 (hrefs r hr)
      have hkept : keep p = true := hclosed last hlast hkeep p (hbefore hp) hr
      exact List.mem_map_of_mem (List.mem_filter.2 ⟨hp, hkept⟩)

/-- An element may change in place as long as it refers to no more than before. -/
theorem set (h : Ordered elements) {i : Nat} {e e' : Element} (he : elements[i]? = some e)
    (hid : e'.id = e.id) (hrefs : e'.refs ⊆ e.refs) : Ordered (elements.set i e') := by
  induction h with
  | nil => exact .nil
  | @snoc elements last h hlast ih =>
    rcases Nat.lt_or_ge i elements.length with hi | hi
    · rw [List.getElem?_append_left hi] at he
      have hids : (elements.set i e').map Element.id = elements.map Element.id := by
        rw [List.map_set, hid]
        refine List.ext_getElem? fun j => ?_
        rw [List.getElem?_set]
        split
        · next hij =>
          subst hij
          rw [List.length_map, if_pos hi, List.getElem?_map, he, Option.map_some]
        · rfl
      rw [List.set_append_left _ _ hi]
      exact .snoc (ih he) (by rwa [hids])
    · have hlength := (List.getElem?_eq_some_iff.1 he).1
      rw [List.length_append, List.length_singleton] at hlength
      obtain rfl : i = elements.length := by omega
      have heq : last = e := by simpa using he
      subst heq
      rw [List.set_append_right _ _ hi, Nat.sub_self]
      exact .snoc h fun r hr => hlast r (hrefs hr)

end Ordered

/-! ## What checked changes keep -/

/-- The index is right, and each element refers only to elements before it. -/
structure Grounded (s : Scene) : Prop where
  consistent : s.Consistent
  ordered : Ordered s.elements

/-- An element is added exactly if its id is new and all that it refers to is there. -/
theorem insert_eq_ok_iff {s s' : Scene} {e : Element} :
    s.insert e = .ok s' ↔
      s.contains e.id = false ∧ (∀ r ∈ e.refs, s.contains r = true) ∧ s' = s.push e := by
  rw [insert]
  cases hnew : s.contains e.id with
  | true => simp
  | false =>
    cases hmissing : e.refs.find? fun p => !s.contains p with
    | some p =>
      have hp : s.contains p = false := by simpa using List.find?_some hmissing
      have hmem : p ∈ e.refs := List.mem_of_find?_eq_some hmissing
      simp only [Bool.false_eq_true, if_false, reduceCtorEq, true_and, false_iff, not_and]
      intro hall
      rw [hall p hmem] at hp
      cases hp
    | none =>
      have hall : ∀ r ∈ e.refs, s.contains r = true := by
        intro r hr
        simpa using List.find?_eq_none.1 hmissing r hr
      simp only [Bool.false_eq_true, if_false, Except.ok.injEq, true_and]
      constructor
      · intro heq
        exact ⟨hall, heq.symm⟩
      · intro heq
        exact heq.2.symm

/-- Among different candidates, one more than there are elements, one is new. -/
theorem Consistent.contains_freshId {s : Scene} (hs : s.Consistent) {candidates : Nat → ElementId}
    (hc : Function.Injective candidates) : s.contains (s.freshId candidates) = false := by
  rw [freshId]
  cases hfind : ((List.range (s.size + 1)).map candidates).find? fun id => !s.contains id with
  | some id => simpa using List.find?_some hfind
  | none =>
    exfalso
    have hsub : (List.range (s.size + 1)).map candidates ⊆ s.elements.map Element.id := by
      intro id hid
      have hcontains : s.contains id = true := by simpa using List.find?_eq_none.1 hfind id hid
      obtain ⟨e, he, rfl⟩ := hs.contains_iff.1 hcontains
      exact List.mem_map_of_mem he
    have hnodup : ((List.range (s.size + 1)).map candidates).Nodup := List.nodup_range.map hc
    have hlength := (hnodup.subperm hsub).length_le
    rw [List.length_map, List.length_map, List.length_range, size] at hlength
    omega

namespace Grounded

variable {s s' : Scene}

theorem contains_ref (hs : s.Grounded) {e : Element} (he : e ∈ s.elements) {r : ElementId}
    (hr : r ∈ e.refs) : s.contains r = true := by
  obtain ⟨i, hi⟩ := List.getElem?_of_mem he
  obtain ⟨j, p, -, hp, hid⟩ := hs.ordered.earlier hi hr
  exact hs.consistent.contains_iff.2 ⟨p, List.mem_of_getElem? hp, hid⟩

theorem push (hs : s.Grounded) {e : Element} (hnew : s.contains e.id = false)
    (hrefs : ∀ r ∈ e.refs, s.contains r = true) : (s.push e).Grounded where
  consistent := hs.consistent.push hnew
  ordered := by
    refine .snoc hs.ordered ?_
    intro r hr
    obtain ⟨p, hp, rfl⟩ := hs.consistent.contains_iff.1 (hrefs r hr)
    exact List.mem_map_of_mem hp

theorem update (hs : s.Grounded) {id : ElementId} {f : Element → Except SceneError Element}
    (hf : ∀ e e', f e = .ok e' → e'.id = e.id ∧ e'.refs ⊆ e.refs) (h : s.update id f = .ok s') :
    s'.Grounded where
  consistent := hs.consistent.update (fun e e' he => (hf e e' he).1) h
  ordered := by
    obtain ⟨i, e, e', -, he, hfe, rfl⟩ := update_eq_ok_iff.1 h
    exact hs.ordered.set he (hf e e' hfe).1 (hf e e' hfe).2

theorem setPosition (hs : s.Grounded) {id : ElementId} {x y : Float}
    (h : s.setPosition id x y = .ok s') : s'.Grounded := by
  refine hs.update ?_ h
  intro e e' he
  split at he
  · cases he
    -- two numbers refer to nothing
    exact ⟨rfl, List.nil_subset _⟩
  · cases he

theorem setVisibility (hs : s.Grounded) {id : ElementId} {visible : Bool}
    (h : s.setVisibility id visible = .ok s') : s'.Grounded := by
  refine hs.update ?_ h
  intro e e' he
  cases he
  exact ⟨rfl, List.Subset.refl _⟩

theorem deleteCascade (hs : s.Grounded) {id : ElementId} {doomed : List ElementId}
    (h : s.deleteCascade id = .ok (s', doomed)) : s'.Grounded where
  consistent := hs.consistent.deleteCascade h
  ordered := by
    rw [Scene.deleteCascade] at h
    split at h
    · cases h
    · cases h
      refine hs.ordered.filter ?_
      intro e he hkeep p hp hr
      -- with what it refers to, the element itself would go
      by_contra hgone
      have hgone : p.id ∈ s.closure id := by simpa using hgone
      have hdoomed := hs.consistent.mem_closure_of_refers hgone he hr
      simp [hdoomed] at hkeep

theorem apply (hs : s.Grounded) {m : Mutation} (h : s.apply m = .ok s') : s'.Grounded := by
  cases m with
  | movePoint id x y => exact hs.setPosition h
  | setVisibility id visible => exact hs.setVisibility h
  | delete id =>
    rw [Scene.apply] at h
    cases hd : s.deleteCascade id with
    | error error =>
      rw [hd] at h
      cases h
    | ok result =>
      rw [hd] at h
      cases h
      exact hs.deleteCascade hd

/-- A change that may fail leads to a scene with the property if its success does. -/
theorem getD {outcome : Except SceneError Scene} (hs : s.Grounded)
    (h : ∀ s', outcome = .ok s' → s'.Grounded) : (outcome.toOption.getD s).Grounded := by
  cases outcome with
  | error error => exact hs
  | ok s' => exact h s' rfl

theorem change (hs : s.Grounded) {c : SceneChange} (hc : c.Valid) : (s.change c).Grounded := by
  cases c with
  | insert e =>
    refine hs.getD ?_
    intro s' h
    obtain ⟨hnew, hrefs, rfl⟩ := insert_eq_ok_iff.1 h
    exact hs.push hnew hrefs
  | placePoint candidates x y =>
    have hnew : s.contains (s.freshId candidates) = false := hs.consistent.contains_freshId hc
    exact hs.push (e := .freePoint (s.freshId candidates) x y) hnew (by simp [Element.refs,
      Element.freePoint, Element.new, Parent.refs])
  | setPosition id x y => exact hs.getD fun s' h => hs.setPosition h
  | setVisibility id visible => exact hs.getD fun s' h => hs.setVisibility h
  | deleteCascade id =>
    refine hs.getD ?_
    intro s' h
    have happly : s.apply (.delete id) = .ok s' := h
    exact hs.apply happly
  | apply m => exact hs.getD fun s' h => hs.apply h
  | clear => exact ⟨consistent_empty, .nil⟩

end Grounded

/-- A scene made by checked changes is in order. -/
theorem Checked.grounded {s : Scene} (h : s.Checked) : s.Grounded := by
  induction h with
  | empty => exact ⟨consistent_empty, .nil⟩
  | change h hc ih => exact ih.change hc

/-- An element under a new id may be added when all that it refers to is there. -/
theorem Checked.push {s : Scene} (h : s.Checked) {e : Element}
    (hnew : e.id ∉ s.elements.map Element.id)
    (hrefs : ∀ r ∈ e.refs, r ∈ s.elements.map Element.id) : (s.push e).Checked := by
  have hcontains : ∀ {id}, s.contains id = true ↔ id ∈ s.elements.map Element.id := by
    intro id
    rw [h.grounded.consistent.contains_iff, List.mem_map]
  have hinsert : s.insert e = .ok (s.push e) := by
    refine insert_eq_ok_iff.2 ⟨?_, fun r hr => hcontains.2 (hrefs r hr), rfl⟩
    rw [← Bool.not_eq_true, hcontains]
    exact hnew
  have hchange : s.change (.insert e) = s.push e := by
    rw [Scene.change, hinsert]
    rfl
  exact hchange ▸ h.change (c := .insert e) trivial

/-! ## No cycles -/

/-- The element `id` refers to `r`. -/
def Refers (s : Scene) (id r : ElementId) : Prop :=
  ∃ e ∈ s.elements, e.id = id ∧ r ∈ e.refs

/-- What an element refers to through others stands before it. -/
theorem Grounded.earlier {s : Scene} (hs : s.Grounded) {a b : ElementId}
    (h : Relation.TransGen s.Refers a b) {i : Nat} {e : Element} (he : s.elements[i]? = some e)
    (hid : e.id = a) : ∃ j p, j < i ∧ s.elements[j]? = some p ∧ p.id = b := by
  induction h with
  | single href =>
    obtain ⟨e', he', hid', hr⟩ := href
    have heq : e' = e :=
      hs.consistent.eq_of_id_eq he' (List.mem_of_getElem? he) (hid'.trans hid.symm)
    exact hs.ordered.earlier he (heq ▸ hr)
  | tail _ href ih =>
    obtain ⟨j, p, hj, hp, hpid⟩ := ih
    obtain ⟨e', he', hid', hr⟩ := href
    have heq : e' = p :=
      hs.consistent.eq_of_id_eq he' (List.mem_of_getElem? hp) (hid'.trans hpid.symm)
    obtain ⟨k, q, hk, hq, hqid⟩ := hs.ordered.earlier hp (heq ▸ hr)
    exact ⟨k, q, by omega, hq, hqid⟩

theorem Grounded.acyclic {s : Scene} (hs : s.Grounded) (id : ElementId) :
    ¬Relation.TransGen s.Refers id id := by
  intro hcycle
  obtain ⟨r, ⟨e, he, hid, -⟩, -⟩ := Relation.TransGen.head'_iff.1 hcycle
  obtain ⟨i, hi⟩ := List.getElem?_of_mem he
  obtain ⟨j, p, hj, hp, hpid⟩ := hs.earlier hcycle hi hid
  -- an id has one place
  have hplace := (hs.consistent id i).2 ⟨e, hi, hid⟩
  have hplace' := (hs.consistent id j).2 ⟨p, hp, hpid⟩
  rw [hplace, Option.some.injEq] at hplace'
  omega

end Scene

end Chalkboard
