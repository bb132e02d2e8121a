import Mathlib.Logic.Function.Iterate
import Mathlib.Order.Lattice.Nat
import Chalkboard.Proofs.Scene.Edit

/-!
# Deleting what depends on an element

The dependents of an element are those that refer to it through one or more references, and its
distance from them is the least number of these. The layers that `Scene.closure` gathers are the
ids at distance zero, one, two and so on (`Scene.Layer`); a search that takes one id after the other
from a queue lists the same ids in the same order (`Scene.Search`).

`Scene.Edited.cascade` says what deleting an element comes to in every scene, with missing, repeated
and circular references: exactly the element and its dependents go, nearest first, in one change.
-/

namespace Chalkboard

namespace Scene

variable {s : Scene} {root : ElementId}

/-! ## Distances -/

/-- `id` refers to `root` through `n` references, one element after the other. -/
inductive RefersIn (s : Scene) (root : ElementId) : Nat → ElementId → Prop
  | root : RefersIn s root 0 root
  | step {n : Nat} {r id : ElementId} (h : RefersIn s root n r) (href : s.Refers id r) :
      RefersIn s root (n + 1) id

/-- The least number of references through which `id` refers to `root`. -/
noncomputable def distance (s : Scene) (root id : ElementId) : Nat :=
  sInf {n | s.RefersIn root n id}

theorem mem_dependents_iff {id r : ElementId} : id ∈ s.dependents r ↔ s.Refers id r :=
  mem_dependents

theorem exists_refersIn_succ_iff {id : ElementId} :
    (∃ n, s.RefersIn root (n + 1) id) ↔ Relation.TransGen s.Refers id root := by
  constructor
  · rintro ⟨n, h⟩
    induction n generalizing id with
    | zero =>
      cases h with
      | step h href =>
        cases h
        exact .single href
    | succ n ih =>
      cases h with
      | step h href => exact .head href (ih h)
  · intro h
    induction h using Relation.TransGen.head_induction_on with
    | single href => exact ⟨0, .step .root href⟩
    | head href _ ih =>
      obtain ⟨n, h⟩ := ih
      exact ⟨n + 1, .step h href⟩

/-! ## Layers -/

/-- `layer` lists the ids at distance `d`, and `seen` those up to it. -/
structure Layer (s : Scene) (root : ElementId) (d : Nat) (seen layer : List ElementId) : Prop where
  mem_seen : ∀ id, id ∈ seen ↔ ∃ n ≤ d, s.RefersIn root n id
  mem_layer : ∀ id, id ∈ layer ↔ s.RefersIn root d id ∧ ∀ n < d, ¬s.RefersIn root n id
  nodup : layer.Nodup

namespace Layer

variable {d : Nat} {seen layer : List ElementId}

theorem first (s : Scene) (root : ElementId) : s.Layer root 0 [root] [root] where
  mem_seen id := by
    rw [List.mem_singleton]
    constructor
    · rintro rfl
      exact ⟨0, Nat.le_refl 0, .root⟩
    · rintro ⟨n, hn, h⟩
      rw [Nat.le_zero.1 hn] at h
      cases h
      rfl
  mem_layer id := by
    rw [List.mem_singleton]
    constructor
    · rintro rfl
      exact ⟨.root, fun n hn => absurd hn (Nat.not_lt_zero n)⟩
    · rintro ⟨h, -⟩
      cases h
      rfl
  nodup := List.nodup_singleton root

/-- What refers to a layer and was not seen is the next layer. -/
theorem next (h : s.Layer root d seen layer) :
    s.Layer root (d + 1) (seen ++ fresh seen (layer.flatMap s.dependents))
      (fresh seen (layer.flatMap s.dependents)) := by
  have hmem : ∀ id, id ∈ fresh seen (layer.flatMap s.dependents) ↔
      s.RefersIn root (d + 1) id ∧ ∀ n < d + 1, ¬s.RefersIn root n id := by
    intro id
    have hnew : id ∉ seen ↔ ∀ n < d + 1, ¬s.RefersIn root n id := by
      rw [h.mem_seen]
      push Not
      exact forall_congr' fun n => by rw [Nat.lt_succ_iff]
    rw [mem_fresh, hnew, List.mem_flatMap]
    refine and_congr_left fun hfar => ?_
    constructor
    · rintro ⟨r, hr, hid⟩
      exact .step ((h.mem_layer r).1 hr).1 (mem_dependents_iff.1 hid)
    · intro hid
      cases hid with
      | @step _ r _ hr href =>
        -- a shorter way to `r` would make one to `id`
        refine ⟨r, (h.mem_layer r).2 ⟨hr, fun n hn hshort => ?_⟩, mem_dependents_iff.2 href⟩
        exact hfar (n + 1) (by omega) (.step hshort href)
  refine ⟨fun id => ?_, hmem, nodup_fresh ..⟩
  rw [List.mem_append, h.mem_seen, hmem]
  constructor
  · rintro (⟨n, hn, hid⟩ | ⟨hid, -⟩)
    · exact ⟨n, by omega, hid⟩
    · exact ⟨d + 1, Nat.le_refl _, hid⟩
  · rintro ⟨n, hn, hid⟩
    by_cases hshort : ∃ m ≤ d, s.RefersIn root m id
    · exact .inl hshort
    · push Not at hshort
      have hlast : n = d + 1 := by
        have := mt (hshort n) (not_not.2 hid)
        omega
      exact .inr ⟨hlast ▸ hid, fun m hm => hshort m (by omega)⟩

theorem refersIn (h : s.Layer root d seen layer) {id : ElementId} (hid : id ∈ layer) :
    s.RefersIn root d id :=
  ((h.mem_layer id).1 hid).1

theorem distance_eq (h : s.Layer root d seen layer) {id : ElementId} (hid : id ∈ layer) :
    s.distance root id = d := by
  obtain ⟨hd, hleast⟩ := (h.mem_layer id).1 hid
  refine Nat.le_antisymm (Nat.sInf_le hd) (le_csInf ⟨d, hd⟩ fun n hn => ?_)
  exact Nat.le_of_not_lt fun hlt => hleast n hlt hn

/-- All that is gathered from a layer on refers to the root, from no nearer than the layer. -/
theorem of_mem_layersFrom (h : s.Layer root d seen layer) {n : Nat} {id : ElementId}
    (hid : id ∈ s.layersFrom seen layer n) :
    (∃ m, s.RefersIn root m id) ∧ d ≤ s.distance root id := by
  induction n generalizing seen layer d with
  | zero => exact ⟨⟨d, h.refersIn hid⟩, (h.distance_eq hid).ge⟩
  | succ n ih =>
    rw [layersFrom] at hid
    split at hid
    · exact ⟨⟨d, h.refersIn hid⟩, (h.distance_eq hid).ge⟩
    · rcases List.mem_append.1 hid with hid | hid
      · exact ⟨⟨d, h.refersIn hid⟩, (h.distance_eq hid).ge⟩
      · obtain ⟨href, hle⟩ := ih h.next hid
        exact ⟨href, by omega⟩

/-- The layers are listed nearest first, and repeat nothing. -/
theorem pairwise_layersFrom (h : s.Layer root d seen layer) (n : Nat) :
    (s.layersFrom seen layer n).Pairwise fun a b =>
      a ≠ b ∧ s.distance root a ≤ s.distance root b := by
  have hlayer : layer.Pairwise fun a b => a ≠ b ∧ s.distance root a ≤ s.distance root b := by
    refine h.nodup.imp_of_mem fun ha hb hne => ⟨hne, ?_⟩
    rw [h.distance_eq ha, h.distance_eq hb]
  induction n generalizing seen layer d with
  | zero => exact hlayer
  | succ n ih =>
    rw [layersFrom]
    split
    · exact hlayer
    · have hnext := h.next
      have hlater := ih hnext <| hnext.nodup.imp_of_mem fun ha hb hne => by
        rw [hnext.distance_eq ha, hnext.distance_eq hb]
        exact ⟨hne, Nat.le_refl _⟩
      refine List.pairwise_append.2 ⟨hlayer, hlater, fun a ha b hb => ?_⟩
      have hb := (hnext.of_mem_layersFrom hb).2
      rw [h.distance_eq ha]
      refine ⟨?_, by omega⟩
      rintro rfl
      have := h.distance_eq ha
      omega

end Layer

/-! ## The closure -/

section Closure

theorem pairwise_closure (s : Scene) (root : ElementId) :
    (s.closure root).Pairwise fun a b => a ≠ b ∧ s.distance root a ≤ s.distance root b := by
  rw [closure]
  split
  · exact (Layer.first s root).pairwise_layersFrom s.size
  · exact .nil

/-- The closure of an element holds exactly the ids that refer to it through any number of
references. -/
theorem Consistent.mem_closure_iff (hs : s.Consistent) (hroot : s.contains root = true)
    {id : ElementId} : id ∈ s.closure root ↔ ∃ n, s.RefersIn root n id := by
  constructor
  · intro hid
    rw [closure_of_contains hroot] at hid
    exact ((Layer.first s root).of_mem_layersFrom hid).1
  · rintro ⟨n, h⟩
    induction h with
    | root =>
      rw [closure_of_contains hroot]
      exact layer_subset s _ _ _ (List.mem_singleton_self root)
    | step _ href ih =>
      obtain ⟨e, he, rfl, hr⟩ := href
      exact hs.mem_closure_of_refers ih he hr

/-- The element comes first, and then all others that refer to it through one or more
references. -/
theorem Consistent.closure_eq_cons (hs : s.Consistent) (hroot : s.contains root = true) :
    ∃ rest, s.closure root = root :: rest ∧
      ∀ id, id ∈ rest ↔ id ≠ root ∧ Relation.TransGen s.Refers id root := by
  obtain ⟨rest, hrest⟩ := layersFrom_eq_append s [root] [root] s.size
  rw [← closure_of_contains hroot, List.singleton_append] at hrest
  refine ⟨rest, hrest, fun id => ?_⟩
  have hpairwise := pairwise_closure s root
  rw [hrest, List.pairwise_cons] at hpairwise
  have hmem : id ∈ s.closure root ↔ ∃ n, s.RefersIn root n id := hs.mem_closure_iff hroot
  rw [hrest, List.mem_cons] at hmem
  constructor
  · intro hid
    have hne : id ≠ root := (hpairwise.1 id hid).1.symm
    obtain ⟨n, h⟩ := hmem.1 (.inr hid)
    refine ⟨hne, ?_⟩
    cases h with
    | root => exact absurd rfl hne
    | @step n _ _ h href => exact exists_refersIn_succ_iff.1 ⟨n, .step h href⟩
  · rintro ⟨hne, href⟩
    obtain ⟨n, h⟩ := exists_refersIn_succ_iff.2 href
    exact (hmem.2 ⟨n + 1, h⟩).resolve_left hne

end Closure

/-! ## The search -/

/-- A search at work: the ids found so far, and those of them that are still to be looked at. -/
structure Search where
  found : List ElementId
  queue : List ElementId

namespace Search

/-- The search for what depends on an element, before its first step. -/
def start (root : ElementId) : Search :=
  ⟨[root], [root]⟩

/-- Takes in an id, unless it was found before. -/
def note (w : Search) (id : ElementId) : Search :=
  if w.found.contains id then w else ⟨w.found ++ [id], w.queue ++ [id]⟩

/-- Takes the first id from the queue and finds what refers to it. -/
def step (s : Scene) (w : Search) : Search :=
  match w.queue with
  | [] => w
  | id :: rest => (s.dependents id).foldl note ⟨w.found, rest⟩

end Search

/-- What is new depends only on which ids were seen. -/
theorem fresh_congr {seen seen' : List ElementId} (h : ∀ id, id ∈ seen ↔ id ∈ seen')
    (ids : List ElementId) : fresh seen ids = fresh seen' ids := by
  induction ids generalizing seen seen' with
  | nil => rfl
  | cons id ids ih =>
    have hcontains : seen.contains id = seen'.contains id := by
      rw [Bool.eq_iff_iff]
      simpa using h id
    have hmore : ∀ id', id' ∈ id :: seen ↔ id' ∈ id :: seen' := fun id' => by simp [h id']
    rw [fresh, fresh, hcontains, ih h, ih hmore]

theorem fresh_append (seen ids ids' : List ElementId) :
    fresh seen (ids ++ ids') = fresh seen ids ++ fresh (seen ++ fresh seen ids) ids' := by
  induction ids generalizing seen with
  | nil => simp [fresh]
  | cons id ids ih =>
    rw [List.cons_append, fresh, fresh]
    split
    · exact ih seen
    · rw [ih, List.cons_append]
      congr 2
      exact fresh_congr (fun id' => by simp [or_left_comm]) ids'

namespace Search

/-- Taking in ids appends the new ones to what was found, and to the queue. -/
theorem foldl_note (found queue ids : List ElementId) :
    ids.foldl note ⟨found, queue⟩ = ⟨found ++ fresh found ids, queue ++ fresh found ids⟩ := by
  induction ids generalizing found queue with
  | nil => simp [fresh]
  | cons id ids ih =>
    rw [List.foldl_cons, note, fresh]
    split
    · exact ih found queue
    · have hsame : fresh (found ++ [id]) ids = fresh (id :: found) ids :=
        fresh_congr (fun id' => by simp [or_comm]) ids
      rw [ih, hsame]
      simp

/-- After as many steps as a layer has ids, the next layer is in the queue. -/
theorem iterate_layer (s : Scene) (found layer queue : List ElementId) :
    (step s)^[layer.length] ⟨found, layer ++ queue⟩ =
      ⟨found ++ fresh found (layer.flatMap s.dependents),
        queue ++ fresh found (layer.flatMap s.dependents)⟩ := by
  induction layer generalizing found queue with
  | nil => simp [fresh]
  | cons id layer ih =>
    rw [List.length_cons, Function.iterate_succ_apply, step]
    dsimp only [List.cons_append]
    rw [foldl_note, List.append_assoc, ih, List.flatMap_cons, fresh_append]
    simp only [List.append_assoc]

/-- The search goes through the layers and ends. -/
theorem iterate_layersFrom {seen layer : List ElementId} {n : Nat}
    (hseen : seen ⊆ s.elements.map Element.id) (hnodup : seen.Nodup)
    (hn : s.elements.length ≤ n + seen.length) :
    ∃ steps rest, s.layersFrom seen layer n = layer ++ rest ∧
      (step s)^[steps] ⟨seen, layer⟩ = ⟨seen ++ rest, []⟩ := by
  have hround := iterate_layer s seen layer []
  rw [List.append_nil, List.nil_append] at hround
  -- on the elements that may still be found; with none left, all that a layer lists is found
  induction n generalizing seen layer with
  | zero =>
    have hall := ids_subset_of_length_le hseen hnodup (by omega)
    have hnone : fresh seen (layer.flatMap s.dependents) = [] := by
      rw [List.eq_nil_iff_forall_not_mem]
      intro id hid
      obtain ⟨hmem, hnew⟩ := mem_fresh.1 hid
      obtain ⟨r, -, hr⟩ := List.mem_flatMap.1 hmem
      obtain ⟨e, he, rfl, -⟩ := mem_dependents.1 hr
      exact hnew (hall (List.mem_map_of_mem he))
    rw [hnone] at hround
    exact ⟨layer.length, [], (List.append_nil _).symm, hround⟩
  | succ n ih =>
    rw [layersFrom]
    split
    · next hnone =>
      rw [hnone] at hround
      exact ⟨layer.length, [], (List.append_nil _).symm, hround⟩
    · next hne =>
      -- this layer finds at least one element, so fewer are left
      have hpos : 0 < (fresh seen (layer.flatMap s.dependents)).length :=
        List.length_pos_iff.2 hne
      have hnext := iterate_layer s (seen ++ fresh seen (layer.flatMap s.dependents))
        (fresh seen (layer.flatMap s.dependents)) []
      rw [List.append_nil, List.nil_append] at hnext
      obtain ⟨steps, rest, hrest, hsteps⟩ := ih (append_fresh_subset hseen layer)
        (nodup_append_fresh hnodup _) (by rw [List.length_append]; omega) hnext
      refine ⟨steps + layer.length, _, rfl, ?_⟩
      rw [Function.iterate_add_apply, hround, hsteps, hrest, List.append_assoc]

end Search

/-- The search ends with the closure found. -/
theorem Consistent.iterate_search (hs : s.Consistent) (hroot : s.contains root = true) :
    ∃ steps, (Search.step s)^[steps] (.start root) = ⟨s.closure root, []⟩ := by
  have hlength : s.elements.length ≤ s.size + [root].length := Nat.le_add_right ..
  have hsearch : ∃ steps rest, s.layersFrom [root] [root] s.size = [root] ++ rest ∧
      (Search.step s)^[steps] ⟨[root], [root]⟩ = ⟨[root] ++ rest, []⟩ :=
    Search.iterate_layersFrom (hs.singleton_subset hroot) (List.nodup_singleton root) hlength
  obtain ⟨steps, rest, hrest, hsteps⟩ := hsearch
  rw [closure_of_contains hroot, hrest]
  exact ⟨steps, hsteps⟩

/-! ## Deleting -/

/-- The scene `s'` is `s` without the ids of `gone`. -/
structure Without (s : Scene) (gone : List ElementId) (s' : Scene) : Prop where
  /-- The others are as they were, in the same order, and found under their ids. -/
  elements : s'.elements = s.elements.filter fun e => e.id ∉ gone
  consistent : s'.Consistent
  revision : s'.revision = s.revision + 1
  /-- No reference to a deleted id is left. -/
  closed : ∀ e ∈ s'.elements, ∀ r ∈ e.refs, r ∉ gone

theorem Consistent.run_deleteCascade (hs : s.Consistent) (hroot : s.contains root = true) :
    ∃ s', (Edit.deleteCascade root).run s = .ok (s.closure root) s' ∧
      s.Without (s.closure root) s' := by
  obtain ⟨rest, hrest, -⟩ := hs.closure_eq_cons hroot
  have hdelete : ∃ s', s.deleteCascade root = .ok (s', s.closure root) ∧
      s'.elements = s.elements.filter (fun e => !(s.closure root).contains e.id) := by
    rw [Scene.deleteCascade, hrest]
    exact ⟨_, rfl, rfl⟩
  obtain ⟨s', hok, helements⟩ := hdelete
  refine ⟨s', by rw [Edit.run_deleteCascade, hok]; rfl, ?_⟩
  have hkept : s'.elements = s.elements.filter fun e => e.id ∉ s.closure root := by
    rw [helements]
    exact List.filter_congr fun e _ => by simp
  refine ⟨hkept, hs.deleteCascade hok, revision_deleteCascade hok, fun e he r hr hgone => ?_⟩
  rw [hkept, List.mem_filter, decide_eq_true_eq] at he
  exact he.2 (hs.mem_closure_of_refers hgone he.1 hr)

theorem run_deleteCascade_of_not_contains (hroot : s.contains root = false) :
    (Edit.deleteCascade root).run s = .error (.notFound root) s := by
  rw [Edit.run_deleteCascade, deleteCascade, closure_of_not_contains hroot]
  rfl

/-- What holds of the closure of `root`, and of deleting it. -/
structure Cascade (s : Scene) (root : ElementId) : Prop where
  /-- First the element itself, then exactly its dependents. -/
  listed : ∃ rest, s.closure root = root :: rest ∧
    ∀ id, id ∈ rest ↔ id ≠ root ∧ Relation.TransGen s.Refers id root
  distinct : (s.closure root).Nodup
  nearestFirst : (s.closure root).Pairwise fun a b => s.distance root a ≤ s.distance root b
  /-- A search with a queue ends with the same list. -/
  searched : ∃ steps, (Search.step s)^[steps] (.start root) = ⟨s.closure root, []⟩
  deleted : ∃ s', (Edit.deleteCascade root).run s = .ok (s.closure root) s' ∧
    s.Without (s.closure root) s'

/-- Whatever the references of a scene, deleting an element takes it and exactly its dependents out,
nearest first, in one change, and leaves all others and no reference behind; without such an element
it fails and changes nothing. -/
theorem Edited.cascade {s : Scene} (h : s.Edited) (root : ElementId) :
    (s.contains root = true → s.Cascade root) ∧
      (s.contains root = false → s.closure root = [] ∧
        (Edit.deleteCascade root).run s = .error (.notFound root) s) := by
  have hs := h.consistent
  refine ⟨fun hroot => ?_, fun hroot => ?_⟩
  · exact
      { listed := hs.closure_eq_cons hroot
        distinct := (pairwise_closure s root).imp And.left
        nearestFirst := (pairwise_closure s root).imp And.right
        searched := hs.iterate_search hroot
        deleted := hs.run_deleteCascade hroot }
  · exact ⟨closure_of_not_contains hroot, run_deleteCascade_of_not_contains hroot⟩

/-- An element that refers to itself, two that refer to each other, one of them twice, and one that
refers to nothing there is. -/
theorem Edited.cascade_sample :
    let elements : List Element :=
      [.new ⟨"a"⟩ .line [.ref ⟨"a"⟩, .ref ⟨"c"⟩], .freePoint ⟨"p"⟩ 0 0,
       .new ⟨"b"⟩ .line [.ref ⟨"a"⟩, .ref ⟨"a"⟩], .new ⟨"c"⟩ .circle [.ref ⟨"b"⟩, .ref ⟨"p"⟩],
       .new ⟨"d"⟩ .circle [.ref ⟨"missing"⟩, .ref ⟨"p"⟩]]
    let s := (SceneEdit.replaceAll elements).perform.after .empty
    s.Edited ∧ s.contains ⟨"a"⟩ = true ∧ s.contains ⟨"missing"⟩ = false ∧ s.Cascade ⟨"a"⟩ ∧
      s.closure ⟨"missing"⟩ = [] := by
  intro elements s
  have hs : s.Edited := Edited.empty.call trivial
  have helements : s.elements = elements := rfl
  have ha : s.contains ⟨"a"⟩ = true := by
    rw [hs.consistent.contains_iff, helements]
    exact ⟨_, List.mem_cons_self .., rfl⟩
  have hmissing : s.contains ⟨"missing"⟩ = false := by
    rw [← Bool.not_eq_true, hs.consistent.contains_iff, helements]
    simp [elements, Element.new, Element.freePoint]
  exact ⟨hs, ha, hmissing, (hs.cascade ⟨"a"⟩).1 ha, ((hs.cascade ⟨"missing"⟩).2 hmissing).1⟩

end Scene

end Chalkboard
