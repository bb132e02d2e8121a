import Mathlib.Data.List.Induction
import Mathlib.Data.List.Nodup
import Mathlib.Data.Nat.Digits.Defs
import Std.Data.String.ToNat
import Chalkboard.Proofs.Text.Digits
import Chalkboard.Result.Plot

/-!
# The ids of a plot

An id is a word, the fingerprint of what is shown and, from the second entry with one fingerprint
on, its number. Fingerprints all have the same length, so an id determines its fingerprint and its
number (`occurrenceId_inj`). It follows that the first id that is not taken is the one with the next
number (`untakenId_eq`), and that the elements of a plot are those of `Series.elements`: the `k`-th
entry with a fingerprint has the number `k`, whatever other entries there are.
-/

namespace Chalkboard

/-! ## Occurrences -/

section Occurrences

variable {α : Type} {key : α → String}

/-- Each item of a list, with the how manyth one of its key it is. -/
def occurrences (key : α → String) (l : List α) : List (α × Nat) :=
  l.mapIdx fun i a => (a, (l.take (i + 1)).countP fun b => key b = key a)

theorem occurrences_concat (l : List α) (a : α) :
    occurrences key (l ++ [a]) =
      occurrences key l ++ [(a, l.countP (fun b => key b = key a) + 1)] := by
  have hinit : (l.mapIdx fun i b => (b, ((l ++ [a]).take (i + 1)).countP fun c => key c = key b)) =
      occurrences key l := by
    refine List.ext_getElem (by simp [occurrences]) fun i hi _ => ?_
    rw [List.length_mapIdx] at hi
    simp only [occurrences, List.getElem_mapIdx, List.take_append_of_le_length (Nat.succ_le_of_lt hi)]
  rw [occurrences, List.mapIdx_concat, hinit, List.take_of_length_le (by simp)]
  simp

@[simp] theorem length_occurrences (l : List α) : (occurrences key l).length = l.length := by
  simp [occurrences]

end Occurrences

/-! ## Ids -/

/-- The id of the `k`-th entry with a fingerprint. -/
def occurrenceId (word print : String) (k : Nat) : ElementId :=
  if k = 1 then ⟨word ++ "-" ++ print⟩ else ⟨word ++ "-" ++ print ++ "-" ++ toString k⟩

theorem numberedId_eq (word print : String) (n : Nat) :
    numberedId (word ++ "-" ++ print) n = occurrenceId word print (n + 1) := by
  cases n with
  | zero => rfl
  | succ n => simp [numberedId, occurrenceId]

/-- Fingerprints of one length tell ids apart that begin with one word. -/
theorem occurrenceId_inj {word print print' : String} {j k : Nat}
    (hlength : print.length = print'.length)
    (h : occurrenceId word print j = occurrenceId word print' k) : print = print' ∧ j = k := by
  have hname : ∀ (p : String) (n : Nat), (occurrenceId word p n).name =
      word ++ "-" ++ p ++ if n = 1 then "" else "-" ++ toString n := by
    intro p n
    rw [occurrenceId]
    split <;> simp [String.append_assoc]
  have htexts := congrArg (fun id : ElementId => id.name.toList) h
  -- behind the word stand the fingerprint, whose length is known, and then the number
  simp only [hname, String.toList_append, List.append_assoc, List.append_cancel_left_eq] at htexts
  obtain ⟨hprint, hnumber⟩ := List.append_inj htexts hlength
  refine ⟨String.toList_inj.1 hprint, ?_⟩
  by_cases hj : j = 1 <;> by_cases hk : k = 1
  · rw [hj, hk]
  · simp [hj, hk] at hnumber
  · simp [hj, hk] at hnumber
  · rw [if_neg hj, if_neg hk] at hnumber
    exact Nat.repr_inj.1 ((String.append_right_inj "-").1 (String.toList_inj.1 hnumber))

theorem graph_ne_note (print print' : String) (j k : Nat) :
    occurrenceId "graph" print j ≠ occurrenceId "note" print' k := by
  intro h
  have hfirst := congrArg (fun id : ElementId => id.name.toList.head?) h
  rw [occurrenceId, occurrenceId] at hfirst
  split at hfirst <;> split at hfirst <;> simp at hfirst

/-- Where exactly the first `k` ids for a base are taken, the next one is the first that is not. -/
theorem untakenId_eq {taken : List ElementId} {base : String} {k : Nat} (hk : k ≤ taken.length)
    (h : ∀ n, numberedId base n ∈ taken ↔ n < k) : untakenId taken base = numberedId base k := by
  have hfind : (List.range (taken.length + 1)).find?
      ((fun id => !taken.contains id) ∘ numberedId base) = some k := by
    rw [List.find?_range_eq_some]
    refine ⟨by simp [h], List.mem_range.2 (by omega), fun j hj => by simp [h, hj]⟩
  rw [untakenId, List.find?_map, hfind]
  rfl

/-! ## Fingerprints -/

theorem length_fingerprint (parts : List String) : (fingerprint parts).length = 8 := by
  rw [fingerprint, String.length_ofList, Text.length_hexFixed (by decide)]

/-- The fingerprint of a function. -/
def GraphEntry.print (g : GraphEntry) : String :=
  fingerprint [g.function, g.color]

/-- The fingerprint of an annotation. -/
def Annotation.print (a : Annotation) : String :=
  fingerprint [a.text]

/-! ## Series -/

/-- Entries that become elements: the word that their ids begin with, the fingerprint behind it, and
the element that shows an entry under an id. -/
structure Series (α : Type) where
  word : String
  print : α → String
  element : α → ElementId → Element
  length_print : ∀ a, (print a).length = 8
  id_element : ∀ a id, (element a id).id = id

namespace Series

variable {α : Type} (S : Series α)

/-- The elements that show a list of entries: the `k`-th with a fingerprint has the number `k`. -/
def elements (l : List α) : List Element :=
  (occurrences S.print l).map fun p => S.element p.1 (occurrenceId S.word (S.print p.1) p.2)

/-- How many entries there are with a fingerprint. -/
def count (print : String) (l : List α) : Nat :=
  l.countP fun a => S.print a = print

@[simp] theorem length_elements (l : List α) : (S.elements l).length = l.length := by
  simp [elements]

theorem elements_concat (l : List α) (a : α) :
    S.elements (l ++ [a]) =
      S.elements l ++ [S.element a (occurrenceId S.word (S.print a) (S.count (S.print a) l + 1))] := by
  rw [elements, occurrences_concat, List.map_append]
  rfl

theorem count_concat (print : String) (l : List α) (a : α) :
    S.count print (l ++ [a]) = S.count print l + if S.print a = print then 1 else 0 := by
  by_cases h : S.print a = print <;> simp [count, h]

/-- Exactly the numbers up to the count of a fingerprint are in use. -/
theorem mem_ids_iff {l : List α} {print : String} (hprint : print.length = 8) {n : Nat} :
    occurrenceId S.word print (n + 1) ∈ (S.elements l).map Element.id ↔ n < S.count print l := by
  induction l using List.reverseRecOn with
  | nil => simp [elements, occurrences, count]
  | append_singleton l a ih =>
    rw [elements_concat, List.map_append, List.mem_append, ih, count_concat, List.map_singleton,
      List.mem_singleton, S.id_element]
    -- the new entry takes a number of its own fingerprint only
    constructor
    · rintro (h | h)
      · omega
      · obtain ⟨rfl, hn⟩ := occurrenceId_inj (hprint.trans (S.length_print a).symm) h
        rw [if_pos rfl]
        omega
    · intro h
      by_cases ha : S.print a = print
      · rw [if_pos ha] at h
        rcases Nat.lt_succ_iff_lt_or_eq.1 h with h | h
        · exact .inl h
        · exact .inr (by rw [ha, h])
      · rw [if_neg ha] at h
        exact .inl h

theorem ids_nodup (l : List α) : ((S.elements l).map Element.id).Nodup := by
  induction l using List.reverseRecOn with
  | nil => exact List.nodup_nil
  | append_singleton l a ih =>
    rw [elements_concat, List.map_append, List.map_singleton, S.id_element]
    refine ih.append (List.nodup_singleton _) ?_
    intro id hid hnew
    rw [List.mem_singleton.1 hnew, S.mem_ids_iff (S.length_print a)] at hid
    exact Nat.lt_irrefl _ hid

theorem exists_occurrenceId {l : List α} {id : ElementId}
    (h : id ∈ (S.elements l).map Element.id) : ∃ print k, id = occurrenceId S.word print k := by
  simp only [elements, List.map_map, List.mem_map] at h
  obtain ⟨p, -, rfl⟩ := h
  exact ⟨S.print p.1, p.2, S.id_element ..⟩

/-- An entry that is added to a plot takes the next number of its fingerprint. -/
theorem add_eq {p : Plot} {l : List α} {a : α} (hl : l.length ≤ p.elements.length)
    (h : ∀ n, occurrenceId S.word (S.print a) (n + 1) ∈ p.elements.map Element.id ↔
      n < S.count (S.print a) l) :
    p.add (S.word ++ "-" ++ S.print a) (S.element a) =
      { p with elements := p.elements ++
          [S.element a (occurrenceId S.word (S.print a) (S.count (S.print a) l + 1))] } := by
  have hcount : S.count (S.print a) l ≤ (p.elements.map Element.id).length := by
    rw [List.length_map]
    exact Nat.le_trans List.countP_le_length hl
  rw [Plot.add, untakenId_eq hcount fun n => by rw [numberedId_eq]; exact h n, numberedId_eq]

end Series

/-! ## Plots -/

theorem GraphEntry.id_curve (g : GraphEntry) (id : ElementId) : (g.curve id).id = id := by
  obtain ⟨_, _, latex, label, _, _⟩ := g
  cases latex <;> cases label <;> rfl

/-- Drawn functions. -/
def Series.curves : Series GraphEntry :=
  ⟨"graph", GraphEntry.print, GraphEntry.curve, fun _ => length_fingerprint _, GraphEntry.id_curve⟩

/-- Labelled points. -/
def Series.notes : Series Annotation :=
  ⟨"note", Annotation.print, Annotation.point, fun _ => length_fingerprint _, fun _ _ => rfl⟩

namespace GraphResult

/-- The functions that are drawn. -/
def drawn (r : GraphResult) : List GraphEntry :=
  r.graphs.filter fun g => g.fault?.isNone

end GraphResult

namespace Plot

/-- The functions, one after the other: a curve for each that is drawn, an error for each other. -/
theorem foldl_addEntry (graphs : List GraphEntry) :
    graphs.foldl addEntry empty =
      ⟨Series.curves.elements (graphs.filter fun g => g.fault?.isNone),
        graphs.filterMap GraphEntry.fault?⟩ := by
  induction graphs using List.reverseRecOn with
  | nil => rfl
  | append_singleton graphs g ih =>
    rw [List.foldl_append, ih, List.foldl_cons, List.foldl_nil, addEntry, List.filter_append,
      List.filterMap_append]
    cases hfault : g.fault? with
    | some e => simp [hfault]
    | none =>
      have hadd := Series.curves.add_eq (a := g)
        (p := ⟨Series.curves.elements (graphs.filter fun g => g.fault?.isNone),
          graphs.filterMap GraphEntry.fault?⟩)
        (Nat.le_of_eq (Series.length_elements ..).symm)
        fun n => Series.curves.mem_ids_iff (length_fingerprint _)
      rw [List.filterMap_cons_none hfault, List.filterMap_nil, List.append_nil,
        List.filter_cons_of_pos (by rw [hfault]; rfl), List.filter_nil, Series.elements_concat]
      exact hadd

/-- The annotations after that: a point for each. -/
theorem foldl_addAnnotation (graphs : List GraphEntry) (errors : List InlineError)
    (annotations : List Annotation) :
    annotations.foldl addAnnotation ⟨Series.curves.elements graphs, errors⟩ =
      ⟨Series.curves.elements graphs ++ Series.notes.elements annotations, errors⟩ := by
  induction annotations using List.reverseRecOn with
  | nil =>
    rw [List.foldl_nil]
    exact congrArg (Plot.mk · errors) (List.append_nil _).symm
  | append_singleton annotations a ih =>
    rw [List.foldl_append, ih, List.foldl_cons, List.foldl_nil, Series.elements_concat,
      ← List.append_assoc]
    refine Series.notes.add_eq (l := annotations) (by simp) fun n => ?_
    rw [List.map_append, List.mem_append,
      Series.notes.mem_ids_iff (Series.notes.length_print a)]
    -- no curve has an id that begins like that of a point
    refine or_iff_right ?_
    intro hcurve
    obtain ⟨print, k, h⟩ := Series.curves.exists_occurrenceId hcurve
    exact graph_ne_note _ _ _ _ h.symm

end Plot

namespace GraphResult

theorem plot_eq (r : GraphResult) :
    r.plot = ⟨Series.curves.elements r.drawn ++ Series.notes.elements r.annotations,
      r.graphs.filterMap GraphEntry.fault?⟩ := by
  rw [plot, Plot.foldl_addEntry, Plot.foldl_addAnnotation]
  rfl

theorem ids_plot_nodup (r : GraphResult) : (r.plot.elements.map Element.id).Nodup := by
  rw [plot_eq, List.map_append]
  refine (Series.curves.ids_nodup _).append (Series.notes.ids_nodup _) ?_
  intro id hcurve hnote
  obtain ⟨print, k, rfl⟩ := Series.curves.exists_occurrenceId hcurve
  obtain ⟨print', k', h⟩ := Series.notes.exists_occurrenceId hnote
  exact graph_ne_note _ _ _ _ h

end GraphResult

end Chalkboard
