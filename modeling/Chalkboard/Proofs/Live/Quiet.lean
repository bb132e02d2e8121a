import Chalkboard.Proofs.Live.Sweep

/-!
# A pass that reports nothing

A pass that reports nothing as created, updated or removed has left all objects on the canvas as they
were, and their records with them (`Pass.run_still`). One thing goes unreported: a free point that is
where it should be within the tolerance is recorded under its new coordinates. None of this asks for
the live graph to be linked to the canvas.
-/

namespace Chalkboard

theorem ReconcileReport.isNoop_iff {r : ReconcileReport} :
    r.isNoop = true ↔ r.created = [] ∧ r.updated = [] ∧ r.removed = [] := by
  simp [isNoop, and_assoc]

namespace Pass

/-- The record of an element is as before, or that of a free point that is not held, with the
declared parents. -/
inductive Refreshed (elements : List Element) (locked : Option ElementId) (id : ElementId) :
    Option LiveObject → Option LiveObject → Prop
  | same (o : Option LiveObject) : Refreshed elements locked id o o
  | place {o : LiveObject} {e : Element} (he : e ∈ elements) (hid : e.id = id)
      (hfree : e.position?.isSome = true) (hloose : locked ≠ some id) :
      Refreshed elements locked id (some o) (some { o with parents := e.parents })

theorem Refreshed.trans {elements : List Element} {locked : Option ElementId} {id : ElementId}
    {o o' o'' : Option LiveObject} (h : Refreshed elements locked id o o')
    (h' : Refreshed elements locked id o' o'') : Refreshed elements locked id o o'' := by
  cases h with
  | same => exact h'
  | place he hid hfree hloose =>
    cases h' with
    | same => exact .place he hid hfree hloose
    | place he' hid' hfree' hloose' => exact .place he' hid' hfree' hloose'

/-- A record that has the declared parents already is as before. -/
theorem Refreshed.eq {elements : List Element} {locked : Option ElementId} {id : ElementId}
    {o o' : Option LiveObject} (h : Refreshed elements locked id o o')
    (hsame : ∀ e ∈ elements, e.id = id → e.position?.isSome = true → locked ≠ some id →
      ∀ x, o = some x → x.parents = e.parents) : o' = o := by
  cases h with
  | same => rfl
  | @place o e he hid hfree hloose => rw [← hsame e he hid hfree hloose o rfl]

/-- Neither `p` nor what led from it to `q` has touched an object. -/
structure Rests (elements : List Element) (locked : Option ElementId) (p q : Pass) : Prop where
  before : p.report.isNoop = true
  objects : q.canvas.objects = p.canvas.objects
  records : ∀ id, Refreshed elements locked id (p.graph.get? id) (q.graph.get? id)

/-- What a step that is not reported does. -/
def Still (elements : List Element) (locked : Option ElementId) (p q : Pass) : Prop :=
  q.report.isNoop = true → Rests elements locked p q

section Still

variable {elements : List Element} {locked : Option ElementId} {p q r : Pass} {e : Element}
  {o : LiveObject}

theorem Still.refl (p : Pass) : Still elements locked p p :=
  fun h => ⟨h, rfl, fun _ => .same _⟩

theorem Still.trans (h : Still elements locked p q) (h' : Still elements locked q r) :
    Still elements locked p r := by
  intro hr
  have hrest := h' hr
  have hfirst := h hrest.before
  exact ⟨hfirst.before, hrest.objects.trans hfirst.objects,
    fun id => (hfirst.records id).trans (hrest.records id)⟩

theorem Still.foldl {α : Type} {f : Pass × List Element → α → Pass × List Element}
    {items : List α} (hf : ∀ state, ∀ a ∈ items, Still elements locked state.1 (f state a).1)
    (state : Pass × List Element) : Still elements locked state.1 (items.foldl f state).1 := by
  induction items generalizing state with
  | nil => exact .refl _
  | cons a items ih =>
    rw [List.foldl_cons]
    exact (hf state a (List.mem_cons_self ..)).trans
      (ih (fun state b hb => hf state b (List.mem_cons_of_mem _ hb)) _)

/-! ## Drawing -/

theorem still_fail (p : Pass) (id : ElementId) (error : RenderError) :
    Still elements locked p (p.fail id error) :=
  fun h => ⟨h, rfl, fun _ => .same _⟩

theorem still_create (p : Pass) (e : Element) (parents : List DrawnParent) :
    Still elements locked p (p.create e parents) := by
  unfold create
  dsimp only
  split
  · intro hnoop
    have hcreated := (ReconcileReport.isNoop_iff.1 hnoop).1
    simp at hcreated
  · exact still_fail p e.id _

theorem still_attempt (state : Pass × List Element) (e : Element) :
    Still elements locked state.1 (attempt state e).1 := by
  unfold attempt
  split
  · next q hq =>
    obtain ⟨parents, -, rfl⟩ := Option.map_eq_some_iff.1 hq
    exact still_create state.1 e parents
  · exact .refl _

theorem still_settle (p : Pass) (waiting : List Element) (n : Nat) :
    Still elements locked p (p.settle waiting n).1 := by
  induction n generalizing p waiting with
  | zero => exact .refl p
  | succ n ih =>
    unfold settle
    split
    · exact .refl p
    · have hround : Still elements locked p (waiting.foldl attempt (p, [])).1 :=
        Still.foldl (fun state e _ => still_attempt state e) (p, [])
      dsimp only
      split
      · exact hround
      · exact hround.trans (ih _ _)

/-! ## Updating -/

/-- Placing an object fails, or leaves the canvas as it is, or moves an object that is there. -/
theorem place_cases (c : Canvas) (e : Element) (o : LiveObject) :
    (∃ error, place c e o = .error error) ∨
    (∃ o', place c e o = .ok (o', c, false) ∧
      (o' = o ∨ e.position?.isSome = true ∧ o' = { o with parents := e.parents })) ∨
    ∃ o' c' d, place c e o = .ok (o', c', true) ∧ c'.object? o'.handle = some d := by
  unfold place
  cases e.position? with
  | none => exact .inr (.inl ⟨o, rfl, .inl rfl⟩)
  | some xy =>
    obtain ⟨x, y⟩ := xy
    dsimp only
    split
    · exact .inr (.inl ⟨_, rfl, .inr ⟨rfl, rfl⟩⟩)
    · cases hmove : c.movePoint o.handle ⟨x, y⟩ with
      | error error => exact .inl ⟨error, rfl⟩
      | ok c' =>
        obtain ⟨d, hd, -, -⟩ := Canvas.movePoint_eq_ok_iff.1 hmove
        obtain ⟨d', hd', -⟩ := (Canvas.alike_movePoint hmove).object' hd
        exact .inr (.inr ⟨_, c', d', rfl, hd'⟩)

/-- Bringing an object in line without a change that is reported. An object that was moved is there
to be shown or hidden, so nothing is left half done. -/
theorem sync_unreported {c c' : Canvas} {o' : LiveObject} {outcome : Except RenderError Bool}
    (h : sync c e o = (o', c', outcome)) (hno : outcome ≠ .ok true) :
    c' = c ∧ (o' = o ∨ e.position?.isSome = true ∧ o' = { o with parents := e.parents }) := by
  rw [sync] at h
  rcases place_cases c e o with ⟨error, hp⟩ | ⟨o₁, hp, ho₁⟩ | ⟨o₁, c₁, d, hp, hd⟩
  · rw [hp] at h
    cases h
    exact ⟨rfl, .inl rfl⟩
  · rw [hp] at h
    dsimp only at h
    split at h
    · cases h
      exact ⟨rfl, ho₁⟩
    · split at h
      · cases h
        exact ⟨rfl, ho₁⟩
      · cases h
        exact absurd rfl hno
  · obtain ⟨c₂, hset, -⟩ := Canvas.setVisible_eq_ok hd e.isVisible
    rw [hp] at h
    dsimp only at h
    rw [hset] at h
    split at h
    · cases h
      exact absurd rfl hno
    · cases h
      exact absurd rfl hno

theorem still_update (he : e ∈ elements) (ho : p.graph.get? e.id = some o)
    (hloose : locked ≠ some e.id) : Still elements locked p (p.update e o) := by
  rw [update]
  cases hsync : sync p.canvas e o with
  | mk o' rest =>
    obtain ⟨c', outcome⟩ := rest
    -- what is not reported refreshes at most the record of this element
    have hrests : outcome ≠ .ok true → c'.objects = p.canvas.objects ∧
        ∀ id, Refreshed elements locked id (p.graph.get? id) ((p.graph.replace e.id o').get? id) := by
      intro hno
      obtain ⟨rfl, ho'⟩ := sync_unreported hsync hno
      refine ⟨rfl, fun id => ?_⟩
      rw [LiveGraph.get?_replace ho]
      split
      · next hid =>
        subst hid
        rw [ho]
        rcases ho' with rfl | ⟨hfree, rfl⟩
        · exact .same _
        · exact .place he rfl hfree hloose
      · exact .same _
    rcases outcome with error | changed
    · intro hnoop
      obtain ⟨hobjects, hrecords⟩ := hrests (by simp)
      exact ⟨hnoop, hobjects, hrecords⟩
    · cases changed with
      | false =>
        intro hnoop
        obtain ⟨hobjects, hrecords⟩ := hrests (by simp)
        exact ⟨hnoop, hobjects, hrecords⟩
      | true =>
        intro hnoop
        have hupdated := (ReconcileReport.isNoop_iff.1 hnoop).2.1
        simp at hupdated

theorem still_visit (state : Pass × List Element) (he : e ∈ elements) :
    Still elements locked state.1 (visit locked state e).1 := by
  unfold visit
  split
  · exact still_attempt state e
  · next o ho =>
    split
    · exact fun h => ⟨h, rfl, fun _ => .same _⟩
    · next hloose => exact still_update he ho hloose

/-! ## Tearing down -/

theorem still_removeStale (scene : Scene) (p : Pass) :
    Still elements locked p (removeStale scene locked p) := by
  intro hnoop
  obtain ⟨order, hrounds, heq⟩ := removeStale_rounds scene locked p
  have hremoved := (ReconcileReport.isNoop_iff.1 hnoop).2.2
  rw [heq, removed_foldl_removeOne, List.append_eq_nil_iff] at hremoved
  have horder : order = [] := List.map_eq_nil_iff.1 hremoved.2
  subst horder
  have hgone := List.nil_perm.1 hrounds.perm
  -- so no live object is doomed
  have hgraph : ∀ id, (survivors scene locked p.graph).get? id = p.graph.get? id := by
    intro id
    rw [get?_survivors]
    split
    · next hdoomed =>
      have hnone := Table.get?_restrict p.graph.objects
        (doomed scene locked p.graph.objects).contains id
      rw [hgone, if_pos (by simpa using hdoomed)] at hnone
      exact hnone
    · rfl
  rw [heq] at hnoop ⊢
  refine ⟨hnoop, rfl, fun id => ?_⟩
  rw [List.foldl_nil]
  dsimp only
  rw [hgraph]
  exact .same _

/-! ## The whole pass -/

theorem still_visits (scene : Scene) (p : Pass) (n : Nat) :
    Still scene.elements locked p ((sweep scene locked p).1.settle (sweep scene locked p).2 n).1 := by
  have hsweep : Still scene.elements locked p (sweep scene locked p).1 :=
    Still.foldl (fun state e he =>
      still_visit state ((byClass_perm scene.elements).mem_iff.1 he)) (p, [])
  exact hsweep.trans (still_settle _ _ n)

/-- A pass that reports nothing has touched no object, and has refreshed at most the records of free
points that are not held. -/
theorem run_still {g : LiveGraph} {scene : Scene} {c : Canvas}
    (h : (run g scene c locked).report.isNoop = true) :
    (run g scene c locked).canvas.objects = c.objects ∧
      ∀ id, Refreshed scene.elements locked id (g.get? id)
        ((run g scene c locked).graph.get? id) := by
  obtain ⟨-, hobjects, hrecords⟩ :=
    (still_removeStale scene (start g c)).trans (still_visits scene _ _) h
  exact ⟨(Canvas.objects_paint _).trans hobjects, hrecords⟩

end Still

end Pass

end Chalkboard
