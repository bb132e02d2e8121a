import Mathlib.Data.List.Basic
import Mathlib.Data.List.Nodup
import Chalkboard.Canvas.Basic
import Chalkboard.Gesture.Step

/-!
# What lasts on the canvas

`Canvas.WellFormed` is what every operation of the canvas keeps: handles are given out in ascending
order, an object is younger than the objects that it was drawn on, and exactly free points have a
place. `Canvas.Alike` relates two canvases with the same objects, which may lie elsewhere or be
shown or hidden; everything but drawing and removing stays within it.
-/

namespace Chalkboard

/-- What does not change about an object while it is on the canvas. -/
def Drawn.shape (d : Drawn) : ElementId × ElementKind × List DrawnParent × Bool :=
  (d.id, d.kind, d.parents, d.position.isSome)

namespace Canvas

/-- What holds of every canvas that only its own operations have changed. -/
structure WellFormed (c : Canvas) : Prop where
  nodup : c.objects.keys.Nodup
  issued : ∀ h d, c.object? h = some d → h.number ≤ c.lastHandle
  /-- An object refers to older objects only. -/
  older : ∀ h d, c.object? h = some d → ∀ p, .object p ∈ d.parents → p.number < h.number
  /-- Exactly free points have a place. -/
  placed : ∀ h d, c.object? h = some d →
    ∃ place, placement d.kind d.parents = .ok place ∧ place.isSome = d.position.isSome

/-- The same objects, which may lie elsewhere or be shown or hidden. -/
structure Alike (c c' : Canvas) : Prop where
  keys : c'.objects.keys = c.objects.keys
  lastHandle : c'.lastHandle = c.lastHandle
  shape : ∀ h, (c'.object? h).map Drawn.shape = (c.object? h).map Drawn.shape

namespace Alike

theorem refl (c : Canvas) : Alike c c := ⟨rfl, rfl, fun _ => rfl⟩

theorem trans {c c' c'' : Canvas} (h : Alike c c') (h' : Alike c' c'') : Alike c c'' :=
  ⟨h'.keys.trans h.keys, h'.lastHandle.trans h.lastHandle,
   fun i => (h'.shape i).trans (h.shape i)⟩

/-- The object before, of one that is there now. -/
theorem object {c c' : Canvas} (hc : Alike c c') {h : Handle} {d' : Drawn}
    (hd : c'.object? h = some d') : ∃ d, c.object? h = some d ∧ d.shape = d'.shape := by
  have hs := hc.shape h
  rw [hd, Option.map_some] at hs
  exact Option.map_eq_some_iff.1 hs.symm

/-- The object now, of one that was there before. -/
theorem object' {c c' : Canvas} (hc : Alike c c') {h : Handle} {d : Drawn}
    (hd : c.object? h = some d) : ∃ d', c'.object? h = some d' ∧ d'.shape = d.shape := by
  have hs := hc.shape h
  rw [hd, Option.map_some] at hs
  exact Option.map_eq_some_iff.1 hs

theorem wellFormed {c c' : Canvas} (hc : Alike c c') (hw : c.WellFormed) : c'.WellFormed where
  nodup := by
    rw [hc.keys]
    exact hw.nodup
  issued h d' hd' := by
    rcases hc.object hd' with ⟨d, hd, -⟩
    rw [hc.lastHandle]
    exact hw.issued h d hd
  older h d' hd' := by
    rcases hc.object hd' with ⟨d, hd, hs⟩
    simp only [Drawn.shape, Prod.mk.injEq] at hs
    rw [← hs.2.2.1]
    exact hw.older h d hd
  placed h d' hd' := by
    rcases hc.object hd' with ⟨d, hd, hs⟩
    simp only [Drawn.shape, Prod.mk.injEq] at hs
    rw [← hs.2.1, ← hs.2.2.1, ← hs.2.2.2]
    exact hw.placed h d hd

end Alike

/-! ## Operations within the same objects -/

/-- Two canvases with equal objects and handles. -/
theorem alike_of_eq {c c' : Canvas} (ho : c'.objects = c.objects)
    (hl : c'.lastHandle = c.lastHandle) : Alike c c' :=
  ⟨by rw [ho], hl, fun h => by rw [object?, object?, ho]⟩

theorem alike_suspend (c : Canvas) : Alike c c.suspend := alike_of_eq rfl rfl

theorem alike_resume (c : Canvas) : Alike c c.resume :=
  alike_of_eq (by simp [resume]) (by simp [resume])

theorem alike_refuse (c : Canvas) (id : ElementId) : Alike c (c.refuse id) := alike_of_eq rfl rfl

theorem alike_setViewport (c : Canvas) (v : Viewport Float) : Alike c (c.setViewport v) :=
  alike_of_eq (by simp [setViewport]) (by simp [setViewport])

/-- Another object of the same shape under a handle, and one more operation counted. -/
theorem alike_replace {c : Canvas} {h : Handle} {d d' : Drawn} (hd : c.object? h = some d)
    (hs : d'.shape = d.shape) (f : Counters → Counters) :
    Alike c ((c.replace h d').counted f) where
  keys := by simp [replace]
  lastHandle := by simp [replace]
  shape h' := by
    rw [object?_counted, object?_replace hd]
    split
    · next hh => rw [hh, hd, Option.map_some, Option.map_some, hs]
    · rfl

/-- `c'` is `c` with the object under `h` changed into `d'`. -/
structure Changes (c : Canvas) (h : Handle) (d' : Drawn) (c' : Canvas) : Prop where
  alike : Alike c c'
  refusing : c'.refusing = c.refusing
  object : ∀ h', c'.object? h' = if h' = h then some d' else c.object? h'

theorem Changes.refl {c : Canvas} {h : Handle} {d : Drawn} (hd : c.object? h = some d) :
    Changes c h d c where
  alike := .refl c
  refusing := rfl
  object h' := by
    split
    · next hh => rw [hh, hd]
    · rfl

theorem Changes.trans {c c' c'' : Canvas} {h : Handle} {d' d'' : Drawn} (hc : Changes c h d' c')
    (hc' : Changes c' h d'' c'') : Changes c h d'' c'' where
  alike := hc.alike.trans hc'.alike
  refusing := hc'.refusing.trans hc.refusing
  object h' := by
    rw [hc'.object, hc.object]
    split <;> rfl

theorem changes_replace {c : Canvas} {h : Handle} {d d' : Drawn} (hd : c.object? h = some d)
    (hs : d'.shape = d.shape) (f : Counters → Counters) :
    Changes c h d' ((c.replace h d').counted f) where
  alike := alike_replace hd hs f
  refusing := by simp [replace]
  object h' := by rw [object?_counted, object?_replace hd]

/-- Moving succeeds exactly for free points, and changes nothing but the place. -/
theorem movePoint_eq_ok_iff {c c' : Canvas} {h : Handle} {p : Point Float} :
    c.movePoint h p = .ok c' ↔
      ∃ d, c.object? h = some d ∧ d.position.isSome = true ∧
        c' = (c.replace h { d with position := some p }).counted fun n =>
          { n with moves := n.moves + 1 } := by
  unfold movePoint
  cases hd : c.object? h with
  | none => simp
  | some d =>
    cases hp : d.position with
    | none => simp [hp]
    | some q =>
      constructor
      · intro hc
        exact ⟨d, rfl, by simp [hp], by simpa [hp] using hc.symm⟩
      · rintro ⟨d', hd', -, rfl⟩
        cases hd'
        simp [hp]

/-- Showing or hiding succeeds exactly for objects on the canvas. -/
theorem setVisible_eq_ok_iff {c c' : Canvas} {h : Handle} {visible : Bool} :
    c.setVisible h visible = .ok c' ↔
      ∃ d, c.object? h = some d ∧
        c' = (c.replace h { d with visible }).counted fun n =>
          { n with visibilityChanges := n.visibilityChanges + 1 } := by
  unfold setVisible
  cases hd : c.object? h with
  | none => simp
  | some d =>
    constructor
    · intro hc
      exact ⟨d, rfl, by simpa using hc.symm⟩
    · rintro ⟨d', hd', rfl⟩
      cases hd'
      rfl

/-- A free point can be moved. -/
theorem movePoint_eq_ok {c : Canvas} {h : Handle} {d : Drawn} (hd : c.object? h = some d)
    (hp : d.position.isSome = true) (p : Point Float) :
    ∃ c', c.movePoint h p = .ok c' ∧ Changes c h { d with position := some p } c' :=
  ⟨_, movePoint_eq_ok_iff.2 ⟨d, hd, hp, rfl⟩, changes_replace hd (by simp [Drawn.shape, hp]) _⟩

/-- An object on the canvas can be shown or hidden. -/
theorem setVisible_eq_ok {c : Canvas} {h : Handle} {d : Drawn} (hd : c.object? h = some d)
    (visible : Bool) :
    ∃ c', c.setVisible h visible = .ok c' ∧ Changes c h { d with visible } c' :=
  ⟨_, setVisible_eq_ok_iff.2 ⟨d, hd, rfl⟩, changes_replace hd (by rfl) _⟩

theorem alike_movePoint {c c' : Canvas} {h : Handle} {p : Point Float}
    (hc : c.movePoint h p = .ok c') : Alike c c' := by
  rcases movePoint_eq_ok_iff.1 hc with ⟨d, hd, hp, rfl⟩
  exact alike_replace hd (by simp [Drawn.shape, hp]) _

/-- What a gesture does to the canvas leaves the objects in place. -/
theorem alike_perform (c : Canvas) (e : GestureEffect Float) : Alike c (c.perform e) := by
  cases e with
  | nothing => exact .refl c
  | look v => exact alike_setViewport c v
  | drop id p => exact .refl c
  | drag h p =>
    simp only [perform]
    split
    · next hc => exact alike_movePoint hc
    · exact .refl c

/-- A gesture does not change what the canvas refuses. -/
theorem refusing_perform (c : Canvas) (e : GestureEffect Float) :
    (c.perform e).refusing = c.refusing := by
  cases e with
  | nothing => rfl
  | look v => simp [perform, setViewport]
  | drop id p => rfl
  | drag h p =>
    simp only [perform]
    split
    · next hc =>
      rcases movePoint_eq_ok_iff.1 hc with ⟨d, hd, hp, rfl⟩
      simp [replace]
    · rfl

/-! ## Drawing and removing -/

/-- Drawing fails for one of three reasons. -/
theorem create_cases (c : Canvas) (id : ElementId) (kind : ElementKind)
    (parents : List DrawnParent) (props : Json.Fields) :
    (id ∈ c.refusing ∧
      c.create id kind parents props = .error (.refused ("refused to draw " ++ id.name))) ∨
    (∃ h, .object h ∈ parents ∧ c.object? h = none ∧
      c.create id kind parents props = .error (.unknownHandle h)) ∨
    (id ∉ c.refusing ∧ ∃ e, placement kind parents = .error e ∧
      c.create id kind parents props = .error e) ∨
    (id ∉ c.refusing ∧ (∀ h, .object h ∈ parents → (c.object? h).isSome = true) ∧
      ∃ place, placement kind parents = .ok place ∧
        c.create id kind parents props =
          .ok (c.draw ⟨id, kind, parents, props, Element.flag props "visible" true, place⟩)) := by
  unfold create
  by_cases hr : id ∈ c.refusing
  · exact .inl ⟨hr, by simp [hr]⟩
  right
  cases hm : c.missingParent? parents with
  | some h =>
    left
    rcases List.exists_of_findSome?_eq_some hm with ⟨p, hp, hh⟩
    cases p with
    | number x => simp at hh
    | object h' =>
      cases hd : c.object? h' with
      | some d => simp [hd] at hh
      | none =>
        simp only [hd, Option.isNone_none, if_true, Option.some.injEq] at hh
        subst hh
        exact ⟨h', hp, hd, by simp [hr]⟩
  | none =>
    right
    have hlive : ∀ h, .object h ∈ parents → (c.object? h).isSome = true := by
      intro h hp
      have hh := List.findSome?_eq_none_iff.1 hm _ hp
      cases hd : c.object? h with
      | some d => rfl
      | none => simp [hd] at hh
    cases hp : placement kind parents with
    | error e => exact .inl ⟨hr, e, rfl, by simp [hr]⟩
    | ok place => exact .inr ⟨hr, hlive, place, rfl, by simp [hr]⟩

/-- The objects after one more has been drawn. -/
theorem object?_draw {c : Canvas} (hw : c.WellFormed) (d : Drawn) (h : Handle) :
    (c.draw d).1.object? h = if h = (c.draw d).2 then some d else c.object? h := by
  have hget : (c.draw d).1.object? h = (c.object? h).or (Table.get? [((c.draw d).2, d)] h) := by
    simp [draw, object?]
  rw [hget, Table.get?_cons]
  by_cases hh : h = (c.draw d).2
  · have hnone : c.object? h = none := by
      cases hd : c.object? h with
      | none => rfl
      | some d' =>
        have hle := hw.issued h d' hd
        rw [hh] at hle
        exact absurd hle (Nat.not_succ_le_self _)
    simp [← hh, hnone]
  · simp [hh, Ne.symm hh]

theorem WellFormed.draw {c : Canvas} (hw : c.WellFormed) {d : Drawn}
    (hlive : ∀ p, .object p ∈ d.parents → (c.object? p).isSome = true)
    (hplace : placement d.kind d.parents = .ok d.position) : (c.draw d).1.WellFormed where
  nodup := by
    have hk : (c.draw d).1.objects.keys = c.objects.keys ++ [(c.draw d).2] := by
      simp [Canvas.draw, Table.keys]
    rw [hk]
    refine List.Nodup.append hw.nodup (List.nodup_singleton _) ?_
    intro h hmem hh
    rw [List.mem_singleton.1 hh] at hmem
    rcases Option.isSome_iff_exists.1 (Table.isSome_get?_iff.2 hmem) with ⟨d', hd'⟩
    exact absurd (hw.issued _ d' hd') (Nat.not_succ_le_self _)
  issued h d' hd' := by
    have hl : (c.draw d).1.lastHandle = c.lastHandle + 1 := by simp [Canvas.draw]
    rw [object?_draw hw] at hd'
    split at hd'
    · next hh =>
      rw [hh, hl]
      exact Nat.le_refl _
    · have := hw.issued h d' hd'
      omega
  older h d' hd' p hp := by
    rw [object?_draw hw] at hd'
    split at hd'
    · next hh =>
      cases hd'
      rcases Option.isSome_iff_exists.1 (hlive p hp) with ⟨dp, hdp⟩
      rw [hh]
      exact Nat.lt_succ_of_le (hw.issued p dp hdp)
    · exact hw.older h d' hd' p hp
  placed h d' hd' := by
    rw [object?_draw hw] at hd'
    split at hd'
    · cases hd'
      exact ⟨d.position, hplace, rfl⟩
    · exact hw.placed h d' hd'

/-- A canvas with only some of the objects. -/
theorem WellFormed.restrict {c c' : Canvas} (hw : c.WellFormed) (p : Handle → Bool)
    (ho : c'.objects = c.objects.restrict p) (hl : c'.lastHandle = c.lastHandle) :
    c'.WellFormed := by
  have hobj : ∀ h d, c'.object? h = some d → c.object? h = some d := by
    intro h d hd
    rw [object?, ho, Table.get?_restrict] at hd
    split at hd
    · exact hd
    · cases hd
  exact
    { nodup := by
        rw [ho]
        exact Table.keys_restrict_nodup hw.nodup p
      issued := fun h d hd => by
        rw [hl]
        exact hw.issued h d (hobj h d hd)
      older := fun h d hd => hw.older h d (hobj h d hd)
      placed := fun h d hd => hw.placed h d (hobj h d hd) }

theorem wellFormed_empty (v : Viewport Float) : (empty v).WellFormed where
  nodup := List.nodup_nil
  issued _ _ hd := by cases hd
  older _ _ hd := by cases hd
  placed _ _ hd := by cases hd

end Canvas

end Chalkboard
