import Mathlib.Data.List.Forall2
import Chalkboard.Proofs.Scene.Order

/-!
# Changing a scene in place

The changes of a scene as programs that write to it step by step. A check that fails ends such a
program, and what was written before it would stay: `Scene.Edit` keeps the scene when it throws, and
does not put it back. Each program does what the change in one piece does, and where that fails it
leaves the scene as it found it (`Edit.run_insert` and its kin), as all checks come before the first
step that writes.

`Scene.Edited.reliable` says what this comes to for every scene that such programs lead to, whether
they fail or not: ids are distinct, the index gives exactly their places, a failed change leaves no
trace, and all others are counted once.
-/

namespace Chalkboard

namespace Scene

/-- A program that changes a scene in place. One that fails keeps what was written before. -/
abbrev Edit (α : Type) := EStateM SceneError Scene α

namespace Edit

/-! ## The programs -/

/-- Counts one more change. -/
def count : Edit Unit :=
  modify fun s => { s with revision := s.revision + 1 }

/-- Builds the index anew. -/
def reindex : Edit Unit :=
  modify fun s => { s with index := indexOf s.elements }

/-- Gives an element the next place, and adds it at the end of the list. -/
def push (e : Element) : Edit Unit := do
  modify fun s => { s with index := s.index.insert e.id s.elements.length }
  modify fun s => { s with elements := s.elements ++ [e] }
  count

/-- Adds an element. -/
def insert (e : Element) : Edit Unit := do
  let s ← get
  if s.contains e.id then
    throw (.duplicateId e.id)
  if let some parent := e.refs.find? fun p => !s.contains p then
    throw (.danglingParent e.id parent)
  push e

/-- Replaces all elements. -/
def replaceAll (elements : List Element) : Edit Unit := do
  if let some id := firstRepeated? [] (elements.map Element.id) then
    throw (.duplicateId id)
  modify fun s => { s with elements }
  reindex
  count

/-- Removes all elements. -/
def clear : Edit Unit := do
  modify fun s => { s with elements := [] }
  modify fun s => { s with index := ∅ }
  count

/-- The place and the element of an id. -/
def find (id : ElementId) : Edit (Nat × Element) := do
  let s ← get
  match s.index[id]? with
  | none => throw (.notFound id)
  | some i =>
    match s.elements[i]? with
    -- the index never names a place beyond the list
    | none => throw (.notFound id)
    | some e => return (i, e)

/-- Puts an element at a place of the list. -/
def write (i : Nat) (e : Element) : Edit Unit :=
  modify fun s => { s with elements := s.elements.set i e }

/-- Moves a free point. -/
def setPosition (id : ElementId) (x y : Float) : Edit Unit := do
  let (i, e) ← find id
  if e.position?.isNone then
    throw (.notAFreePoint id)
  write i { e with parents := [.number x, .number y] }
  count

/-- Sets whether an element is visible. -/
def setVisibility (id : ElementId) (visible : Bool) : Edit Unit := do
  let (i, e) ← find id
  write i { e with props := e.props.insert "visible" (.bool visible) }
  count

/-- Places a free point under the first candidate that is no id yet. -/
def placePoint (candidates : Nat → ElementId) (x y : Float) : Edit ElementId := do
  let id := (← get).freshId candidates
  push (.freePoint id x y)
  return id

/-- Deletes an element with its closure, which is returned. -/
def deleteCascade (id : ElementId) : Edit (List ElementId) := do
  let doomed := (← get).closure id
  -- the closure of an id holds at least the id itself, if it is there
  if doomed.isEmpty then
    throw (.notFound id)
  modify fun s => { s with elements := s.elements.filter fun e => !doomed.contains e.id }
  reindex
  count
  return doomed

/-- Carries out a change. -/
def apply : Mutation → Edit Unit
  | .movePoint id x y => setPosition id x y
  | .setVisibility id visible => setVisibility id visible
  | .delete id => do
    let _ ← deleteCascade id

/-! ## What they do

Each does what the change in one piece does, and nothing at all where that fails. -/

/-- The end of a program that leaves no trace if it fails. -/
def settled {α : Type} (s : Scene) :
    Except SceneError (Scene × α) → EStateM.Result SceneError Scene α
  | .ok (s', a) => .ok a s'
  | .error e => .error e s

section Run

variable (s : Scene)

theorem run_push (e : Element) : (push e).run s = .ok () (s.push e) := rfl

theorem run_insert (e : Element) :
    (insert e).run s = settled s ((s.insert e).map (·, ())) := by
  rw [Scene.insert]
  cases hnew : s.contains e.id with
  | true => simp [insert, hnew, settled, Except.map]
  | false =>
    cases hmissing : e.refs.find? fun p => !s.contains p with
    | some p => simp [insert, hnew, hmissing, settled, Except.map]
    | none => simp [insert, hnew, hmissing, settled, Except.map, run_push]

theorem run_replaceAll (elements : List Element) :
    (replaceAll elements).run s = settled s ((s.replaceAll elements).map (·, ())) := by
  rw [Scene.replaceAll]
  cases hrepeated : firstRepeated? [] (elements.map Element.id) with
  | some id => simp [replaceAll, hrepeated, settled, Except.map]
  | none => simp [replaceAll, hrepeated, settled, Except.map, reindex, count]

theorem run_find (id : ElementId) : (find id).run s =
    match s.index[id]? with
    | none => .error (.notFound id) s
    | some i =>
      match s.elements[i]? with
      | none => .error (.notFound id) s
      | some e => .ok (i, e) s := by
  simp only [find, EStateM.run_bind, EStateM.run_get]
  cases s.index[id]? with
  | none => rfl
  | some i =>
    dsimp only
    cases s.elements[i]? <;> rfl

/-- Looking an element up and then writing it is a change of that element. -/
theorem run_find_bind (id : ElementId) (f : Element → Except SceneError Element)
    {p : Nat × Element → Edit Unit}
    (hp : ∀ i e, (p (i, e)).run s = settled s ((f e).map fun e' =>
      ({ s with elements := s.elements.set i e', revision := s.revision + 1 }, ()))) :
    (find id >>= p).run s = settled s ((s.update id f).map (·, ())) := by
  rw [EStateM.run_bind, run_find, update]
  cases s.index[id]? with
  | none => rfl
  | some i =>
    dsimp only
    cases s.elements[i]? with
    | none => rfl
    | some e =>
      dsimp only
      rw [hp]
      cases f e <;> rfl

theorem run_setPosition (id : ElementId) (x y : Float) :
    (setPosition id x y).run s = settled s ((s.setPosition id x y).map (·, ())) := by
  refine run_find_bind s id _ fun i e => ?_
  cases hp : e.position? with
  | none => simp [hp, settled, Except.map]
  | some xy => simp [hp, write, count, settled, Except.map]

theorem run_setVisibility (id : ElementId) (visible : Bool) :
    (setVisibility id visible).run s = settled s ((s.setVisibility id visible).map (·, ())) :=
  run_find_bind s id _ fun _ _ => rfl

theorem run_deleteCascade (id : ElementId) :
    (deleteCascade id).run s = settled s (s.deleteCascade id) := by
  rw [Scene.deleteCascade]
  cases hdoomed : s.closure id with
  | nil => simp [deleteCascade, hdoomed, settled]
  | cons first rest =>
    simp only [deleteCascade, EStateM.run_bind, EStateM.run_get, hdoomed, List.isEmpty_cons,
      Bool.false_eq_true, if_false]
    rfl

theorem run_apply (m : Mutation) : (apply m).run s = settled s ((s.apply m).map (·, ())) := by
  cases m with
  | movePoint id x y => exact run_setPosition s id x y
  | setVisibility id visible => exact run_setVisibility s id visible
  | delete id =>
    simp only [apply, EStateM.run_bind, run_deleteCascade, Scene.apply]
    cases s.deleteCascade id <;> rfl

end Run

/-- The scene that a program leaves behind, whether it fails or not. -/
def after {α : Type} (p : Edit α) (s : Scene) : Scene :=
  match p.run s with
  | .ok _ s' => s'
  | .error _ s' => s'

end Edit

end Scene

/-! ## Every change -/

/-- Any change of a scene: one that checks what it is given, or of all elements at once. -/
inductive SceneEdit where
  | change (c : SceneChange)
  | replaceAll (elements : List Element)

/-- The program for a change. What it returns besides is left out. -/
def SceneEdit.perform : SceneEdit → Scene.Edit Unit
  | .change (.insert e) => .insert e
  | .change (.placePoint candidates x y) => do
    let _ ← Scene.Edit.placePoint candidates x y
  | .change (.setPosition id x y) => .setPosition id x y
  | .change (.setVisibility id visible) => .setVisibility id visible
  | .change (.deleteCascade id) => do
    let _ ← Scene.Edit.deleteCascade id
  | .change (.apply m) => .apply m
  | .change .clear => .clear
  | .replaceAll elements => .replaceAll elements

namespace Scene

/-- The same change in one piece. -/
def outcome (s : Scene) : SceneEdit → Except SceneError Scene
  | .change (.insert e) => s.insert e
  | .change (.placePoint candidates x y) => .ok (s.placePoint candidates x y).1
  | .change (.setPosition id x y) => s.setPosition id x y
  | .change (.setVisibility id visible) => s.setVisibility id visible
  | .change (.deleteCascade id) => (s.deleteCascade id).map Prod.fst
  | .change (.apply m) => s.apply m
  | .change .clear => .ok s.clear
  | .replaceAll elements => s.replaceAll elements

/-- A point is placed under an id that is new; nothing is asked of the other changes. -/
def Admits (s : Scene) : SceneEdit → Prop
  | .change (.placePoint candidates _ _) => s.contains (s.freshId candidates) = false
  | _ => True

/-- The scenes that changes lead to, failed ones among them. -/
inductive Edited : Scene → Prop
  | empty : Edited .empty
  | call {s : Scene} (h : Edited s) {c : SceneEdit} (hc : s.Admits c) :
      Edited (c.perform.after s)

section Outcome

variable {s s' : Scene}

theorem run_perform (s : Scene) (c : SceneEdit) :
    c.perform.run s = Edit.settled s ((s.outcome c).map (·, ())) := by
  rcases c with c | elements
  · cases c with
    | insert e => exact Edit.run_insert s e
    | placePoint candidates x y => rfl
    | setPosition id x y => exact Edit.run_setPosition s id x y
    | setVisibility id visible => exact Edit.run_setVisibility s id visible
    | deleteCascade id =>
      simp only [SceneEdit.perform, outcome, EStateM.run_bind, Edit.run_deleteCascade]
      cases s.deleteCascade id <;> rfl
    | apply m => exact Edit.run_apply s m
    | clear => rfl
  · exact Edit.run_replaceAll s elements

/-- A program does what the change in one piece does, or fails with it and leaves the scene as it
was. -/
theorem perform_cases (s : Scene) (c : SceneEdit) :
    (∃ s', s.outcome c = .ok s' ∧ c.perform.run s = .ok () s') ∨
      ∃ error, s.outcome c = .error error ∧ c.perform.run s = .error error s := by
  rw [run_perform]
  cases s.outcome c with
  | ok s' => exact .inl ⟨s', rfl, rfl⟩
  | error error => exact .inr ⟨error, rfl, rfl⟩

theorem eq_of_perform_error {c : SceneEdit} {error : SceneError}
    (h : c.perform.run s = .error error s') : s' = s := by
  rcases perform_cases s c with ⟨s₁, -, hrun⟩ | ⟨error', -, hrun⟩
  · rw [hrun] at h
    cases h
  · rw [hrun] at h
    cases h
    rfl

theorem outcome_of_perform_ok {c : SceneEdit} (h : c.perform.run s = .ok () s') :
    s.outcome c = .ok s' := by
  rcases perform_cases s c with ⟨s₁, hok, hrun⟩ | ⟨error, -, hrun⟩
  · rw [hrun] at h
    cases h
    exact hok
  · rw [hrun] at h
    cases h

/-! What succeeds is counted once. -/

theorem revision_update {id : ElementId} {f : Element → Except SceneError Element}
    (h : s.update id f = .ok s') : s'.revision = s.revision + 1 := by
  obtain ⟨i, e, e', -, -, -, rfl⟩ := update_eq_ok_iff.1 h
  rfl

theorem revision_deleteCascade {id : ElementId} {doomed : List ElementId}
    (h : s.deleteCascade id = .ok (s', doomed)) : s'.revision = s.revision + 1 := by
  rw [Scene.deleteCascade] at h
  split at h
  · cases h
  · cases h
    rfl

theorem revision_apply {m : Mutation} (h : s.apply m = .ok s') :
    s'.revision = s.revision + 1 := by
  cases m with
  | movePoint id x y => exact revision_update h
  | setVisibility id visible => exact revision_update h
  | delete id =>
    rw [Scene.apply] at h
    cases hd : s.deleteCascade id with
    | error error =>
      rw [hd] at h
      cases h
    | ok result =>
      rw [hd] at h
      cases h
      exact revision_deleteCascade hd

theorem revision_replaceAll {elements : List Element} (h : s.replaceAll elements = .ok s') :
    s'.revision = s.revision + 1 := by
  rw [Scene.replaceAll] at h
  split at h
  · cases h
  · cases h
    rfl

theorem revision_outcome {c : SceneEdit} (h : s.outcome c = .ok s') :
    s'.revision = s.revision + 1 := by
  rcases c with c | elements
  · cases c with
    | insert e =>
      obtain ⟨-, -, rfl⟩ := insert_eq_ok_iff.1 h
      rfl
    | placePoint candidates x y =>
      cases h
      rfl
    | setPosition id x y => exact revision_update h
    | setVisibility id visible => exact revision_update h
    | deleteCascade id => exact revision_apply (m := .delete id) h
    | apply m => exact revision_apply h
    | clear =>
      cases h
      rfl
  · exact revision_replaceAll h

theorem Consistent.outcome (hs : s.Consistent) {c : SceneEdit} (hc : s.Admits c)
    (h : s.outcome c = .ok s') : s'.Consistent := by
  rcases c with c | elements
  · cases c with
    | insert e =>
      obtain ⟨hnew, -, rfl⟩ := insert_eq_ok_iff.1 h
      exact hs.push hnew
    | placePoint candidates x y =>
      cases h
      exact hs.push hc
    | setPosition id x y => exact hs.apply (m := .movePoint id x y) h
    | setVisibility id visible => exact hs.apply (m := .setVisibility id visible) h
    | deleteCascade id => exact hs.apply (m := .delete id) h
    | apply m => exact hs.apply h
    | clear =>
      cases h
      exact consistent_empty
  · exact Consistent.replaceAll h

/-- Whatever changes lead to is consistent. -/
theorem Edited.consistent (h : s.Edited) : s.Consistent := by
  induction h with
  | empty => exact consistent_empty
  | @call s h c hc ih =>
    rcases perform_cases s c with ⟨s', hok, hrun⟩ | ⟨error, -, hrun⟩
    · rw [Edit.after, hrun]
      exact ih.outcome hc hok
    · rw [Edit.after, hrun]
      exact ih

end Outcome

/-! ## One element -/

/-- `s'` is `s` with another element in place of the one with this id, which `R` relates it to. -/
structure Touches (id : ElementId) (R : Element → Element → Prop) (s s' : Scene) : Prop where
  named : s.contains id = true
  index : s'.index = s.index
  elements : List.Forall₂ (fun e e' => if e.id = id then R e e' else e' = e) s.elements s'.elements

/-- The element has other coordinates. -/
def Moved (x y : Float) (e e' : Element) : Prop :=
  e' = { e with parents := [.number x, .number y] }

/-- The element has another setting `visible`. -/
structure Shown (visible : Bool) (e e' : Element) : Prop where
  rest : e' = { e with props := e'.props }
  visible : e'.props.get? "visible" = some (.bool visible)
  others : ∀ name, name ≠ "visible" → e'.props.get? name = e.props.get? name

section Touches

variable {s s' : Scene}

/-- In a consistent scene, changing the element with an id in place touches no other. -/
theorem Consistent.touches (hs : s.Consistent) {id : ElementId} {R : Element → Element → Prop}
    {f : Element → Except SceneError Element} (hR : ∀ e e', f e = .ok e' → R e e')
    (h : s.update id f = .ok s') : Touches id R s s' := by
  obtain ⟨i, e, e', hi, he, hf, rfl⟩ := update_eq_ok_iff.1 h
  obtain ⟨e₁, he₁, hid⟩ := (hs id i).1 hi
  rw [he, Option.some.injEq] at he₁
  subst he₁
  refine ⟨hs.contains_iff.2 ⟨e, List.mem_of_getElem? he, hid⟩, rfl, ?_⟩
  refine List.forall₂_iff_get.2 ⟨List.length_set.symm, fun j hj hj' => ?_⟩
  simp only [List.get_eq_getElem, List.getElem_set]
  obtain ⟨hlt, hget⟩ := List.getElem?_eq_some_iff.1 he
  split
  · next hsame =>
    -- an id has one place
    have hplace := (hs id j).2 ⟨s.elements[j], List.getElem?_eq_getElem hj, hsame⟩
    rw [hi, Option.some.injEq] at hplace
    subst hplace
    rw [if_pos rfl, hget]
    exact hR e e' hf
  · next hother =>
    rw [if_neg]
    rintro rfl
    exact hother (hget ▸ hid)

theorem Consistent.touches_setPosition (hs : s.Consistent) {id : ElementId} {x y : Float}
    (h : s.setPosition id x y = .ok s') : Touches id (Moved x y) s s' := by
  refine hs.touches (fun e e' hf => ?_) h
  split at hf
  · exact (Except.ok.inj hf).symm
  · cases hf

theorem Consistent.touches_setVisibility (hs : s.Consistent) {id : ElementId} {visible : Bool}
    (h : s.setVisibility id visible = .ok s') : Touches id (Shown visible) s s' := by
  refine hs.touches (fun e e' hf => ?_) h
  cases hf
  exact ⟨rfl, Json.Fields.get?_insert_self .., fun name hne =>
    Json.Fields.get?_insert_of_ne _ hne _⟩

end Touches

/-! ## All changes -/

/-- What can be relied on in a scene: its index, and what the next change does to it. -/
structure Reliable (s : Scene) : Prop where
  distinct : (s.elements.map Element.id).Nodup
  /-- The index gives exactly the place of each id. -/
  places : ∀ id i, s.index[id]? = some i ↔ ∃ e : Element, s.elements[i]? = some e ∧ e.id = id
  contains : ∀ id, s.contains id = true ↔ ∃ e ∈ s.elements, e.id = id
  get : ∀ id e, s.get? id = some e ↔ e ∈ s.elements ∧ e.id = id
  failed : ∀ (c : SceneEdit) error s', c.perform.run s = .error error s' → s' = s
  counted : ∀ (c : SceneEdit) s', c.perform.run s = .ok () s' → s'.revision = s.revision + 1
  moved : ∀ id x y s', (Edit.setPosition id x y).run s = .ok () s' → Touches id (Moved x y) s s'
  shown : ∀ id visible s', (Edit.setVisibility id visible).run s = .ok () s' →
    Touches id (Shown visible) s s'

/-- However a scene has come about, ids are distinct and found by the index where they are, a change
that fails leaves no trace, one that succeeds is counted once, and moving or showing an element
touches nothing else. -/
theorem Edited.reliable {s : Scene} (h : s.Edited) : s.Reliable := by
  have hs := h.consistent
  exact
    { distinct := hs.ids_nodup
      places := hs
      contains := fun id => hs.contains_iff
      get := fun id e => hs.get?_eq_some_iff
      failed := fun c error s' hrun => eq_of_perform_error hrun
      counted := fun c s' hrun => revision_outcome (outcome_of_perform_ok hrun)
      moved := fun id x y s' hrun => hs.touches_setPosition
        (outcome_of_perform_ok (c := .change (.setPosition id x y)) hrun)
      shown := fun id visible s' hrun => hs.touches_setVisibility
        (outcome_of_perform_ok (c := .change (.setVisibility id visible)) hrun) }

/-- A point cannot be added under an id that is there already, and the old one stays. -/
theorem Edited.reliable_sample :
    let elements : List Element :=
      [.freePoint ⟨"p"⟩ 0 0, .freePoint ⟨"q"⟩ 4 3, .new ⟨"s"⟩ .segment [.ref ⟨"p"⟩, .ref ⟨"q"⟩]]
    let drawn := (SceneEdit.replaceAll elements).perform.after .empty
    let s := (SceneEdit.change (.insert (.freePoint ⟨"q"⟩ 1 1))).perform.after drawn
    s.Edited ∧ s.elements = elements ∧ s.revision = 1 ∧
      s.get? ⟨"q"⟩ = some (.freePoint ⟨"q"⟩ 4 3) := by
  intro elements drawn s
  have hdrawn : drawn.Edited := Edited.empty.call trivial
  have hq : .freePoint ⟨"q"⟩ 4 3 ∈ drawn.elements := List.mem_cons_of_mem _ (List.mem_cons_self ..)
  have hcontains : drawn.contains ⟨"q"⟩ = true := (hdrawn.reliable.contains ⟨"q"⟩).2 ⟨_, hq, rfl⟩
  have hsame : s = drawn := by
    simp [s, Edit.after, SceneEdit.perform, Edit.run_insert, Scene.insert, Element.freePoint,
      Element.new, hcontains, Except.map, Edit.settled]
  rw [hsame]
  exact ⟨hdrawn, rfl, rfl, (hdrawn.reliable.get _ _).2 ⟨hq, rfl⟩⟩

end Scene

end Chalkboard
