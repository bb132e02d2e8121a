import Mathlib.Data.List.Forall2
import Chalkboard.Proofs.Number.Equal

/-!
# Equal parents

Declared parents are compared entry by entry, numbers as numbers. Equal parents refer to the same
elements and make the same kinds of points; among parents with finite numbers the comparison is an
equivalence.
-/

namespace Chalkboard

namespace Parent

/-- Equal numbers, or references to one element. -/
inductive Same : Parent → Parent → Prop
  | number {x y : Float} (h : (x == y) = true) : Same (.number x) (.number y)
  | ref (id : ElementId) : Same (.ref id) (.ref id)

theorem beq_iff_same {p q : Parent} : (p == q) = true ↔ Same p q := by
  constructor
  · intro h
    cases p with
    | number x =>
      cases q with
      | number y => exact .number h
      | ref j => cases h
    | ref i =>
      cases q with
      | number y => cases h
      | ref j =>
        have hij : i = j := beq_iff_eq.1 h
        exact hij ▸ .ref i
  · intro h
    cases h with
    | number h => exact h
    | ref id => exact beq_self_eq_true id

theorem beq_iff_forall₂ {ps qs : List Parent} :
    (ps == qs) = true ↔ List.Forall₂ Same ps qs := by
  induction ps generalizing qs with
  | nil => cases qs <;> simp
  | cons p ps ih =>
    cases qs with
    | nil => simp
    | cons q qs => simp [ih, beq_iff_same]

theorem Same.symm {p q : Parent} (h : Same p q) : Same q p := by
  cases h with
  | number h => exact .number (Number.beq_symm h)
  | ref id => exact .ref id

theorem Same.trans {p q r : Parent} (h : Same p q) (h' : Same q r) : Same p r := by
  cases h with
  | number h =>
    cases h' with
    | number h' => exact .number (Number.beq_trans h h')
  | ref id => exact h'

section Lists

variable {ps qs rs : List Parent}

theorem beq_symm (h : (ps == qs) = true) : (qs == ps) = true := by
  rw [beq_iff_forall₂] at h ⊢
  exact h.flip.imp fun _ _ hpq => hpq.symm

theorem beq_trans (h : (ps == qs) = true) (h' : (qs == rs) = true) : (ps == rs) = true := by
  rw [beq_iff_forall₂] at h h' ⊢
  induction h generalizing rs with
  | nil => exact h'
  | cons hp _ ih =>
    cases h' with
    | cons hq h' => exact .cons (hp.trans hq) (ih h')

/-- Parents equal themselves if all their numbers are finite. -/
theorem beq_self (h : ∀ x, .number x ∈ ps → x.isFinite = true) : (ps == ps) = true := by
  rw [beq_iff_forall₂, List.forall₂_same]
  intro p hp
  cases p with
  | number x => exact .number (Number.beq_self (h x hp))
  | ref id => exact .ref id

/-- Equal parents refer to the same elements. -/
theorem refs_eq_of_beq (h : (ps == qs) = true) : refs ps = refs qs := by
  rw [beq_iff_forall₂] at h
  induction h with
  | nil => rfl
  | cons hp _ ih =>
    cases hp with
    | number h => exact ih
    | ref id => exact congrArg (id :: ·) ih

/-- Equal parents have the same references at the same places. -/
theorem getElem?_ref_of_beq (h : (ps == qs) = true) {i : Nat} {r : ElementId}
    (hi : ps[i]? = some (.ref r)) : qs[i]? = some (.ref r) := by
  rw [beq_iff_forall₂] at h
  induction h generalizing i with
  | nil => cases hi
  | cons hp _ ih =>
    cases i with
    | succ i => exact ih hi
    | zero =>
      cases hi
      cases hp
      rfl

end Lists

end Parent

/-! ## Finite numbers -/

/-- All coordinates of the element are finite. -/
def Element.IsFinite (e : Element) : Prop :=
  ∀ x, Parent.number x ∈ e.parents → x.isFinite = true

/-- The parent is no number that is not finite. -/
def Parent.isFinite : Parent → Bool
  | .number x => x.isFinite
  | .ref _ => true

instance (e : Element) : Decidable e.IsFinite :=
  decidable_of_iff (∀ p ∈ e.parents, p.isFinite = true)
    ⟨fun h x hx => h (.number x) hx, fun h p hp => match p with
      | .number x => h x hp
      | .ref _ => rfl⟩

/-! ## Points -/

theorem freePosition?_eq_some_iff {kind : ElementKind} {ps : List Parent} {x y : Float} :
    freePosition? kind ps = some (x, y) ↔ kind = .point ∧ ps = [.number x, .number y] := by
  constructor
  · intro h
    unfold freePosition? at h
    split at h
    · next x' y' =>
      cases h
      exact ⟨rfl, rfl⟩
    · cases h
  · rintro ⟨rfl, rfl⟩
    rfl

/-- A free point has two numbers as its parents. -/
theorem isSome_freePosition?_iff {kind : ElementKind} {ps : List Parent} :
    (freePosition? kind ps).isSome = true ↔
      kind = .point ∧ ∃ x y, ps = [.number x, .number y] := by
  rw [Option.isSome_iff_exists]
  constructor
  · rintro ⟨⟨x, y⟩, hxy⟩
    obtain ⟨hkind, hps⟩ := freePosition?_eq_some_iff.1 hxy
    exact ⟨hkind, x, y, hps⟩
  · rintro ⟨hkind, x, y, hps⟩
    exact ⟨(x, y), freePosition?_eq_some_iff.2 ⟨hkind, hps⟩⟩

/-- A point has exactly two coordinates, or glides on the element that it refers to first. -/
def Placeable (kind : ElementKind) (ps : List Parent) : Prop :=
  kind = .point → (∃ x y, ps = [.number x, .number y]) ∨ ∃ id rest, ps = .ref id :: rest

/-- The parents are compared in the same way from both sides. -/
theorem isSome_freePosition?_of_same {kind : ElementKind} {ps qs : List Parent}
    (h : List.Forall₂ Parent.Same ps qs) (hs : (freePosition? kind ps).isSome = true) :
    (freePosition? kind qs).isSome = true := by
  obtain ⟨rfl, x, y, rfl⟩ := isSome_freePosition?_iff.1 hs
  cases h with
  | cons hx h =>
    cases h with
    | cons hy h =>
      cases h
      cases hx
      cases hy
      rfl

/-- Equal parents make free points, or do not. -/
theorem isSome_freePosition?_eq_of_beq (kind : ElementKind) {ps qs : List Parent}
    (h : (ps == qs) = true) :
    (freePosition? kind ps).isSome = (freePosition? kind qs).isSome := by
  have h' := Parent.beq_symm h
  rw [Parent.beq_iff_forall₂] at h h'
  exact Bool.eq_iff_iff.2 ⟨isSome_freePosition?_of_same h, isSome_freePosition?_of_same h'⟩

/-- Equal parents are allowed for the same kinds. -/
theorem Placeable.of_beq {kind : ElementKind} {ps qs : List Parent} (h : (ps == qs) = true)
    (hp : Placeable kind ps) : Placeable kind qs := by
  intro hk
  rw [Parent.beq_iff_forall₂] at h
  rcases hp hk with ⟨x, y, rfl⟩ | ⟨id, rest, rfl⟩
  · cases h with
    | cons hx h =>
      cases h with
      | cons hy h =>
        cases h
        cases hx
        cases hy
        exact .inl ⟨_, _, rfl⟩
  · cases h with
    | cons hid h =>
      cases hid
      exact .inr ⟨_, _, rfl⟩

end Chalkboard
