/-!
# Tables

Values by key, in the order in which the keys were added. A key that is listed twice counts once,
with its first value; the tables of this library list each key once.
-/

namespace Chalkboard

/-- Values by key. -/
abbrev Table (κ β : Type) := List (κ × β)

namespace Table

variable {κ β : Type}

/-- The keys, in order. -/
def keys (t : Table κ β) : List κ :=
  t.map Prod.fst

/-- The table restricted to the keys that satisfy a test. -/
def restrict (t : Table κ β) (p : κ → Bool) : Table κ β :=
  t.filter fun entry => p entry.1

theorem restrict_cons (entry : κ × β) (t : Table κ β) (p : κ → Bool) :
    restrict (entry :: t) p = if p entry.1 then entry :: restrict t p else restrict t p := by
  by_cases h : p entry.1 <;> simp [restrict, h]

theorem restrict_restrict (t : Table κ β) (p q : κ → Bool) :
    restrict (restrict t p) q = restrict t fun k => q k && p k :=
  List.filter_filter ..

theorem mem_restrict {t : Table κ β} {p : κ → Bool} {entry : κ × β} :
    entry ∈ restrict t p ↔ entry ∈ t ∧ p entry.1 = true :=
  List.mem_filter

/-- Two tests that agree on the keys of a table restrict it alike. -/
theorem restrict_congr {t : Table κ β} {p q : κ → Bool} (h : ∀ entry ∈ t, p entry.1 = q entry.1) :
    restrict t p = restrict t q :=
  List.filter_congr h

@[simp] theorem restrict_true (t : Table κ β) : restrict t (fun _ => true) = t :=
  List.filter_eq_self.2 fun _ _ => rfl

theorem keys_restrict_nodup {t : Table κ β} (ht : (keys t).Nodup) (p : κ → Bool) :
    (keys (restrict t p)).Nodup :=
  ht.sublist (List.filter_sublist.map Prod.fst)

variable [DecidableEq κ]

/-- The value of a key. -/
def get? (t : Table κ β) (k : κ) : Option β :=
  (t.find? fun entry => entry.1 == k).map Prod.snd

/-- The table with another value for a key that it lists. -/
def replace (t : Table κ β) (k : κ) (v : β) : Table κ β :=
  t.map fun entry => if entry.1 = k then (k, v) else entry

/-! ## Looking up -/

@[simp] theorem get?_nil (k : κ) : get? ([] : Table κ β) k = none := rfl

theorem get?_cons (entry : κ × β) (t : Table κ β) (k : κ) :
    get? (entry :: t) k = if entry.1 = k then some entry.2 else get? t k := by
  by_cases h : entry.1 = k <;> simp [get?, h]

@[simp] theorem get?_append (t u : Table κ β) (k : κ) :
    get? (t ++ u) k = (get? t k).or (get? u k) := by
  simp [get?, List.find?_append, Option.map_or]

theorem get?_eq_none_iff {t : Table κ β} {k : κ} : get? t k = none ↔ k ∉ keys t := by
  induction t with
  | nil => simp [keys]
  | cons entry t ih =>
    rw [get?_cons]
    by_cases h : entry.1 = k
    · simp [keys, h]
    · have h' : k ≠ entry.1 := fun hk => h hk.symm
      simpa [keys, h, h'] using ih

theorem isSome_get?_iff {t : Table κ β} {k : κ} : (get? t k).isSome = true ↔ k ∈ keys t := by
  rw [← Option.ne_none_iff_isSome, ne_eq, get?_eq_none_iff, Decidable.not_not]

theorem mem_of_get? {t : Table κ β} {k : κ} {v : β} (h : get? t k = some v) : (k, v) ∈ t := by
  induction t with
  | nil => simp at h
  | cons entry t ih =>
    rw [get?_cons] at h
    split at h
    · next hk =>
      cases h
      exact List.mem_cons.2 (.inl (by rw [← hk]))
    · exact List.mem_cons_of_mem _ (ih h)

/-- A table that lists each key once has no other value for it. -/
theorem get?_of_mem {t : Table κ β} (ht : (keys t).Nodup) {k : κ} {v : β} (h : (k, v) ∈ t) :
    get? t k = some v := by
  induction t with
  | nil => cases h
  | cons entry t ih =>
    obtain ⟨hk, ht⟩ := List.nodup_cons.1 ht
    rw [get?_cons]
    rcases List.mem_cons.1 h with rfl | h
    · simp
    · have hne : entry.1 ≠ k := by
        intro he
        exact hk (he ▸ List.mem_map.2 ⟨(k, v), h, rfl⟩)
      rw [if_neg hne, ih ht h]

/-! ## Changing -/

@[simp] theorem keys_replace (t : Table κ β) (k : κ) (v : β) : keys (replace t k v) = keys t := by
  induction t with
  | nil => rfl
  | cons entry t ih =>
    by_cases h : entry.1 = k
    · simpa [keys, replace, h] using ih
    · simpa [keys, replace, h] using ih

theorem get?_replace (t : Table κ β) (k k' : κ) (v : β) :
    get? (replace t k v) k' = if k' = k then (get? t k).map fun _ => v else get? t k' := by
  induction t with
  | nil => simp [replace]
  | cons entry t ih =>
    have ih : get? (t.map fun entry => if entry.1 = k then (k, v) else entry) k' =
        if k' = k then (get? t k).map fun _ => v else get? t k' := ih
    rw [replace, List.map_cons, get?_cons, get?_cons, get?_cons, ih]
    by_cases h : entry.1 = k
    · by_cases h' : k' = k
      · simp [h, h']
      · simp [h, h', Ne.symm h']
    · by_cases h' : k' = k
      · simp [h, h']
      · simp [h, h']

/-- Replacing a value by itself changes nothing. -/
theorem replace_self {t : Table κ β} (ht : (keys t).Nodup) {k : κ} {v : β}
    (h : get? t k = some v) : replace t k v = t := by
  rw [replace, List.map_congr_left (g := id), List.map_id]
  intro entry hentry
  split
  · next hk =>
    have hv : get? t k = some entry.2 := get?_of_mem ht (by rw [← hk]; exact hentry)
    rw [h, Option.some.injEq] at hv
    rw [id, hv, ← hk]
  · rfl

@[simp] theorem get?_restrict (t : Table κ β) (p : κ → Bool) (k : κ) :
    get? (restrict t p) k = if p k then get? t k else none := by
  induction t with
  | nil => simp [restrict]
  | cons entry t ih =>
    rw [restrict_cons, get?_cons]
    by_cases hk : entry.1 = k
    · subst hk
      by_cases hp : p entry.1
      · simp [hp, get?_cons]
      · simp [hp, ih]
    · by_cases hp : p entry.1
      · simp [hp, hk, get?_cons, ih]
      · simp [hp, hk, ih]

end Table

end Chalkboard
