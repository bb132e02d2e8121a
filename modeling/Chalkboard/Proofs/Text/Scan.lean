import Chalkboard.Text.Scan

/-!
# What scanners read

A scanner reads a part of a text in front of the rest of it (`Scans`). Parts that are read one after
the other are put side by side (`Scans.bind`); a scanner that only looks ahead reads nothing
(`Scans.look`).
-/

namespace Chalkboard.Text

/-! ## Moving on -/

namespace Cursor

variable {c : Cursor} {cs rest : List Char}

theorem skip_skip (m n : Nat) (c : Cursor) : (c.skip m).skip n = c.skip (m + n) := by
  induction m generalizing c with
  | zero => rw [skip, Nat.zero_add]
  | succ m ih => rw [skip, ih, Nat.succ_add, skip]

theorem rest_skip_append (h : c.rest = cs ++ rest) : (c.skip cs.length).rest = rest := by
  rw [rest_skip, h, List.drop_left]

/-- Inside a line the column moves on. -/
theorem skip_line (hline : '\n' ∉ cs) (line column : Nat) :
    skip cs.length ⟨cs ++ rest, line, column⟩ = ⟨rest, line, column + cs.length⟩ := by
  induction cs generalizing column with
  | nil => rfl
  | cons d cs ih =>
    have hstep : step ⟨d :: (cs ++ rest), line, column⟩ = ⟨cs ++ rest, line, column + 1⟩ := by
      unfold step
      split
      · next heq => cases heq
      · next heq => exact absurd (List.cons.inj heq).1 fun hd => hline (hd ▸ List.mem_cons_self)
      · next heq => rw [(List.cons.inj heq).2]
    rw [List.length_cons, List.cons_append, skip, hstep,
      ih fun hmem => hline (List.mem_cons_of_mem d hmem)]
    rw [Nat.add_assoc, Nat.add_comm 1]

end Cursor

/-! ## How a text begins -/

section Begins

variable {p q : Char → Bool} {cs : List Char} {d : Char}

/-- The text begins with a character of a kind. -/
def Begins (p : Char → Bool) (cs : List Char) : Prop :=
  cs.head?.any p = true

theorem Begins.cons_eq (h : Begins p cs) : ∃ c rest, cs = c :: rest ∧ p c = true := by
  cases cs with
  | nil => cases h
  | cons c rest => exact ⟨c, rest, rfl, h⟩

theorem begins_of_forall (hne : cs ≠ []) (h : ∀ c ∈ cs, p c = true) : Begins p cs := by
  obtain ⟨c, rest, rfl⟩ := List.exists_cons_of_ne_nil hne
  exact h c List.mem_cons_self

theorem Begins.append (h : Begins p cs) (rest : List Char) : Begins p (cs ++ rest) := by
  obtain ⟨c, cs, rfl, hc⟩ := h.cons_eq
  exact hc

theorem Begins.imp (h : Begins p cs) (hpq : ∀ c, p c = true → q c = true) : Begins q cs := by
  obtain ⟨c, cs, rfl, hc⟩ := h.cons_eq
  exact hpq c hc

theorem Begins.ne (h : Begins p cs) (hd : p d = false) : cs.head? ≠ some d := by
  intro hhead
  rw [Begins, hhead, Option.any_some, hd] at h
  cases h

theorem Begins.not_prefix (h : Begins p cs) (hd : p d = false) (ds : List Char) :
    ¬ d :: ds <+: cs :=
  fun ⟨_, hpre⟩ => h.ne hd (hpre ▸ rfl)

/-- No character of another kind comes next. -/
theorem Begins.stops (h : Begins p cs) (hpq : ∀ c, q c = true → p c = false) :
    cs.head?.all (!q ·) = true := by
  obtain ⟨c, cs, rfl, hc⟩ := h.cons_eq
  rw [List.head?_cons, Option.all_some, Bool.not_eq_true', Bool.eq_false_iff]
  intro hq
  rw [hpq c hq] at hc
  cases hc

end Begins

/-! ## Reading a part of a text -/

section Scans

variable {α β : Type} {s : Scan α} {a : α} {cs ds rest : List Char}

/-- The scanner reads the part `cs` as `a` in front of the rest. -/
def Scans (s : Scan α) (cs : List Char) (a : α) (rest : List Char) : Prop :=
  ∀ c : Cursor, c.rest = cs ++ rest → s.run c = some (a, c.skip cs.length)

namespace Scans

theorem pure (a : α) (rest : List Char) : Scans (Pure.pure a) [] a rest :=
  fun _ _ => rfl

theorem bind {f : α → Scan β} {b : β} (hs : Scans s cs a (ds ++ rest))
    (hf : Scans (f a) ds b rest) : Scans (s >>= f) (cs ++ ds) b rest := by
  intro c hc
  rw [List.append_assoc] at hc
  have hfirst := hs c hc
  have hthen := hf (c.skip cs.length) (Cursor.rest_skip_append hc)
  rw [Cursor.skip_skip, ← List.length_append] at hthen
  exact Option.bind_eq_some_iff.2 ⟨_, hfirst, hthen⟩

/-- Looking ahead reads nothing. -/
theorem look {f : α → Scan β} {b : β} (hs : Scans s [] a (cs ++ rest))
    (hf : Scans (f a) cs b rest) : Scans (s >>= f) cs b rest :=
  bind hs hf

/-- Nothing more is read. -/
theorem last {f : α → Scan β} {b : β} (hs : Scans s cs a rest) (hf : Scans (f a) [] b rest) :
    Scans (s >>= f) cs b rest := by
  have hboth : Scans (s >>= f) (cs ++ []) b rest := bind hs hf
  rwa [List.append_nil] at hboth

/-- What is read last may be put into shape. -/
theorem map {b : β} (hs : Scans s cs a rest) {f : α → Scan β} (hf : f a = Pure.pure b) :
    Scans (s >>= f) cs b rest :=
  last hs (hf ▸ pure b rest)

theorem rest_look (cs : List Char) : Scans Scan.rest [] cs cs := by
  rintro ⟨_, line, column⟩ rfl
  rfl

theorem peek?_look (cs : List Char) : Scans Scan.peek? [] cs.head? cs := by
  rintro ⟨_, line, column⟩ rfl
  rfl

theorem skip (cs rest : List Char) : Scans (Scan.skip cs.length) cs () rest :=
  fun _ _ => rfl

theorem next (d : Char) (rest : List Char) : Scans Scan.next [d] d rest := by
  rintro ⟨_, line, column⟩ rfl
  rfl

theorem accept (cs rest : List Char) : Scans (Scan.accept cs) cs true rest := by
  rintro ⟨_, line, column⟩ rfl
  have hnext : cs.isPrefixOf (cs ++ rest) = true :=
    List.isPrefixOf_iff_prefix.2 (List.prefix_append cs rest)
  show (if cs.isPrefixOf (cs ++ rest) then Scan.skip cs.length >>= fun _ => Pure.pure true
    else Pure.pure false : Scan Bool) _ = _
  rw [if_pos hnext]
  rfl

theorem accept_else (h : ¬ ds <+: rest) : Scans (Scan.accept ds) [] false rest := by
  rintro ⟨text, line, column⟩ rfl
  have hnext : ¬ ds.isPrefixOf text = true := fun hds => h (List.isPrefixOf_iff_prefix.1 hds)
  show (if ds.isPrefixOf text then Scan.skip ds.length >>= fun _ => Pure.pure true
    else Pure.pure false : Scan Bool) _ = _
  rw [if_neg hnext]
  rfl

theorem expect (cs rest : List Char) : Scans (Scan.expect cs) cs () rest :=
  map (accept cs rest) (if_pos rfl)

theorem takeWhile {p : Char → Bool} (hp : ∀ c ∈ cs, p c = true)
    (hrest : rest.head?.all (!p ·) = true) : Scans (Scan.takeWhile p) cs cs rest := by
  intro c hc
  have hstop : rest.takeWhile p = [] := by
    cases rest with
    | nil => rfl
    | cons d rest =>
      have hd : p d = false := by simpa using hrest
      simp [hd]
  have htaken : c.rest.takeWhile p = cs := by
    rw [hc, List.takeWhile_append_of_pos hp, hstop, List.append_nil]
  show some (c.rest.takeWhile p, c.skip (c.rest.takeWhile p).length) = _
  rw [htaken]

/-- Inside a line the part is read from column to column. -/
theorem line (h : Scans s cs a rest) (hline : '\n' ∉ cs) (line column : Nat) :
    s.run ⟨cs ++ rest, line, column⟩ = some (a, ⟨rest, line, column + cs.length⟩) := by
  rw [← Cursor.skip_line hline]
  exact h ⟨cs ++ rest, line, column⟩ rfl

/-- A whole text is read. -/
theorem run? (h : Scans s cs a []) : s.run? cs = some a := by
  have hfinish : Scans Scan.finish [] () [] := by
    rintro ⟨_, line, column⟩ rfl
    rfl
  have hend : Scans (do Scan.finish; return a) [] a [] := look hfinish (pure a [])
  have hall : Scans (do let a ← s; Scan.finish; return a) cs a [] := last h hend
  exact Option.map_eq_some_iff.2 ⟨_, hall (Cursor.start cs) (List.append_nil cs).symm, rfl⟩

end Scans

end Scans

end Chalkboard.Text
