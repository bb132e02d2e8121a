import Chalkboard.Text.Blank

/-!
# Splitting and trimming texts

A text is split at the first place where the separator stands, so a part in front that gives it no
place to stand is passed over (`splitOnce?_append`). Blanks around a text that neither starts nor ends
with one are trimmed away (`trimChars_append`).
-/

namespace Chalkboard.Text

variable {pat pre more : List Char}

/-- Where the separator cannot start in the part in front, it is looked for behind that. -/
theorem splitOnce?_append
    (h : ∀ s, s <:+ pre → s ≠ [] → ¬ pat <+: s ++ more) :
    splitOnce? pat (pre ++ more) =
      (splitOnce? pat more).map fun (before, after) => (pre ++ before, after) := by
  induction pre with
  | nil => simp
  | cons c pre ih =>
    have hhead : dropPrefix? pat (c :: (pre ++ more)) = none := by
      rw [Option.eq_none_iff_forall_ne_some]
      intro rest hrest
      refine h (c :: pre) (List.suffix_refl _) nofun ⟨rest, ?_⟩
      exact (dropPrefix?_eq_some_iff.1 hrest).symm
    have htail := ih fun s hs hne => h s (hs.trans (List.suffix_cons c pre)) hne
    rw [List.cons_append, splitOnce?, hhead, htail]
    cases splitOnce? pat more <;> rfl

/-- At its first place the separator is found. -/
theorem splitOnce?_self (hpat : pat ≠ []) (after : List Char) :
    splitOnce? pat (pat ++ after) = some ([], after) := by
  cases pat with
  | nil => exact absurd rfl hpat
  | cons p pat =>
    have hdrop := dropPrefix?_eq_some_iff.2 (rfl : p :: pat ++ after = (p :: pat) ++ after)
    rw [List.cons_append] at hdrop ⊢
    rw [splitOnce?, hdrop]

/-- A separator that stands nowhere is not found. -/
theorem splitOnce?_eq_none (h : ¬ pat <:+: pre) : splitOnce? pat pre = none := by
  cases hsplit : splitOnce? pat pre with
  | none => rfl
  | some parts =>
    obtain ⟨before, after⟩ := parts
    exact absurd ⟨before, after, (eq_append_of_splitOnce? hsplit).symm⟩ h

/-- Blanks around a text are trimmed away. -/
theorem trimChars_append {before cs after : List Char} (hbefore : ∀ c ∈ before, isBlank c = true)
    (hafter : ∀ c ∈ after, isBlank c = true) (hhead : cs.head?.any (!isBlank ·) = true)
    (hlast : cs.getLast?.any (!isBlank ·) = true) : trimChars (before ++ (cs ++ after)) = cs := by
  have hstart : (before ++ (cs ++ after)).dropWhile isBlank = cs ++ after := by
    rw [List.dropWhile_append_of_pos hbefore]
    cases cs with
    | nil => cases hhead
    | cons c cs =>
      have hc : isBlank c = false := by simpa using hhead
      simp [hc]
  have hend : ((cs ++ after).reverse).dropWhile isBlank = cs.reverse := by
    rw [List.reverse_append, List.dropWhile_append_of_pos fun c hc => hafter c (List.mem_reverse.1 hc)]
    rw [← List.head?_reverse] at hlast
    cases hcs : cs.reverse with
    | nil =>
      rw [hcs] at hlast
      cases hlast
    | cons c rest =>
      rw [hcs] at hlast
      have hc : isBlank c = false := by simpa using hlast
      simp [hc]
  rw [trimChars, hstart, hend, List.reverse_reverse]

end Chalkboard.Text
