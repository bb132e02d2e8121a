import Mathlib.Tactic.SplitIfs
import Chalkboard.Proofs.Text.Digits
import Chalkboard.Proofs.Text.Scan
import Chalkboard.Toml.Literal
import Chalkboard.Toml.Writer

/-!
# Strings in TOML

A written string is read back, whichever of the four styles it is written in (`scans_writeString`).
-/

namespace Chalkboard.Toml

open Text

/-! ## Escapes -/

theorem scans_codePoint {cs rest : List Char} {n : Nat} (hn : numberIn? 16 cs = some n)
    (hvalid : n < 0xd800) : Scans (codePoint cs.length) cs (Char.ofNat n) rest := by
  refine Scans.look (Scans.rest_look (cs ++ rest)) ?_
  have hdigits : (cs ++ rest).take cs.length = cs := List.take_left
  dsimp only
  rw [hdigits, hn]
  dsimp only
  rw [if_pos (by simp [hvalid])]
  exact Scans.map (Scans.skip cs rest) rfl

/-- The escape behind a backslash stands for `c`, and does not begin like a line break. -/
def Escapes (w : List Char) (c : Char) : Prop :=
  w.head?.any (fun e => e != ' ' && e != '\t' && e != '\n' && e != '\r') = true ∧
    ∀ rest, Scans escape w c rest

/-- A character of a string with escapes is written as it is, or by an escape that stands for it. -/
theorem escaped_cases (block : Bool) (c : Char) :
    (escaped block c = [c] ∧ c ≠ '"' ∧ c ≠ '\\' ∧
      (isText c = true ∨ block = true ∧ c = '\n')) ∨
    ∃ w, escaped block c = '\\' :: w ∧ Escapes w c := by
  have hcode {n : Nat} (h : c.toNat = n) : Char.ofNat n = c := h ▸ Char.ofNat_toNat c
  have hshort {e : Char} (he : (fun e => e != ' ' && e != '\t' && e != '\n' && e != '\r') e = true)
      (hscans : ∀ rest, Scans escape [e] c rest) :
      ∃ w, ['\\', e] = '\\' :: w ∧ Escapes w c := ⟨[e], rfl, he, hscans⟩
  unfold escaped
  split_ifs with hquote hback htab hfeed hblock hreturn hbell hpage hcontrol
  · subst hquote
    exact .inr (hshort rfl fun rest => Scans.map (Scans.next _ rest) rfl)
  · subst hback
    exact .inr (hshort rfl fun rest => Scans.map (Scans.next _ rest) rfl)
  · subst htab
    exact .inr (hshort rfl fun rest => Scans.map (Scans.next _ rest) rfl)
  -- Only a line break depends on where it stands: a block keeps it.
  · subst hfeed
    exact .inl ⟨rfl, hquote, hback, .inr ⟨hblock, rfl⟩⟩
  · subst hfeed
    exact .inr (hshort rfl fun rest => Scans.map (Scans.next _ rest) rfl)
  · subst hreturn
    exact .inr (hshort rfl fun rest => Scans.map (Scans.next _ rest) rfl)
  · rcases hcode hbell with rfl
    exact .inr (hshort rfl fun rest => Scans.map (Scans.next _ rest) rfl)
  · rcases hcode hpage with rfl
    exact .inr (hshort rfl fun rest => Scans.map (Scans.next _ rest) rfl)
  · have hsmall : c.toNat < 0x80 := by
      simp only [Bool.or_eq_true, decide_eq_true_eq] at hcontrol
      omega
    refine .inr ⟨_, rfl, rfl, fun rest => ?_⟩
    have hfits : c.toNat < Nat.pow 16 4 := Nat.lt_trans hsmall (by decide)
    have hpoint : Scans _ _ (Char.ofNat c.toNat) rest :=
      scans_codePoint (numberIn?_hexFixed hfits) (Nat.lt_trans hsmall (by decide))
    rw [List.length_map, length_hexFixed (by decide), Char.ofNat_toNat] at hpoint
    exact Scans.bind (Scans.next 'u' _) hpoint
  · refine .inl ⟨rfl, hquote, hback, .inl ?_⟩
    simp only [Bool.or_eq_true, decide_eq_true_eq, not_or] at hcontrol
    simp [isText]
    omega

/-- No written character begins with a double quote. -/
theorem escaped_head (block : Bool) (c : Char) : ∃ e w, escaped block c = e :: w ∧ e ≠ '"' := by
  rcases escaped_cases block c with ⟨hc, hquote, -⟩ | ⟨w, hc, -⟩
  · exact ⟨c, [], hc, hquote⟩
  · exact ⟨'\\', w, hc, by decide⟩

/-! ## Strings on one line -/

section Line

variable {quote c : Char} {cs w as rest : List Char} {fuel : Nat}

theorem lineString_end (quote : Char) (fuel : Nat) (rest : List Char) :
    Scans (lineString quote (fuel + 1)) [quote] [] rest :=
  Scans.map (Scans.next quote rest) (if_pos rfl)

theorem lineString_verbatim (hquote : c ≠ quote) (hback : c ≠ '\\' ∨ quote ≠ '"')
    (htext : isText c = true) (h : Scans (lineString quote fuel) cs as rest) :
    Scans (lineString quote (fuel + 1)) (c :: cs) (c :: as) rest := by
  refine Scans.bind (Scans.next c (cs ++ rest)) ?_
  have hescape : ¬ (decide (c = '\\') && decide (quote = '"')) = true := by
    rcases hback with h | h <;> simp [h]
  rw [if_neg hquote, if_neg hescape, if_pos htext]
  exact Scans.map h rfl

theorem lineString_escape (hw : Escapes w c) (h : Scans (lineString '"' fuel) cs as rest) :
    Scans (lineString '"' (fuel + 1)) ('\\' :: (w ++ cs)) (c :: as) rest := by
  refine Scans.bind (Scans.next '\\' (w ++ cs ++ rest)) ?_
  rw [if_neg (by decide), if_pos (by decide)]
  have hescape := hw.2 (cs ++ rest)
  exact Scans.bind hescape (Scans.map h rfl)

/-- A string between single quotes. -/
theorem lineString_literal {cs : List Char} (hquote : ∀ c ∈ cs, c ≠ '\'')
    (htext : ∀ c ∈ cs, isText c = true) (hfuel : cs.length < fuel) :
    Scans (lineString '\'' fuel) (cs ++ ['\'']) cs rest := by
  induction cs generalizing fuel with
  | nil =>
    obtain ⟨fuel, rfl⟩ : ∃ n, fuel = n + 1 := ⟨fuel - 1, by omega⟩
    exact lineString_end '\'' fuel rest
  | cons c cs ih =>
    rw [List.length_cons] at hfuel
    obtain ⟨fuel, rfl⟩ : ∃ n, fuel = n + 1 := ⟨fuel - 1, by omega⟩
    have htail := ih (fun d hd => hquote d (List.mem_cons_of_mem c hd))
      (fun d hd => htext d (List.mem_cons_of_mem c hd)) (Nat.lt_of_succ_lt_succ hfuel)
    exact lineString_verbatim (hquote c List.mem_cons_self) (.inr (by decide))
      (htext c List.mem_cons_self) htail

/-- A string with escapes, between double quotes. -/
theorem lineString_escaped (cs : List Char) {fuel : Nat}
    (hfuel : (cs.flatMap (escaped false)).length < fuel) (rest : List Char) :
    Scans (lineString '"' fuel) (cs.flatMap (escaped false) ++ ['"']) cs rest := by
  induction cs generalizing fuel with
  | nil =>
    obtain ⟨fuel, rfl⟩ : ∃ n, fuel = n + 1 := ⟨fuel - 1, by omega⟩
    exact lineString_end '"' fuel rest
  | cons c cs ih =>
    rw [List.flatMap_cons, List.length_append] at hfuel
    rw [List.flatMap_cons, List.append_assoc]
    obtain ⟨fuel, rfl⟩ : ∃ n, fuel = n + 1 := ⟨fuel - 1, by omega⟩
    rcases escaped_cases false c with ⟨hc, hquote, hback, htext | ⟨hblock, -⟩⟩ | ⟨w, hc, hw⟩
    · rw [hc] at hfuel ⊢
      have hshort : (cs.flatMap (escaped false)).length < fuel := by
        rw [List.length_singleton] at hfuel
        omega
      have htail := ih hshort
      exact lineString_verbatim hquote (.inl hback) htext htail
    · cases hblock
    · rw [hc] at hfuel ⊢
      have hshort : (cs.flatMap (escaped false)).length < fuel := by
        rw [List.length_cons] at hfuel
        omega
      have htail := ih hshort
      exact lineString_escape hw htail

end Line

/-! ## Strings on several lines -/

theorem scans_lineBreak (rest : List Char) : Scans lineBreak ['\n'] true rest :=
  Scans.map (Scans.accept ['\n'] rest) rfl

theorem scans_lineBreak_none {rest : List Char} (hbreak : rest.head? ≠ some '\n')
    (hreturn : rest.head? ≠ some '\r') : Scans lineBreak [] false rest := by
  have hfirst : ¬ ['\n'] <+: rest := fun ⟨_, h⟩ => hbreak (h ▸ rfl)
  have hsecond : ¬ ['\r', '\n'] <+: rest := fun ⟨_, h⟩ => hreturn (h ▸ rfl)
  exact Scans.look (Scans.accept_else hfirst) (Scans.accept_else hsecond)

theorem isText_ne {c : Char} (h : isText c = true) : c ≠ '\n' ∧ c ≠ '\r' := by
  constructor <;> rintro rfl <;> exact absurd h (by decide)

section Block

variable {quote c : Char} {cs w as rest : List Char} {fuel : Nat}

theorem blockString_end (hrest : rest.head? ≠ some quote) (fuel : Nat) :
    Scans (blockString quote (fuel + 1)) [quote, quote, quote] [] rest := by
  refine Scans.look (Scans.rest_look ([quote, quote, quote] ++ rest)) ?_
  have hrun : ([quote, quote, quote] ++ rest).takeWhile (fun c => decide (c = quote)) =
      [quote, quote, quote] := by
    have hstop : rest.head?.all (fun c => !decide (c = quote)) = true := by
      cases rest with
      | nil => rfl
      | cons d rest =>
        have hd : d ≠ quote := fun h => hrest (h ▸ rfl)
        simp [hd]
    rw [takeWhile_append_stop hstop]
    simp
  rw [hrun]
  exact Scans.map (Scans.skip [quote, quote, quote] rest) rfl

theorem blockString_break
    (hrun : (('\n' :: cs ++ rest).takeWhile (fun c => decide (c = quote))).length < 3)
    (h : Scans (blockString quote fuel) cs as rest) :
    Scans (blockString quote (fuel + 1)) ('\n' :: cs) ('\n' :: as) rest := by
  refine Scans.look (Scans.rest_look ('\n' :: cs ++ rest)) ?_
  rw [if_neg (Nat.not_le_of_lt hrun)]
  exact Scans.bind (scans_lineBreak (cs ++ rest)) (Scans.map h rfl)

theorem blockString_verbatim
    (hrun : ((c :: cs ++ rest).takeWhile (fun c => decide (c = quote))).length < 3)
    (hback : c ≠ '\\' ∨ quote ≠ '"') (htext : isText c = true)
    (h : Scans (blockString quote fuel) cs as rest) :
    Scans (blockString quote (fuel + 1)) (c :: cs) (c :: as) rest := by
  refine Scans.look (Scans.rest_look (c :: cs ++ rest)) ?_
  rw [if_neg (Nat.not_le_of_lt hrun)]
  have hbreak : Scans lineBreak [] false (c :: cs ++ rest) :=
    scans_lineBreak_none (fun h => (isText_ne htext).1 (Option.some.inj h))
      fun h => (isText_ne htext).2 (Option.some.inj h)
  have hescape : ¬ (decide (c = '\\') && decide (quote = '"')) = true := by
    rcases hback with h | h <;> simp [h]
  refine Scans.look hbreak (Scans.bind (Scans.next c (cs ++ rest)) ?_)
  rw [if_neg hescape, if_pos htext]
  exact Scans.map h rfl

theorem blockString_escape (hw : Escapes w c) (h : Scans (blockString '"' fuel) cs as rest) :
    Scans (blockString '"' (fuel + 1)) ('\\' :: (w ++ cs)) (c :: as) rest := by
  refine Scans.look (Scans.rest_look ('\\' :: (w ++ cs) ++ rest)) ?_
  have hback : Scans lineBreak [] false ('\\' :: (w ++ cs) ++ rest) :=
    scans_lineBreak_none nofun nofun
  rw [if_neg (by simp)]
  refine Scans.look hback (Scans.bind (Scans.next '\\' (w ++ cs ++ rest)) ?_)
  rw [if_pos (by decide)]
  refine Scans.look (Scans.rest_look (w ++ cs ++ rest)) ?_
  -- an escape is no line break behind a backslash
  have hstay : ¬ (decide (((w ++ cs ++ rest).dropWhile isSpacing).head? = some '\n') ||
      ['\r', '\n'].isPrefixOf ((w ++ cs ++ rest).dropWhile isSpacing)) = true := by
    obtain ⟨hhead, -⟩ := hw
    cases w with
    | nil => cases hhead
    | cons e w =>
      simp only [List.head?_cons, Option.any_some, Bool.and_eq_true, bne_iff_ne, ne_eq] at hhead
      have hspacing : isSpacing e = false := by simp [isSpacing, hhead]
      simp [hspacing, hhead, Ne.symm hhead.2]
  rw [if_neg hstay]
  exact Scans.bind (hw.2 (cs ++ rest)) (Scans.map h rfl)

theorem longestQuotes_mono {k k' m m' : Nat} (hk : k ≤ k') (hm : m ≤ m') (cs : List Char) :
    longestQuotes k m cs ≤ longestQuotes k' m' cs := by
  induction cs generalizing k k' m m' with
  | nil =>
    show max k m ≤ max k' m'
    omega
  | cons c cs ih =>
    unfold longestQuotes
    split
    · exact ih (Nat.succ_le_succ hk) hm
    · exact ih (Nat.le_refl 0) (by omega)

theorem run_le_longestQuotes (k m : Nat) (cs : List Char) :
    k + (cs.takeWhile (fun c => decide (c = '\''))).length ≤ longestQuotes k m cs ∧
      m ≤ longestQuotes k m cs := by
  induction cs generalizing k m with
  | nil => exact ⟨Nat.le_max_left k m, Nat.le_max_right k m⟩
  | cons c cs ih =>
    unfold longestQuotes
    split
    · next hc =>
      obtain ⟨hrun, hlongest⟩ := ih (k + 1) m
      rw [List.takeWhile_cons_of_pos (by simp [hc]), List.length_cons]
      exact ⟨by omega, hlongest⟩
    · next hc =>
      have hlongest := (ih 0 (max k m)).2
      rw [List.takeWhile_cons_of_neg (by simp [hc]), List.length_nil]
      exact ⟨by omega, by omega⟩

/-- Quotes inside the text stand by one or two, and never at the end. -/
def FewQuotes (cs : List Char) : Prop :=
  longestQuotes 0 0 cs < 3 ∧ cs.getLast? ≠ some '\''

theorem FewQuotes.tail {cs : List Char} (h : FewQuotes (c :: cs)) : FewQuotes cs := by
  obtain ⟨hlongest, hlast⟩ := h
  refine ⟨Nat.lt_of_le_of_lt ?_ hlongest, ?_⟩
  · show longestQuotes 0 0 cs ≤
      if c = '\'' then longestQuotes 1 0 cs else longestQuotes 0 (max 0 0) cs
    split <;> exact longestQuotes_mono (Nat.zero_le _) (Nat.zero_le _) cs
  · cases cs with
    | nil => nofun
    | cons d cs => rwa [List.getLast?_cons_cons] at hlast

/-- What closes the string does not count as part of a run inside. -/
theorem FewQuotes.run (h : FewQuotes (c :: cs)) (rest : List Char) :
    ((c :: cs ++ rest).takeWhile (fun c => decide (c = '\''))).length < 3 := by
  have hends : ((c :: cs).takeWhile (fun c => decide (c = '\''))).length ≠ (c :: cs).length := by
    intro hlength
    have hall := List.all_takeWhile (p := fun c => decide (c = '\'')) (l := c :: cs)
    rw [(List.takeWhile_prefix _).eq_of_length hlength, List.all_eq_true] at hall
    have hlast := of_decide_eq_true (hall _ (List.getLast_mem (List.cons_ne_nil c cs)))
    exact h.2 (by rw [List.getLast?_eq_some_getLast (List.cons_ne_nil c cs), hlast])
  rw [List.takeWhile_append, if_neg hends]
  have hrun := (run_le_longestQuotes 0 0 (c :: cs)).1
  rw [Nat.zero_add] at hrun
  exact Nat.lt_of_le_of_lt hrun h.1

/-- A string on several lines without escapes. -/
theorem blockString_literal (hfew : FewQuotes cs)
    (htext : ∀ c ∈ cs, c = '\n' ∨ isText c = true) (hfuel : cs.length < fuel)
    (hrest : rest.head? ≠ some '\'') :
    Scans (blockString '\'' fuel) (cs ++ ['\'', '\'', '\'']) cs rest := by
  induction cs generalizing fuel with
  | nil =>
    obtain ⟨fuel, rfl⟩ : ∃ n, fuel = n + 1 := ⟨fuel - 1, by omega⟩
    exact blockString_end hrest fuel
  | cons c cs ih =>
    rw [List.length_cons] at hfuel
    obtain ⟨fuel, rfl⟩ : ∃ n, fuel = n + 1 := ⟨fuel - 1, by omega⟩
    have htail := ih hfew.tail (fun d hd => htext d (List.mem_cons_of_mem c hd))
      (Nat.lt_of_succ_lt_succ hfuel)
    have hrun := hfew.run (['\'', '\'', '\''] ++ rest)
    rw [← List.append_assoc] at hrun
    rcases htext c List.mem_cons_self with rfl | hc
    · exact blockString_break hrun htail
    · exact blockString_verbatim hrun (.inr (by decide)) hc htail

/-- A string on several lines with escapes. -/
theorem blockString_escaped (cs : List Char) {fuel : Nat}
    (hfuel : (cs.flatMap (escaped true)).length < fuel) (hrest : rest.head? ≠ some '"') :
    Scans (blockString '"' fuel) (cs.flatMap (escaped true) ++ ['"', '"', '"']) cs rest := by
  induction cs generalizing fuel with
  | nil =>
    obtain ⟨fuel, rfl⟩ : ∃ n, fuel = n + 1 := ⟨fuel - 1, by omega⟩
    exact blockString_end hrest fuel
  | cons c cs ih =>
    rw [List.flatMap_cons, List.length_append] at hfuel
    rw [List.flatMap_cons, List.append_assoc]
    obtain ⟨fuel, rfl⟩ : ∃ n, fuel = n + 1 := ⟨fuel - 1, by omega⟩
    rcases escaped_cases true c with ⟨hc, hquote, hback, htext⟩ | ⟨w, hc, hw⟩
    · rw [hc] at hfuel ⊢
      have hshort : (cs.flatMap (escaped true)).length < fuel := by
        rw [List.length_singleton] at hfuel
        omega
      have htail := ih hshort
      rcases htext with htext | ⟨-, rfl⟩
      · exact blockString_verbatim (by simp [hquote]) (.inl hback) htext htail
      · exact blockString_break (by simp) htail
    · rw [hc] at hfuel ⊢
      have hshort : (cs.flatMap (escaped true)).length < fuel := by
        rw [List.length_cons] at hfuel
        omega
      have htail := ih hshort
      exact blockString_escape hw htail

end Block

/-! ## The four styles -/

section Styles

variable {quote : Char} {cs body rest : List Char}

/-- A string on one line does not begin with three quotes. -/
theorem string_line (hopen : ¬ [quote, quote] <+: body ++ rest)
    (h : Scans (lineString quote (quote :: body ++ rest).length) body cs rest) :
    Scans (string quote) (quote :: body) (String.ofList cs) rest := by
  have hthree : ¬ [quote, quote, quote] <+: quote :: body ++ rest :=
    fun hthree => hopen (List.cons_prefix_cons.1 hthree).2
  refine Scans.look (Scans.rest_look _) (Scans.look (Scans.accept_else hthree) ?_)
  exact Scans.bind (Scans.skip [quote] (body ++ rest)) (Scans.map h rfl)

/-- A line break behind the opening quotes is passed. -/
theorem string_block (block : Bool)
    (hfirst : block = false → body.head? ≠ some '\n' ∧ body.head? ≠ some '\r') (hbody : body ≠ [])
    (h : ∀ fuel, body.length < fuel → Scans (blockString quote fuel) body cs rest) :
    Scans (string quote) ([quote, quote, quote] ++ ((if block then ['\n'] else []) ++ body))
      (String.ofList cs) rest := by
  refine Scans.look (Scans.rest_look _) (Scans.bind (Scans.accept [quote, quote, quote] _) ?_)
  have hscans := h (([quote, quote, quote] ++ ((if block then ['\n'] else []) ++ body)) ++ rest).length
    (by simp only [List.length_append, List.length_cons]; omega)
  cases block with
  | true => exact Scans.bind (scans_lineBreak (body ++ rest)) (Scans.map hscans rfl)
  | false =>
    obtain ⟨hbreak, hreturn⟩ := hfirst rfl
    have hhead : (body ++ rest).head? = body.head? := by
      cases body with
      | nil => exact absurd rfl hbody
      | cons c body => rfl
    refine Scans.look (scans_lineBreak_none ?_ ?_) (Scans.map hscans rfl)
    · exact fun h => hbreak (hhead ▸ h)
    · exact fun h => hreturn (hhead ▸ h)

/-- What a string without escapes is made of. -/
theorem isLiteral_iff {cs : List Char} :
    isLiteral cs = true ↔ (∃ c ∈ cs, c = '"' ∨ c = '\\') ∧
      (∀ c ∈ cs, c = '\n' ∨ isText c = true) ∧ FewQuotes cs := by
  simp only [isLiteral, FewQuotes, isText, Bool.and_eq_true, List.any_eq_true, List.all_eq_true,
    Bool.or_eq_true, decide_eq_true_eq, bne_iff_ne, ne_eq, and_assoc]
  refine and_congr_right fun _ => and_congr_left fun _ => forall₂_congr fun c _ => ?_
  rw [or_comm (a := c = '\t'), or_assoc]

/-- A string without escapes, between single quotes. -/
theorem string_literal (hliteral : isLiteral cs = true) (hsingle : rest.head? ≠ some '\'') :
    let block := cs.contains '\n'
    let quotes := if block || cs.contains '\'' then ['\'', '\'', '\''] else ['\'']
    Scans (string '\'') (quotes ++ ((if block then ['\n'] else []) ++ (cs ++ quotes)))
      (String.ofList cs) rest := by
  obtain ⟨⟨d, hd, hd'⟩, htext, hfew⟩ := isLiteral_iff.1 hliteral
  intro block quotes
  have hfirst (hblock : block = false) : ∀ c ∈ cs, isText c = true := by
    intro c hc
    rcases htext c hc with rfl | htext
    · exact absurd (List.contains_iff_mem.2 hc) (Bool.eq_false_iff.1 hblock)
    · exact htext
  obtain ⟨first, more, rfl⟩ : ∃ first more, cs = first :: more :=
    List.exists_cons_of_ne_nil (List.ne_nil_of_mem hd)
  by_cases hthree : (block || (first :: more).contains '\'') = true
  · have hquotes : quotes = ['\'', '\'', '\''] := if_pos hthree
    rw [hquotes]
    refine string_block block ?_ (by simp) fun fuel hfuel => ?_
    · intro hblock
      have hne := isText_ne (hfirst hblock first List.mem_cons_self)
      exact ⟨fun h => hne.1 (Option.some.inj h), fun h => hne.2 (Option.some.inj h)⟩
    · exact blockString_literal hfew htext (by rw [List.length_append] at hfuel; omega) hsingle
  · have hquotes : quotes = ['\''] := if_neg hthree
    rw [Bool.or_eq_true, not_or, Bool.not_eq_true, Bool.not_eq_true] at hthree
    obtain ⟨hblock, hnone⟩ := hthree
    have hquote : ∀ c ∈ first :: more, c ≠ '\'' := by
      rintro c hc rfl
      exact absurd (List.contains_iff_mem.2 hc) (Bool.eq_false_iff.1 hnone)
    rw [hquotes, hblock]
    show Scans (string '\'') ('\'' :: (first :: more ++ ['\''])) _ rest
    refine string_line ?_ (lineString_literal hquote (hfirst hblock) ?_)
    · intro hopen
      exact hquote first List.mem_cons_self (List.cons_prefix_cons.1 hopen).1.symm
    · simp only [List.length_append, List.length_cons]
      omega

/-- A string with escapes, between double quotes. -/
theorem string_escaped (cs : List Char) (hdouble : rest.head? ≠ some '"') :
    let block := cs.contains '\n'
    let quotes := if block then ['"', '"', '"'] else ['"']
    Scans (string '"') (quotes ++ ((if block then ['\n'] else []) ++
      (cs.flatMap (escaped block) ++ quotes))) (String.ofList cs) rest := by
  intro block quotes
  cases hblock : block with
  | true =>
    have hquotes : quotes = ['"', '"', '"'] := if_pos hblock
    rw [hquotes]
    refine string_block true nofun (by simp) fun fuel hfuel => ?_
    exact blockString_escaped cs (by rw [List.length_append] at hfuel; omega) hdouble
  | false =>
    have hquotes : quotes = ['"'] := if_neg (Bool.eq_false_iff.1 hblock)
    rw [hquotes]
    show Scans (string '"') ('"' :: (cs.flatMap (escaped false) ++ ['"'])) _ rest
    refine string_line ?_ (lineString_escaped cs ?_ rest)
    · intro hopen
      cases cs with
      | nil =>
        obtain ⟨after, hafter⟩ := (List.cons_prefix_cons.1 hopen).2
        have hrest : rest = '"' :: after := hafter.symm
        exact hdouble (hrest ▸ rfl)
      | cons c cs =>
        obtain ⟨e, w, hc, hquote⟩ := escaped_head false c
        rw [List.flatMap_cons, hc] at hopen
        exact hquote (List.cons_prefix_cons.1 hopen).1.symm
    · simp only [List.length_append, List.length_cons]
      omega

/-- A string is read as it was written, unless another quote follows. -/
theorem scans_writeString (s : String) (hdouble : rest.head? ≠ some '"')
    (hsingle : rest.head? ≠ some '\'') :
    ∃ quote, (quote = '"' ∨ quote = '\'') ∧ (writeString s).toList.head? = some quote ∧
      Scans (string quote) (writeString s).toList s rest := by
  have hs : String.ofList s.toList = s := String.ofList_toList
  unfold writeString
  dsimp only
  cases hliteral : isLiteral s.toList with
  | true =>
    have hscans := string_literal hliteral hsingle
    rw [hs] at hscans
    rw [if_pos rfl, String.toList_ofList, List.append_assoc, List.append_assoc]
    refine ⟨'\'', .inr rfl, ?_, hscans⟩
    split <;> rfl
  | false =>
    have hscans := string_escaped s.toList hdouble
    rw [hs] at hscans
    rw [if_neg Bool.false_ne_true, String.toList_ofList, List.append_assoc, List.append_assoc]
    refine ⟨'"', .inl rfl, ?_, hscans⟩
    split <;> rfl

end Styles

end Chalkboard.Toml
