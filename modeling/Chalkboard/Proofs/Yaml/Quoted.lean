import Chalkboard.Proofs.Text.Digits
import Chalkboard.Proofs.Text.Scan
import Chalkboard.Yaml.Writer

/-!
# Quoted scalars in YAML

A text without line breaks that is written between quotes is read back, in single quotes
(`inline_singleQuoted`) and in double quotes (`inline_doubleQuoted`). Nothing at the beginning of a
line is read here, where three points or dashes would end the document.
-/

namespace Chalkboard.Yaml

open Text

/-! ## Reading inside a line -/

/-- One step after the other. -/
theorem run_bind {σ α β : Type} {s : StateT σ Option α} {f : α → StateT σ Option β} {x y : σ} {a : α}
    {r : Option (β × σ)} (h : s x = some (a, y)) (h' : f a y = r) : (s >>= f) x = r := by
  show (s x).bind _ = r
  rw [h]
  exact h'

section Inline

variable {α β : Type} {s : Scan α} {a : α} {cs ds rest : List Char}

/-- The scanner reads the part `cs` of a line, which does not begin there. -/
def Inline (s : Scan α) (cs : List Char) (a : α) (rest : List Char) : Prop :=
  ∀ line column, 0 < column →
    s ⟨cs ++ rest, line, column⟩ = some (a, ⟨rest, line, column + cs.length⟩)

theorem Inline.of_scans (h : Scans s cs a rest) (hline : '\n' ∉ cs) : Inline s cs a rest :=
  fun line column _ => h.line hline line column

theorem Inline.bind {f : α → Scan β} {b : β} (hs : Inline s cs a (ds ++ rest))
    (hf : Inline (f a) ds b rest) : Inline (s >>= f) (cs ++ ds) b rest := by
  intro line column hcolumn
  rw [List.append_assoc, List.length_append, ← Nat.add_assoc]
  exact run_bind (hs line column hcolumn) (hf line (column + cs.length) (by omega))

theorem Inline.look {f : α → Scan β} {b : β} (hs : Inline s [] a (cs ++ rest))
    (hf : Inline (f a) cs b rest) : Inline (s >>= f) cs b rest :=
  Inline.bind hs hf

theorem Inline.map {f : α → Scan β} {b : β} (hs : Inline s cs a rest) (hf : f a = Pure.pure b) :
    Inline (s >>= f) cs b rest := by
  intro line column hcolumn
  exact run_bind (hs line column hcolumn) (hf ▸ rfl)

end Inline

/-! ## Runs of blanks -/

/-- Texts are read with each run of blanks as a whole. -/
theorem blanks_induction {P : List Char → Prop} (nil : P [])
    (char : ∀ c cs, c ≠ ' ' → P cs → P (c :: cs))
    (run : ∀ n cs, cs.head? ≠ some ' ' → P cs → P (List.replicate (n + 1) ' ' ++ cs))
    (cs : List Char) : P cs := by
  -- in front of a text that is covered, one more blank makes the run longer
  have hboth : P cs ∧ ∀ n, P (List.replicate (n + 1) ' ' ++ cs) := by
    induction cs with
    | nil => exact ⟨nil, fun n => run n [] nofun nil⟩
    | cons c cs ih =>
      by_cases hc : c = ' '
      · subst hc
        refine ⟨ih.2 0, fun n => ?_⟩
        have hlonger := ih.2 (n + 1)
        rwa [List.replicate_succ', List.append_assoc] at hlonger
      · have hthis := char c cs hc ih.1
        exact ⟨hthis, fun n => run n (c :: cs) (fun h => hc (Option.some.inj h)) hthis⟩
  exact hboth.1

theorem inline_blanks (n : Nat) {rest : List Char} (hrest : rest.head?.all (!isGap ·) = true) :
    Inline (Scan.takeWhile isGap) (List.replicate n ' ') (List.replicate n ' ') rest := by
  refine .of_scans (Scans.takeWhile ?_ hrest) ?_
  · intro c hc
    rw [List.eq_of_mem_replicate hc]
    rfl
  · intro hmem
    cases List.eq_of_mem_replicate hmem

theorem foldGap_blanks (n : Nat) : foldGap (List.replicate n ' ') = List.replicate n ' ' := by
  have hline : (List.replicate n ' ').contains '\n' = false := by
    rw [Bool.eq_false_iff]
    intro hmem
    cases List.eq_of_mem_replicate (List.contains_iff_mem.1 hmem)
  unfold foldGap
  rw [hline, if_neg Bool.false_ne_true]

/-! ## Between quotes -/

section Quotes

variable {double : Bool} {c : Char} {cs as rest w : List Char} {fuel : Nat}

theorem not_atMark {cs : List Char} {line column : Nat} (hcolumn : 0 < column) :
    ¬ atMark ⟨cs, line, column⟩ = true := by
  have hne : column ≠ 0 := Nat.ne_of_gt hcolumn
  simp [atMark, hne]

theorem inline_skip (c : Char) (rest : List Char) (hc : c ≠ '\n') :
    Inline (Scan.skip 1) [c] () rest :=
  .of_scans (Scans.skip [c] rest) fun hmem => hc (List.mem_singleton.1 hmem).symm

theorem quotedRest_blanks (n : Nat) (hcs : (cs ++ rest).head?.all (!isGap ·) = true)
    (h : Inline (quotedRest double fuel) cs as rest) :
    Inline (quotedRest double (fuel + 1)) (List.replicate (n + 1) ' ' ++ cs)
      (List.replicate (n + 1) ' ' ++ as) rest := by
  intro line column hcolumn
  unfold quotedRest
  refine run_bind rfl ?_
  rw [if_neg (not_atMark hcolumn)]
  have hgap : Inline (do
      let gap ← Scan.takeWhile isGap
      return foldGap gap ++ (← quotedRest double fuel)) (List.replicate (n + 1) ' ' ++ cs)
      (List.replicate (n + 1) ' ' ++ as) rest := by
    refine Inline.bind (inline_blanks (n + 1) hcs) (Inline.map h ?_)
    rw [foldGap_blanks]
  cases double with
  | true => exact hgap line column hcolumn
  | false => exact hgap line column hcolumn

theorem ne_break_of_isGap (hgap : isGap c = false) : c ≠ '\n' := by
  rintro rfl
  cases hgap

/-- A character that means itself. -/
theorem quotedRest_char (hgap : isGap c = false)
    (hplain : if double then c ≠ '"' ∧ c ≠ '\\' else c ≠ '\'')
    (h : Inline (quotedRest double fuel) cs as rest) :
    Inline (quotedRest double (fuel + 1)) (c :: cs) (c :: as) rest := by
  intro line column hcolumn
  unfold quotedRest
  refine run_bind rfl ?_
  rw [if_neg (not_atMark hcolumn)]
  have hchar : Inline (do
      Scan.skip 1
      return c :: (← quotedRest double fuel)) (c :: cs) (c :: as) rest :=
    Inline.bind (inline_skip c (cs ++ rest) (ne_break_of_isGap hgap)) (Inline.map h rfl)
  have hread := hchar line column hcolumn
  rw [List.cons_append] at hread ⊢
  generalize htext : c :: (cs ++ rest) = text at hread ⊢
  dsimp only
  split
  · cases htext
  · exact absurd (List.cons.inj htext).1 hplain
  · exact absurd (List.cons.inj htext).1 hplain
  · exact absurd (List.cons.inj htext).1 hplain.1
  · exact absurd (List.cons.inj htext).1 hplain.2
  · exact absurd (List.cons.inj htext).1 hplain.2
  · next heq =>
    cases htext
    rw [hgap, if_neg Bool.false_ne_true]
    exact hread

theorem quotedRest_single_end (hrest : rest.head? ≠ some '\'') (fuel : Nat) :
    Inline (quotedRest false (fuel + 1)) ['\''] [] rest := by
  intro line column hcolumn
  unfold quotedRest
  refine run_bind rfl ?_
  rw [if_neg (not_atMark hcolumn)]
  have hclose : Inline (do Scan.skip 1; return ([] : List Char)) ['\''] [] rest :=
    Inline.map (inline_skip '\'' rest (by decide)) rfl
  have hread := hclose line column hcolumn
  rw [List.cons_append, List.nil_append] at hread ⊢
  generalize htext : '\'' :: rest = text at hread ⊢
  generalize hdouble : false = double
  dsimp only
  split
  · cases htext
  · exact absurd (congrArg List.head? (List.cons.inj htext).2) hrest
  · exact hread
  · cases hdouble
  · cases hdouble
  · cases hdouble
  · next hquote _ _ _ => exact (hquote hdouble.symm (List.cons.inj htext).1.symm).elim

/-- A quote between single quotes is written twice. -/
theorem quotedRest_single_quote (h : Inline (quotedRest false fuel) cs as rest) :
    Inline (quotedRest false (fuel + 1)) ('\'' :: '\'' :: cs) ('\'' :: as) rest := by
  intro line column hcolumn
  unfold quotedRest
  refine run_bind rfl ?_
  rw [if_neg (not_atMark hcolumn)]
  have hskip : Inline (Scan.skip 2) ['\'', '\''] () (cs ++ rest) :=
    .of_scans (Scans.skip ['\'', '\''] (cs ++ rest)) (by decide)
  have hread : Inline (do Scan.skip 2; return '\'' :: (← quotedRest false fuel))
      ('\'' :: '\'' :: cs) ('\'' :: as) rest := Inline.bind hskip (Inline.map h rfl)
  exact hread line column hcolumn

theorem quotedRest_double_end (rest : List Char) (fuel : Nat) :
    Inline (quotedRest true (fuel + 1)) ['"'] [] rest := by
  intro line column hcolumn
  unfold quotedRest
  refine run_bind rfl ?_
  rw [if_neg (not_atMark hcolumn)]
  have hread : Inline (do Scan.skip 1; return ([] : List Char)) ['"'] [] rest :=
    Inline.map (inline_skip '"' rest (by decide)) rfl
  exact hread line column hcolumn

theorem quotedRest_escape (hw : Inline escape w c (cs ++ rest))
    (hbreak : (w ++ cs ++ rest).head? ≠ some '\n') (h : Inline (quotedRest true fuel) cs as rest) :
    Inline (quotedRest true (fuel + 1)) ('\\' :: (w ++ cs)) (c :: as) rest := by
  intro line column hcolumn
  unfold quotedRest
  refine run_bind rfl ?_
  rw [if_neg (not_atMark hcolumn)]
  have hescape : Inline (do
      Scan.skip 1
      let c ← escape
      return c :: (← quotedRest true fuel)) ('\\' :: (w ++ cs)) (c :: as) rest :=
    Inline.bind (inline_skip '\\' (w ++ cs ++ rest) (by decide)) (Inline.bind hw (Inline.map h rfl))
  have hread := hescape line column hcolumn
  rw [List.cons_append] at hread ⊢
  generalize htext : '\\' :: (w ++ cs ++ rest) = text at hread ⊢
  generalize hdouble : true = double at hread ⊢
  dsimp only
  split
  · cases htext
  · cases hdouble
  · cases hdouble
  · cases htext
  · exact absurd (congrArg List.head? (List.cons.inj htext).2) hbreak
  · exact hread
  · next hback => exact (hback hdouble.symm (List.cons.inj htext).1.symm).elim

end Quotes

/-! ## Escapes -/

theorem scans_hexNumber {cs rest : List Char} {n : Nat} (hn : numberIn? 16 cs = some n) :
    Scans (hexNumber cs.length) cs n rest := by
  have hdigits : (cs ++ rest).take cs.length = cs := List.take_left
  refine Scans.look (Scans.rest_look (cs ++ rest)) ?_
  dsimp only
  rw [hdigits, hn]
  dsimp only
  rw [if_neg (Nat.lt_irrefl _)]
  exact Scans.map (Scans.skip cs rest) rfl

theorem toNat_valid (c : Char) : c.toNat < 0xd800 ∨ 0xdfff < c.toNat ∧ c.toNat ≤ 0x10ffff := by
  have hc : c.toNat.isValidChar := c.valid
  unfold Nat.isValidChar at hc
  omega

theorem scans_codePoint (c : Char) {width : Nat} (hwidth : 0 < width)
    (hfits : c.toNat < Nat.pow 16 width) (rest : List Char) :
    Scans (hexNumber width >>= codePoint) (capitalHex width c.toNat) c rest := by
  have hlength : (capitalHex width c.toNat).length = width := by
    rw [capitalHex, List.length_map, length_hexFixed hwidth]
  have hnumber : Scans (hexNumber width) (capitalHex width c.toNat) c.toNat rest := by
    have hscans : Scans (hexNumber (capitalHex width c.toNat).length) (capitalHex width c.toNat)
        c.toNat rest := scans_hexNumber (numberIn?_hexFixed hfits)
    rwa [hlength] at hscans
  refine Scans.map hnumber ?_
  unfold codePoint
  rw [if_pos (toNat_valid c), Char.ofNat_toNat]

theorem visible_hexFixed {width n : Nat} (h : n < Nat.pow 16 width) {d : Char}
    (hd : d ∈ capitalHex width n) : isVisible d = true ∧ d ≠ '\n' := by
  obtain ⟨k, hk, rfl⟩ := mem_hexFixed h hd
  have hdigits : ∀ k < 16, isVisible (Nat.digitChar k).toUpper = true ∧
      (Nat.digitChar k).toUpper ≠ '\n' := by decide
  exact hdigits k hk

/-- The escape behind a backslash stands for `c`, and is written in visible characters. -/
def Escapes (w : List Char) (c : Char) : Prop :=
  w ≠ [] ∧ (∀ d ∈ w, isVisible d = true ∧ d ≠ '\n') ∧ ∀ rest, Scans escape w c rest

theorem Escapes.short {c e : Char} (he : isVisible e = true ∧ e ≠ '\n')
    (hread : ∀ rest, Scans escape [e] c rest) : Escapes [e] c :=
  ⟨nofun, fun _ hd => List.mem_singleton.1 hd ▸ he, hread⟩

/-- A sign tells how many digits of the character's code follow. -/
theorem Escapes.coded {c u : Char} {width : Nat} (hu : isVisible u = true ∧ u ≠ '\n')
    (hfits : c.toNat < Nat.pow 16 width)
    (hread : ∀ rest, Scans escape ([u] ++ capitalHex width c.toNat) c rest) :
    Escapes (u :: capitalHex width c.toNat) c := by
  refine ⟨nofun, fun d hd => ?_, hread⟩
  rcases List.mem_cons.1 hd with rfl | hd
  · exact hu
  · exact visible_hexFixed hfits hd

/-- A character between double quotes is written as it is, or by an escape that stands for it. -/
theorem escaped_cases (c : Char) :
    (escaped c = [c] ∧ c ≠ '"' ∧ c ≠ '\\' ∧ isVisible c = true ∧ c ≠ '\n') ∨
      ∃ w, escaped c = '\\' :: w ∧ Escapes w c := by
  have hcode {n : Nat} (h : c.toNat = n) : Char.ofNat n = c := h ▸ Char.ofNat_toNat c
  unfold escaped
  dsimp only
  split
  · next h =>
    subst h
    exact .inr ⟨_, rfl, .short (by decide) fun rest => Scans.map (Scans.next _ rest) rfl⟩
  · next hquote =>
    split
    · next h =>
      subst h
      exact .inr ⟨_, rfl, .short (by decide) fun rest => Scans.map (Scans.next _ rest) rfl⟩
    · next hback =>
      split
      · next h =>
        rw [Bool.and_eq_true, bne_iff_ne] at h
        exact .inl ⟨rfl, hquote, hback, h.1, h.2⟩
      · split
        -- twelve characters have an escape of their own, the others are written by their codes
        iterate 12
          · next h =>
            obtain rfl := hcode h
            exact .inr ⟨_, rfl, .short (by decide) fun rest => Scans.map (Scans.next _ rest) rfl⟩
        · split
          · next h =>
            have hfits : c.toNat < Nat.pow 16 2 := Nat.lt_of_le_of_lt h (by decide)
            refine .inr ⟨_, rfl, .coded (by decide) hfits fun rest => ?_⟩
            exact Scans.bind (Scans.next 'x' _) (scans_codePoint c (by decide) hfits rest)
          · split
            · next h =>
              have hfits : c.toNat < Nat.pow 16 4 := Nat.lt_of_le_of_lt h (by decide)
              refine .inr ⟨_, rfl, .coded (by decide) hfits fun rest => ?_⟩
              exact Scans.bind (Scans.next 'u' _) (scans_codePoint c (by decide) hfits rest)
            · have hfits : c.toNat < Nat.pow 16 8 := by
                have hvalid := toNat_valid c
                have hpower : (0x10ffff : Nat) < Nat.pow 16 8 := by decide
                omega
              refine .inr ⟨_, rfl, .coded (by decide) hfits fun rest => ?_⟩
              exact Scans.bind (Scans.next 'U' _) (scans_codePoint c (by decide) hfits rest)

/-! ## Quoted texts -/

/-- A visible character on a line is no blank but the space. -/
theorem isGap_of_isVisible {c : Char} (hvisible : isVisible c = true) (hbreak : c ≠ '\n')
    (hspace : c ≠ ' ') : isGap c = false := by
  have htab : c ≠ '\t' := by
    rintro rfl
    cases hvisible
  simp [isGap, isTabOrSpace, hbreak, hspace, htab]

/-- A character in single quotes; a quote is written twice. -/
def doubled (c : Char) : List Char :=
  if c = '\'' then ['\'', '\''] else [c]

theorem doubled_blanks (n : Nat) : (List.replicate n ' ').flatMap doubled = List.replicate n ' ' := by
  induction n with
  | zero => rfl
  | succ n ih =>
    rw [List.replicate_succ, List.flatMap_cons, ih]
    rfl

theorem escaped_blanks (n : Nat) : (List.replicate n ' ').flatMap escaped = List.replicate n ' ' := by
  induction n with
  | zero => rfl
  | succ n ih =>
    rw [List.replicate_succ, List.flatMap_cons, ih]
    rfl

/-- What is written of a text begins with no blank unless the text does. -/
theorem written_not_gap {write : Char → List Char} {cs : List Char} {quote : Char}
    (hwrite : ∀ c, c ≠ ' ' → c ∈ cs → Begins (fun d => !isGap d) (write c))
    (hquote : isGap quote = false) (hcs : cs.head? ≠ some ' ') (rest : List Char) :
    (cs.flatMap write ++ [quote] ++ rest).head?.all (!isGap ·) = true := by
  cases cs with
  | nil => simpa using hquote
  | cons c cs =>
    have hc := hwrite c (fun h => hcs (congrArg some h)) List.mem_cons_self
    rw [List.flatMap_cons, List.append_assoc, List.append_assoc]
    obtain ⟨d, ds, hds, hd⟩ := hc.cons_eq
    rw [hds]
    exact hd

section QuotedTexts

variable {rest : List Char}

theorem quotedRest_single {cs : List Char} (hvisible : ∀ c ∈ cs, isVisible c = true ∧ c ≠ '\n')
    (hrest : rest.head? ≠ some '\'') {fuel : Nat} (hfuel : (cs.flatMap doubled).length < fuel) :
    Inline (quotedRest false fuel) (cs.flatMap doubled ++ ['\'']) cs rest := by
  -- a run of blanks is read in one step, since blanks before a break would be folded
  induction cs using blanks_induction generalizing fuel with
  | nil =>
    obtain ⟨fuel, rfl⟩ : ∃ n, fuel = n + 1 := ⟨fuel - 1, by omega⟩
    exact quotedRest_single_end hrest fuel
  | char c cs hc ih =>
    obtain ⟨⟨hc', hbreak⟩, hvisible⟩ := List.forall_mem_cons.1 hvisible
    rw [List.flatMap_cons, List.length_append] at hfuel
    rw [List.flatMap_cons, List.append_assoc]
    obtain ⟨fuel, rfl⟩ : ∃ n, fuel = n + 1 := ⟨fuel - 1, by omega⟩
    by_cases hquote : c = '\''
    · have hdoubled : doubled c = ['\'', '\''] := if_pos hquote
      rw [hdoubled] at hfuel ⊢
      rw [hquote]
      have hshort : (cs.flatMap doubled).length < fuel := by
        rw [List.length_cons, List.length_singleton] at hfuel
        omega
      exact quotedRest_single_quote (ih hvisible hshort)
    · have hdoubled : doubled c = [c] := if_neg hquote
      rw [hdoubled] at hfuel ⊢
      have hshort : (cs.flatMap doubled).length < fuel := by
        rw [List.length_singleton] at hfuel
        omega
      exact quotedRest_char (isGap_of_isVisible hc' hbreak hc) hquote (ih hvisible hshort)
  | run n cs hcs ih =>
    have hvisible : ∀ c ∈ cs, isVisible c = true ∧ c ≠ '\n' :=
      fun c hc => hvisible c (List.mem_append_right _ hc)
    rw [List.flatMap_append, doubled_blanks, List.length_append, List.length_replicate] at hfuel
    rw [List.flatMap_append, doubled_blanks, List.append_assoc]
    obtain ⟨fuel, rfl⟩ : ∃ n, fuel = n + 1 := ⟨fuel - 1, by omega⟩
    refine quotedRest_blanks n (written_not_gap ?_ (by decide) hcs rest) (ih hvisible (by omega))
    intro c hc hmem
    have hgap := isGap_of_isVisible (hvisible c hmem).1 (hvisible c hmem).2 hc
    unfold doubled
    split
    · rfl
    · simp [Begins, hgap]

/-- A quoted text is read as its characters up to the closing quote are. -/
theorem inline_quoted {double : Bool} {quote : Char} {body : List Char} {s : String}
    (hquote : quote = if double then '"' else '\'')
    (hbody : Inline (quotedRest double (quote :: body ++ rest).length) body s.toList rest) :
    Inline quotedScalar (quote :: body) s rest := by
  have hs : String.ofList s.toList = s := String.ofList_toList
  have hopen : Inline Scan.next [quote] quote (body ++ rest) := by
    refine .of_scans (Scans.next quote _) ?_
    cases double <;> subst hquote <;> decide
  have hread : Inline (do return String.ofList (← quotedRest double (quote :: body ++ rest).length))
      body s rest := Inline.map hbody (congrArg pure hs)
  refine Inline.look (.of_scans (Scans.rest_look _) (by simp)) (Inline.bind hopen ?_)
  cases double <;> subst hquote <;> exact hread

/-- A text in single quotes is read back. -/
theorem inline_singleQuoted {s : String} (hvisible : ∀ c ∈ s.toList, isVisible c = true ∧ c ≠ '\n')
    (hrest : rest.head? ≠ some '\'') : Inline quotedScalar (singleQuoted s) s rest := by
  have htext : singleQuoted s = '\'' :: (s.toList.flatMap doubled ++ ['\'']) := rfl
  rw [htext]
  refine inline_quoted rfl (quotedRest_single hvisible hrest ?_)
  simp only [List.length_append, List.length_cons]
  omega

theorem quotedRest_double (cs rest : List Char) {fuel : Nat}
    (hfuel : (cs.flatMap escaped).length < fuel) :
    Inline (quotedRest true fuel) (cs.flatMap escaped ++ ['"']) cs rest := by
  have hbegins {c : Char} (hc : c ≠ ' ') : Begins (fun d => !isGap d) (escaped c) := by
    rcases escaped_cases c with ⟨htext, -, -, hvisible, hbreak⟩ | ⟨w, htext, -⟩
    · have hgap := isGap_of_isVisible hvisible hbreak hc
      rw [htext]
      simp [Begins, hgap]
    · rw [htext]
      rfl
  -- as between single quotes, with an escape read in the place of what it stands for
  induction cs using blanks_induction generalizing fuel with
  | nil =>
    obtain ⟨fuel, rfl⟩ : ∃ n, fuel = n + 1 := ⟨fuel - 1, by omega⟩
    exact quotedRest_double_end rest fuel
  | char c cs hc ih =>
    rw [List.flatMap_cons, List.length_append] at hfuel
    rw [List.flatMap_cons, List.append_assoc]
    obtain ⟨fuel, rfl⟩ : ∃ n, fuel = n + 1 := ⟨fuel - 1, by omega⟩
    rcases escaped_cases c with ⟨htext, hquote, hback, hvisible, hbreak⟩ | ⟨w, htext, hne, hline, hw⟩
    · rw [htext] at hfuel ⊢
      have hshort : (cs.flatMap escaped).length < fuel := by
        rw [List.length_singleton] at hfuel
        omega
      exact quotedRest_char (isGap_of_isVisible hvisible hbreak hc) ⟨hquote, hback⟩ (ih hshort)
    · rw [htext] at hfuel ⊢
      have hshort : (cs.flatMap escaped).length < fuel := by
        rw [List.length_cons] at hfuel
        omega
      refine quotedRest_escape (.of_scans (hw _) fun hmem => (hline _ hmem).2 rfl) ?_ (ih hshort)
      obtain ⟨e, w, rfl⟩ := List.exists_cons_of_ne_nil hne
      exact fun h => (hline e List.mem_cons_self).2 (Option.some.inj h)
  | run n cs hcs ih =>
    rw [List.flatMap_append, escaped_blanks, List.length_append, List.length_replicate] at hfuel
    rw [List.flatMap_append, escaped_blanks, List.append_assoc]
    obtain ⟨fuel, rfl⟩ : ∃ n, fuel = n + 1 := ⟨fuel - 1, by omega⟩
    have hnext := written_not_gap (fun c hc _ => hbegins hc) (by decide : isGap '"' = false) hcs rest
    exact quotedRest_blanks n hnext (ih (by omega))

/-- A text in double quotes is read back. -/
theorem inline_doubleQuoted (s : String) (rest : List Char) :
    Inline quotedScalar (doubleQuoted s) s rest := by
  have htext : doubleQuoted s = '"' :: (s.toList.flatMap escaped ++ ['"']) := rfl
  rw [htext]
  refine inline_quoted rfl (quotedRest_double s.toList rest ?_)
  simp only [List.length_append, List.length_cons]
  omega

/-- What stands between double quotes can be seen. -/
theorem visible_doubleQuoted (s : String) : ∀ c ∈ doubleQuoted s, isVisible c = true := by
  have htext : doubleQuoted s = '"' :: (s.toList.flatMap escaped ++ ['"']) := rfl
  rw [htext]
  refine List.forall_mem_cons.2 ⟨by decide, fun c hc => ?_⟩
  rcases List.mem_append.1 hc with hc | hc
  · obtain ⟨d, -, hc⟩ := List.mem_flatMap.1 hc
    rcases escaped_cases d with ⟨hd, -, -, hvisible, -⟩ | ⟨w, hd, -, hvisible, -⟩
    · rw [hd] at hc
      exact List.mem_singleton.1 hc ▸ hvisible
    · rw [hd] at hc
      rcases List.mem_cons.1 hc with rfl | hc
      · decide
      · exact (hvisible c hc).1
  · exact List.mem_singleton.1 hc ▸ (by decide)

theorem visible_singleQuoted {s : String} (hvisible : ∀ c ∈ s.toList, isVisible c = true) :
    ∀ c ∈ singleQuoted s, isVisible c = true := by
  have htext : singleQuoted s = '\'' :: (s.toList.flatMap doubled ++ ['\'']) := rfl
  rw [htext]
  refine List.forall_mem_cons.2 ⟨by decide, fun c hc => ?_⟩
  rcases List.mem_append.1 hc with hc | hc
  · obtain ⟨d, hd, hc⟩ := List.mem_flatMap.1 hc
    unfold doubled at hc
    split at hc
    · have hboth : ∀ c ∈ ['\'', '\''], isVisible c = true := List.all_eq_true.1 rfl
      exact hboth c hc
    · exact List.mem_singleton.1 hc ▸ hvisible d hd
  · exact List.mem_singleton.1 hc ▸ (by decide)

end QuotedTexts

end Chalkboard.Yaml
