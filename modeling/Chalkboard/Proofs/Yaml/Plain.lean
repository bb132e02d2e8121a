import Chalkboard.Proofs.Yaml.Quoted

/-!
# Plain scalars in YAML

A text that is written plain is read back up to what ends it: a colon before a blank, or a line
break before a line that is less indented (`inline_plainScalar`).
-/

namespace Chalkboard.Yaml

open Text

/-! ## Lines of a text -/

theorem splitLines_break (cs : List Char) : splitLines ('\n' :: cs) = [] :: splitLines cs :=
  rfl

/-- A character goes to the first line. -/
theorem splitLines_char {c : Char} (hc : c ≠ '\n') {cs line : List Char} {lines : List (List Char)}
    (h : splitLines cs = line :: lines) : splitLines (c :: cs) = (c :: line) :: lines := by
  have hpush (p : List Char × List (List Char)) (hp : p.1 :: p.2 = line :: lines) :
      (if c = '\n' then ([], p.1 :: p.2) else (c :: p.1, p.2)).1 ::
        (if c = '\n' then ([], p.1 :: p.2) else (c :: p.1, p.2)).2 = (c :: line) :: lines := by
    rw [if_neg hc, (List.cons.inj hp).1, (List.cons.inj hp).2]
  exact hpush _ h

theorem splitLines_ne_nil (cs : List Char) : splitLines cs ≠ [] :=
  List.cons_ne_nil _ _

theorem mem_of_mem_splitLines {cs line : List Char} {c : Char} (hline : line ∈ splitLines cs)
    (hc : c ∈ line) : c ∈ cs := by
  induction cs generalizing line with
  | nil =>
    rw [List.mem_singleton.1 hline] at hc
    exact hc
  | cons d cs ih =>
    by_cases hd : d = '\n'
    · subst hd
      rcases List.mem_cons.1 hline with rfl | hline
      · cases hc
      · exact List.mem_cons_of_mem _ (ih hline hc)
    · obtain ⟨first, lines, hlines⟩ := List.exists_cons_of_ne_nil (splitLines_ne_nil cs)
      rw [splitLines_char hd hlines] at hline
      rw [hlines] at ih
      rcases List.mem_cons.1 hline with rfl | hline
      · rcases List.mem_cons.1 hc with rfl | hc
        · exact List.mem_cons_self
        · exact List.mem_cons_of_mem d (ih List.mem_cons_self hc)
      · exact List.mem_cons_of_mem d (ih (List.mem_cons_of_mem first hline) hc)

/-- Without tabs no line is indented by one. -/
theorem tabsTooEarly_eq_false {gap : List Char} (h : '\t' ∉ gap) (indent : Nat) :
    tabsTooEarly indent gap = false := by
  unfold tabsTooEarly
  rw [List.any_eq_false]
  intro line hline htab
  rw [Bool.and_eq_true, decide_eq_true_eq, decide_eq_true_eq] at htab
  have hmem : '\t' ∈ line := (List.dropWhile_suffix _).subset (List.mem_of_mem_head? htab.2)
  exact h (mem_of_mem_splitLines (List.mem_of_mem_tail hline) hmem)

/-! ## Plain texts -/

/-- A text that stays what it is when it stands plain, and so does each end of it. -/
structure PlainText (cs : List Char) : Prop where
  visible : ∀ c ∈ cs, isVisible c = true ∧ c ≠ '\n'
  colon : hasPair (· = ':') isGap cs = false
  comment : hasPair isGap (· = '#') cs = false
  lastColon : cs.getLast? ≠ some ':'
  lastBlank : cs.getLast? ≠ some ' '

theorem hasPair_tail {p q : Char → Bool} {c : Char} {cs : List Char}
    (h : hasPair p q (c :: cs) = false) : hasPair p q cs = false := by
  cases cs with
  | nil => rfl
  | cons d cs => exact (Bool.or_eq_false_iff.1 h).2

theorem getLast?_tail {c d : Char} {cs : List Char} (h : (c :: cs).getLast? ≠ some d) :
    cs.getLast? ≠ some d := by
  cases cs with
  | nil => nofun
  | cons e cs => rwa [List.getLast?_cons_cons] at h

theorem PlainText.tail {c : Char} {cs : List Char} (h : PlainText (c :: cs)) : PlainText cs where
  visible := fun d hd => h.visible d (List.mem_cons_of_mem c hd)
  colon := hasPair_tail h.colon
  comment := hasPair_tail h.comment
  lastColon := getLast?_tail h.lastColon
  lastBlank := getLast?_tail h.lastBlank

theorem PlainText.drop {cs : List Char} (h : PlainText cs) (n : Nat) : PlainText (cs.drop n) := by
  induction n generalizing cs with
  | zero => exact h
  | succ n ih =>
    cases cs with
    | nil => exact h
    | cons c cs => exact ih h.tail

/-- The first part of a plain text goes up to the first blank. -/
theorem PlainText.plainPart? {cs tail : List Char} (h : PlainText cs)
    (htail : plainPart? false tail = some []) :
    plainPart? false (cs ++ tail) = some (cs.takeWhile (!isGap ·)) := by
  induction cs with
  | nil => exact htail
  | cons c cs ih =>
    have hrest := ih h.tail
    rw [List.cons_append, List.takeWhile_cons]
    unfold Yaml.plainPart?
    cases hgap : isGap c with
    | true => rfl
    | false =>
      have hcolon : ¬ (decide (c = ':') && atGap (cs ++ tail)) = true := by
        intro hboth
        rw [Bool.and_eq_true, decide_eq_true_eq] at hboth
        obtain ⟨rfl, hnext⟩ := hboth
        cases cs with
        | nil => exact h.lastColon rfl
        | cons d cs =>
          have hpair := (Bool.or_eq_false_iff.1 h.colon).1
          have hd : isGap d = true := hnext
          simp [hd] at hpair
      rw [if_neg Bool.false_ne_true, if_neg hcolon, if_neg (by simp), if_neg (by simp), hrest]
      rfl

/-! ## The ends of a plain text -/

section Ends

variable {indent k : Nat} {tail rest : List Char}

/-- Nothing of a plain scalar is left here, at whatever column of a line. -/
def Stops (indent : Nat) (tail : List Char) : Prop :=
  plainPart? false tail = some [] ∧
    ∀ fuel, Inline (plainRest false indent (fuel + 1)) [] [] tail

/-- A colon before a blank ends a plain scalar. -/
theorem stops_colon (indent : Nat) (hrest : atGap rest = true) : Stops indent (':' :: rest) := by
  refine ⟨?_, fun fuel line column _ => ?_⟩
  · unfold plainPart?
    rw [if_neg (by decide), if_pos (by simp [hrest])]
  · unfold plainRest
    have hgap : Scan.takeWhile isGap ⟨':' :: rest, line, column⟩ =
        some ([], ⟨':' :: rest, line, column⟩) :=
      rfl
    refine run_bind rfl (run_bind hgap (run_bind rfl ?_))
    rw [if_neg (by rw [tabsTooEarly_eq_false (by simp)]; decide), if_pos (by simp)]
    rfl

/-- So does a line break, if the next line is indented less or nothing comes any more. -/
theorem stops_break (hk : k < indent) (hrest : rest.head?.all (!isGap ·) = true) :
    Stops indent ('\n' :: (List.replicate k ' ' ++ rest)) := by
  refine ⟨rfl, fun fuel line column _ => ?_⟩
  have hblanks : ∀ c ∈ '\n' :: List.replicate k ' ', isGap c = true := by
    intro c hc
    rcases List.mem_cons.1 hc with rfl | hc
    · rfl
    · rw [List.eq_of_mem_replicate hc]
      rfl
  have hgap : Scan.takeWhile isGap ⟨'\n' :: (List.replicate k ' ' ++ rest), line, column⟩ =
      some ('\n' :: List.replicate k ' ', ⟨rest, line + 1, k⟩) := by
    have hscans :=
      Scans.takeWhile hblanks hrest ⟨'\n' :: (List.replicate k ' ' ++ rest), line, column⟩ rfl
    have hline : Cursor.skip (List.replicate k ' ').length
        ⟨List.replicate k ' ' ++ rest, line + 1, 0⟩ = ⟨rest, line + 1, k⟩ := by
      rw [Cursor.skip_line, List.length_replicate, Nat.zero_add]
      intro hmem
      cases List.eq_of_mem_replicate hmem
    exact hscans.trans (congrArg (fun c => some ('\n' :: List.replicate k ' ', c)) hline)
  have htabs : '\t' ∉ '\n' :: List.replicate k ' ' := by
    intro hmem
    rcases List.mem_cons.1 hmem with hmem | hmem
    · cases hmem
    · cases List.eq_of_mem_replicate hmem
  unfold plainRest
  refine run_bind rfl (run_bind hgap (run_bind rfl ?_))
  rw [if_neg (by rw [tabsTooEarly_eq_false htabs]; decide), if_pos (by simp [hk])]
  rfl

end Ends

/-! ## Reading a plain text -/

section Reading

variable {indent fuel : Nat} {cs tail : List Char}

/-- On a line, blanks and what follows them up to the next blank are read in one step. -/
theorem plainRest_part {n : Nat} {part more : List Char} {c : Char}
    (hpart : plainPart? false (c :: part ++ (cs ++ tail)) = some (c :: part)) (hc : c ≠ '#')
    (hgap : isGap c = false) (hline : '\n' ∉ c :: part)
    (h : Inline (plainRest false indent fuel) cs more tail) :
    Inline (plainRest false indent (fuel + 1)) (List.replicate (n + 1) ' ' ++ (c :: part ++ cs))
      (List.replicate (n + 1) ' ' ++ (c :: part ++ more)) tail := by
  intro line column hcolumn
  have hassoc : List.replicate (n + 1) ' ' ++ (c :: part ++ cs) ++ tail =
      List.replicate (n + 1) ' ' ++ (c :: part ++ (cs ++ tail)) := by simp
  rw [hassoc]
  have hstop : (c :: part ++ (cs ++ tail)).head?.all (!isGap ·) = true := by simp [hgap]
  have hblanks := inline_blanks (n + 1) hstop line column hcolumn
  have htabs : '\t' ∉ List.replicate (n + 1) ' ' := by
    intro hmem
    cases List.eq_of_mem_replicate hmem
  have hpass : Inline (Scan.skip (c :: part).length) (c :: part) () (cs ++ tail) :=
    .of_scans (Scans.skip (c :: part) (cs ++ tail)) hline
  have hread : Inline (do
      Scan.skip (c :: part).length
      let more ← plainRest false indent fuel
      return foldGap (List.replicate (n + 1) ' ') ++ c :: part ++ more) (c :: part ++ cs)
      (List.replicate (n + 1) ' ' ++ (c :: part ++ more)) tail := by
    refine Inline.bind hpass (Inline.map h ?_)
    rw [foldGap_blanks, List.append_assoc]
  unfold plainRest
  refine run_bind rfl (run_bind hblanks (run_bind rfl ?_))
  have hstay : ¬ ((List.replicate (n + 1) ' ').isEmpty ||
      decide ((c :: part ++ (cs ++ tail)).head? = some '#') ||
      (decide (line < line) &&
        (atMark ⟨c :: part ++ (cs ++ tail), line, column + (List.replicate (n + 1) ' ').length⟩ ||
        (!false && decide (column + (List.replicate (n + 1) ' ').length < indent))))) = true := by
    simp [hc]
  rw [if_neg (by rw [tabsTooEarly_eq_false htabs]; decide), if_neg hstay]
  dsimp only
  rw [hpart]
  dsimp only
  have hall := hread line (column + (List.replicate (n + 1) ' ').length) (by omega)
  rw [List.append_assoc] at hall
  rw [hall, Nat.add_assoc, ← List.length_append]

/-- Behind its first part a plain text is read up to its end. -/
theorem inline_plainRest (hcs : PlainText cs) (htail : Stops indent tail)
    (hfuel : (cs.dropWhile (!isGap ·)).length < fuel) :
    Inline (plainRest false indent fuel) (cs.dropWhile (!isGap ·)) (cs.dropWhile (!isGap ·))
      tail := by
  induction cs using blanks_induction generalizing fuel with
  | nil =>
    obtain ⟨fuel, rfl⟩ : ∃ n, fuel = n + 1 := ⟨fuel - 1, by omega⟩
    exact htail.2 fuel
  | char c cs hc ih =>
    have hgap : isGap c = false :=
      isGap_of_isVisible (hcs.visible c List.mem_cons_self).1 (hcs.visible c List.mem_cons_self).2 hc
    have hdrop : (c :: cs).dropWhile (!isGap ·) = cs.dropWhile (!isGap ·) := by simp [hgap]
    rw [hdrop] at hfuel ⊢
    exact ih hcs.tail hfuel
  | run n cs hhead ih =>
    have hmore : PlainText cs := by
      have hdrop := hcs.drop (n + 1)
      rwa [List.drop_left' List.length_replicate] at hdrop
    have hstay : (List.replicate (n + 1) ' ' ++ cs).dropWhile (!isGap ·) =
        List.replicate (n + 1) ' ' ++ cs := rfl
    rw [hstay] at hfuel ⊢
    rw [List.length_append, List.length_replicate] at hfuel
    obtain ⟨fuel, rfl⟩ : ∃ n, fuel = n + 1 := ⟨fuel - 1, by omega⟩
    cases cs with
    | nil =>
      refine absurd ?_ hcs.lastBlank
      rw [List.append_nil, List.getLast?_replicate]
      rfl
    | cons c cs =>
      have hc : c ≠ ' ' := fun h => hhead (congrArg some h)
      have hgap : isGap c = false :=
        isGap_of_isVisible (hmore.visible c List.mem_cons_self).1
          (hmore.visible c List.mem_cons_self).2 hc
      have hcomment : c ≠ '#' := by
        have hdrop := (hcs.drop n).comment
        rw [List.replicate_succ', List.append_assoc, List.drop_left' List.length_replicate] at hdrop
        rintro rfl
        cases hdrop
      obtain ⟨part, more, hsplit, hpart, hrest⟩ : ∃ part more, cs = part ++ more ∧
          cs.takeWhile (!isGap ·) = part ∧ cs.dropWhile (!isGap ·) = more :=
        ⟨_, _, List.takeWhile_append_dropWhile.symm, rfl, rfl⟩
      have htake : (c :: cs).takeWhile (!isGap ·) = c :: part := by simp [hgap, hpart]
      have hdrop : (c :: cs).dropWhile (!isGap ·) = more := by simp [hgap, hrest]
      have hshort : more.length < fuel := by
        rw [List.length_cons, hsplit, List.length_append] at hfuel
        omega
      have hih := ih hmore (hdrop ▸ hshort)
      have hfirst := hmore.plainPart? htail.1
      have hline : '\n' ∉ c :: part := fun hmem =>
        (hmore.visible '\n' ((List.takeWhile_prefix _).subset (htake ▸ hmem))).2 rfl
      rw [hdrop] at hih
      rw [htake, hsplit] at hfirst
      rw [hsplit]
      exact plainRest_part (by simpa using hfirst) hcomment hgap hline hih

/-- A plain text is read back where a scalar may end, also at the beginning of a line. -/
theorem plainScalar_eq (hcs : PlainText cs) (hhead : Begins (!isGap ·) cs) (htail : Stops indent tail)
    (line column : Nat) : plainScalar false indent ⟨cs ++ tail, line, column⟩ =
      some (String.ofList cs, ⟨tail, line, column + cs.length⟩) := by
  have hfirst := hcs.plainPart? htail.1
  obtain ⟨part, more, hsplit, hpart, hmore⟩ : ∃ part more, cs = part ++ more ∧
      cs.takeWhile (!isGap ·) = part ∧ cs.dropWhile (!isGap ·) = more :=
    ⟨_, _, List.takeWhile_append_dropWhile.symm, rfl, rfl⟩
  obtain ⟨c, ds, hcons, hc⟩ := hhead.cons_eq
  have hpos : 0 < part.length := by
    rw [← hpart, hcons, List.takeWhile_cons, if_pos hc]
    exact Nat.succ_pos _
  have hline : '\n' ∉ part := fun hmem =>
    (hcs.visible '\n' (hsplit ▸ List.mem_append_left more hmem)).2 rfl
  have hfuel : (cs.dropWhile (!isGap ·)).length < (cs ++ tail).length := by
    rw [hmore, List.length_append, hsplit, List.length_append]
    omega
  have hrest := inline_plainRest hcs htail hfuel
  rw [hmore] at hrest
  have hpass : Scan.skip part.length ⟨part ++ (more ++ tail), line, column⟩ =
      some ((), ⟨more ++ tail, line, column + part.length⟩) :=
    congrArg (fun c => some ((), c)) (Cursor.skip_line hline line column)
  have hread : (do
      Scan.skip part.length
      let more ← plainRest false indent (cs ++ tail).length
      return String.ofList (part ++ more) : Scan String) ⟨part ++ (more ++ tail), line, column⟩ =
        some (String.ofList (part ++ more), ⟨tail, line, column + (part ++ more).length⟩) := by
    have hlength : column + (part ++ more).length = column + part.length + more.length := by
      rw [List.length_append, Nat.add_assoc]
    rw [hlength]
    exact run_bind hpass (run_bind (hrest line _ (by omega)) rfl)
  unfold plainScalar
  refine run_bind rfl ?_
  dsimp only
  rw [hfirst, hpart]
  rw [← List.append_assoc, ← hsplit] at hread
  exact hread

end Reading

/-! ## Which texts are plain -/

/-- The characters that no plain scalar begins with. -/
def isMarkup (c : Char) : Bool :=
  "#,[]&*!|>'\"%@\x60\x7b\x7d".toList.contains c

/-- The three characters that a plain scalar may begin with all the same, but not before a gap. -/
def isSpecial (c : Char) : Bool :=
  c = '-' || c = '?' || c = ':'

theorem isSpecial_or_isMarkup (c : Char) :
    "-?:,[]#&*!|>'\"%@\x60\x7b\x7d".toList.contains c = (isSpecial c || isMarkup c) := by
  have hspecial : ∀ d ∈ "-?:,[]#&*!|>'\"%@\x60\x7b\x7d".toList, (isSpecial d || isMarkup d) = true :=
    List.all_eq_true.1 (by decide)
  have hmarkup : ∀ d ∈ "#,[]&*!|>'\"%@\x60\x7b\x7d".toList,
      "-?:,[]#&*!|>'\"%@\x60\x7b\x7d".toList.contains d = true :=
    List.all_eq_true.1 (by decide)
  rw [Bool.eq_iff_iff, List.contains_iff_mem]
  refine ⟨hspecial c, fun h => ?_⟩
  rw [Bool.or_eq_true] at h
  rcases h with h | h
  · simp only [isSpecial, Bool.or_eq_true, decide_eq_true_eq] at h
    rcases h with (rfl | rfl) | rfl <;> decide
  · exact List.contains_iff_mem.1 (hmarkup c (List.contains_iff_mem.1 h))

theorem beginsPlain_iff {c : Char} {rest : List Char} : beginsPlain false (c :: rest) = true ↔
    isGap c = false ∧ isMarkup c = false ∧ (isSpecial c = true → atGap rest = false) := by
  unfold beginsPlain
  dsimp only
  rw [isSpecial_or_isMarkup]
  cases hspecial : isSpecial c with
  | true =>
    simp only [isSpecial, Bool.or_eq_true, decide_eq_true_eq] at hspecial
    rcases hspecial with (rfl | rfl) | rfl <;> simp [isGap, isTabOrSpace, isMarkup]
  | false =>
    simp only [isSpecial, Bool.or_eq_false_iff, decide_eq_false_iff_not] at hspecial
    cases isGap c <;> cases isMarkup c <;> simp [hspecial]

/-- What a text that can be plain is made of. -/
theorem PlainText.of_canBePlain {s : String} (h : canBePlain s = true) :
    PlainText s.toList ∧ ∀ tail, beginsPlain false (s.toList ++ tail) = true := by
  simp only [canBePlain, hasIndicator, Bool.and_eq_true, Bool.not_eq_true', Bool.or_eq_false_iff,
    List.all_eq_true, bne_iff_ne, decide_eq_false_iff_not] at h
  obtain ⟨⟨⟨⟨hne, hvisible⟩, ⟨⟨⟨⟨hopening, -⟩, -⟩, hcolon⟩, hlast⟩, hcomment⟩, hhead⟩, hblank⟩ := h
  refine ⟨⟨hvisible, hcolon, hcomment, hlast, hblank⟩, fun tail => ?_⟩
  cases htext : s.toList with
  | nil =>
    rw [htext] at hne
    cases hne
  | cons c cs =>
    rw [htext] at hopening hhead hvisible
    dsimp only at hopening
    rw [Bool.or_eq_false_iff] at hopening
    obtain ⟨hmarkup, hspecial⟩ := hopening
    have hc := hvisible c List.mem_cons_self
    have hgap := isGap_of_isVisible hc.1 hc.2 fun h => hhead (congrArg some h)
    refine beginsPlain_iff.2 ⟨hgap, hmarkup, fun hc => ?_⟩
    have hmark : (decide (c = '?') || decide (c = ':') || decide (c = '-')) = true := by
      simp only [isSpecial, Bool.or_eq_true, decide_eq_true_eq] at hc
      rcases hc with (rfl | rfl) | rfl <;> rfl
    rw [hmark, Bool.true_and] at hspecial
    cases cs with
    | nil => cases hspecial
    | cons d cs => exact hspecial

end Chalkboard.Yaml
