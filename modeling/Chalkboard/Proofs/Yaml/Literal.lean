import Mathlib.Data.List.Infix
import Chalkboard.Proofs.Yaml.Plain

/-!
# Literal blocks in YAML

A text with line breaks that is written as a literal block is read back (`blockScalar_literal`). The
block ends before a line that is less indented, or at the end of the document; the line breaks at its
end are kept apart from those between its lines, and the sign behind the bar says how many of them
belong to the text.
-/

namespace Chalkboard.Yaml

open Text

/-! ## Lines -/

theorem splitLines_append {line : List Char} (hline : '\n' ∉ line) (rest : List Char) :
    splitLines (line ++ '\n' :: rest) = line :: splitLines rest := by
  induction line with
  | nil => rfl
  | cons c line ih =>
    have hc : c ≠ '\n' := fun h => hline (h ▸ List.mem_cons_self)
    exact splitLines_char hc (ih fun h => hline (List.mem_cons_of_mem c h))

/-- A text is its lines with a break behind each but the last. -/
theorem flatMap_splitLines (cs : List Char) :
    (splitLines cs).flatMap (· ++ ['\n']) = cs ++ ['\n'] := by
  induction cs with
  | nil => rfl
  | cons c cs ih =>
    by_cases hc : c = '\n'
    · subst hc
      rw [splitLines_break, List.flatMap_cons, ih]
      rfl
    · obtain ⟨line, lines, hlines⟩ := List.exists_cons_of_ne_nil (splitLines_ne_nil cs)
      rw [hlines, List.flatMap_cons] at ih
      rw [splitLines_char hc hlines, List.flatMap_cons, List.cons_append, List.cons_append, ih]
      rfl

theorem break_not_mem_of_mem_splitLines {cs line : List Char} (hline : line ∈ splitLines cs) :
    '\n' ∉ line := by
  induction cs generalizing line with
  | nil =>
    rw [List.mem_singleton.1 hline]
    exact List.not_mem_nil
  | cons c cs ih =>
    by_cases hc : c = '\n'
    · subst hc
      rcases List.mem_cons.1 hline with rfl | hline
      · exact List.not_mem_nil
      · exact ih hline
    · obtain ⟨first, lines, hlines⟩ := List.exists_cons_of_ne_nil (splitLines_ne_nil cs)
      rw [splitLines_char hc hlines] at hline
      rw [hlines] at ih
      rcases List.mem_cons.1 hline with rfl | hline
      · intro hmem
        rcases List.mem_cons.1 hmem with hmem | hmem
        · exact hc hmem.symm
        · exact ih List.mem_cons_self hmem
      · exact ih (List.mem_cons_of_mem first hline)

/-- A text with an empty first line is empty or begins with a break. -/
theorem eq_break_of_splitLines_nil {cs : List Char} {lines : List (List Char)}
    (h : splitLines cs = [] :: lines) : cs = [] ∨ ∃ rest, cs = '\n' :: rest := by
  cases cs with
  | nil => exact .inl rfl
  | cons c cs =>
    by_cases hc : c = '\n'
    · exact .inr ⟨cs, hc ▸ rfl⟩
    · obtain ⟨line, lines, hlines⟩ := List.exists_cons_of_ne_nil (splitLines_ne_nil cs)
      rw [splitLines_char hc hlines] at h
      cases h

/-- No line ends with a blank if neither the text nor a part before a break does. -/
theorem getLast?_of_mem_splitLines {cs line : List Char}
    (hpair : hasPair (· = ' ') (· = '\n') cs = false) (hlast : cs.getLast? ≠ some ' ')
    (hline : line ∈ splitLines cs) : line.getLast? ≠ some ' ' := by
  induction cs generalizing line with
  | nil =>
    rw [List.mem_singleton.1 hline]
    nofun
  | cons c cs ih =>
    have ih {line : List Char} (hmem : line ∈ splitLines cs) :=
      ih (hasPair_tail hpair) (getLast?_tail hlast) hmem
    by_cases hc : c = '\n'
    · subst hc
      rcases List.mem_cons.1 hline with rfl | hline
      · nofun
      · exact ih hline
    · obtain ⟨first, lines, hlines⟩ := List.exists_cons_of_ne_nil (splitLines_ne_nil cs)
      rw [splitLines_char hc hlines] at hline
      rw [hlines] at ih
      rcases List.mem_cons.1 hline with rfl | hline
      · cases first with
        | nil =>
          -- `c` stands at the end of the text or before a break
          intro hblank
          cases Option.some.inj hblank
          rcases eq_break_of_splitLines_nil hlines with rfl | ⟨rest, rfl⟩
          · exact hlast rfl
          · cases hpair
        | cons d first =>
          rw [List.getLast?_cons_cons]
          exact ih List.mem_cons_self
      · exact ih (List.mem_cons_of_mem first hline)

/-! ## Lines of a block -/

section Block

variable {depth breaks taken k : Nat} {line tail : List Char} {lines rest : List (List Char)}

/-- A line of a block at a depth. An empty line is not indented. -/
def indented (depth : Nat) (line : List Char) : List Char :=
  if line.isEmpty then [] else List.replicate depth ' ' ++ line

theorem length_blanks_replicate (k : Nat) (line : List Char) :
    ((List.replicate k ' ' ++ line).takeWhile (· = ' ')).length =
      k + (line.takeWhile (· = ' ')).length := by
  have hblanks : ∀ c ∈ List.replicate k ' ', decide (c = ' ') = true := by
    intro c hc
    rw [List.eq_of_mem_replicate hc]
    rfl
  rw [List.takeWhile_append_of_pos hblanks, List.length_append, List.length_replicate]

/-- A line that does not end with a blank has something besides blanks. -/
theorem length_blanks_lt (hne : line ≠ []) (hlast : line.getLast? ≠ some ' ') :
    (line.takeWhile (· = ' ')).length < line.length := by
  have hle := (List.takeWhile_prefix (l := line) (decide <| · = ' ')).length_le
  refine Nat.lt_of_le_of_ne hle fun heq => hlast ?_
  have hall := (List.takeWhile_prefix (l := line) (decide <| · = ' ')).eq_of_length heq
  rw [List.getLast?_eq_some_getLast hne, Option.some_inj]
  have hmem : line.getLast hne ∈ line.takeWhile (· = ' ') := hall.symm ▸ List.getLast_mem hne
  have hblank := List.all_eq_true.1 List.all_takeWhile _ hmem
  exact of_decide_eq_true hblank

theorem blockLines_empty (hrest : rest ≠ []) :
    blockLines depth breaks taken ([] :: rest) = blockLines depth (breaks + 1) (taken + 1) rest := by
  have hmore : rest.isEmpty = false := List.isEmpty_eq_false_iff.2 hrest
  rw [blockLines, hmore]
  rfl

/-- A line that is deep enough belongs to the block. -/
theorem blockLines_line (hne : line ≠ []) (hlast : line.getLast? ≠ some ' ') (hrest : rest ≠ [])
    {parts : List BlockLine} {after all : Nat}
    (h : blockLines depth 1 (taken + (depth + line.length) + 1) rest = (parts, after, all)) :
    blockLines depth breaks taken ((List.replicate depth ' ' ++ line) :: rest) =
      (⟨breaks, line⟩ :: parts, after, all) := by
  have hmore : rest.isEmpty = false := List.isEmpty_eq_false_iff.2 hrest
  have hblanks := length_blanks_lt hne hlast
  have hlength : (List.replicate depth ' ' ++ line).length = depth + line.length := by simp
  have hdrop : (List.replicate depth ' ' ++ line).drop depth = line :=
    List.drop_left' List.length_replicate
  rw [blockLines, length_blanks_replicate, hlength, hmore, hdrop, h]
  dsimp only
  rw [if_neg (by simp; omega), if_neg (by omega), if_neg Bool.false_ne_true]

/-- A line that is less deep does not. -/
theorem blockLines_less (hk : k < depth) (hblanks : (line.takeWhile (· = ' ')).length = 0)
    (hne : line ≠ []) :
    blockLines depth breaks taken ((List.replicate k ' ' ++ line) :: rest) = ([], breaks, taken) := by
  have hlength : (List.replicate k ' ' ++ line).length = k + line.length := by simp
  have hpos : 0 < line.length := List.length_pos_iff.2 hne
  rw [blockLines, length_blanks_replicate, hlength, hblanks]
  dsimp only
  rw [if_neg (by simp [hne]), if_pos (by omega)]

/-- A block at a depth ends here. -/
def Ends (depth : Nat) (tail : List Char) : Prop :=
  ∀ breaks taken, blockLines depth breaks taken (splitLines tail) = ([], breaks, taken)

theorem ends_nil (depth : Nat) : Ends depth [] :=
  fun _ _ => rfl

theorem ends_less (hk : k < depth) (htail : Begins (!isGap ·) tail) :
    Ends depth (List.replicate k ' ' ++ tail) := by
  intro breaks taken
  obtain ⟨c, rest, rfl, hc⟩ := htail.cons_eq
  rw [Bool.not_eq_true'] at hc
  have hbreak := ne_break_of_isGap hc
  have hspace : c ≠ ' ' := by
    rintro rfl
    cases hc
  obtain ⟨line, lines, hlines⟩ := List.exists_cons_of_ne_nil (splitLines_ne_nil rest)
  have hsplit : ∀ k, splitLines (List.replicate k ' ' ++ c :: rest) =
      (List.replicate k ' ' ++ c :: line) :: lines := by
    intro k
    induction k with
    | zero => exact splitLines_char hbreak hlines
    | succ k ih =>
      rw [List.replicate_succ, List.cons_append, List.cons_append]
      exact splitLines_char (by decide) ih
  rw [hsplit]
  exact blockLines_less hk (by simp [hspace]) (List.cons_ne_nil _ _)

/-- The text of the lines of a block with the breaks before them. -/
def blockText (parts : List BlockLine) : List Char :=
  parts.flatMap fun part => List.replicate part.breaks '\n' ++ part.text

theorem joinBlock_literal (previous : Option (List Char)) (parts : List BlockLine) :
    joinBlock true previous parts = blockText parts := by
  induction parts generalizing previous with
  | nil => rfl
  | cons part parts ih =>
    have hjoin : joinBlock true previous (part :: parts) =
        List.replicate part.breaks '\n' ++ part.text ++ joinBlock true (some part.text) parts := by
      cases previous <;> rfl
    rw [hjoin, ih]
    rfl

/-- A part of a block that neither is empty nor has a break of its own. -/
def BlockLine.Full (part : BlockLine) : Prop :=
  part.text ≠ [] ∧ '\n' ∉ part.text

/-- The lines of a block are found again, with the breaks at its end apart. -/
theorem blockLines_indented (hlines : ∀ line ∈ lines, '\n' ∉ line ∧ line.getLast? ≠ some ' ')
    (htail : Ends depth tail) (breaks taken : Nat) : ∃ parts after,
    blockLines depth breaks taken (lines.map (indented depth) ++ splitLines tail) =
      (parts, after, taken + (lines.flatMap (indented depth · ++ ['\n'])).length) ∧
    blockText parts ++ List.replicate after '\n' =
      List.replicate breaks '\n' ++ lines.flatMap (· ++ ['\n']) ∧
    ∀ part ∈ parts, part.Full := by
  -- on the lines; `breaks` counts the breaks that wait for the next line with text
  induction lines generalizing breaks taken with
  | nil =>
    refine ⟨[], breaks, htail breaks taken, ?_, by simp⟩
    rw [List.flatMap_nil, List.append_nil]
    rfl
  | cons line lines ih =>
    obtain ⟨⟨hbreak, hlast⟩, hmore⟩ := List.forall_mem_cons.1 hlines
    have hrest : lines.map (indented depth) ++ splitLines tail ≠ [] :=
      List.append_ne_nil_of_right_ne_nil _ (splitLines_ne_nil tail)
    rw [List.map_cons, List.cons_append, List.flatMap_cons, List.flatMap_cons]
    by_cases hline : line = []
    · subst hline
      obtain ⟨parts, after, hparts, htext, hfull⟩ := ih hmore (breaks + 1) (taken + 1)
      refine ⟨parts, after, ?_, ?_, hfull⟩
      · refine (blockLines_empty hrest).trans (hparts.trans ?_)
        simp only [indented, List.isEmpty_nil, if_true, List.nil_append, List.length_append,
          List.length_singleton]
        rw [Nat.add_assoc]
      · rw [htext, List.replicate_succ', List.append_assoc]
        rfl
    · have hdeep : indented depth line = List.replicate depth ' ' ++ line := by
        rw [indented, List.isEmpty_eq_false_iff.2 hline, if_neg Bool.false_ne_true]
      obtain ⟨parts, after, hparts, htext, hfull⟩ :=
        ih hmore 1 (taken + (depth + line.length) + 1)
      refine ⟨⟨breaks, line⟩ :: parts, after, ?_, ?_, ?_⟩
      · rw [hdeep, blockLines_line hline hlast hrest hparts]
        simp only [List.length_append, List.length_replicate, List.length_singleton]
        congr 2
        omega
      · have hfirst : blockText (⟨breaks, line⟩ :: parts) =
            List.replicate breaks '\n' ++ (line ++ blockText parts) := List.append_assoc _ _ _
        rw [hfirst, List.append_assoc, List.append_assoc, htext, List.append_assoc line]
        rfl
      · exact List.forall_mem_cons.2 ⟨⟨hline, hbreak⟩, hfull⟩

end Block

/-! ## Breaks at the end -/

/-- How many breaks a text ends with. -/
def lastBreaks (cs : List Char) : Nat :=
  (cs.reverse.takeWhile (· = '\n')).length

theorem lastBreaks_append {cs : List Char} (hcs : cs.getLast? ≠ some '\n') (n : Nat) :
    lastBreaks (cs ++ List.replicate n '\n') = n := by
  have hbreaks : ∀ c ∈ List.replicate n '\n', decide (c = '\n') = true := by
    intro c hc
    rw [List.eq_of_mem_replicate hc]
    rfl
  have hstop : cs.reverse.takeWhile (· = '\n') = [] := by
    rw [List.getLast?_eq_head?_reverse] at hcs
    cases htext : cs.reverse with
    | nil => rfl
    | cons c rest =>
      rw [htext] at hcs
      have hc : c ≠ '\n' := fun h => hcs (congrArg some h)
      simp [hc]
  rw [lastBreaks, List.reverse_append, List.reverse_replicate, List.takeWhile_append_of_pos hbreaks,
    hstop, List.append_nil, List.length_replicate]

theorem lastBreaks_eq_zero_iff {cs : List Char} : lastBreaks cs = 0 ↔ cs.getLast? ≠ some '\n' := by
  rw [lastBreaks, List.getLast?_eq_head?_reverse, List.length_eq_zero_iff]
  cases cs.reverse with
  | nil => simp
  | cons c rest =>
    by_cases hc : c = '\n'
    · simp [hc]
    · simp [hc]

/-- A break at the end begins a last, empty line. -/
theorem splitLines_concat (cs : List Char) : splitLines (cs ++ ['\n']) = splitLines cs ++ [[]] := by
  induction cs with
  | nil => rfl
  | cons c cs ih =>
    by_cases hc : c = '\n'
    · subst hc
      rw [List.cons_append, splitLines_break, splitLines_break, ih]
      rfl
    · obtain ⟨line, lines, hlines⟩ := List.exists_cons_of_ne_nil (splitLines_ne_nil cs)
      rw [hlines] at ih
      rw [List.cons_append, splitLines_char hc hlines, splitLines_char hc ih]
      rfl

theorem getLast?_blockText {parts : List BlockLine} (hparts : ∀ part ∈ parts, part.Full) :
    (blockText parts).getLast? ≠ some '\n' := by
  induction parts with
  | nil => nofun
  | cons part parts ih =>
    obtain ⟨⟨hne, hbreak⟩, hparts⟩ := List.forall_mem_cons.1 hparts
    intro hlast
    rw [blockText, List.flatMap_cons, List.getLast?_append, ← blockText] at hlast
    cases hmore : (blockText parts).getLast? with
    | some c =>
      rw [hmore] at hlast
      exact ih hparts (hmore.trans hlast)
    | none =>
      rw [hmore, Option.none_or, List.getLast?_append, List.getLast?_eq_some_getLast hne] at hlast
      exact hbreak (Option.some.inj hlast ▸ List.getLast_mem hne)

/-! ## Reading a literal block -/

section Reading

variable {depth parent : Nat} {body tail : List Char} {lines : List (List Char)}

/-- Breaks in front of lines are breaks behind them, up to one. -/
theorem breaks_around (f : List Char → List Char) (lines : List (List Char)) :
    lines.flatMap ('\n' :: f ·) ++ ['\n'] = '\n' :: lines.flatMap (f · ++ ['\n']) := by
  induction lines with
  | nil => rfl
  | cons line lines ih =>
    rw [List.flatMap_cons, List.append_assoc, ih, List.flatMap_cons, List.append_assoc]
    rfl

/-- Behind a break the next line begins. -/
theorem skip_to_line (cs tail : List Char) (line column : Nat) : ∃ next,
    Cursor.skip (cs ++ ['\n']).length ⟨cs ++ '\n' :: tail, line, column⟩ = ⟨tail, next, 0⟩ := by
  have hrest : (Cursor.skip cs.length ⟨cs ++ '\n' :: tail, line, column⟩).rest = '\n' :: tail :=
    Cursor.rest_skip_append rfl
  rw [List.length_append, List.length_singleton, ← Cursor.skip_skip]
  generalize Cursor.skip cs.length ⟨cs ++ '\n' :: tail, line, column⟩ = here at hrest
  obtain ⟨_, next, _⟩ := here
  obtain rfl : _ = '\n' :: tail := hrest
  exact ⟨next + 1, rfl⟩

theorem mem_indented {c : Char} {line : List Char} (hc : c ∈ indented depth line) :
    c = ' ' ∨ c ∈ line := by
  unfold indented at hc
  split at hc
  · cases hc
  · exact (List.mem_append.1 hc).imp_left List.eq_of_mem_replicate

theorem splitLines_indented (hlines : ∀ line ∈ lines, '\n' ∉ line) (tail : List Char) :
    splitLines (lines.flatMap (indented depth · ++ ['\n']) ++ tail) =
      lines.map (indented depth) ++ splitLines tail := by
  induction lines with
  | nil => rfl
  | cons line lines ih =>
    obtain ⟨hline, hlines⟩ := List.forall_mem_cons.1 hlines
    have hdeep : '\n' ∉ indented depth line := fun hmem =>
      (mem_indented hmem).elim (fun h => absurd h (by decide)) hline
    have hfirst : (line :: lines).flatMap (indented depth · ++ ['\n']) ++ tail =
        indented depth line ++ '\n' :: (lines.flatMap (indented depth · ++ ['\n']) ++ tail) := by
      simp
    rw [hfirst, splitLines_append hdeep, ih hlines]
    rfl

/-- Without a hint the first line says how deep a block is. -/
theorem leadingDepth_indented (hbody : Begins (!isGap ·) body) (rest : List (List Char)) :
    leadingDepth 0 ((splitLines body).map (indented depth) ++ rest) = depth := by
  obtain ⟨c, cs, rfl, hc⟩ := hbody.cons_eq
  rw [Bool.not_eq_true'] at hc
  have hspace : c ≠ ' ' := by
    rintro rfl
    cases hc
  obtain ⟨line, lines, hlines⟩ := List.exists_cons_of_ne_nil (splitLines_ne_nil cs)
  rw [splitLines_char (ne_break_of_isGap hc) hlines]
  have hdeep : indented depth (c :: line) = List.replicate depth ' ' ++ c :: line := rfl
  have hblanks : (indented depth (c :: line)).takeWhile (· = ' ') = List.replicate depth ' ' := by
    rw [hdeep, List.takeWhile_append_of_pos (by simp)]
    simp [hspace]
  rw [List.map_cons, List.cons_append, leadingDepth, hblanks, hdeep, if_neg (by simp)]
  simp

/-- A block scalar is what its lines say, once its header is read. -/
theorem blockScalar_break {header more : List Char} {chomp : Chomp} {depth? : Option Nat}
    {parts : List BlockLine} {after taken : Nat}
    (hheader : blockHeader header = some (chomp, depth?))
    (hsigns : ∀ c ∈ header, (c = '-' || c = '+' || c.isDigit) = true)
    (hdepth : depth? = some 2 ∧ depth = parent + 2 ∨
      depth? = none ∧ depth = max (leadingDepth 0 (splitLines more)) (parent + 1))
    (hparts : blockLines depth 0 0 (splitLines more) = (parts, after, taken))
    (htab : '\t' ∉ more) (line column : Nat) : ∃ row col,
    blockScalar parent ⟨'|' :: (header ++ '\n' :: more), line, column⟩ =
      some (String.ofList (blockText parts ++ chompBreaks chomp parts.isEmpty after),
        Cursor.skip (taken + 1) ⟨'\n' :: more, row, col⟩) := by
  obtain ⟨here, hhere, htake⟩ : ∃ here : Cursor, here.rest = '\n' :: more ∧
      Scan.takeWhile (fun c => c = '-' || c = '+' || c.isDigit)
        ⟨header ++ '\n' :: more, line, column + 1⟩ = some (header, here) :=
    ⟨_, Cursor.rest_skip_append rfl, Scans.takeWhile hsigns rfl _ rfl⟩
  rcases here with ⟨_, row, col⟩
  rcases (hhere : _ = '\n' :: more) with rfl
  refine ⟨row, col, ?_⟩
  have hblanks : Scan.takeWhile isTabOrSpace ⟨'\n' :: more, row, col⟩ =
      some ([], ⟨'\n' :: more, row, col⟩) := rfl
  have hpeek : Scan.peek? ⟨'\n' :: more, row, col⟩ = some (some '\n', ⟨'\n' :: more, row, col⟩) :=
    rfl
  have hbreak : Scan.skip 1 ⟨'\n' :: more, row, col⟩ = some ((), ⟨more, row + 1, 0⟩) := rfl
  have hrest : Scan.rest ⟨more, row + 1, 0⟩ = some (more, ⟨more, row + 1, 0⟩) := rfl
  have htabs : '\t' ∉ '\n' :: more := List.not_mem_cons_of_ne_of_not_mem (by decide) htab
  have hend (deep : Nat) (hdeep : deep = depth) : (do
      let found := blockLines deep 0 0 (splitLines more)
      if found.1.isEmpty && tabsTooEarly deep ('\n' :: more) then failure
      else
        Scan.skip found.2.2
        return String.ofList
          (joinBlock true none found.1 ++ chompBreaks chomp found.1.isEmpty found.2.1) :
      Scan String) ⟨more, row + 1, 0⟩ =
        some (String.ofList (blockText parts ++ chompBreaks chomp parts.isEmpty after),
          Cursor.skip taken ⟨more, row + 1, 0⟩) := by
    subst hdeep
    rw [hparts]
    dsimp only
    rw [tabsTooEarly_eq_false htabs, Bool.and_false, if_neg Bool.false_ne_true, joinBlock_literal]
    rfl
  unfold blockScalar
  refine run_bind rfl (run_bind htake (run_bind hblanks (run_bind hpeek ?_)))
  rw [if_neg (by decide)]
  dsimp only
  rw [hheader]
  refine run_bind hpeek (run_bind hbreak (run_bind hrest (hend _ ?_)))
  rcases hdepth with ⟨rfl, rfl⟩ | ⟨rfl, rfl⟩
  · dsimp only
    rw [if_pos (Int.natCast_nonneg parent), Int.toNat_natCast]
  · dsimp only
    omega

theorem tab_not_mem_indented (htabs : '\t' ∉ body ++ tail) :
    '\t' ∉ (splitLines body).flatMap (indented depth · ++ ['\n']) ++ tail := by
  intro hmem
  rcases List.mem_append.1 hmem with hmem | hmem
  · obtain ⟨line, hline, hmem⟩ := List.mem_flatMap.1 hmem
    rcases List.mem_append.1 hmem with hmem | hmem
    · rcases mem_indented hmem with hblank | hmem
      · cases hblank
      · exact htabs (List.mem_append_left tail (mem_of_mem_splitLines hline hmem))
    · cases List.mem_singleton.1 hmem
  · exact htabs (List.mem_append_right body hmem)

/-- A literal block is read with its lines; the sign of its header is not applied yet. -/
theorem blockScalar_lines {header : List Char} {chomp : Chomp} {depth? : Option Nat}
    (hheader : blockHeader header = some (chomp, depth?))
    (hsigns : ∀ c ∈ header, (c = '-' || c = '+' || c.isDigit) = true)
    (hbody : ∀ line ∈ splitLines body, line.getLast? ≠ some ' ')
    (hdepth : depth? = some 2 ∨ depth? = none ∧ Begins (!isGap ·) body)
    (htabs : '\t' ∉ body ++ tail) (htail : Ends (parent + 2) tail) (line column : Nat) :
    ∃ parts after next,
      blockScalar parent ⟨'|' :: (header ++
        ((splitLines body).flatMap ('\n' :: indented (parent + 2) ·) ++ '\n' :: tail)), line, column⟩ =
        some (String.ofList (blockText parts ++ chompBreaks chomp parts.isEmpty after),
          ⟨tail, next, 0⟩) ∧
      blockText parts ++ List.replicate after '\n' = body ++ ['\n'] ∧
      ∀ part ∈ parts, part.Full := by
  have hlines : ∀ line ∈ splitLines body, '\n' ∉ line ∧ line.getLast? ≠ some ' ' :=
    fun line hline => ⟨break_not_mem_of_mem_splitLines hline, hbody line hline⟩
  obtain ⟨parts, after, hparts, htext, hfull⟩ := blockLines_indented hlines htail 0 0
  rw [flatMap_splitLines] at htext
  rw [← splitLines_indented fun line hline => (hlines line hline).1, Nat.zero_add] at hparts
  have hafter : (splitLines body).flatMap ('\n' :: indented (parent + 2) ·) ++ '\n' :: tail =
      '\n' :: ((splitLines body).flatMap (indented (parent + 2) · ++ ['\n']) ++ tail) := by
    rw [← List.cons_append, ← breaks_around, List.append_assoc]
    rfl
  have hdeep : depth? = some 2 ∧ parent + 2 = parent + 2 ∨ depth? = none ∧ parent + 2 =
      max (leadingDepth 0 (splitLines ((splitLines body).flatMap
        (indented (parent + 2) · ++ ['\n']) ++ tail))) (parent + 1) := by
    refine hdepth.imp (⟨·, rfl⟩) (.imp_right fun hbegins => ?_)
    rw [splitLines_indented fun line hline => (hlines line hline).1, leadingDepth_indented hbegins]
    omega
  obtain ⟨row, col, hread⟩ := blockScalar_break hheader hsigns hdeep hparts
    (tab_not_mem_indented htabs) line column
  -- the lines are skipped with the break before them
  obtain ⟨next, hnext⟩ := skip_to_line ((splitLines body).flatMap ('\n' :: indented (parent + 2) ·))
    tail row col
  rw [breaks_around, hafter, List.length_cons] at hnext
  refine ⟨parts, after, next, ?_, htext, hfull⟩
  rw [hafter, hread, hnext]

theorem eq_of_append_breaks {cs ds : List Char} {m n : Nat}
    (h : cs ++ List.replicate m '\n' = ds ++ List.replicate n '\n')
    (hcs : cs.getLast? ≠ some '\n') (hds : ds.getLast? ≠ some '\n') : cs = ds ∧ m = n := by
  have hcount : m = n := by
    rw [← lastBreaks_append hcs m, h, lastBreaks_append hds n]
  subst hcount
  exact ⟨List.append_cancel_right h, rfl⟩

/-- A block with a single break at its end is clipped to it. -/
theorem blockText_clip {parts : List BlockLine} {cs : List Char} {after : Nat}
    (hfull : ∀ part ∈ parts, part.Full) (htext : blockText parts ++ List.replicate after '\n' = cs)
    (hone : lastBreaks cs = 1) (hlength : 1 < cs.length) :
    blockText parts ++ chompBreaks .clip parts.isEmpty after = cs := by
  have hafter : after = 1 := by
    rw [← lastBreaks_append (getLast?_blockText hfull) after, htext, hone]
  subst hafter
  have hparts : parts.isEmpty = false := by
    rw [List.isEmpty_eq_false_iff]
    rintro rfl
    rw [← htext] at hlength
    exact absurd hlength (by decide)
  rw [hparts]
  exact htext

/-- A visible text that needs no hint begins with something besides blanks and breaks. -/
theorem begins_of_head {cs : List Char} (hne : cs ≠ []) (hvisible : ∀ c ∈ cs, isVisible c = true)
    (hhead : ¬ cs.head?.any (fun c => c = ' ' || c = '\n') = true) : Begins (!isGap ·) cs := by
  obtain ⟨c, cs, rfl⟩ := List.exists_cons_of_ne_nil hne
  simp only [List.head?_cons, Option.any_some, Bool.or_eq_true, decide_eq_true_eq, not_or] at hhead
  have hgap := isGap_of_isVisible (hvisible c List.mem_cons_self) hhead.2 hhead.1
  simp [Begins, hgap]

/-- What begins with something besides blanks and breaks does so without the break at its end. -/
theorem begins_of_concat_break {cs : List Char} (h : Begins (!isGap ·) (cs ++ ['\n'])) :
    Begins (!isGap ·) cs := by
  cases cs with
  | nil => cases h
  | cons c cs => exact h

/-- A literal block is read with the hint and the sign in its header. -/
theorem blockScalar_header {hint sign : List Char} {chomp : Chomp}
    (hhint : hint = ['2'] ∨ hint = [] ∧ Begins (!isGap ·) body)
    (hsign : sign = ['-'] ∧ chomp = .strip ∨ sign = [] ∧ chomp = .clip ∨ sign = ['+'] ∧ chomp = .keep)
    (hbody : ∀ line ∈ splitLines body, line.getLast? ≠ some ' ')
    (htabs : '\t' ∉ body ++ tail) (htail : Ends (parent + 2) tail) (line column : Nat) :
    ∃ parts after next,
      blockScalar parent ⟨'|' :: hint ++ sign ++
        (splitLines body).flatMap ('\n' :: indented (parent + 2) ·) ++ '\n' :: tail, line, column⟩ =
        some (String.ofList (blockText parts ++ chompBreaks chomp parts.isEmpty after),
          ⟨tail, next, 0⟩) ∧
      blockText parts ++ List.replicate after '\n' = body ++ ['\n'] ∧
      ∀ part ∈ parts, part.Full := by
  have hassoc : '|' :: hint ++ sign ++ (splitLines body).flatMap ('\n' :: indented (parent + 2) ·) ++
      '\n' :: tail = '|' :: (hint ++ sign ++
        ((splitLines body).flatMap ('\n' :: indented (parent + 2) ·) ++ '\n' :: tail)) := by simp
  rw [hassoc]
  have hread {chomp : Chomp} {depth? : Option Nat}
      (hheader : blockHeader (hint ++ sign) = some (chomp, depth?))
      (hsigns : ∀ c ∈ hint ++ sign, (c = '-' || c = '+' || c.isDigit) = true)
      (hdepth : depth? = some 2 ∨ depth? = none ∧ Begins (!isGap ·) body) :=
    blockScalar_lines hheader hsigns hbody hdepth htabs htail line column
  rcases hhint with rfl | ⟨rfl, hbegins⟩ <;>
    rcases hsign with ⟨rfl, rfl⟩ | ⟨rfl, rfl⟩ | ⟨rfl, rfl⟩
  iterate 3 exact hread rfl (List.all_eq_true.1 rfl) (.inl rfl)
  iterate 3 exact hread rfl (List.all_eq_true.1 rfl) (.inr ⟨rfl, hbegins⟩)

/-- A literal block is read back where it ends. -/
theorem blockScalar_literal {s : String} (hs : canBeLiteral s = true) (htabs : '\t' ∉ tail)
    (htail : Ends (parent + 2) tail) (line column : Nat) : ∃ next,
    blockScalar parent ⟨literalBlock (parent + 2) s ++ '\n' :: tail, line, column⟩ =
      some (s, ⟨tail, next, 0⟩) := by
  simp only [canBeLiteral, Bool.and_eq_true, Bool.not_eq_true', List.all_eq_true, bne_iff_ne,
    List.isEmpty_eq_false_iff] at hs
  obtain ⟨⟨⟨hne, hvisible⟩, hpair⟩, hlast⟩ := hs
  have hclean : '\t' ∉ s.toList := fun hmem => absurd (hvisible _ hmem) (by decide)
  have hlines {line : List Char} (hline : line ∈ splitLines s.toList) : line.getLast? ≠ some ' ' :=
    getLast?_of_mem_splitLines hpair hlast hline
  obtain ⟨hint, hhint⟩ : ∃ hint,
    (if s.toList.head?.any (fun c => c = ' ' || c = '\n') then ['2'] else []) = hint := ⟨_, rfl⟩
  have hwritten {sign body : List Char}
      (hsign : (if lastBreaks s.toList = 0 then ['-']
        else if lastBreaks s.toList = 1 && lastBreaks s.toList < s.toList.length then []
        else ['+']) = sign)
      (hbody : (if lastBreaks s.toList = 0 then s.toList else s.toList.dropLast) = body) :
      literalBlock (parent + 2) s =
        '|' :: hint ++ sign ++ (splitLines body).flatMap ('\n' :: indented (parent + 2) ·) := by
    subst hhint hsign hbody
    rfl
  -- without a hint the text begins with something besides blanks and breaks
  have hbegins : hint = ['2'] ∨ hint = [] ∧ Begins (!isGap ·) s.toList := by
    rw [← hhint]
    split
    · exact .inl rfl
    · next hhead => exact .inr ⟨rfl, begins_of_head hne hvisible hhead⟩
  by_cases hbreaks : lastBreaks s.toList = 0
  · have hend := lastBreaks_eq_zero_iff.1 hbreaks
    obtain ⟨parts, after, next, hread, htext, hfull⟩ := blockScalar_header hbegins (.inl ⟨rfl, rfl⟩)
      (fun _ => hlines) (by simp [hclean, htabs]) htail line column
    have hsame := (eq_of_append_breaks (n := 1) htext (getLast?_blockText hfull) hend).1
    refine ⟨next, ?_⟩
    rw [hwritten (if_pos hbreaks) (if_pos hbreaks), hread, hsame]
    simp [chompBreaks]
  · have hend : s.toList.dropLast ++ ['\n'] = s.toList :=
      List.dropLast_append_getLast? _ (not_not.1 fun h => hbreaks (lastBreaks_eq_zero_iff.2 h))
    have hbody {line : List Char} (hline : line ∈ splitLines s.toList.dropLast) :
        line.getLast? ≠ some ' ' := by
      apply hlines
      rw [← hend, splitLines_concat]
      exact List.mem_append_left _ hline
    have hclean : '\t' ∉ s.toList.dropLast ++ tail := fun hmem =>
      (List.mem_append.1 hmem).elim (fun hmem => hclean (List.mem_of_mem_dropLast hmem)) htabs
    have hbegins : hint = ['2'] ∨ hint = [] ∧ Begins (!isGap ·) s.toList.dropLast := by
      rw [← hend] at hbegins
      exact hbegins.imp_right (.imp_right begins_of_concat_break)
    by_cases hone : (lastBreaks s.toList = 1 && lastBreaks s.toList < s.toList.length) = true
    · obtain ⟨parts, after, next, hread, htext, hfull⟩ :=
        blockScalar_header hbegins (.inr (.inl ⟨rfl, rfl⟩)) (fun _ => hbody) hclean htail line column
      refine ⟨next, ?_⟩
      rw [hwritten ((if_neg hbreaks).trans (if_pos hone)) (if_neg hbreaks), hread]
      rw [Bool.and_eq_true, decide_eq_true_eq, decide_eq_true_eq] at hone
      rw [blockText_clip hfull (htext.trans hend) hone.1 (hone.1 ▸ hone.2), String.ofList_toList]
    · obtain ⟨parts, after, next, hread, htext, hfull⟩ :=
        blockScalar_header hbegins (.inr (.inr ⟨rfl, rfl⟩)) (fun _ => hbody) hclean htail line column
      refine ⟨next, ?_⟩
      rw [hwritten ((if_neg hbreaks).trans (if_neg hone)) (if_neg hbreaks), hread, chompBreaks, htext,
        hend]
      simp

/-- A literal block can be seen if its text can. -/
theorem visible_literalBlock {s : String} (hs : canBeLiteral s = true) (depth : Nat) :
    ∀ c ∈ literalBlock depth s, isVisible c = true := by
  simp only [canBeLiteral, Bool.and_eq_true, List.all_eq_true] at hs
  have hheader : ∀ c ∈ ['|', '2', '-', '+'], isVisible c = true := List.all_eq_true.1 rfl
  intro c hc
  unfold literalBlock at hc
  dsimp only at hc
  rcases List.mem_append.1 hc with hc | hc
  · refine hheader c ?_
    rcases List.mem_append.1 hc with hc | hc
    · rcases List.mem_cons.1 hc with rfl | hc
      · decide
      · split at hc
        · rw [List.mem_singleton.1 hc]
          decide
        · cases hc
    · split at hc
      · rw [List.mem_singleton.1 hc]
        decide
      · split at hc
        · cases hc
        · rw [List.mem_singleton.1 hc]
          decide
  · obtain ⟨line, hline, hc⟩ := List.mem_flatMap.1 hc
    have hbody : ∀ d ∈ line, isVisible d = true := by
      intro d hd
      have hmem := mem_of_mem_splitLines hline hd
      split at hmem
      · exact hs.1.1.2 d hmem
      · exact hs.1.1.2 d (List.mem_of_mem_dropLast hmem)
    rcases List.mem_cons.1 hc with rfl | hc
    · decide
    · have hmem : c ∈ indented depth line := hc
      rcases mem_indented hmem with rfl | hc
      · decide
      · exact hbody c hc

end Reading

end Chalkboard.Yaml
