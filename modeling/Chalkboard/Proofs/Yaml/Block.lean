import Chalkboard.Proofs.Yaml.Literal
import Chalkboard.Yaml.Reader

/-!
# Block style in YAML
-/

namespace Chalkboard.Yaml

open Text Read

/-! ## Reading a document -/

/-- What a scanner reads is read of the document. -/
theorem scan_eq {α : Type} {s : Scan α} {a : α} {c c' : Cursor} (h : s c = some (a, c'))
    (allowed : Bool) (as : List (String × Node)) :
    scan s ⟨c, allowed, as⟩ = some (a, ⟨c', allowed, as⟩) :=
  congrArg (Option.map fun r : α × Cursor => (r.1, (⟨r.2, allowed, as⟩ : Progress))) h

theorem rest_eq (p : Progress) : rest p = some (p.cursor.rest, p) :=
  rfl

theorem atEnd_eq {p : Progress} {ended : Bool}
    (h : (p.cursor.rest.isEmpty || atMark p.cursor) = ended) :
    atEnd p = some (ended, p) :=
  congrArg (fun b => some (b, p)) h

theorem atIndicator_eq {p : Progress} {c d : Char} {cs : List Char} {next : Bool}
    (hrest : p.cursor.rest = d :: cs) (h : (decide (c = d) && atGap cs) = next) :
    atIndicator c p = some (next, p) := by
  have hread : atIndicator c p = some (decide (c = d) && atGap cs, p) := by
    obtain ⟨⟨_, line, column⟩, allowed, as⟩ := p
    obtain rfl : _ = d :: cs := hrest
    rfl
  rw [hread, h]

/-! ## Between tokens -/

section Tokens

variable {cs rest : List Char} {line column k n : Nat} {allowed : Bool} {as : List (String × Node)}

/-- A token comes next, or the end of the text. -/
def AtToken (cs : List Char) : Prop :=
  cs.head?.all (fun c => !isGap c && c != '#') = true

theorem AtToken.ne (h : AtToken cs) {c : Char} (hc : isGap c = true ∨ c = '#') :
    cs.head? ≠ some c := by
  cases cs with
  | nil => nofun
  | cons d cs =>
    intro hd
    obtain rfl := Option.some.inj hd
    have hboth := Bool.and_eq_true_iff.1 h
    rcases hc with hgap | rfl
    · rw [hgap] at hboth
      cases hboth.1
    · cases hboth.2

theorem AtToken.stops (h : AtToken cs) {p : Char → Bool} (hp : ∀ c, p c = true → isGap c = true) :
    cs.head?.all (!p ·) = true := by
  cases cs with
  | nil => rfl
  | cons c cs =>
    rw [List.head?_cons, Option.all_some, Bool.not_eq_true', Bool.eq_false_iff]
    exact fun hc => h.ne (.inl (hp c hc)) rfl

theorem break_not_mem_margin (k : Nat) : '\n' ∉ margin k := by
  intro hmem
  cases List.eq_of_mem_replicate hmem

/-- Blanks before a token are passed. -/
theorem skipGaps_margin (h : AtToken rest) (n : Nat) :
    skipGaps false (n + 1) ⟨⟨margin k ++ rest, line, column⟩, allowed, as⟩ =
      some ((), ⟨⟨rest, line, column + k⟩, allowed, as⟩) := by
  have htake : Scans (Scan.takeWhile fun c => c = ' ' || ((false || !allowed) && c = '\t'))
      (margin k) (margin k) rest := by
    refine Scans.takeWhile ?_ (h.stops ?_)
    · intro c hc
      rw [List.eq_of_mem_replicate hc]
      rfl
    · intro c hc
      simp only [Bool.or_eq_true, Bool.and_eq_true, decide_eq_true_eq] at hc
      rcases hc with rfl | ⟨-, rfl⟩ <;> rfl
  have hblanks := scan_eq (htake.line (break_not_mem_margin k) line column) allowed as
  rw [margin, List.length_replicate, ← margin] at hblanks
  unfold skipGaps
  refine run_bind rfl (run_bind hblanks (run_bind (rest_eq _) ?_))
  rw [if_neg (h.ne (.inr rfl))]
  refine run_bind (rest_eq _) ?_
  rw [if_neg (h.ne (.inl rfl))]
  rfl

theorem toToken_margin (h : AtToken rest) :
    toToken false ⟨⟨margin k ++ rest, line, column⟩, allowed, as⟩ =
      some ((), ⟨⟨rest, line, column + k⟩, allowed, as⟩) :=
  run_bind (rest_eq _) (skipGaps_margin h _)

/-- Behind a line break a key may begin. -/
theorem toToken_break (h : AtToken rest) :
    toToken false ⟨⟨'\n' :: (margin k ++ rest), line, column⟩, allowed, as⟩ =
      some ((), ⟨⟨rest, line + 1, k⟩, true, as⟩) := by
  have htake : scan (Scan.takeWhile fun c => c = ' ' || ((false || !allowed) && c = '\t'))
      ⟨⟨'\n' :: (margin k ++ rest), line, column⟩, allowed, as⟩ =
      some ([], ⟨⟨'\n' :: (margin k ++ rest), line, column⟩, allowed, as⟩) := by
    refine scan_eq ?_ allowed as
    cases allowed <;> rfl
  have hnext : skipGaps false ((margin k ++ rest).length + 1)
      ⟨⟨margin k ++ rest, line + 1, 0⟩, true, as⟩ = some ((), ⟨⟨rest, line + 1, 0 + k⟩, true, as⟩) :=
    skipGaps_margin h _
  rw [Nat.zero_add] at hnext
  unfold toToken skipGaps
  refine run_bind (rest_eq _) (run_bind rfl (run_bind htake (run_bind (rest_eq _) ?_)))
  rw [if_neg (by simp)]
  refine run_bind (rest_eq _) ?_
  rw [if_pos (by simp)]
  exact run_bind rfl (run_bind rfl hnext)

end Tokens

/-! ## Nodes on one line -/

section Flow

variable {c : Char} {cs tail : List Char} {line column indent fuel : Nat} {allowed : Bool}
  {as : List (String × Node)} {node : Node} {p q : Progress}

theorem properties_eq (hanchor : p.cursor.rest.head? ≠ some '&')
    (htag : p.cursor.rest.head? ≠ some '!') : properties false p = some ((none, false), p) := by
  unfold properties
  refine run_bind (a := none) (y := p) (run_bind (rest_eq p) ?_) ?_
  · rw [if_neg hanchor]
    rfl
  rw [if_neg (by decide)]
  refine run_bind (a := false) (y := p) (run_bind (rest_eq p) ?_) rfl
  rw [if_neg htag]
  rfl

theorem not_isMarkup {d : Char} (hd : isMarkup d = true) (hc : isMarkup c = false) : c ≠ d := by
  rintro rfl
  rw [hd] at hc
  cases hc

/-- A plain scalar is a node of its own. -/
theorem flowNode_plain (hcs : PlainText (c :: cs))
    (hbegins : beginsPlain false (c :: cs ++ tail) = true)
    (htail : Stops indent tail) (fuel : Nat) :
    flowNode false indent (fuel + 1) ⟨⟨c :: cs ++ tail, line, column⟩, allowed, as⟩ =
      some (.scalar true (String.ofList (c :: cs)),
        ⟨⟨tail, line, column + (c :: cs).length⟩, false, as⟩) := by
  obtain ⟨hgap, hmarkup, -⟩ := beginsPlain_iff.1 hbegins
  have hhead : Begins (!isGap ·) (c :: cs) := by simp [Begins, hgap]
  have hscalar := scan_eq (plainScalar_eq hcs hhead htail line column) allowed as
  have hbrace : ¬ c.toNat = 0x7b := by
    intro hc
    have hbrace : c = Char.ofNat 0x7b := hc ▸ (Char.ofNat_toNat c).symm
    exact not_isMarkup (by decide) hmarkup hbrace
  unfold flowNode
  refine run_bind (rest_eq _) ?_
  rw [List.cons_append] at hbegins hscalar ⊢
  rw [List.head?_cons]
  generalize hfirst : some c = first
  split
  · exact absurd (Option.some.inj hfirst) (not_isMarkup (by decide) hmarkup)
  · exact absurd (Option.some.inj hfirst) (not_isMarkup (by decide) hmarkup)
  · exact absurd (Option.some.inj hfirst) (not_isMarkup (by decide) hmarkup)
  · exact absurd (Option.some.inj hfirst) (not_isMarkup (by decide) hmarkup)
  · obtain rfl := Option.some.inj hfirst
    rw [if_neg hbrace, if_pos hbegins]
    exact run_bind hscalar rfl
  · cases hfirst

/-- So is a quoted scalar. -/
theorem flowNode_quoted {s : String} (hc : c = '\'' ∨ c = '"')
    (h : Inline quotedScalar (c :: cs) s tail) (hcolumn : 0 < column) (fuel : Nat) :
    flowNode false indent (fuel + 1) ⟨⟨c :: cs ++ tail, line, column⟩, allowed, as⟩ =
      some (.scalar false s, ⟨⟨tail, line, column + (c :: cs).length⟩, false, as⟩) := by
  have hscalar := scan_eq (h line column hcolumn) allowed as
  unfold flowNode
  rcases hc with rfl | rfl
  · exact run_bind (rest_eq _) (run_bind hscalar rfl)
  · exact run_bind (rest_eq _) (run_bind hscalar rfl)

/-- At the end of a line no colon makes a node a key. -/
theorem isKey_break (start : Cursor) :
    isKey start ⟨⟨'\n' :: tail, line, column⟩, allowed, as⟩ =
      some (false, ⟨⟨'\n' :: tail, line, column⟩, allowed, as⟩) :=
  rfl

theorem isKey_colon {start : Cursor} (htail : atGap tail = true) (hline : line = start.line)
    (hlength : column - start.column ≤ maxKeyLength) :
    isKey start ⟨⟨':' :: tail, line, column⟩, allowed, as⟩ =
      some (true, ⟨⟨':' :: tail, line, column⟩, allowed, as⟩) := by
  have hblanks : scan (Scan.takeWhile isTabOrSpace) ⟨⟨':' :: tail, line, column⟩, allowed, as⟩ =
      some ([], ⟨⟨':' :: tail, line, column⟩, allowed, as⟩) := rfl
  unfold isKey
  refine run_bind hblanks (run_bind (atIndicator_eq rfl htail) ?_)
  rw [if_pos rfl]
  refine run_bind rfl (run_bind rfl ?_)
  rw [if_pos (by simp [hline, hlength])]
  rfl

end Flow

/-! ## Nodes in block style -/

section Block

variable {c : Char} {cs : List Char} {parent : Int} {level : Bool} {start : Cursor}
  {allowed : Bool} {fuel : Nat} {node : Node} {p q : Progress}

/-- Where a node stands deep enough and has no name or tag, its content is read. -/
theorem blockNode_eq (hrest : p.cursor.rest = c :: cs) (hmark : atMark p.cursor = false)
    (hdeep : parent < p.cursor.column) (hanchor : c ≠ '&') (htag : c ≠ '!')
    (h : blockContent parent p.cursor p.keyAllowed none fuel p = some (node, q)) :
    blockNode parent level (fuel + 1) p = some (node, q) := by
  have hend : atEnd p = some (false, p) := atEnd_eq (by rw [hrest, hmark]; rfl)
  have hhead {d : Char} (hd : c ≠ d) : p.cursor.rest.head? ≠ some d := by
    rw [hrest]
    exact fun heq => hd (Option.some.inj heq)
  rw [blockNode]
  refine run_bind hend ?_
  rw [if_neg Bool.false_ne_true]
  refine run_bind (a := p.cursor.column) (y := p) rfl ?_
  rw [if_neg (by omega)]
  refine run_bind (a := p) (y := p) rfl (run_bind (a := p) (y := p) rfl ?_)
  refine run_bind (properties_eq (hhead hanchor) (hhead htag)) ?_
  exact h

/-- A node on a line is neither an entry nor a block scalar. -/
structure Bare (c : Char) (cs : List Char) : Prop where
  special : isSpecial c = true → atGap cs = false
  literal : c ≠ '|'
  folded : c ≠ '>'

theorem Bare.atIndicator (h : Bare c cs) (hrest : p.cursor.rest = c :: cs) {d : Char}
    (hd : isSpecial d = true) : Read.atIndicator d p = some (false, p) := by
  refine atIndicator_eq hrest ?_
  by_cases hc : d = c
  · rw [h.special (hc ▸ hd), Bool.and_false]
  · simp [hc]

theorem blockContent_flow (hbare : Bare c cs) (hrest : p.cursor.rest = c :: cs)
    (hflow : flowNode false (parent + 1).toNat fuel p = some (node, q))
    {r : Option (Node × Progress)}
    (h : (do
      if ← isKey start then
        if allowed then
          indicator false
          let value ← blockValue start.column fuel
          let entries ← moreEntries start.column fuel
          return .mapping ((node, value) :: entries)
        else failure
      else return node : Read Node) q = r) :
    blockContent parent start allowed none (fuel + 1) p = r := by
  rw [blockContent]
  refine run_bind (a := p) (y := p) rfl (run_bind (hbare.atIndicator hrest rfl) ?_)
  rw [if_neg Bool.false_ne_true]
  refine run_bind (hbare.atIndicator hrest rfl) (run_bind (hbare.atIndicator hrest rfl) ?_)
  rw [Bool.or_false, if_neg Bool.false_ne_true]
  refine run_bind (rest_eq p) ?_
  rw [hrest, List.head?_cons]
  generalize hfirst : some c = first
  split
  · exact absurd (Option.some.inj hfirst) hbare.literal
  · exact absurd (Option.some.inj hfirst) hbare.folded
  · exact run_bind hflow (run_bind rfl h)

theorem blockContent_literal {cs : List Char} {s : String} {here next : Cursor}
    {as : List (String × Node)} (hrest : here.rest = '|' :: cs)
    (hscalar : blockScalar parent here = some (s, next)) :
    blockContent parent start allowed none (fuel + 1) ⟨here, allowed, as⟩ =
      some (.scalar false s, ⟨next, true, as⟩) := by
  obtain ⟨_, line, column⟩ := here
  obtain rfl : _ = '|' :: cs := hrest
  have hno {d : Char} (hd : d ≠ '|') :
      atIndicator d ⟨⟨'|' :: cs, line, column⟩, allowed, as⟩ =
        some (false, ⟨⟨'|' :: cs, line, column⟩, allowed, as⟩) :=
    atIndicator_eq rfl (by simp [hd])
  rw [blockContent]
  refine run_bind rfl (run_bind (hno (by decide)) ?_)
  rw [if_neg Bool.false_ne_true]
  refine run_bind (hno (by decide)) (run_bind (hno (by decide)) ?_)
  rw [Bool.or_false, if_neg Bool.false_ne_true]
  refine run_bind (rest_eq _) ?_
  exact run_bind (scan_eq hscalar allowed as) rfl

end Block

/-! ## Values on the line of their key -/

section Values

variable {cs rest : List Char} {parent k : Nat}

/-- What comes behind a value of a collection at column `parent`: something at a column `k` that is
not deeper, or the end of the text. -/
structure Follows (parent k : Nat) (rest : List Char) : Prop where
  le : k ≤ parent
  token : AtToken rest
  last : rest = [] → k = 0
  visible : ∀ c ∈ rest, isVisible c = true

/-- The next token is at the head of `rest`, at column `k` of a line that a key may begin. -/
def Before (k : Nat) (rest : List Char) (p : Progress) : Prop :=
  ∃ line, toToken false p = some ((), ⟨⟨rest, line, k⟩, true, p.anchors⟩)

theorem before_break (h : AtToken rest) (k line column : Nat) (allowed : Bool)
    (as : List (String × Node)) :
    Before k rest ⟨⟨'\n' :: (margin k ++ rest), line, column⟩, allowed, as⟩ :=
  ⟨line + 1, toToken_break h⟩

theorem before_margin (h : AtToken rest) (k line : Nat) (as : List (String × Node)) :
    Before k rest ⟨⟨margin k ++ rest, line, 0⟩, true, as⟩ := by
  have hread : toToken false ⟨⟨margin k ++ rest, line, 0⟩, true, as⟩ =
      some ((), ⟨⟨rest, line, 0 + k⟩, true, as⟩) := toToken_margin h
  rw [Nat.zero_add] at hread
  exact ⟨line, hread⟩

/-- The text is read as a node in a collection at column `parent`. -/
structure Written (parent : Nat) (cs : List Char) (node : Node) : Prop where
  ne_nil : cs ≠ []
  token : AtToken cs
  visible : ∀ c ∈ cs, isVisible c = true
  read : ∀ (k : Nat) (rest : List Char) (line column : Nat) (allowed : Bool)
    (as : List (String × Node)) (level : Bool) (fuel : Nat), Follows parent k rest → parent < column →
    ∃ p, blockNode parent level (fuel + 3)
        ⟨⟨cs ++ '\n' :: (margin k ++ rest), line, column⟩, allowed, as⟩ = some (node, p) ∧
      p.anchors = as ∧ Before k rest p

theorem atMark_eq_false {here : Cursor} (h : 0 < here.column) : atMark here = false :=
  Bool.eq_false_iff.2 (not_atMark h)

/-- A scalar on the line of its key or dash goes up to the end of the line. -/
theorem written_flow {c : Char} {cs : List Char} {node : Node}
    (htoken : AtToken (c :: cs)) (hvisible : ∀ d ∈ c :: cs, isVisible d = true)
    (hbare : ∀ tail, Bare c (cs ++ tail)) (hanchor : c ≠ '&') (htag : c ≠ '!')
    (hflow : ∀ (tail : List Char) (line column : Nat) (allowed : Bool) (as : List (String × Node))
      (fuel : Nat), Stops (parent + 1) tail → 0 < column → tail.head? ≠ some '\'' →
      flowNode false (parent + 1) (fuel + 1) ⟨⟨c :: cs ++ tail, line, column⟩, allowed, as⟩ =
        some (node, ⟨⟨tail, line, column + (c :: cs).length⟩, false, as⟩)) :
    Written parent (c :: cs) node where
  ne_nil := List.cons_ne_nil c cs
  token := htoken
  visible := hvisible
  read := by
    intro k rest line column allowed as level fuel hfollows hcolumn
    have hstops : Stops (parent + 1) ('\n' :: (margin k ++ rest)) :=
      stops_break (Nat.lt_succ_of_le hfollows.le) (hfollows.token.stops fun _ => id)
    have hindent : ((parent : Int) + 1).toNat = parent + 1 := rfl
    have hnode := hflow _ line column allowed as fuel hstops (by omega) (by simp)
    refine ⟨_, blockNode_eq rfl (atMark_eq_false (Nat.zero_lt_of_lt hcolumn)) (by simpa using hcolumn)
      hanchor htag ?_, rfl, before_break hfollows.token k line (column + (c :: cs).length) false as⟩
    refine blockContent_flow (hbare _) rfl (hindent ▸ hnode) (run_bind (isKey_break _) ?_)
    rw [if_neg Bool.false_ne_true]
    rfl

theorem written_plain (hcs : PlainText cs) (hbegins : ∀ tail, beginsPlain false (cs ++ tail) = true) :
    Written parent cs (.scalar true (String.ofList cs)) := by
  cases cs with
  | nil => exact absurd (hbegins []) (by decide)
  | cons c cs =>
    obtain ⟨hgap, hmarkup, -⟩ := beginsPlain_iff.1 (hbegins [])
    have hne {d : Char} (hd : isMarkup d = true) : c ≠ d := not_isMarkup hd hmarkup
    refine written_flow ?_ (fun d hd => (hcs.visible d hd).1) ?_ (hne (by decide)) (hne (by decide)) ?_
    · have hcomment : c ≠ '#' := hne (by decide)
      simp [AtToken, hgap, hcomment]
    · exact fun tail => ⟨(beginsPlain_iff.1 (hbegins tail)).2.2, hne (by decide), hne (by decide)⟩
    · exact fun tail line column allowed as fuel hstops _ _ =>
        flowNode_plain hcs (hbegins tail) hstops fuel

theorem written_quoted {c : Char} {s : String} (hc : c = '\'' ∨ c = '"')
    (hvisible : ∀ d ∈ c :: cs, isVisible d = true)
    (h : ∀ tail : List Char, tail.head? ≠ some '\'' → Inline quotedScalar (c :: cs) s tail) :
    Written parent (c :: cs) (.scalar false s) := by
  have hspecial : isSpecial c = false := by rcases hc with rfl | rfl <;> rfl
  refine written_flow ?_ hvisible (fun tail => ⟨fun h => ?_, ?_, ?_⟩) ?_ ?_ ?_
  · rcases hc with rfl | rfl <;> rfl
  · rw [hspecial] at h
    cases h
  iterate 4 rcases hc with rfl | rfl <;> decide
  exact fun tail line column allowed as fuel _ hcolumn hquote =>
    flowNode_quoted hc (h tail hquote) hcolumn fuel

theorem Follows.visible_margin (h : Follows parent k rest) :
    ∀ c ∈ margin k ++ rest, isVisible c = true := by
  intro c hc
  rcases List.mem_append.1 hc with hc | hc
  · exact List.eq_of_mem_replicate hc ▸ (by decide)
  · exact h.visible c hc

/-- A literal block ends before whatever follows it. -/
theorem Follows.ends (h : Follows parent k rest) : Ends (parent + 2) (margin k ++ rest) := by
  cases rest with
  | nil =>
    rw [h.last rfl]
    exact ends_nil _
  | cons c rest =>
    have hle := h.le
    refine ends_less (by omega) ?_
    exact h.token.stops fun _ => id

theorem written_literal {s : String} (hs : canBeLiteral s = true) :
    Written parent (literalBlock (parent + 2) s) (.scalar false s) where
  ne_nil := List.cons_ne_nil '|' _
  token := rfl
  visible := visible_literalBlock hs _
  read := by
    intro k rest line column allowed as level fuel hfollows hcolumn
    have htabs : '\t' ∉ margin k ++ rest :=
      fun hmem => absurd (hfollows.visible_margin _ hmem) (by decide)
    obtain ⟨next, hscalar⟩ := blockScalar_literal hs htabs hfollows.ends line column
    refine ⟨_, blockNode_eq rfl (atMark_eq_false (Nat.zero_lt_of_lt hcolumn)) (by simpa using hcolumn)
      (by decide) (by decide) ?_, rfl, before_margin hfollows.token k next as⟩
    exact blockContent_literal rfl hscalar

/-- A text is read back, whatever its style. -/
theorem written_text (parent : Nat) (s : String) :
    ∃ plain, Written parent (writeText (parent + 2) s) (.scalar plain s) := by
  have hdouble : Written parent (doubleQuoted s) (.scalar false s) :=
    written_quoted (.inr rfl) (visible_doubleQuoted s) fun tail _ => inline_doubleQuoted s tail
  unfold writeText
  split
  · next h => exact ⟨false, written_literal (Bool.and_eq_true_iff.1 h).2⟩
  · split
    · exact ⟨false, hdouble⟩
    · next hbreak =>
      split
      · next h =>
        obtain ⟨hplain, hbegins⟩ := PlainText.of_canBePlain (Bool.and_eq_true_iff.1 h).1
        have hread : Written parent s.toList (.scalar true (String.ofList s.toList)) :=
          written_plain hplain hbegins
        rw [String.ofList_toList] at hread
        exact ⟨true, hread⟩
      · split
        · next h =>
          simp only [canBeSingleQuoted, Bool.and_eq_true, List.all_eq_true] at h
          have hvisible : ∀ c ∈ s.toList, isVisible c = true ∧ c ≠ '\n' := by
            intro c hc
            refine ⟨h.1.1 c hc, ?_⟩
            rintro rfl
            exact hbreak (List.contains_iff_mem.2 hc)
          have hquoted := visible_singleQuoted fun c hc => (hvisible c hc).1
          exact ⟨false, written_quoted (.inl rfl) hquoted fun tail htail =>
            inline_singleQuoted hvisible htail⟩
        · exact ⟨false, hdouble⟩

end Values

end Chalkboard.Yaml
