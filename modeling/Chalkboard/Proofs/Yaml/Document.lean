import Chalkboard.Proofs.Yaml.Block

/-!
# Documents in YAML

A mapping that is written in block style is read back entry by entry (`read?_write`). What is said of
a value is said of its text behind a key (`Value`): up to which token it is read, and as which node.
-/

namespace Chalkboard.Yaml

open Text Read

/-! ## Values -/

/-- Behind a key of a mapping at column `col`, the text is read as a node up to the next entry or the
end of the mapping. -/
structure Value (col : Nat) (cs : List Char) (node : Node) : Prop where
  gap : ∃ c rest, cs = c :: rest ∧ isGap c = true
  visible : ∀ c ∈ cs, isVisible c = true
  read : ∀ (k : Nat) (rest : List Char) (line column : Nat) (as : List (String × Node)) (fuel : Nat),
    Follows col k rest → rest.head? ≠ some '-' → col < column → cs.length + 2 ≤ fuel →
    ∃ p, blockValue col fuel ⟨⟨cs ++ (margin k ++ rest), line, column⟩, false, as⟩ = some (node, p) ∧
      p.anchors = as ∧ Before k rest p

section Values

variable {col k line column : Nat} {cs rest : List Char} {node : Node} {as : List (String × Node)}

/-- One blank behind the key or dash, the scalar begins. -/
theorem Written.toToken (h : Written col cs node) (allowed : Bool) :
    toToken false ⟨⟨' ' :: cs ++ ['\n'] ++ (margin k ++ rest), line, column⟩, allowed, as⟩ =
      some ((), ⟨⟨cs ++ '\n' :: (margin k ++ rest), line, column + 1⟩, allowed, as⟩) := by
  have htext : ' ' :: cs ++ ['\n'] ++ (margin k ++ rest) =
      margin 1 ++ (cs ++ '\n' :: (margin k ++ rest)) := by simp [margin]
  have htoken : AtToken (cs ++ '\n' :: (margin k ++ rest)) := by
    obtain ⟨c, cs, rfl⟩ := List.exists_cons_of_ne_nil h.ne_nil
    exact h.token
  rw [htext]
  exact toToken_margin htoken

/-- A scalar stands on the line of its key. -/
theorem Written.value (h : Written col cs node) : Value col (' ' :: cs ++ ['\n']) node where
  gap := ⟨' ', _, rfl, rfl⟩
  visible := by
    intro c hc
    rcases List.mem_append.1 hc with hc | hc
    · rcases List.mem_cons.1 hc with rfl | hc
      · decide
      · exact h.visible c hc
    · exact List.mem_singleton.1 hc ▸ (by decide)
  read := by
    intro k rest line column as fuel hfollows _ hcolumn hfuel
    have hpos := List.length_pos_iff.2 h.ne_nil
    rw [List.length_append, List.length_cons, List.length_singleton] at hfuel
    obtain ⟨fuel, rfl⟩ : ∃ n, fuel = n + 4 := ⟨fuel - 4, by omega⟩
    obtain ⟨p, hread, has, hbefore⟩ :=
      h.read k rest line (column + 1) false as true fuel hfollows (by omega)
    refine ⟨p, ?_, has, hbefore⟩
    rw [blockValue]
    exact run_bind (h.toToken false) hread

/-- At the next token it comes next. -/
theorem before_token (h : AtToken rest) (k line : Nat) (as : List (String × Node)) :
    Before k rest ⟨⟨rest, line, k⟩, true, as⟩ :=
  ⟨line, toToken_margin (k := 0) h⟩

/-! ## Sequences -/

/-- An item of a sequence is a scalar on the line of its dash. -/
def Item (col : Nat) (item node : Node) : Prop :=
  ∃ cs, item.writeAt (col + 2) (col + 2) = ' ' :: cs ++ ['\n'] ∧ Written col cs node

/-- What is done with an item is done at the token behind it. -/
theorem read_item (h : Written col cs node) (hfollows : Follows col k rest) (line : Nat)
    (as : List (String × Node)) (fuel : Nat) : ∃ next, ∀ {β : Type} (f : Node → Read β),
    (do
      indicator true
      toToken false
      let item ← blockNode col false (fuel + 3)
      toToken false
      f item : Read β) ⟨⟨'-' :: (' ' :: cs ++ ['\n'] ++ (margin k ++ rest)), line, col⟩, true, as⟩ =
      f node ⟨⟨rest, next, k⟩, true, as⟩ := by
  obtain ⟨p, hread, has, next, hbefore⟩ :=
    h.read k rest line (col + 1 + 1) true as false fuel hfollows (by omega)
  refine ⟨next, fun f => ?_⟩
  refine run_bind rfl (run_bind (h.toToken true) (run_bind hread (run_bind hbefore ?_)))
  rw [has]

/-- Behind the last item of a sequence the mapping around it goes on or ends. -/
theorem blockItems_last (h : Written col cs node) (hfollows : Follows col k rest)
    (hdash : rest.head? ≠ some '-') (line : Nat) (as : List (String × Node)) (fuel : Nat) : ∃ next,
    blockItems col true (fuel + 4)
      ⟨⟨'-' :: (' ' :: cs ++ ['\n'] ++ (margin k ++ rest)), line, col⟩, true, as⟩ =
      some ([node], ⟨⟨rest, next, k⟩, true, as⟩) := by
  obtain ⟨next, hitem⟩ := read_item h hfollows line as fuel
  refine ⟨next, ?_⟩
  rw [blockItems]
  refine (hitem _).trans (run_bind (atEnd_eq rfl) (run_bind rfl ?_))
  split
  · rfl
  · next hstay =>
    simp only [Bool.or_eq_true, decide_eq_true_eq, not_or, Bool.not_eq_true] at hstay
    obtain ⟨⟨hrest, -⟩, hk⟩ := hstay
    have hcol : k = col := by
      have hle := hfollows.le
      omega
    refine run_bind rfl (run_bind rfl ?_)
    rw [if_pos (by simp [hcol])]
    cases rest with
    | nil => cases hrest
    | cons c rest =>
      have hc : decide ('-' = c) = false := by
        rw [decide_eq_false_iff_not]
        rintro rfl
        exact hdash rfl
      refine run_bind (atIndicator_eq rfl (by rw [hc, Bool.false_and])) ?_
      rw [if_neg Bool.false_ne_true, if_pos rfl]
      rfl

/-- A dash before a gap is no mark. -/
theorem not_isMark_dash {more : List Char} (hgap : atGap more = true) :
    isMark ('-' :: more) = false := by
  cases more with
  | nil => rfl
  | cons c more =>
    have hc : c ≠ '-' := by
      rintro rfl
      cases hgap
    simp [isMark, List.isPrefixOf, hc.symm]

/-- Before a further dash a sequence goes on. -/
theorem blockItems_more {more : List Char} {nodes : List Node} {fuel : Nat}
    (h : Written col cs node) (hfollows : Follows col col ('-' :: more)) (hgap : atGap more = true)
    (hmore : ∀ line, ∃ q, blockItems col true (fuel + 3) ⟨⟨'-' :: more, line, col⟩, true, as⟩ =
      some (nodes, q) ∧ q.anchors = as ∧ Before k rest q) (line : Nat) : ∃ q,
    blockItems col true (fuel + 4)
      ⟨⟨'-' :: (' ' :: cs ++ ['\n'] ++ (margin col ++ '-' :: more)), line, col⟩, true, as⟩ =
      some (node :: nodes, q) ∧ q.anchors = as ∧ Before k rest q := by
  obtain ⟨next, hitem⟩ := read_item h hfollows line as fuel
  obtain ⟨q, hitems, has, hbefore⟩ := hmore next
  have hmark : atMark ⟨'-' :: more, next, col⟩ = false := by
    rw [atMark, not_isMark_dash hgap, Bool.and_false]
  refine ⟨q, ?_, has, hbefore⟩
  rw [blockItems]
  refine (hitem _).trans (run_bind (atEnd_eq hmark) (run_bind rfl ?_))
  rw [if_neg (by simp)]
  refine run_bind rfl (run_bind rfl ?_)
  rw [if_pos (by simp)]
  refine run_bind (atIndicator_eq rfl hgap) ?_
  rw [if_pos rfl]
  exact run_bind hitems rfl

/-- The items of a sequence are read up to the next entry of the mapping around it. -/
theorem blockItems_eq {items nodes : List Node} (hitems : List.Forall₂ (Item col) items nodes)
    (hne : items ≠ []) (hfollows : Follows col k rest) (hdash : rest.head? ≠ some '-') :
    ∃ more, writeItems col items ++ (margin k ++ rest) = margin col ++ '-' :: more ∧
      Follows col col ('-' :: more) ∧ atGap more = true ∧
      ∀ (as : List (String × Node)) (line fuel : Nat), ∃ p,
        blockItems col true (fuel + items.length + 3) ⟨⟨'-' :: more, line, col⟩, true, as⟩ =
          some (nodes, p) ∧ p.anchors = as ∧ Before k rest p := by
  -- on the items from the last one, behind which the mapping goes on, to the first
  induction hitems with
  | nil => exact absurd rfl hne
  | @cons item node items nodes hitem hitems ih =>
    obtain ⟨cs, hcs, hwritten⟩ := hitem
    have hshape (tail : List Char) (htail : ∀ c ∈ tail, isVisible c = true) :
        Follows col col ('-' :: (' ' :: cs ++ ['\n'] ++ tail)) := by
      refine ⟨Nat.le_refl col, rfl, nofun, List.forall_mem_cons.2 ⟨by decide, fun c hc => ?_⟩⟩
      rcases List.mem_append.1 hc with hc | hc
      · exact hwritten.value.visible c hc
      · exact htail c hc
    rw [writeItems, hcs]
    cases hitems with
    | nil =>
      refine ⟨' ' :: cs ++ ['\n'] ++ (margin k ++ rest), by simp [writeItems],
        hshape _ hfollows.visible_margin, rfl, fun as line fuel => ?_⟩
      obtain ⟨next, hread⟩ := blockItems_last hwritten hfollows hdash line as fuel
      exact ⟨_, hread, rfl, before_token hfollows.token k next as⟩
    | cons hitem hitems =>
      obtain ⟨more, htext, hmore, hgap, hread⟩ := ih nofun
      refine
        ⟨' ' :: cs ++ ['\n'] ++ (margin col ++ '-' :: more), ?_, hshape _ hmore.visible_margin, rfl,
        fun as line fuel => ?_⟩
      · rw [← htext]
        simp
      · exact blockItems_more hwritten hmore hgap (fun line => hread as line fuel) line

theorem length_writeItems {items nodes : List Node} (hitems : List.Forall₂ (Item col) items nodes) :
    4 * items.length ≤ (writeItems col items).length := by
  induction hitems with
  | nil => exact Nat.le_refl 0
  | cons hitem hitems ih =>
    obtain ⟨cs, hcs, hwritten⟩ := hitem
    have hpos := List.length_pos_iff.2 hwritten.ne_nil
    rw [writeItems, hcs]
    simp only [List.length_cons, List.length_append, List.length_nil]
    omega

/-- Nothing may follow anything. -/
theorem follows_nil (col : Nat) : Follows col 0 [] :=
  ⟨Nat.zero_le col, rfl, fun _ => rfl, nofun⟩

/-- At the column of its mapping a sequence begins. -/
theorem blockNode_level {more : List Char} {nodes : List Node} {p : Progress} {fuel : Nat}
    (hgap : atGap more = true)
    (hitems : blockItems col true fuel ⟨⟨'-' :: more, line, col⟩, true, as⟩ = some (nodes, p)) :
    blockNode col true (fuel + 1) ⟨⟨'-' :: more, line, col⟩, true, as⟩ =
      some (.sequence nodes, p) := by
  have hend : atEnd ⟨⟨'-' :: more, line, col⟩, true, as⟩ =
      some (false, ⟨⟨'-' :: more, line, col⟩, true, as⟩) := by
    refine atEnd_eq ?_
    rw [atMark, not_isMark_dash hgap, Bool.and_false]
    rfl
  rw [blockNode]
  refine run_bind hend ?_
  rw [if_neg Bool.false_ne_true]
  refine run_bind rfl ?_
  rw [if_pos (Int.le_refl _)]
  refine run_bind (atIndicator_eq rfl hgap) ?_
  rw [if_pos (by simp)]
  refine run_bind rfl ?_
  rw [if_pos rfl]
  exact run_bind hitems rfl

/-- A sequence of scalars stands below its key. -/
theorem value_sequence {items nodes : List Node} (hitems : List.Forall₂ (Item col) items nodes)
    (hne : items ≠ []) :
    Value col ((Node.sequence items).writeAt (col + 2) col) (.sequence nodes) := by
  have hwrite : (Node.sequence items).writeAt (col + 2) col = '\n' :: writeItems col items := by
    obtain ⟨item, items, rfl⟩ := List.exists_cons_of_ne_nil hne
    rfl
  rw [hwrite]
  refine ⟨⟨'\n', _, rfl, rfl⟩, ?_, ?_⟩
  · obtain ⟨more, htext, hmore, -⟩ := blockItems_eq hitems hne (follows_nil col) nofun
    have hall : writeItems col items = margin col ++ '-' :: more :=
      (List.append_nil _).symm.trans htext
    rw [hall]
    exact List.forall_mem_cons.2 ⟨by decide, hmore.visible_margin⟩
  · intro k rest line column as fuel hfollows hdash hcolumn hfuel
    obtain ⟨more, htext, hmore, hgap, hread⟩ := blockItems_eq hitems hne hfollows hdash
    have hlength := length_writeItems hitems
    have hpos := List.length_pos_iff.2 hne
    rw [List.length_cons] at hfuel
    obtain ⟨fuel, rfl⟩ : ∃ n, fuel = n + items.length + 3 + 1 + 1 :=
      ⟨fuel - (items.length + 5), by omega⟩
    obtain ⟨p, hitems, has, hbefore⟩ := hread as (line + 1) fuel
    refine ⟨p, ?_, has, hbefore⟩
    rw [List.cons_append, htext, blockValue]
    exact run_bind (toToken_break hmore.token) (blockNode_level hgap hitems)

/-! ## Mappings -/

/-- A name that is written plain in front of a colon. -/
structure KeyName (name : String) : Prop where
  plain : canBePlain name = true
  clear : isAmbiguous name = false
  begins : Begins Char.isAlpha name.toList
  short : name.toList.length ≤ maxKeyLength

theorem KeyName.writeText_eq {name : String} (h : KeyName name) (depth : Nat) :
    writeText depth name = name.toList := by
  have hline : name.toList.contains '\n' = false := by
    rw [Bool.eq_false_iff]
    intro hmem
    exact ((PlainText.of_canBePlain h.plain).1.visible _ (List.contains_iff_mem.1 hmem)).2 rfl
  unfold writeText
  rw [hline, Bool.false_and, if_neg Bool.false_ne_true, if_neg Bool.false_ne_true, h.plain, h.clear]
  rfl

/-- An entry of a mapping with a name as its key. -/
inductive Entry (col : Nat) : Node × Node → Node × Node → Prop
  | named {name : String} {value node : Node} (hname : KeyName name)
    (hvalue : Value col (value.writeAt (col + 2) col) node) :
    Entry col (.scalar false name, value) (.scalar true name, node)

/-- A key is read up to its colon. -/
theorem flowNode_key {name : String} (h : KeyName name) {tail : List Char} (hgap : atGap tail = true)
    (indent fuel : Nat) (allowed : Bool) :
    flowNode false indent (fuel + 1) ⟨⟨name.toList ++ ':' :: tail, line, column⟩, allowed, as⟩ =
      some (.scalar true name, ⟨⟨':' :: tail, line, column + name.toList.length⟩, false, as⟩) := by
  obtain ⟨hplain, hbegins⟩ := PlainText.of_canBePlain h.plain
  have hname : String.ofList name.toList = name := String.ofList_toList
  obtain ⟨c, cs, htext, -⟩ := h.begins.cons_eq
  rw [htext] at hplain hbegins hname ⊢
  rw [flowNode_plain hplain (hbegins _) (stops_colon indent hgap), hname]

/-- A name begins with a letter, and so with no sign of any kind. -/
theorem not_isAlpha {c d : Char} (hc : c.isAlpha = true) (hd : d.isAlpha = false) : c ≠ d := by
  rintro rfl
  rw [hd] at hc
  cases hc

theorem bare_of_isAlpha {c : Char} (hc : c.isAlpha = true) (cs : List Char) : Bare c cs := by
  refine ⟨fun h => ?_, not_isAlpha hc (by decide), not_isAlpha hc (by decide)⟩
  simp only [isSpecial, Bool.or_eq_true, decide_eq_true_eq] at h
  rcases h with (rfl | rfl) | rfl <;> cases hc

theorem not_isMark_of_isAlpha {c : Char} (hc : c.isAlpha = true) (cs : List Char) :
    isMark (c :: cs) = false := by
  have hdash : c ≠ '-' := not_isAlpha hc (by decide)
  have hpoint : c ≠ '.' := not_isAlpha hc (by decide)
  simp [isMark, List.isPrefixOf, hdash.symm, hpoint.symm]

theorem atToken_of_isAlpha {c : Char} (hc : c.isAlpha = true) (cs : List Char) :
    AtToken (c :: cs) := by
  have hspace : c ≠ ' ' := not_isAlpha hc (by decide)
  have htab : c ≠ '\t' := not_isAlpha hc (by decide)
  have hbreak : c ≠ '\n' := not_isAlpha hc (by decide)
  have hcomment : c ≠ '#' := not_isAlpha hc (by decide)
  simp [AtToken, isGap, isTabOrSpace, hspace, htab, hbreak, hcomment]

section Entries

variable {name : String} {value : List Char} {node : Node} {nodes : List (Node × Node)} {k₁ : Nat}
  {rest₁ : List Char} {fuel : Nat}

/-- From a token on, the entries of a mapping at column `col` are read up to the next token behind
the mapping. -/
def Goes (col k : Nat) (rest : List Char) (nodes : List (Node × Node)) (fuel k₁ : Nat)
    (rest₁ : List Char) : Prop :=
  ∀ p, Before k₁ rest₁ p →
    ∃ q, moreEntries col fuel p = some (nodes, q) ∧ q.anchors = p.anchors ∧ Before k rest q

/-- Behind a key its value and the further entries are read. -/
theorem read_entry (hvalue : Value col value node) (hfollows : Follows col k₁ rest₁)
    (hdash : rest₁.head? ≠ some '-') (hmore : Goes col k rest nodes fuel k₁ rest₁)
    (hfuel : value.length + 2 ≤ fuel) (hcolumn : col ≤ column) (line : Nat)
    (as : List (String × Node)) : ∃ q, q.anchors = as ∧ Before k rest q ∧
    ∀ {β : Type} (f : Node → List (Node × Node) → Read β),
      (do
        indicator false
        let value ← blockValue col fuel
        let entries ← moreEntries col fuel
        f value entries : Read β) ⟨⟨':' :: (value ++ (margin k₁ ++ rest₁)), line, column⟩, false, as⟩ =
        f node nodes q := by
  obtain ⟨p, hread, has, hbefore⟩ :=
    hvalue.read k₁ rest₁ line (column + 1) as fuel hfollows hdash (by omega) hfuel
  obtain ⟨q, hentries, hanchors, hafter⟩ := hmore p hbefore
  exact ⟨q, hanchors.trans has, hafter, fun f => run_bind rfl (run_bind hread (run_bind hentries rfl))⟩

theorem isKey_name (hname : KeyName name) {tail : List Char} (hgap : atGap tail = true)
    (cs : List Char) :
    isKey ⟨cs, line, col⟩ ⟨⟨':' :: tail, line, col + name.toList.length⟩, false, as⟩ =
      some (true, ⟨⟨':' :: tail, line, col + name.toList.length⟩, false, as⟩) := by
  refine isKey_colon hgap rfl ?_
  rw [Nat.add_sub_cancel_left]
  exact hname.short

/-- An entry is read with those that follow it. -/
theorem blockEntries_eq (hname : KeyName name) (hvalue : Value col value node)
    (hfollows : Follows col k₁ rest₁) (hdash : rest₁.head? ≠ some '-')
    (hmore : Goes col k rest nodes (fuel + 1) k₁ rest₁) (hfuel : value.length + 2 ≤ fuel + 1)
    (line : Nat) (as : List (String × Node)) : ∃ q, q.anchors = as ∧ Before k rest q ∧
    blockEntries col (fuel + 2)
      ⟨⟨name.toList ++ ':' :: (value ++ (margin k₁ ++ rest₁)), line, col⟩, true, as⟩ =
      some ((.scalar true name, node) :: nodes, q) := by
  obtain ⟨c, cs, htext, hc⟩ := hname.begins.cons_eq
  have hgap : atGap (value ++ (margin k₁ ++ rest₁)) = true := by
    obtain ⟨d, ds, rfl, hd⟩ := hvalue.gap
    exact hd
  obtain ⟨q, has, hbefore, hread⟩ := read_entry hvalue hfollows hdash hmore hfuel
    (Nat.le_add_right col name.toList.length) line as
  have hno {d : Char} (hd : d.isAlpha = false) :
      atIndicator d ⟨⟨name.toList ++ ':' :: (value ++ (margin k₁ ++ rest₁)), line, col⟩, true, as⟩ =
        some (false,
          ⟨⟨name.toList ++ ':' :: (value ++ (margin k₁ ++ rest₁)), line, col⟩, true, as⟩) := by
    refine atIndicator_eq (congrArg (· ++ _) htext) ?_
    simp [(not_isAlpha hc hd).symm]
  have hhead {d : Char} (hd : d.isAlpha = false) :
      (name.toList ++ ':' :: (value ++ (margin k₁ ++ rest₁))).head? ≠ some d := by
    rw [htext]
    exact fun heq => not_isAlpha hc hd (Option.some.inj heq)
  refine ⟨q, has, hbefore, ?_⟩
  rw [blockEntries]
  refine run_bind (hno (by decide)) ?_
  rw [if_neg Bool.false_ne_true]
  refine run_bind (hno (by decide)) ?_
  rw [if_neg Bool.false_ne_true]
  refine run_bind rfl (run_bind (properties_eq (hhead (by decide)) (hhead (by decide))) ?_)
  refine run_bind rfl ?_
  rw [if_neg (by simp)]
  refine run_bind (hno (by decide)) ?_
  rw [if_neg (by simp)]
  refine run_bind (flowNode_key hname hgap _ _ _) (run_bind rfl (run_bind (isKey_name hname hgap _) ?_))
  rw [if_pos rfl]
  exact hread _

/-- Where the next entry stands at the column of a mapping, the mapping goes on. -/
theorem goes_entry (hname : KeyName name) (hvalue : Value col value node)
    (hfollows : Follows col k₁ rest₁) (hdash : rest₁.head? ≠ some '-')
    (hmore : Goes col k rest nodes (fuel + 1) k₁ rest₁) (hfuel : value.length + 2 ≤ fuel + 1) :
    Goes col k rest ((.scalar true name, node) :: nodes) (fuel + 3) col
      (name.toList ++ ':' :: (value ++ (margin k₁ ++ rest₁))) := by
  intro p hbefore
  obtain ⟨next, htoken⟩ := hbefore
  obtain ⟨q, has, hafter, hread⟩ :=
    blockEntries_eq hname hvalue hfollows hdash hmore hfuel next p.anchors
  obtain ⟨c, cs, htext, hc⟩ := hname.begins.cons_eq
  have hend :
      atEnd ⟨⟨name.toList ++ ':' :: (value ++ (margin k₁ ++ rest₁)), next, col⟩, true, p.anchors⟩ =
        some (false,
          ⟨⟨name.toList ++ ':' :: (value ++ (margin k₁ ++ rest₁)), next, col⟩, true, p.anchors⟩) := by
    refine atEnd_eq ?_
    rw [atMark, htext, List.cons_append, not_isMark_of_isAlpha hc, Bool.and_false]
    rfl
  refine ⟨q, ?_, has, hafter⟩
  rw [moreEntries]
  refine run_bind htoken (run_bind hend (run_bind rfl ?_))
  rw [if_neg (by simp)]
  refine run_bind rfl (run_bind rfl ?_)
  rw [if_pos (by simp)]
  exact hread

/-- Behind the last entry a mapping ends. -/
theorem goes_nil (hrest : AtToken rest) (hend : rest = [] ∨ k < col) :
    Goes col k rest [] (fuel + 1) k rest := by
  intro p hbefore
  obtain ⟨next, htoken⟩ := hbefore
  refine ⟨⟨⟨rest, next, k⟩, true, p.anchors⟩, ?_, rfl, before_token hrest k next p.anchors⟩
  rw [moreEntries]
  refine run_bind htoken (run_bind (atEnd_eq rfl) (run_bind rfl ?_))
  rw [if_pos]
  · rfl
  · rcases hend with rfl | hk
    · rfl
    · simp [hk]

/-- A name with its value is what the next entry begins with. -/
theorem follows_entry (hname : KeyName name) (hvalue : Value col value node)
    (hfollows : Follows col k₁ rest₁) :
    Follows col col (name.toList ++ ':' :: (value ++ (margin k₁ ++ rest₁))) := by
  obtain ⟨c, cs, htext, hc⟩ := hname.begins.cons_eq
  refine ⟨Nat.le_refl col, ?_, ?_, fun d hd => ?_⟩
  · rw [htext]
    exact atToken_of_isAlpha hc _
  · rw [htext]
    nofun
  · rcases List.mem_append.1 hd with hd | hd
    · exact ((PlainText.of_canBePlain hname.plain).1.visible d hd).1
    · rcases List.mem_cons.1 hd with rfl | hd
      · decide
      · rcases List.mem_append.1 hd with hd | hd
        · exact hvalue.visible d hd
        · exact hfollows.visible_margin d hd

end Entries

theorem writeEntries_cons {name : String} (hname : KeyName name) (value : Node)
    (entries : List (Node × Node)) : writeEntries col ((.scalar false name, value) :: entries) =
      margin col ++ name.toList ++ ':' :: value.writeAt (col + 2) col ++ writeEntries col entries := by
  rw [writeEntries, hname.writeText_eq]

/-- The entries of a mapping are read from the first of them on, up to what follows the mapping. -/
theorem goes_entries {entries nodes : List (Node × Node)}
    (hentries : List.Forall₂ (Entry col) entries nodes) (hfollows : Follows col k rest)
    (hdash : rest.head? ≠ some '-') (hend : rest = [] ∨ k < col) :
    ∃ k₁ rest₁, writeEntries col entries ++ (margin k ++ rest) = margin k₁ ++ rest₁ ∧
      Follows col k₁ rest₁ ∧ rest₁.head? ≠ some '-' ∧
      ∀ fuel, (writeEntries col entries).length + 2 ≤ fuel → Goes col k rest nodes fuel k₁ rest₁ := by
  -- on the entries; what stands behind an entry is either the next one or the end of the mapping
  induction hentries with
  | nil =>
    refine ⟨k, rest, rfl, hfollows, hdash, fun fuel hfuel => ?_⟩
    obtain ⟨fuel, rfl⟩ : ∃ n, fuel = n + 1 := ⟨fuel - 1, by omega⟩
    exact goes_nil hfollows.token hend
  | @cons entry node entries nodes hentry hentries ih =>
    obtain @⟨name, value, node, hname, hvalue⟩ := hentry
    obtain ⟨k₁, rest₁, htext, hfollows₁, hdash₁, hgoes⟩ := ih
    refine ⟨col, name.toList ++ ':' :: (value.writeAt (col + 2) col ++ (margin k₁ ++ rest₁)), ?_,
      follows_entry hname hvalue hfollows₁, ?_, fun fuel hfuel => ?_⟩
    · rw [writeEntries_cons hname, ← htext]
      simp
    · obtain ⟨c, cs, hname, hc⟩ := hname.begins.cons_eq
      rw [hname]
      exact fun heq => not_isAlpha hc (by decide) (Option.some.inj heq)
    · have hpos : 0 < name.toList.length := by
        obtain ⟨c, cs, hname, -⟩ := hname.begins.cons_eq
        rw [hname]
        exact Nat.succ_pos _
      rw [writeEntries_cons hname] at hfuel
      simp only [List.length_append, List.length_cons] at hfuel
      obtain ⟨fuel, rfl⟩ : ∃ n, fuel = n + 3 := ⟨fuel - 3, by omega⟩
      exact goes_entry hname hvalue hfollows₁ hdash₁ (hgoes (fuel + 1) (by omega)) (by omega)

/-- A mapping is read from its first key on. -/
theorem blockNode_mapping {entries nodes : List (Node × Node)}
    (hentries : List.Forall₂ (Entry col) entries nodes) (hne : entries ≠ [])
    (hfollows : Follows col k rest) (hdash : rest.head? ≠ some '-') (hend : rest = [] ∨ k < col) :
    ∃ rest₁, writeEntries col entries ++ (margin k ++ rest) = margin col ++ rest₁ ∧
      Follows col col rest₁ ∧ Begins Char.isAlpha rest₁ ∧
      ∀ (parent : Int) (level : Bool) (line : Nat) (as : List (String × Node)) (fuel : Nat),
        parent < col → (writeEntries col entries).length ≤ fuel + 1 →
        ∃ q, q.anchors = as ∧ Before k rest q ∧
          blockNode parent level (fuel + 3) ⟨⟨rest₁, line, col⟩, true, as⟩ =
            some (.mapping nodes, q) := by
  obtain _ | @⟨entry, node, entries, nodes, hentry, hentries⟩ := hentries
  · exact absurd rfl hne
  obtain @⟨name, value, node, hname, hvalue⟩ := hentry
  obtain ⟨k₁, rest₁, htext, hfollows₁, hdash₁, hgoes⟩ := goes_entries hentries hfollows hdash hend
  obtain ⟨c, cs, hcs, hc⟩ := hname.begins.cons_eq
  obtain ⟨text, hall⟩ : ∃ text,
      name.toList ++ ':' :: (value.writeAt (col + 2) col ++ (margin k₁ ++ rest₁)) = text := ⟨_, rfl⟩
  refine ⟨text, ?_, hall ▸ follows_entry hname hvalue hfollows₁, ?_, ?_⟩
  · rw [writeEntries_cons hname, ← hall, ← htext]
    simp
  · rw [← hall, hcs]
    exact hc
  · intro parent level line as fuel hparent hfuel
    have hgap : atGap (value.writeAt (col + 2) col ++ (margin k₁ ++ rest₁)) = true := by
      obtain ⟨d, ds, hd, hgap⟩ := hvalue.gap
      rw [hd]
      exact hgap
    have hpos : 0 < name.toList.length := by
      rw [hcs]
      exact Nat.succ_pos _
    rw [writeEntries_cons hname] at hfuel
    simp only [List.length_append, List.length_cons] at hfuel
    have hvisible : 0 < (value.writeAt (col + 2) col).length := by
      obtain ⟨d, ds, hd, -⟩ := hvalue.gap
      rw [hd]
      exact Nat.succ_pos _
    obtain ⟨fuel, rfl⟩ : ∃ n, fuel = n + 1 := ⟨fuel - 1, by omega⟩
    obtain ⟨q, has, hbefore, hread⟩ := read_entry hvalue hfollows₁ hdash₁
      (hgoes (fuel + 2) (by omega)) (by omega) (Nat.le_add_right col name.toList.length) line as
    refine ⟨q, has, hbefore, ?_⟩
    have htext :
        text = c :: (cs ++ ':' :: (value.writeAt (col + 2) col ++ (margin k₁ ++ rest₁))) := by
      rw [← hall, hcs, List.cons_append]
    have hmark : atMark ⟨text, line, col⟩ = false := by
      rw [atMark, htext, not_isMark_of_isAlpha hc, Bool.and_false]
    have hflow : flowNode false (parent + 1).toNat (fuel + 1 + 1) ⟨⟨text, line, col⟩, true, as⟩ = _ :=
      hall ▸ flowNode_key hname hgap (parent + 1).toNat (fuel + 1) true
    refine blockNode_eq htext hmark hparent (not_isAlpha hc (by decide))
      (not_isAlpha hc (by decide)) ?_
    refine blockContent_flow (bare_of_isAlpha hc _) htext hflow ?_
    refine run_bind (isKey_name hname hgap text) ?_
    rw [if_pos rfl, if_pos rfl]
    exact hread _

/-- A mapping stands below its key, two columns deeper. -/
theorem value_mapping {entries nodes : List (Node × Node)}
    (hentries : List.Forall₂ (Entry (col + 2)) entries nodes) (hne : entries ≠ []) :
    Value col ((Node.mapping entries).writeAt (col + 2) col) (.mapping nodes) := by
  have hwrite :
      (Node.mapping entries).writeAt (col + 2) col = '\n' :: writeEntries (col + 2) entries := by
    obtain ⟨entry, entries, rfl⟩ := List.exists_cons_of_ne_nil hne
    rfl
  obtain ⟨text, hall, hvisible⟩ : ∃ text, writeEntries (col + 2) entries = margin (col + 2) ++ text ∧
      ∀ c ∈ margin (col + 2) ++ text, isVisible c = true := by
    obtain ⟨text, htext, hfollows, -⟩ :=
      blockNode_mapping hentries hne (follows_nil (col + 2)) nofun (.inl rfl)
    exact ⟨text, (List.append_nil _).symm.trans htext, hfollows.visible_margin⟩
  have hlength : 2 ≤ (writeEntries (col + 2) entries).length := by
    rw [hall, List.length_append, margin, List.length_replicate]
    omega
  rw [hwrite]
  refine ⟨⟨'\n', _, rfl, rfl⟩, ?_, ?_⟩
  · rw [hall]
    exact List.forall_mem_cons.2 ⟨by decide, hvisible⟩
  · intro k rest line column as fuel hfollows hdash hcolumn hfuel
    have hk : k < col + 2 := Nat.lt_add_right 1 (Nat.lt_succ_of_le hfollows.le)
    have hdeeper : Follows (col + 2) k rest := { hfollows with le := Nat.le_of_lt hk }
    obtain ⟨rest₁, htext, hfollows₁, -, hread⟩ :=
      blockNode_mapping hentries hne hdeeper hdash (.inr hk)
    rw [List.length_cons] at hfuel
    obtain ⟨fuel, rfl⟩ : ∃ n, fuel = n + 3 + 1 := ⟨fuel - 4, by omega⟩
    obtain ⟨q, has, hbefore, hnode⟩ := hread col true (line + 1) as fuel (by omega) (by omega)
    refine ⟨q, ?_, has, hbefore⟩
    rw [List.cons_append, htext, blockValue]
    exact run_bind (toToken_break hfollows₁.token) hnode

end Values

/-! ## Documents -/

/-- Visible characters may stand in a document, and are kept. -/
theorem isAllowed_of_isVisible {c : Char} (h : isVisible c = true) : isAllowed c = true := by
  simp only [isVisible, isAllowed, Bool.or_eq_true, Bool.and_eq_true, decide_eq_true_eq,
    bne_iff_ne] at h ⊢
  omega

theorem normalBreaks_eq {cs : List Char} (h : ∀ c ∈ cs, isVisible c = true) :
    normalBreaks cs = cs := by
  induction cs with
  | nil => rfl
  | cons c cs ih =>
    obtain ⟨hc, hcs⟩ := List.forall_mem_cons.1 h
    have hreturn : c ≠ '\r' := by
      rintro rfl
      cases hc
    have hnext : c.toNat ≠ 0x85 := by
      intro hnat
      simp [isVisible, hnat] at hc
    rw [normalBreaks, if_neg hnext, ih hcs]
    · exact fun _ hd _ => hreturn hd
    · exact hreturn

/-- The text of a document begins with its first token. -/
theorem directives_eq {cs : List Char} (hbegins : Begins Char.isAlpha cs) (fuel : Nat) :
    directives (fuel + 1) ⟨⟨cs, 0, 0⟩, true, []⟩ = some (false, ⟨⟨cs, 0, 0⟩, true, []⟩) := by
  obtain ⟨c, cs, rfl, hc⟩ := hbegins.cons_eq
  have htoken : toToken false ⟨⟨c :: cs, 0, 0⟩, true, []⟩ = some ((), ⟨⟨c :: cs, 0, 0⟩, true, []⟩) :=
    toToken_margin (k := 0) (atToken_of_isAlpha hc cs)
  have hpercent : c ≠ '%' := not_isAlpha hc (by decide)
  unfold directives
  refine run_bind htoken (run_bind rfl (run_bind (rest_eq _) ?_))
  rw [if_neg (by simp [hpercent])]
  rfl

/-- A text with a single node is a document. -/
theorem document_eq {cs : List Char} (hbegins : Begins Char.isAlpha cs) {node : Node} {fuel : Nat}
    (h : ∃ q, Before 0 [] q ∧
      blockNode (-1) false (fuel + 1) ⟨⟨cs, 0, 0⟩, true, []⟩ = some (node, q)) :
    ∃ q, document (fuel + 1) ⟨⟨cs, 0, 0⟩, true, []⟩ = some (node, q) := by
  obtain ⟨q, ⟨next, hend⟩, hnode⟩ := h
  refine ⟨⟨⟨[], next, 0⟩, true, q.anchors⟩, ?_⟩
  have hdirectives := directives_eq hbegins fuel
  obtain ⟨c, cs, rfl, hc⟩ := hbegins.cons_eq
  have htoken : toToken false ⟨⟨c :: cs, 0, 0⟩, true, []⟩ = some ((), ⟨⟨c :: cs, 0, 0⟩, true, []⟩) :=
    toToken_margin (k := 0) (atToken_of_isAlpha hc cs)
  unfold document
  refine run_bind hdirectives (run_bind htoken (run_bind rfl (run_bind (rest_eq _) ?_)))
  refine run_bind rfl ?_
  have hdash : c ≠ '-' := not_isAlpha hc (by decide)
  rw [if_neg (by simp), if_neg (by simp [List.isPrefixOf, hdash.symm])]
  refine run_bind hnode (run_bind hend (run_bind (a := ()) ?_ rfl))
  rfl

/-- A mapping is read back from its document. -/
theorem read?_write {entries nodes : List (Node × Node)}
    (hentries : List.Forall₂ (Entry 0) entries nodes) (hne : entries ≠ []) :
    Node.read? (Node.mapping entries).write = some (.mapping nodes) := by
  obtain ⟨text, htext, hfollows, hbegins, hread⟩ :=
    blockNode_mapping hentries hne (follows_nil 0) nofun (.inl rfl)
  have hall : writeEntries 0 entries = text := (List.append_nil _).symm.trans htext
  have hwrite : (Node.mapping entries).write = String.ofList text := by
    obtain ⟨entry, entries, rfl⟩ := List.exists_cons_of_ne_nil hne
    exact congrArg String.ofList hall
  rw [hall] at hread
  obtain ⟨q, -, hbefore, hnode⟩ := hread (-1) false 0 [] (4 * text.length + 13) (by decide) (by omega)
  obtain ⟨q, hdocument⟩ := document_eq hbegins ⟨q, hbefore, hnode⟩
  have hallowed : text.all isAllowed = true :=
    List.all_eq_true.2 fun c hc => isAllowed_of_isVisible (hfollows.visible c hc)
  have hbreaks := normalBreaks_eq hfollows.visible
  obtain ⟨c, cs, rfl, hc⟩ := hbegins.cons_eq
  have hmark : ¬ c.toNat = 0xfeff := by
    intro hc
    have hvisible := hfollows.visible c List.mem_cons_self
    simp [isVisible, hc] at hvisible
  rw [hwrite]
  unfold Node.read?
  rw [String.toList_ofList]
  dsimp only
  rw [if_neg hmark, if_pos hallowed, hbreaks]
  exact congrArg (Option.map Prod.fst) hdocument

end Chalkboard.Yaml
