import Mathlib.Data.List.Basic
import Mathlib.Data.List.TakeWhile
import Chalkboard.Config.Template

/-!
# References are replaced once

A reference begins where its marks stand around a name, and nowhere else
(`Template.reference?_eq_some_iff`). Plain text does not hold the opening marks, and they do not stand
astride its end either, since a reference begins with a dollar sign and not with a brace. So a text
that was put together from plain parts and references is cut into just these
(`Template.pieces_fill`), and nothing of any text is lost when it is cut (`Template.source_pieces`).
Hence `Template.expand_fill`: references give way to the values of their variables, which are not
looked at again, and a text without a reference to a variable that has a value stays as it is.
-/

namespace Chalkboard.Template

/-! ## Where a reference begins -/

/-- What can stand between the marks of a reference. -/
def IsName (name : List Char) : Prop :=
  name ≠ [] ∧ closing ∉ name

instance (name : List Char) : Decidable (IsName name) :=
  inferInstanceAs (Decidable (_ ∧ _))

section Reference

variable {cs name rest : List Char}

theorem source_reference_append (name rest : List Char) :
    (Piece.reference name).source ++ rest = opening ++ (name ++ closing :: rest) := by
  simp [Piece.source]

/-- The closing mark ends the name in front of it. -/
theorem takeWhile_name (hname : closing ∉ name) (rest : List Char) :
    (name ++ closing :: rest).takeWhile (· != closing) = name := by
  have hall : ∀ c ∈ name, (c != closing) = true := by
    intro c hc
    rw [bne_iff_ne]
    rintro rfl
    exact hname hc
  rw [List.takeWhile_append_of_pos hall, List.takeWhile_cons_of_neg (by simp), List.append_nil]

/-- A run of other characters that does not reach the end is followed by the closing mark. -/
theorem eq_append_closing (cs : List Char)
    (h : (cs.takeWhile (· != closing)).length ≠ cs.length) :
    cs = cs.takeWhile (· != closing) ++
      closing :: cs.drop ((cs.takeWhile (· != closing)).length + 1) := by
  induction cs with
  | nil => exact absurd rfl h
  | cons c cs ih =>
    rw [List.takeWhile_cons] at h ⊢
    split
    · next hpass =>
      rw [if_pos hpass, List.length_cons, List.length_cons] at h
      have hrest : (cs.takeWhile (· != closing)).length ≠ cs.length := by
        intro heq
        exact h (congrArg (· + 1) heq)
      exact congrArg (c :: ·) (ih hrest)
    · next hstop =>
      have hc : c = closing := by simpa using hstop
      rw [hc]
      rfl

/-- A reference begins where its marks stand around a name, and nowhere else. -/
theorem reference?_eq_some_iff :
    reference? cs = some (name, rest) ↔
      IsName name ∧ cs = (Piece.reference name).source ++ rest := by
  constructor
  · intro h
    unfold reference? at h
    split at h
    · next hopening =>
      obtain ⟨behind, rfl⟩ := List.isPrefixOf_iff_prefix.1 hopening
      have hdrop : (opening ++ behind).drop 2 = behind := rfl
      rw [hdrop] at h
      dsimp only at h
      split at h
      · cases h
      · next hvalid =>
        cases h
        rw [Bool.or_eq_true, List.isEmpty_iff, decide_eq_true_eq, not_or] at hvalid
        -- a name that reaches to the end of the text has no closing mark
        obtain ⟨hne, hclosed⟩ := hvalid
        refine ⟨⟨hne, ?_⟩, ?_⟩
        · intro hmem
          have hpass := List.mem_takeWhile_imp hmem
          exact (bne_iff_ne.1 hpass) rfl
        · rw [source_reference_append, ← eq_append_closing behind hclosed]
    · cases h
  · rintro ⟨⟨hne, hname⟩, rfl⟩
    rw [source_reference_append]
    have hopening : opening.isPrefixOf (opening ++ (name ++ closing :: rest)) = true :=
      List.isPrefixOf_iff_prefix.2 (List.prefix_append ..)
    have hdrop : (opening ++ (name ++ closing :: rest)).drop 2 = name ++ closing :: rest := rfl
    have hrest : (name ++ closing :: rest).drop (name.length + 1) = rest := by
      rw [← List.drop_drop, List.drop_left]
      rfl
    have hvalid : ¬(name.isEmpty || name.length = (name ++ closing :: rest).length) = true := by
      simp [hne]
    unfold reference?
    rw [if_pos hopening, hdrop]
    dsimp only
    rw [takeWhile_name hname, hrest, if_neg hvalid]

end Reference

/-! ## Cutting a text -/

section Pieces

variable {c : Char} {tail name rest : List Char}

theorem pieces_of_some (h : reference? (c :: tail) = some (name, rest)) :
    pieces (c :: tail) = .reference name :: pieces rest := by
  rw [pieces]
  split
  · next name' rest' h' =>
    rw [h] at h'
    cases h'
    rfl
  · next hnone =>
    rw [h] at hnone
    cases hnone

theorem pieces_of_none (h : reference? (c :: tail) = none) :
    pieces (c :: tail) = .plain c :: pieces tail := by
  rw [pieces]
  split
  · next hsome =>
    rw [h] at hsome
    cases hsome
  · rfl

/-- A reference is cut off as it stands. -/
theorem pieces_reference (hname : IsName name) (rest : List Char) :
    pieces ((Piece.reference name).source ++ rest) = .reference name :: pieces rest :=
  pieces_of_some (reference?_eq_some_iff.2 ⟨hname, rfl⟩)

/-- Plain text is cut into its characters, at the end of a text and in front of a reference. -/
theorem pieces_plain {plain more : List Char} (hplain : ¬ opening <:+: plain)
    (hmore : ∀ c, more.head? = some c → c = '$') :
    pieces (plain ++ more) = plain.map .plain ++ pieces more := by
  induction plain with
  | nil => rfl
  | cons c plain ih =>
    have hnone : reference? (c :: (plain ++ more)) = none := by
      rw [Option.eq_none_iff_forall_ne_some]
      rintro ⟨name, rest⟩ hsome
      obtain ⟨-, hsource⟩ := reference?_eq_some_iff.1 hsome
      rw [source_reference_append] at hsource
      -- the first mark would be `c`, the second one is in the plain text or behind it
      cases plain with
      | nil =>
        have hhead : more.head? = some (Char.ofNat 0x7b) :=
          congrArg List.head? (List.cons.inj hsource).2
        exact absurd (hmore _ hhead) (by decide)
      | cons d plain =>
        apply hplain
        have hmarks : [c, d] = opening := congrArg (List.take 2) hsource
        rw [← hmarks]
        exact (List.prefix_append [c, d] plain).isInfix
    have hrest : ¬ opening <:+: plain := by
      intro h
      exact hplain (h.trans (List.suffix_cons c plain).isInfix)
    rw [List.cons_append, pieces_of_none hnone, ih hrest]
    rfl

/-- The pieces of a text make up the text. -/
theorem source_pieces (cs : List Char) : (pieces cs).flatMap Piece.source = cs := by
  induction cs using pieces.induct with
  | case1 =>
    rw [pieces]
    rfl
  | case2 c tail name rest h _ ih =>
    rw [pieces_of_some h, List.flatMap_cons, ih]
    exact (reference?_eq_some_iff.1 h).2.symm
  | case3 c tail h ih =>
    rw [pieces_of_none h, List.flatMap_cons, ih]
    rfl

/-- The pieces that are references have names. -/
theorem isName_of_mem_pieces {cs : List Char} (h : .reference name ∈ pieces cs) : IsName name := by
  induction cs using pieces.induct with
  | case1 =>
    rw [pieces] at h
    cases h
  | case2 c tail name' rest hsome _ ih =>
    rw [pieces_of_some hsome, List.mem_cons] at h
    rcases h with heq | hrest
    · cases heq
      exact (reference?_eq_some_iff.1 hsome).1
    · exact ih hrest
  | case3 c tail hnone ih =>
    rw [pieces_of_none hnone, List.mem_cons] at h
    rcases h with heq | hrest
    · cases heq
    · exact ih hrest

/-- Each piece stands in the text. -/
theorem source_infix {cs : List Char} {p : Piece} (h : p ∈ pieces cs) : p.source <:+: cs := by
  obtain ⟨before, after, hpieces⟩ := List.append_of_mem h
  refine ⟨before.flatMap Piece.source, after.flatMap Piece.source, ?_⟩
  have hall := source_pieces cs
  rw [hpieces, List.flatMap_append, List.flatMap_cons] at hall
  rw [List.append_assoc]
  exact hall

end Pieces

/-! ## Texts in segments -/

/-- How a text refers to a variable. -/
def mention (name : String) : String :=
  "$\x7b" ++ name ++ "\x7d"

/-- What is written for a variable: its value, or the reference where it has none. -/
def written (lookup : String → Option String) (name : String) : String :=
  (lookup name).getD (mention name)

/-- A text in segments: plain text, and then the names of variables, each with the plain text behind
it. -/
structure Segments where
  first : String
  rest : List (String × String)

namespace Segments

/-- The text with every variable written as `f` says. -/
def fill (f : String → String) (s : Segments) : String :=
  s.rest.foldl (fun text segment => text ++ f segment.1 ++ segment.2) s.first

/-- The plain texts hold no opening marks, and the names can stand in references. -/
structure Proper (s : Segments) : Prop where
  first : ¬ opening <:+: s.first.toList
  names : ∀ segment ∈ s.rest, IsName segment.1.toList
  rest : ∀ segment ∈ s.rest, ¬ opening <:+: segment.2.toList

theorem toList_fill (f : String → String) (s : Segments) :
    (s.fill f).toList =
      s.first.toList ++ s.rest.flatMap fun segment => (f segment.1).toList ++ segment.2.toList := by
  obtain ⟨first, rest⟩ := s
  unfold fill
  dsimp only
  induction rest generalizing first with
  | nil => exact (List.append_nil _).symm
  | cons segment rest ih =>
    rw [List.foldl_cons, ih, List.flatMap_cons, String.toList_append, String.toList_append]
    simp only [List.append_assoc]

end Segments

theorem toList_mention (name : String) :
    (mention name).toList = (Piece.reference name.toList).source := by
  simp only [mention, String.toList_append]
  rfl

theorem toList_written (lookup : String → Option String) (name : String) :
    (written lookup name).toList = (Piece.reference name.toList).value lookup := by
  rw [written, Piece.value, String.ofList_toList, ← toList_mention]
  cases lookup name <;> rfl

/-- The pieces of a text in segments are its characters and its references. -/
theorem pieces_fill {s : Segments} (hs : s.Proper) :
    pieces (s.fill mention).toList =
      s.first.toList.map .plain ++ s.rest.flatMap fun segment =>
        .reference segment.1.toList :: segment.2.toList.map .plain := by
  rw [Segments.toList_fill]
  obtain ⟨first, rest⟩ := s
  obtain ⟨hfirst, hnames, hrest⟩ := hs
  dsimp only at hfirst hnames hrest ⊢
  -- from segment to segment, with the plain text in front of each
  induction rest generalizing first with
  | nil =>
    have hend : ∀ c, ([] : List Char).head? = some c → c = '$' := by
      intro c hc
      cases hc
    rw [List.flatMap_nil, List.flatMap_nil, pieces_plain hfirst hend, pieces]
  | cons segment rest ih =>
    obtain ⟨hname, hnames⟩ := List.forall_mem_cons.1 hnames
    obtain ⟨hplain, hrest⟩ := List.forall_mem_cons.1 hrest
    have htail := ih segment.2 hplain hnames hrest
    have hdollar : ∀ (more : List Char) (c : Char),
        ((Piece.reference segment.1.toList).source ++ more).head? = some c → c = '$' := by
      intro more c hc
      exact (Option.some.inj hc).symm
    rw [List.flatMap_cons, List.flatMap_cons, toList_mention, List.append_assoc,
      pieces_plain hfirst (hdollar _), pieces_reference hname, htail, List.cons_append]

/-- A text in segments is expanded segment by segment: every variable is written once, by its value or
as it was referred to, and nothing else changes, whatever the values look like. And a text that refers
to no variable with a value stays as it is. -/
theorem expand_fill (lookup : String → Option String) :
    (∀ s : Segments, s.Proper → expand lookup (s.fill mention) = s.fill (written lookup)) ∧
      ∀ text : String,
        (∀ name, IsName name.toList → (lookup name).isSome = true →
          ¬ (mention name).toList <:+: text.toList) →
        expand lookup text = text := by
  constructor
  · intro s hs
    have hplain (cs : List Char) : (cs.map .plain).flatMap (Piece.value lookup) = cs := by
      rw [List.flatMap_map]
      exact List.flatMap_singleton' cs
    rw [expand, pieces_fill hs, ← String.ofList_toList (s := s.fill (written lookup)),
      Segments.toList_fill, List.flatMap_append, hplain, List.flatMap_assoc]
    congr 2
    apply List.flatMap_congr
    intro segment _
    rw [List.flatMap_cons, hplain, toList_written]
  -- no piece that is a reference has a value, so every piece is written as it stood
  · intro text htext
    have hvalue : ∀ p ∈ pieces text.toList, p.value lookup = p.source := by
      intro p hp
      cases p with
      | plain c => rfl
      | reference name =>
        have hnone : lookup (String.ofList name) = none := by
          rw [← Option.not_isSome_iff_eq_none]
          intro hsome
          apply htext (String.ofList name) _ hsome
          · rw [toList_mention, String.toList_ofList]
            exact source_infix hp
          · rw [String.toList_ofList]
            exact isName_of_mem_pieces hp
        rw [Piece.value, hnone]
    rw [expand, List.flatMap_congr hvalue, source_pieces, String.ofList_toList]

/-- Two variables; the value of the first looks like a reference to the second. -/
def sampleLookup (name : String) : Option String :=
  if name = "A" then some "$\x7bB\x7d\x7d" else if name = "B" then some "b" else none

/-- Dollar signs and braces around references, a name over two lines that has no value, and a text of
marks without a name and without an end. -/
theorem expand_fill_sample :
    let s : Segments := ⟨"$", [("A", ""), ("B", "\x7d$"), ("$\x7bx\ny", "\x7bB\x7d")]⟩
    let text := "$\x7b\x7d$\x7bB"
    s.Proper ∧
      s.fill mention = "$$\x7bA\x7d$\x7bB\x7d\x7d$$\x7b$\x7bx\ny\x7d\x7bB\x7d" ∧
      expand sampleLookup (s.fill mention) =
        "$$\x7bB\x7d\x7db\x7d$$\x7b$\x7bx\ny\x7d\x7bB\x7d" ∧
      (∀ name, IsName name.toList → (sampleLookup name).isSome = true →
        ¬ (mention name).toList <:+: text.toList) ∧
      expand sampleLookup text = text := by
  intro s text
  have hs : s.Proper := ⟨by decide, by decide, by decide⟩
  have htext : ∀ name, IsName name.toList → (sampleLookup name).isSome = true →
      ¬ (mention name).toList <:+: text.toList := by
    intro name _ hsome
    -- only two names have values
    unfold sampleLookup at hsome
    split at hsome
    · next hname =>
      subst hname
      decide +kernel
    · split at hsome
      · next hname =>
        subst hname
        decide +kernel
      · cases hsome
  have hexpand := (expand_fill sampleLookup).1 s hs
  refine ⟨hs, by decide +kernel, ?_, htext, (expand_fill sampleLookup).2 text htext⟩
  rw [hexpand]
  decide +kernel

end Chalkboard.Template
