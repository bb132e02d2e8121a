import Chalkboard.Prompt.Message
import Chalkboard.Proofs.Text.Split

/-!
# Taking a text out of its wrapping

A model may wrap its text into prose and a code fence. The fences are looked for as plain text, so
what is wrapped comes out again if it holds no fence of its own (`stripFence_around`); without a
wrapping it comes out of the blanks around it (`stripFence_blanks`).
-/

namespace Chalkboard

/-- The character that fences are made of. -/
def tick : Char := Char.ofNat 0x60

theorem eq_tick_of_mem_fence {c : Char} (h : c ∈ fence) : c = tick :=
  List.eq_of_mem_replicate h

theorem fence_isPrefix_jsonFence : fence <+: jsonFence :=
  List.prefix_append _ _

theorem tick_not_mem_of_blank {cs : List Char} (h : ∀ c ∈ cs, Text.isBlank c = true) :
    tick ∉ cs := by
  intro hmem
  exact absurd (h tick hmem) (by decide)

/-! ## Texts without a fence -/

/-- No fence stands in the text, nor could one stand across its end. -/
structure Unfenced (cs : List Char) : Prop where
  inside : ¬ fence <:+: cs
  last : cs.getLast? ≠ some tick

namespace Unfenced

variable {cs more : List Char}

theorem of_not_mem (h : tick ∉ cs) : Unfenced cs where
  inside hfence := h (hfence.subset (by decide))
  last hlast := h (List.mem_of_getLast? hlast)

/-- In front of anything, such a text gives no fence a place to start. -/
theorem start (h : Unfenced cs) {s : List Char} (hs : s <:+ cs) (hne : s ≠ []) :
    ¬ fence <+: s ++ more := by
  intro hfence
  rcases Nat.lt_or_ge s.length 3 with hshort | hlong
  · -- a fence that starts this near to the end covers the last character
    have hpart : s <+: fence :=
      List.prefix_of_prefix_length_le (List.prefix_append s more) hfence (Nat.le_of_lt hshort)
    have htick : s.getLast hne = tick :=
      eq_tick_of_mem_fence (hpart.subset (List.getLast_mem hne))
    obtain ⟨front, rfl⟩ := hs
    refine h.last ?_
    rw [List.getLast?_append, List.getLast?_eq_some_getLast hne, htick]
    rfl
  · have hpart : fence <+: s :=
      List.prefix_of_prefix_length_le hfence (List.prefix_append s more) hlong
    exact h.inside (hpart.isInfix.trans hs.isInfix)

/-- Whatever starts with a fence is looked for behind such a text. -/
theorem splitOnce? (h : Unfenced cs) {pat : List Char} (hpat : fence <+: pat) (more : List Char) :
    Text.splitOnce? pat (cs ++ more) =
      (Text.splitOnce? pat more).map fun (before, after) => (cs ++ before, after) :=
  Text.splitOnce?_append fun _ hs hne hprefix => h.start hs hne (hpat.trans hprefix)

/-- There it is found at once. -/
theorem splitOnce?_open (h : Unfenced cs) {pat : List Char} (hpat : fence <+: pat)
    (rest : List Char) : Text.splitOnce? pat (cs ++ (pat ++ rest)) = some (cs, rest) := by
  have hne : pat ≠ [] := by
    rintro rfl
    exact absurd (List.prefix_nil.1 hpat) (by decide)
  rw [h.splitOnce? hpat, Text.splitOnce?_self hne]
  simp

/-- In such a text alone it is not found. -/
theorem splitOnce?_eq_none (h : Unfenced cs) {pat : List Char} (hpat : fence <+: pat) :
    Text.splitOnce? pat cs = none :=
  Text.splitOnce?_eq_none fun hinfix => h.inside (hpat.isInfix.trans hinfix)

end Unfenced

/-- Behind a fence that opens no JSON block, a fence that does is looked for. -/
theorem splitOnce?_jsonFence_fence {more : List Char} (hhead : more.head? ≠ some tick)
    (hjson : ¬ ['j', 's', 'o', 'n'] <+: more) :
    Text.splitOnce? jsonFence (fence ++ more) =
      (Text.splitOnce? jsonFence more).map fun (before, after) => (fence ++ before, after) := by
  refine Text.splitOnce?_append fun s hs hne hprefix => ?_
  obtain ⟨rest, hrest⟩ := hprefix
  rw [fence, List.replicate_succ, List.replicate_succ, List.replicate_succ, List.suffix_cons_iff,
    List.suffix_cons_iff, List.suffix_cons_iff] at hs
  -- the fence itself, or the end of it with the rest of a fence behind
  rcases hs with rfl | rfl | rfl | hnil
  · have hmore := (List.cons.inj (List.cons.inj (List.cons.inj hrest).2).2).2
    exact hjson ⟨rest, hmore⟩
  · have hmore := (List.cons.inj (List.cons.inj hrest).2).2
    exact hhead (congrArg List.head? hmore).symm
  · have hmore := (List.cons.inj hrest).2
    exact hhead (congrArg List.head? hmore).symm
  · exact hne (List.suffix_nil.1 hnil)

/-! ## Wrapped texts -/

/-- What a model puts around a text: prose, a fence that may say what it opens, blanks, the text,
blanks again, the fence that closes, and more prose. -/
structure Wrapping where
  before : String
  tagged : Bool
  gap : String
  gap' : String
  after : String

namespace Wrapping

/-- What stands behind the fence that opens. -/
def behind (w : Wrapping) (text : String) : List Char :=
  w.gap.toList ++ (text.toList ++ (w.gap'.toList ++ (fence ++ w.after.toList)))

/-- The text in its wrapping. -/
def around (w : Wrapping) (text : String) : String :=
  w.before ++ String.ofList (if w.tagged then jsonFence else fence) ++ w.gap ++ text ++ w.gap' ++
    String.ofList fence ++ w.after

theorem toList_around (w : Wrapping) (text : String) :
    (w.around text).toList =
      w.before.toList ++ ((if w.tagged then jsonFence else fence) ++ w.behind text) := by
  simp only [around, behind, String.toList_append, String.toList_ofList, List.append_assoc]

/-- The prose holds no fence, nor the beginning of one, and does not make the fence that closes look
like one that opens a JSON block. -/
structure Plain (w : Wrapping) : Prop where
  before : tick ∉ w.before.toList
  gap : Text.allBlank w.gap = true
  gap' : Text.allBlank w.gap' = true
  after : tick ∉ w.after.toList
  closes : w.tagged = false → ¬ ['j', 's', 'o', 'n'] <+: w.after.toList

end Wrapping

/-- A text in braces that holds no fence. -/
structure Braced (cs : List Char) : Prop where
  unfenced : ¬ fence <:+: cs
  braces : ∃ inner, cs = '\x7b' :: (inner ++ ['\x7d'])

namespace Braced

variable {cs : List Char}

theorem getLast? (h : Braced cs) : cs.getLast? = some '\x7d' := by
  obtain ⟨inner, rfl⟩ := h.braces
  rw [← List.cons_append, List.getLast?_append]
  rfl

theorem toUnfenced (h : Braced cs) : Unfenced cs :=
  ⟨h.unfenced, by rw [h.getLast?]; decide⟩

/-- Blanks around such a text are trimmed away. -/
theorem trim (h : Braced cs) {before after : String} (hbefore : Text.allBlank before = true)
    (hafter : Text.allBlank after = true) :
    Text.trimChars (before.toList ++ (cs ++ after.toList)) = cs := by
  refine Text.trimChars_append (List.all_eq_true.1 hbefore) (List.all_eq_true.1 hafter) ?_ ?_
  · obtain ⟨inner, rfl⟩ := h.braces
    rfl
  · rw [h.getLast?]
    rfl

end Braced

section Strip

variable {text : String} (h : Braced text.toList)
include h

/-- Blanks around a text without a fence are taken off. -/
theorem stripFence_blanks {before after : String} (hbefore : Text.allBlank before = true)
    (hafter : Text.allBlank after = true) : stripFence (before ++ text ++ after) = text := by
  have hfront := Unfenced.of_not_mem (tick_not_mem_of_blank (List.all_eq_true.1 hbefore))
  have hback := Unfenced.of_not_mem (tick_not_mem_of_blank (List.all_eq_true.1 hafter))
  have hnone {pat : List Char} (hpat : fence <+: pat) :
      Text.splitOnce? pat (before.toList ++ (text.toList ++ after.toList)) = none := by
    rw [hfront.splitOnce? hpat, h.toUnfenced.splitOnce? hpat, hback.splitOnce?_eq_none hpat]
    rfl
  rw [stripFence, String.toList_append, String.toList_append, List.append_assoc,
    hnone fence_isPrefix_jsonFence, hnone (List.prefix_refl fence), h.trim hbefore hafter,
    String.ofList_toList]

variable {w : Wrapping} (hw : w.Plain)
include hw

/-- The text and its blanks end at the fence that closes. -/
theorem beforeFence_behind :
    beforeFence (w.behind text) = w.gap.toList ++ (text.toList ++ w.gap'.toList) := by
  have hgap := Unfenced.of_not_mem (tick_not_mem_of_blank (List.all_eq_true.1 hw.gap))
  have hgap' := Unfenced.of_not_mem (tick_not_mem_of_blank (List.all_eq_true.1 hw.gap'))
  rw [beforeFence, Wrapping.behind, hgap.splitOnce? (List.prefix_refl fence),
    h.toUnfenced.splitOnce? (List.prefix_refl fence),
    hgap'.splitOnce?_open (List.prefix_refl fence)]
  rfl

/-- Behind a bare fence comes a blank or a brace. -/
theorem head_behind : ∃ c more, w.behind text = c :: more ∧ c ≠ tick ∧ c ≠ 'j' := by
  cases hgap : w.gap.toList with
  | nil =>
    obtain ⟨inner, hinner⟩ := h.braces
    rw [Wrapping.behind, hgap, hinner]
    exact ⟨_, _, rfl, by decide, by decide⟩
  | cons c gap =>
    have hc : Text.isBlank c = true := List.all_eq_true.1 hw.gap c (hgap ▸ List.mem_cons_self)
    rw [Wrapping.behind, hgap]
    refine ⟨c, _, rfl, ?_, ?_⟩ <;> rintro rfl <;> exact absurd hc (by decide)

/-- Where the first fence is bare, no fence opens a JSON block. -/
theorem splitOnce?_jsonFence_around (htag : w.tagged = false) :
    Text.splitOnce? jsonFence (w.around text).toList = none := by
  have hfront := Unfenced.of_not_mem hw.before
  have hgap := Unfenced.of_not_mem (tick_not_mem_of_blank (List.all_eq_true.1 hw.gap))
  have hgap' := Unfenced.of_not_mem (tick_not_mem_of_blank (List.all_eq_true.1 hw.gap'))
  have hback := Unfenced.of_not_mem hw.after
  obtain ⟨c, more, hmore, htick, hj⟩ := head_behind h hw
  have hopens : ¬ ['j', 's', 'o', 'n'] <+: w.behind text := by
    rintro ⟨rest, hrest⟩
    rw [hmore] at hrest
    exact hj (List.cons.inj hrest).1.symm
  have hbehind : (w.behind text).head? ≠ some tick := by
    rw [hmore]
    simpa using htick
  have hafter : w.after.toList.head? ≠ some tick := fun hhead =>
    hw.after (List.mem_of_head? hhead)
  rw [Wrapping.toList_around, htag, if_neg Bool.false_ne_true,
    hfront.splitOnce? fence_isPrefix_jsonFence, splitOnce?_jsonFence_fence hbehind hopens,
    Wrapping.behind, hgap.splitOnce? fence_isPrefix_jsonFence,
    h.toUnfenced.splitOnce? fence_isPrefix_jsonFence, hgap'.splitOnce? fence_isPrefix_jsonFence,
    splitOnce?_jsonFence_fence hafter (hw.closes htag),
    hback.splitOnce?_eq_none fence_isPrefix_jsonFence]
  rfl

/-- What is wrapped comes out as it was. -/
theorem stripFence_around : stripFence (w.around text) = text := by
  have hfront := Unfenced.of_not_mem hw.before
  have hbody : Text.trimChars (beforeFence (w.behind text)) = text.toList := by
    rw [beforeFence_behind h hw, h.trim hw.gap hw.gap']
  cases htag : w.tagged with
  | true =>
    have hopen : Text.splitOnce? jsonFence (w.around text).toList =
        some (w.before.toList, w.behind text) := by
      rw [Wrapping.toList_around, htag, if_pos rfl]
      exact hfront.splitOnce?_open fence_isPrefix_jsonFence _
    rw [stripFence, hopen]
    dsimp only
    rw [hbody, String.ofList_toList]
  | false =>
    have hopen : Text.splitOnce? fence (w.around text).toList =
        some (w.before.toList, w.behind text) := by
      rw [Wrapping.toList_around, htag, if_neg Bool.false_ne_true]
      exact hfront.splitOnce?_open (List.prefix_refl fence) _
    rw [stripFence, splitOnce?_jsonFence_around h hw htag, hopen]
    dsimp only
    rw [hbody, String.ofList_toList]

end Strip

end Chalkboard
