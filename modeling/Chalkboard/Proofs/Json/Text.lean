import Chalkboard.Proofs.Json.Token

/-!
# Written JSON

The text of a value splits into the tokens of the value, with or without indentation
(`lexes_compact`, `lexes_pretty`), if its numbers are read back one by one. Tokens are put side by
side: a text gives its tokens whatever follows it (`Lexes`), as long as that does not go on with a
number, and every mark between values sees to this.
-/

namespace Chalkboard.Json

/-! ## Parts of a value -/

mutual

/-- A value and all that is in it. -/
def parts : Json → List Json
  | .array items => .array items :: itemParts items
  | .object fields => .object fields :: fieldParts fields
  | j => [j]

/-- All that is in some items. -/
def itemParts : List Json → List Json
  | [] => []
  | item :: rest => item.parts ++ itemParts rest

/-- All that is in some fields. -/
def fieldParts : List (String × Json) → List Json
  | [] => []
  | (_, v) :: rest => v.parts ++ fieldParts rest

end

theorem mem_itemParts {items : List Json} {part : Json} (h : part ∈ itemParts items) :
    ∃ item ∈ items, part ∈ item.parts := by
  induction items with
  | nil => cases h
  | cons item rest ih =>
    rcases List.mem_append.1 h with h | h
    · exact ⟨item, List.mem_cons_self, h⟩
    · obtain ⟨item', hitem, hpart⟩ := ih h
      exact ⟨item', List.mem_cons_of_mem item hitem, hpart⟩

theorem mem_fieldParts {fields : List (String × Json)} {part : Json} (h : part ∈ fieldParts fields) :
    ∃ field ∈ fields, part ∈ field.2.parts := by
  induction fields with
  | nil => cases h
  | cons field rest ih =>
    rcases List.mem_append.1 h with h | h
    · exact ⟨field, List.mem_cons_self, h⟩
    · obtain ⟨field', hfield, hpart⟩ := ih h
      exact ⟨field', List.mem_cons_of_mem field hfield, hpart⟩

/-- The numbers in a value. -/
def numbers (j : Json) : List Number :=
  j.parts.filterMap fun
    | .number n => some n
    | _ => none

theorem mem_numbers {j : Json} {n : Number} (h : .number n ∈ j.parts) : n ∈ j.numbers :=
  List.mem_filterMap.2 ⟨.number n, h, rfl⟩

theorem number_mem_parts {j : Json} {n : Number} (h : n ∈ j.numbers) : .number n ∈ j.parts := by
  obtain ⟨part, hpart, hn⟩ := List.mem_filterMap.1 h
  cases part with
  | number n' => exact Option.some.inj hn ▸ hpart
  | null | bool | string | array | object => cases hn

/-- All numbers in the value are read back. -/
def Legible (j : Json) : Prop :=
  ∀ n ∈ j.numbers, n.ReadsBack

/-! ## Tokens of values -/

mutual

/-- The tokens of a value. -/
def tokens : Json → List Token
  | .null => [.null]
  | .bool b => [.bool b]
  | .number n => [.number (some n)]
  | .string s => [.string (some s)]
  | .array items => .openArray :: (itemTokens items ++ [.closeArray])
  | .object fields => .openObject :: (fieldTokens fields ++ [.closeObject])

/-- The tokens of items between commas. -/
def itemTokens : List Json → List Token
  | [] => []
  | [item] => tokens item
  | item :: rest => tokens item ++ .comma :: itemTokens rest

/-- The tokens of fields between commas. -/
def fieldTokens : List (String × Json) → List Token
  | [] => []
  | [(k, v)] => .string (some k) :: .colon :: tokens v
  | (k, v) :: rest => .string (some k) :: .colon :: (tokens v ++ .comma :: fieldTokens rest)

end

/-! ## Splitting a text into tokens -/

/-- A text that splits into tokens, with blanks before, between and behind them. -/
inductive Lexed : List Char → List Token → Prop
  | nil : Lexed [] []
  | blank {c : Char} {cs : List Char} {ts : List Token} (hc : isJsonBlank c = true)
      (h : Lexed cs ts) : Lexed (c :: cs) ts
  | cons {c : Char} {w after : List Char} {t : Token} {ts : List Token} (hc : isJsonBlank c = false)
      (ht : token? (c :: (w ++ after)) = some (t, after)) (h : Lexed after ts) :
      Lexed (c :: (w ++ after)) (t :: ts)

theorem Lexed.tokens? {cs : List Char} {ts : List Token} (h : Lexed cs ts) {fuel : Nat}
    (hfuel : cs.length < fuel) : tokens? cs fuel = some ts := by
  obtain ⟨fuel, rfl⟩ : ∃ n, fuel = n + 1 := ⟨fuel - 1, by omega⟩
  induction h generalizing fuel with
  | nil => rfl
  | @blank c cs ts hc h ih =>
    have hsame := ih fuel (Nat.lt_of_succ_lt hfuel)
    rw [Json.tokens?, List.dropWhile_cons_of_pos hc]
    exact hsame
  | @cons c w after t ts hc ht h ih =>
    have hlength : after.length < fuel := by
      simp only [List.length_append, List.length_cons] at hfuel
      omega
    obtain ⟨fuel, rfl⟩ : ∃ n, fuel = n + 1 := ⟨fuel - 1, by omega⟩
    have hhead : (c :: (w ++ after)).dropWhile isJsonBlank = c :: (w ++ after) := by simp [hc]
    rw [Json.tokens?, hhead]
    dsimp only
    rw [ht]
    show ((Json.tokens? after (fuel + 1)).bind fun ts => some (t :: ts)) = some (t :: ts)
    rw [ih fuel hlength]
    rfl

/-- A text that gives the tokens `ts` in front of every text that does not go on with a number. -/
def Lexes (cs : List Char) (ts : List Token) : Prop :=
  ∀ rest us, Stops rest → Lexed rest us → Lexed (cs ++ rest) (ts ++ us)

namespace Lexes

variable {a b : List Char} {ts us : List Token}

theorem nil : Lexes [] [] :=
  fun _ _ _ h => h

theorem blank {c : Char} (hc : isJsonBlank c = true) (h : Lexes b us) : Lexes (c :: b) us :=
  fun rest vs hs hrest => .blank hc (h rest vs hs hrest)

theorem blanks (ha : ∀ c ∈ a, isJsonBlank c = true) (h : Lexes b us) : Lexes (a ++ b) us := by
  induction a with
  | nil => exact h
  | cons c a ih =>
    exact blank (ha c List.mem_cons_self) (ih fun d hd => ha d (List.mem_cons_of_mem c hd))

/-- A token of one character. -/
theorem mark {c : Char} {t : Token} (hc : isJsonBlank c = false)
    (ht : ∀ rest, token? (c :: rest) = some (t, rest)) (h : Lexes b us) :
    Lexes (c :: b) (t :: us) :=
  fun rest vs hs hrest => .cons (w := []) hc (ht (b ++ rest)) (h rest vs hs hrest)

/-- A text in front of another that does not go on with a number. -/
theorem append {c : Char} (hc : Stops [c]) (h : Lexes a ts) (h' : Lexes (c :: b) us) :
    Lexes (a ++ c :: b) (ts ++ us) := by
  intro rest vs hs hrest
  rw [List.append_assoc, List.append_assoc]
  exact h _ _ hc (h' rest vs hs hrest)

end Lexes

theorem lexes_string (s : String) : Lexes (writeString s).toList [.string (some s)] := by
  intro rest us _ hrest
  have htoken := token?_writeString s rest
  obtain ⟨w, hw⟩ : ∃ w, (writeString s).toList = '"' :: w := by simp [writeString]
  rw [hw] at htoken ⊢
  exact .cons rfl htoken hrest

/-- A name in front of what belongs to it. -/
theorem Lexes.named {c : Char} {b : List Char} {us : List Token} (name : String) (hc : Stops [c])
    (h : Lexes (c :: b) us) : Lexes ((writeString name).toList ++ c :: b) (.string (some name) :: us) :=
  (lexes_string name).append hc h

theorem lexes_number {n : Number} (hn : n.ReadsBack) :
    Lexes (writeNumber n).toList [.number (some n)] := by
  intro rest us hs hrest
  have htoken := hn.token? hs
  obtain ⟨c, w, hw, hc⟩ := head_of_number? hn
  have hblank : isJsonBlank c = false := by
    rcases hc with rfl | hdigit
    · rfl
    · refine Bool.eq_false_iff.2 fun hb => ?_
      simp only [isJsonBlank, Bool.or_eq_true, decide_eq_true_eq] at hb
      rcases hb with ((rfl | rfl) | rfl) | rfl <;> exact absurd hdigit (by decide)
  rw [hw] at htoken ⊢
  exact .cons hblank htoken hrest

theorem lexes_bool (b : Bool) : Lexes (if b then "true" else "false").toList [.bool b] := by
  intro rest us _ hrest
  cases b with
  | true => exact .cons rfl rfl hrest
  | false => exact .cons rfl rfl hrest

theorem lexes_null : Lexes "null".toList [.null] :=
  fun _ _ _ hrest => .cons rfl rfl hrest

/-! ## The compact form -/

/-- A mark behind a text. -/
theorem Lexes.mark_end {a : List Char} {ts : List Token} {c : Char} {t : Token} (h : Lexes a ts)
    (hs : Stops [c]) (hc : isJsonBlank c = false) (ht : ∀ rest, token? (c :: rest) = some (t, rest)) :
    Lexes (a ++ [c]) (ts ++ [t]) :=
  h.append hs (.mark hc ht .nil)

mutual

/-- The text of a value gives its tokens. -/
theorem lexes_compactAt (j : Json) (hj : ∀ n, .number n ∈ j.parts → n.ReadsBack) :
    Lexes (compact j).toList j.tokens := by
  cases j with
  | null => exact lexes_null
  | bool b => exact lexes_bool b
  | number n => exact lexes_number (hj n (by simp [parts]))
  | string s => exact lexes_string s
  | array items =>
    have hitems := lexes_compactItems items fun n hn => hj n (by simp [parts, hn])
    simp only [compact, String.toList_append, tokens]
    exact .mark rfl (fun _ => rfl) (hitems.mark_end rfl rfl fun _ => rfl)
  | object fields =>
    have hfields := lexes_compactFields fields fun n hn => hj n (by simp [parts, hn])
    simp only [compact, String.toList_append, tokens]
    exact .mark rfl (fun _ => rfl) (hfields.mark_end rfl rfl fun _ => rfl)

theorem lexes_compactItems (items : List Json)
    (hitems : ∀ n, .number n ∈ itemParts items → n.ReadsBack) :
    Lexes (compactItems items).toList (itemTokens items) := by
  match items with
  | [] => exact .nil
  | [item] => exact lexes_compactAt item fun n hn => hitems n (by simp [itemParts, hn])
  | item :: next :: rest =>
    have hitem := lexes_compactAt item fun n hn => hitems n (by simp [itemParts, hn])
    have hrest := lexes_compactItems (next :: rest) fun n hn => hitems n (by
      rw [itemParts]
      exact List.mem_append_right _ hn)
    simp only [compactItems, String.toList_append, itemTokens, List.append_assoc]
    exact hitem.append rfl (.mark rfl (fun _ => rfl) hrest)

theorem lexes_compactFields (fields : List (String × Json))
    (hfields : ∀ n, .number n ∈ fieldParts fields → n.ReadsBack) :
    Lexes (compactFields fields).toList (fieldTokens fields) := by
  match fields with
  | [] => exact .nil
  | [(k, v)] =>
    have hv := lexes_compactAt v fun n hn => hfields n (by simp [fieldParts, hn])
    simp only [compactFields, String.toList_append, fieldTokens, List.append_assoc]
    exact .named k rfl (.mark rfl (fun _ => rfl) hv)
  | (k, v) :: next :: rest =>
    have hv := lexes_compactAt v fun n hn => hfields n (by simp [fieldParts, hn])
    have hrest := lexes_compactFields (next :: rest) fun n hn => hfields n (by
      rw [fieldParts]
      exact List.mem_append_right _ hn)
    simp only [compactFields, String.toList_append, fieldTokens, List.append_assoc]
    exact .named k rfl (.mark rfl (fun _ => rfl)
      (hv.append rfl (.mark rfl (fun _ => rfl) hrest)))

end

theorem lexes_compact {j : Json} (hj : j.Legible) : Lexes (compact j).toList j.tokens :=
  lexes_compactAt j fun n hn => hj n (mem_numbers hn)

/-! ## The indented form -/

theorem toList_newLine (depth : Nat) :
    (newLine depth).toList = '\n' :: List.replicate (2 * depth) ' ' := by
  simp [newLine]

/-- A new line and its indentation are blanks. -/
theorem Lexes.newLine {b : List Char} {us : List Token} (depth : Nat) (h : Lexes b us) :
    Lexes ((newLine depth).toList ++ b) us := by
  refine h.blanks ?_
  intro c hc
  rw [toList_newLine] at hc
  rcases List.mem_cons.1 hc with rfl | hc
  · rfl
  · rw [List.eq_of_mem_replicate hc]
    rfl

/-- A text in front of a new line. -/
theorem Lexes.append_newLine {a b : List Char} {ts us : List Token} (h : Lexes a ts) (depth : Nat)
    (h' : Lexes b us) : Lexes (a ++ ((Json.newLine depth).toList ++ b)) (ts ++ us) := by
  have hline := h'.newLine depth
  rw [toList_newLine] at hline ⊢
  exact h.append rfl hline

mutual

/-- At every depth the text of a value gives its tokens. -/
theorem lexes_prettyAt (depth : Nat) (j : Json) (hj : ∀ n, .number n ∈ j.parts → n.ReadsBack) :
    Lexes (prettyAt depth j).toList j.tokens := by
  match j with
  | .null => exact lexes_null
  | .bool b => exact lexes_bool b
  | .number n => exact lexes_number (hj n (by simp [parts]))
  | .string s => exact lexes_string s
  | .array [] =>
    have htext : (prettyAt depth (.array [])).toList = ['[', ']'] := by simp [prettyAt]
    rw [htext]
    exact .mark rfl (fun _ => rfl) (.mark rfl (fun _ => rfl) .nil)
  | .array (item :: rest) =>
    have hitems := lexes_prettyItems (depth + 1) (item :: rest) fun n hn => hj n (by
      simp [parts, hn])
    simp only [prettyAt, String.toList_append, tokens, List.append_assoc]
    exact .mark rfl (fun _ => rfl)
      (hitems.append_newLine depth (.mark rfl (fun _ => rfl) .nil))
  | .object [] =>
    have htext : (prettyAt depth (.object [])).toList = ['\x7b', '\x7d'] := by simp [prettyAt]
    rw [htext]
    exact .mark rfl (fun _ => rfl) (.mark rfl (fun _ => rfl) .nil)
  | .object (field :: rest) =>
    have hfields := lexes_prettyFields (depth + 1) (field :: rest) fun n hn => hj n (by
      simp [parts, hn])
    simp only [prettyAt, String.toList_append, tokens, List.append_assoc]
    exact .mark rfl (fun _ => rfl)
      (hfields.append_newLine depth (.mark rfl (fun _ => rfl) .nil))

theorem lexes_prettyItems (depth : Nat) (items : List Json)
    (hitems : ∀ n, .number n ∈ itemParts items → n.ReadsBack) :
    Lexes (prettyItems depth items).toList (itemTokens items) := by
  match items with
  | [] => exact .nil
  | [item] =>
    have hitem := lexes_prettyAt depth item fun n hn => hitems n (by simp [itemParts, hn])
    simp only [prettyItems, String.toList_append, itemTokens]
    exact hitem.newLine depth
  | item :: next :: rest =>
    have hitem := lexes_prettyAt depth item fun n hn => hitems n (by simp [itemParts, hn])
    have hrest := lexes_prettyItems depth (next :: rest) fun n hn => hitems n (by
      rw [itemParts]
      exact List.mem_append_right _ hn)
    simp only [prettyItems, String.toList_append, itemTokens, List.append_assoc]
    exact .newLine depth (hitem.append rfl (.mark rfl (fun _ => rfl) hrest))

theorem lexes_prettyFields (depth : Nat) (fields : List (String × Json))
    (hfields : ∀ n, .number n ∈ fieldParts fields → n.ReadsBack) :
    Lexes (prettyFields depth fields).toList (fieldTokens fields) := by
  match fields with
  | [] => exact .nil
  | [(k, v)] =>
    have hv := lexes_prettyAt depth v fun n hn => hfields n (by simp [fieldParts, hn])
    simp only [prettyFields, String.toList_append, fieldTokens, List.append_assoc]
    exact .newLine depth (.named k rfl (.mark rfl (fun _ => rfl) (.blank rfl hv)))
  | (k, v) :: next :: rest =>
    have hv := lexes_prettyAt depth v fun n hn => hfields n (by simp [fieldParts, hn])
    have hrest := lexes_prettyFields depth (next :: rest) fun n hn => hfields n (by
      rw [fieldParts]
      exact List.mem_append_right _ hn)
    simp only [prettyFields, String.toList_append, fieldTokens, List.append_assoc]
    exact .newLine depth (.named k rfl (.mark rfl (fun _ => rfl)
      (.blank rfl (hv.append rfl (.mark rfl (fun _ => rfl) hrest)))))

end

theorem lexes_pretty {j : Json} (hj : j.Legible) : Lexes (pretty j).toList j.tokens :=
  lexes_prettyAt 0 j fun n hn => hj n (mem_numbers hn)

end Chalkboard.Json
