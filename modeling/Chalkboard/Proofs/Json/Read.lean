import Chalkboard.Proofs.Json.Holder
import Chalkboard.Proofs.Json.Text

/-!
# Reading written JSON

The tokens of a value are read as the tree that shows the value field by field, in the order in which
it was written (`valueAt?_tokens`). So a text of the value is read as this tree, with any blanks
around it, if it is not nested too deep (`read?_of_lexes`). Where the fields of every object are in
order, the tree stands for the value itself (`Tree.value?_ofJson`).
-/

namespace Chalkboard.Json

/-! ## Depth and order -/

mutual

/-- How deep arrays and objects are nested in a value. -/
def nesting : Json → Nat
  | .array items => itemNesting items + 1
  | .object fields => fieldNesting fields + 1
  | _ => 0

/-- How deep they are nested in some items. -/
def itemNesting : List Json → Nat
  | [] => 0
  | item :: rest => max item.nesting (itemNesting rest)

/-- How deep they are nested in some fields. -/
def fieldNesting : List (String × Json) → Nat
  | [] => 0
  | (_, v) :: rest => max v.nesting (fieldNesting rest)

end

theorem itemNesting_le {items : List Json} {n : Nat} (h : ∀ item ∈ items, item.nesting ≤ n) :
    itemNesting items ≤ n := by
  induction items with
  | nil => exact Nat.zero_le n
  | cons item rest ih =>
    obtain ⟨hitem, hrest⟩ := List.forall_mem_cons.1 h
    exact Nat.max_le.2 ⟨hitem, ih hrest⟩

theorem fieldNesting_le {fields : List (String × Json)} {n : Nat}
    (h : ∀ field ∈ fields, field.2.nesting ≤ n) : fieldNesting fields ≤ n := by
  induction fields with
  | nil => exact Nat.zero_le n
  | cons field rest ih =>
    obtain ⟨hfield, hrest⟩ := List.forall_mem_cons.1 h
    exact Nat.max_le.2 ⟨hfield, ih hrest⟩

/-- The fields of each object in a value. -/
def objects (j : Json) : List Fields :=
  j.parts.filterMap fun
    | .object fields => some fields
    | _ => none

theorem mem_objects {j : Json} {fields : Fields} : fields ∈ j.objects ↔ .object fields ∈ j.parts := by
  constructor
  · intro h
    obtain ⟨part, hpart, hfields⟩ := List.mem_filterMap.1 h
    cases part with
    | object fields' => exact Option.some.inj hfields ▸ hpart
    | null | bool | number | string | array => cases hfields
  · intro h
    exact List.mem_filterMap.2 ⟨.object fields, h, rfl⟩

/-- The fields of each object in the value are in order, each name once. -/
def Ordered (j : Json) : Prop :=
  ∀ fields ∈ j.objects, fields.Pairwise fun a b => a.1 < b.1

/-! ## Trees of values -/

mutual

/-- The tree that shows a value as it is. -/
def Tree.ofJson : Json → Tree
  | .null => .null
  | .bool b => .bool b
  | .number n => .number n
  | .string s => .string s
  | .array items => .array (Tree.ofItems items)
  | .object fields => .object (Tree.ofFieldList fields)

/-- The trees of items. -/
def Tree.ofItems : List Json → List Tree
  | [] => []
  | item :: rest => Tree.ofJson item :: Tree.ofItems rest

/-- The trees of fields. -/
def Tree.ofFieldList : List (String × Json) → List (String × Tree)
  | [] => []
  | (k, v) :: rest => (k, Tree.ofJson v) :: Tree.ofFieldList rest

end

theorem Tree.ofItems_eq (items : List Json) : Tree.ofItems items = items.map Tree.ofJson := by
  induction items with
  | nil => rfl
  | cons item rest ih => rw [Tree.ofItems, ih, List.map_cons]

theorem Tree.ofFieldList_eq (fields : List (String × Json)) :
    Tree.ofFieldList fields = fields.map (Prod.map id Tree.ofJson) := by
  induction fields with
  | nil => rfl
  | cons field rest ih =>
    obtain ⟨k, v⟩ := field
    rw [Tree.ofFieldList, ih]
    rfl

/-! ## Reading tokens -/

theorem itemTokens_append (item next : Json) (rest : List Json) :
    itemTokens (item :: next :: rest) = item.tokens ++ .comma :: itemTokens (next :: rest) := rfl

theorem fieldTokens_append (k : String) (v : Json) (next : String × Json)
    (rest : List (String × Json)) :
    fieldTokens ((k, v) :: next :: rest) =
      .string (some k) :: .colon :: (v.tokens ++ .comma :: fieldTokens (next :: rest)) := rfl

/-- No value starts with a closing bracket. -/
theorem tokens_cons (j : Json) : ∃ t ts, j.tokens = t :: ts ∧ t ≠ .closeArray := by
  cases j with
  | null | bool | number | string => exact ⟨_, [], rfl, nofun⟩
  | array | object => exact ⟨_, _, rfl, nofun⟩

theorem itemTokens_cons (item : Json) (rest : List Json) :
    ∃ t ts, itemTokens (item :: rest) = t :: ts ∧ t ≠ .closeArray := by
  obtain ⟨t, ts, htokens, ht⟩ := tokens_cons item
  cases rest with
  | nil => exact ⟨t, ts, htokens, ht⟩
  | cons next rest =>
    rw [itemTokens_append, htokens]
    exact ⟨t, _, rfl, ht⟩

theorem fieldTokens_cons (k : String) (v : Json) (rest : List (String × Json)) :
    ∃ ts, fieldTokens ((k, v) :: rest) = .string (some k) :: ts := by
  cases rest with
  | nil => exact ⟨_, rfl⟩
  | cons next rest => exact ⟨_, rfl⟩

/-- An object is read if all its names are. -/
theorem Tree.ofFields_some (fields : List (String × Tree)) :
    Tree.ofFields (fields.map (Prod.map some id)) = .object fields := by
  have hall : (fields.map (Prod.map some id)).mapM
      (fun field => field.1.map fun k => (k, field.2)) = some fields := by
    induction fields with
    | nil => rfl
    | cons field fields ih =>
      rw [List.map_cons, List.mapM_cons, ih]
      rfl
  unfold Tree.ofFields
  split
  · next named hnamed => exact congrArg Tree.object (Option.some.inj (hnamed.symm.trans hall))
  · next hnone => cases hnone.symm.trans hall

/-- What holds a value that is not nested too deep does not stand too deep itself. -/
theorem Tree.atDepth_of_le {depth inner : Nat} (h : depth + (inner + 1) ≤ maxDepth) (t : Tree) :
    Tree.atDepth depth t = t := by
  have hlt : depth < maxDepth := by omega
  exact if_pos hlt

mutual

/-- The tokens of a value are read as its tree, whatever follows. -/
theorem valueAt?_tokens (j : Json) (depth fuel : Nat) (hdepth : depth + j.nesting ≤ maxDepth)
    (hfuel : 2 * j.tokens.length ≤ fuel) (rest : List Token) :
    valueAt? depth (j.tokens ++ rest) fuel = some (Tree.ofJson j, rest) := by
  obtain ⟨fuel, rfl⟩ : ∃ n, fuel = n + 1 := by
    obtain ⟨t, ts, htokens, -⟩ := tokens_cons j
    rw [htokens, List.length_cons] at hfuel
    exact ⟨fuel - 1, by omega⟩
  -- the readers of values, items and fields call each other, each with less fuel
  match j with
  | .null | .bool _ | .number _ | .string _ => rfl
  | .array [] =>
    simp only [nesting] at hdepth
    have htree := Tree.atDepth_of_le hdepth (.array [])
    exact congrArg (fun t => some (t, rest)) htree
  | .array (item :: items) =>
    simp only [tokens, nesting, List.length_cons, List.length_append, List.length_nil]
      at hdepth hfuel
    have hitems := itemsAt?_tokens (item :: items) nofun (depth + 1) fuel (by omega) (by omega) rest
    have htree := Tree.atDepth_of_le hdepth (.array (Tree.ofItems (item :: items)))
    have hopen : valueAt? depth ((array (item :: items)).tokens ++ rest) (fuel + 1) =
        (itemsAt? (depth + 1) (itemTokens (item :: items) ++ .closeArray :: rest) fuel).bind
          fun (items, after) => some (Tree.atDepth depth (.array items), after) := by
      obtain ⟨t, ts, htokens, ht⟩ := itemTokens_cons item items
      rw [tokens, List.cons_append, List.append_assoc, List.singleton_append, htokens,
        List.cons_append, valueAt?]
      · rfl
      · exact fun _ h => ht (List.cons.inj h).1
    rw [hopen, hitems]
    exact congrArg (fun t => some (t, rest)) htree
  | .object [] =>
    simp only [nesting] at hdepth
    have htree := Tree.atDepth_of_le hdepth (.object [])
    exact congrArg (fun t => some (t, rest)) htree
  | .object ((k, v) :: fields) =>
    simp only [tokens, nesting, List.length_cons, List.length_append, List.length_nil]
      at hdepth hfuel
    have hfields := fieldsAt?_tokens ((k, v) :: fields) nofun (depth + 1) fuel (by omega) (by omega)
      rest
    have htree := Tree.atDepth_of_le hdepth (.object (Tree.ofFieldList ((k, v) :: fields)))
    have hopen : valueAt? depth ((object ((k, v) :: fields)).tokens ++ rest) (fuel + 1) =
        (fieldsAt? (depth + 1) (fieldTokens ((k, v) :: fields) ++ .closeObject :: rest) fuel).bind
          fun (fields, after) => some (Tree.atDepth depth (Tree.ofFields fields), after) := by
      obtain ⟨ts, htokens⟩ := fieldTokens_cons k v fields
      rw [tokens, List.cons_append, List.append_assoc, List.singleton_append, htokens]
      rfl
    rw [hopen, hfields]
    exact congrArg (fun t => some (t, rest)) ((congrArg _ (Tree.ofFields_some _)).trans htree)

theorem itemsAt?_tokens (items : List Json) (hsome : items ≠ []) (depth fuel : Nat)
    (hdepth : depth + itemNesting items ≤ maxDepth)
    (hfuel : 2 * (itemTokens items).length < fuel) (rest : List Token) :
    itemsAt? depth (itemTokens items ++ .closeArray :: rest) fuel =
      some (Tree.ofItems items, rest) := by
  obtain ⟨fuel, rfl⟩ : ∃ n, fuel = n + 1 := ⟨fuel - 1, by omega⟩
  match items with
  | [] => exact absurd rfl hsome
  | [item] =>
    rw [itemNesting] at hdepth
    have hlength : 2 * item.tokens.length ≤ fuel := Nat.le_of_lt_succ hfuel
    have hitem := valueAt?_tokens item depth fuel (by omega) hlength (.closeArray :: rest)
    rw [itemTokens, itemsAt?, hitem]
    rfl
  | item :: next :: items =>
    rw [itemNesting] at hdepth
    rw [itemTokens_append] at hfuel ⊢
    simp only [List.length_append, List.length_cons] at hfuel
    have hitem := valueAt?_tokens item depth fuel (by omega) (by omega)
      (.comma :: (itemTokens (next :: items) ++ .closeArray :: rest))
    have hrest := itemsAt?_tokens (next :: items) nofun depth fuel (by omega) (by omega) rest
    rw [List.append_assoc, List.cons_append, itemsAt?, hitem]
    simp only [bind, Option.bind, hrest]
    rfl

theorem fieldsAt?_tokens (fields : List (String × Json)) (hsome : fields ≠ []) (depth fuel : Nat)
    (hdepth : depth + fieldNesting fields ≤ maxDepth)
    (hfuel : 2 * (fieldTokens fields).length < fuel) (rest : List Token) :
    fieldsAt? depth (fieldTokens fields ++ .closeObject :: rest) fuel =
      some ((Tree.ofFieldList fields).map (Prod.map some id), rest) := by
  obtain ⟨fuel, rfl⟩ : ∃ n, fuel = n + 1 := ⟨fuel - 1, by omega⟩
  match fields with
  | [] => exact absurd rfl hsome
  | [(k, v)] =>
    rw [fieldNesting] at hdepth
    simp only [fieldTokens, List.length_cons] at hfuel
    have hv := valueAt?_tokens v depth fuel (by omega) (by omega) (.closeObject :: rest)
    rw [fieldTokens, List.cons_append, List.cons_append, fieldsAt?, hv]
    rfl
  | (k, v) :: next :: fields =>
    rw [fieldNesting] at hdepth
    rw [fieldTokens_append] at hfuel ⊢
    simp only [List.length_append, List.length_cons] at hfuel
    have hv := valueAt?_tokens v depth fuel (by omega) (by omega)
      (.comma :: (fieldTokens (next :: fields) ++ .closeObject :: rest))
    have hrest := fieldsAt?_tokens (next :: fields) nofun depth fuel (by omega) (by omega) rest
    rw [List.cons_append, List.cons_append, List.append_assoc, List.cons_append, fieldsAt?, hv]
    simp only [bind, Option.bind, hrest]
    rfl

end

/-- A text that gives the tokens of a value, with blanks around it, is read as the value's tree. -/
theorem read?_of_lexes {j : Json} {cs : List Char} (hlexes : Lexes cs j.tokens)
    (hdepth : j.nesting ≤ maxDepth) {text : String} {before after : List Char}
    (htext : text.toList = before ++ (cs ++ after)) (hbefore : ∀ c ∈ before, isJsonBlank c = true)
    (hafter : ∀ c ∈ after, isJsonBlank c = true) : Tree.read? text = some (Tree.ofJson j) := by
  have hend : Lexed after [] := by
    have hblanks := Lexes.nil.blanks hafter [] [] rfl .nil
    rwa [List.append_nil, List.append_nil] at hblanks
  have hstops : Stops after := by
    cases after with
    | nil => rfl
    | cons c after =>
      have hc := hafter c List.mem_cons_self
      simp only [isJsonBlank, Bool.or_eq_true, decide_eq_true_eq] at hc
      rcases hc with ((rfl | rfl) | rfl) | rfl <;> rfl
  have hlexed : Lexed text.toList (j.tokens ++ []) := by
    rw [htext, ← List.append_assoc]
    exact hlexes.blanks hbefore after [] hstops hend
  have htokens := hlexed.tokens? (Nat.lt_succ_self _)
  have hvalue := valueAt?_tokens j 0 (2 * (j.tokens ++ []).length + 2) (by omega)
    (by simp) []
  refine Option.bind_eq_some_iff.2 ⟨_, htokens, ?_⟩
  exact Option.bind_eq_some_iff.2 ⟨_, hvalue, rfl⟩

/-! ## Values of trees -/

/-- A field behind all others goes to the end. -/
theorem Fields.insert_of_lt {fields : Fields} {name : String} {value : Json}
    (h : ∀ field ∈ fields, field.1 < name) :
    fields.insert name value = fields ++ [(name, value)] := by
  induction fields with
  | nil => rfl
  | cons field fields ih =>
    obtain ⟨k, v⟩ := field
    have hk : k < name := h (k, v) List.mem_cons_self
    have hne : name ≠ k := by
      rintro rfl
      exact String.lt_irrefl _ hk
    rw [Fields.insert, if_neg hne, if_neg (String.lt_asymm hk),
      ih fun field hfield => h field (List.mem_cons_of_mem _ hfield)]
    rfl

/-- Fields in order stay in order. -/
theorem Fields.ofList_eq_self {fields : Fields} (h : fields.Pairwise fun a b => a.1 < b.1) :
    Fields.ofList fields = fields := by
  have hfold (done rest : Fields) (hall : (done ++ rest).Pairwise fun a b => a.1 < b.1) :
      rest.foldl (fun acc field => acc.insert field.1 field.2) done = done ++ rest := by
    induction rest generalizing done with
    | nil => simp
    | cons field rest ih =>
      have hlast : ∀ other ∈ done, other.1 < field.1 := fun other hother =>
        (List.pairwise_append.1 hall).2.2 other hother field List.mem_cons_self
      rw [List.foldl_cons, Fields.insert_of_lt hlast]
      have hall' : ((done ++ [field]) ++ rest).Pairwise fun a b => a.1 < b.1 := by simpa using hall
      simpa using ih (done ++ [field]) hall'
  simpa [Fields.ofList] using hfold [] fields (by simpa using h)

mutual

/-- The tree of a value stands for the value if its fields are in order. -/
theorem Tree.value?_ofJson (j : Json)
    (hj : ∀ fields, .object fields ∈ j.parts → fields.Pairwise fun a b => a.1 < b.1) :
    (Tree.ofJson j).value? = some j := by
  match j with
  | .null | .bool _ | .number _ | .string _ => rfl
  | .array items =>
    have hitems := itemValues?_ofItems items fun fields hfields => hj fields (by
      simp [parts, hfields])
    simp only [Tree.ofJson, Tree.value?, hitems]
    rfl
  | .object fields =>
    have hfields := fieldValues?_ofFieldList fields fun inner hinner => hj inner (by
      simp [parts, hinner])
    have hsorted := Fields.ofList_eq_self (hj fields (by simp [parts]))
    simp only [Tree.ofJson, Tree.value?, hfields, Option.map_some, hsorted]

theorem itemValues?_ofItems (items : List Json)
    (hitems : ∀ fields, .object fields ∈ itemParts items →
      fields.Pairwise fun a b => a.1 < b.1) :
    itemValues? (Tree.ofItems items) = some items := by
  match items with
  | [] => rfl
  | item :: rest =>
    have hitem := Tree.value?_ofJson item fun fields hfields => hitems fields (by
      simp [itemParts, hfields])
    have hrest := itemValues?_ofItems rest fun fields hfields => hitems fields (by
      simp [itemParts, hfields])
    simp [Tree.ofItems, itemValues?, hitem, hrest]

theorem fieldValues?_ofFieldList (fields : List (String × Json))
    (hfields : ∀ inner, .object inner ∈ fieldParts fields →
      inner.Pairwise fun a b => a.1 < b.1) :
    fieldValues? (Tree.ofFieldList fields) = some fields := by
  match fields with
  | [] => rfl
  | (k, v) :: rest =>
    have hv := Tree.value?_ofJson v fun inner hinner => hfields inner (by
      simp [fieldParts, hinner])
    have hrest := fieldValues?_ofFieldList rest fun inner hinner => hfields inner (by
      simp [fieldParts, hinner])
    simp [Tree.ofFieldList, fieldValues?, hv, hrest]

end

/-- A text holds values in the trees that it is read as. -/
def Holder.tree : Holder Tree where
  hold := Tree.ofJson
  layer_hold j := by
    cases j with
    | array items => exact congrArg Layer.array (Tree.ofItems_eq items)
    | object fields => exact congrArg Layer.object (Tree.ofFieldList_eq fields)
    | null | bool | number | string => rfl

theorem Ordered.whole {j : Json} (hj : j.Ordered) : Holder.tree.Whole j := by
  have hvalue := Tree.value?_ofJson j fun fields hfields => hj fields (mem_objects.2 hfields)
  simp only [Holder.Whole, Holder.tree, Source.value, hvalue]

end Chalkboard.Json
