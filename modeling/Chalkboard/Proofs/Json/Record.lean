import Chalkboard.Proofs.Json.Holder

/-!
# Records and choices from held values

A record is read from entries that come in any order, as long as each of them belongs to a field
that can be read from it, no name comes twice, and no required field is left out. A choice with a
tag and a content is read when its name is known and the content of that variant can be read from
what was set aside.
-/

namespace Chalkboard.Json

variable {τ σ α : Type}

namespace Record

/-! ## Filling in -/

/-- Entries that can be read one after another, each into its own field, take a record that is
being filled in from one state to another. -/
inductive Filled (fields : List (Field τ σ)) : List (String × τ) → σ → σ → Prop
  | nil {s : σ} : Filled fields [] s s
  | cons {name : String} {t : τ} {rest : List (String × τ)} {s s' s'' : σ} {field : Field τ σ}
      (found : fields.find? (·.name == name) = some field) (read : field.read t s = .ok s')
      (tail : Filled fields rest s' s'') : Filled fields ((name, t) :: rest) s s''

/-- An entry of a field whose value is decoded and then set. -/
theorem Filled.value {fields : List (Field τ σ)} {name name' : String} {presence : Presence}
    {decode : τ → Decoded α} {set : α → σ → σ} {t : τ} {a : α} {rest : List (String × τ)} {s s' : σ}
    (found : fields.find? (·.name == name) =
      some ⟨name', presence, fun t s => (decode t).map (set · s)⟩)
    (ha : decode t = .ok a) (tail : Filled fields rest (set a s) s') :
    Filled fields ((name, t) :: rest) s s' := by
  apply Filled.cons found _ tail
  show (decode t).map (set · s) = .ok (set a s)
  rw [ha]
  rfl

/-- The names that were seen, after some entries. -/
theorem Filled.fill {fields : List (Field τ σ)} {entries : List (String × τ)} {s s' : σ}
    (hf : Filled fields entries s s') {seen : List String}
    (hdistinct : (entries.map Prod.fst).Nodup)
    (hfresh : ∀ name ∈ entries.map Prod.fst, name ∉ seen) :
    Record.fill fields seen entries s = .ok (s', (entries.map Prod.fst).reverse ++ seen) := by
  -- entry by entry: no name that is still to come was seen
  induction hf generalizing seen with
  | nil => rfl
  | @cons name t rest s s₁ s₂ field found read _ ih =>
    have hnew : seen.contains name = false := by
      simpa using hfresh name List.mem_cons_self
    have hname : name ∉ rest.map Prod.fst := (List.nodup_cons.1 hdistinct).1
    have hrest : ∀ other ∈ rest.map Prod.fst, other ∉ name :: seen := by
      intro other hother hmem
      rcases List.mem_cons.1 hmem with rfl | hseen
      · exact hname hother
      · exact hfresh other (List.mem_cons_of_mem name hother) hseen
    have htail := ih (List.nodup_cons.1 hdistinct).2 hrest
    have hseen : (rest.map Prod.fst).reverse ++ name :: seen =
        (((name, t) :: rest).map Prod.fst).reverse ++ seen := by simp
    simp only [Record.fill, found, hnew, read]
    exact hseen ▸ htail

/-- No name comes twice, and no field that must be given is missing. -/
def covers (fields : List (Field τ σ)) (names : List String) : Bool :=
  decide names.Nodup && fields.all fun f => f.presence != .required || names.contains f.name

theorem covers_iff {fields : List (Field τ σ)} {names : List String} :
    covers fields names = true ↔
      names.Nodup ∧ ∀ f ∈ fields, f.presence = .required → f.name ∈ names := by
  simp [covers, Classical.or_iff_not_imp_left]

/-- A record is read from its entries. -/
theorem Filled.ofEntries {fields : List (Field τ σ)} {entries : List (String × τ)} {blank s : σ}
    (hf : Filled fields entries blank s)
    (hcovers : covers fields (entries.map Prod.fst) = true) :
    Record.ofEntries fields blank entries = .ok s := by
  obtain ⟨hdistinct, hgiven⟩ := covers_iff.1 hcovers
  have hfill : Record.fill fields [] entries blank =
      .ok (s, (entries.map Prod.fst).reverse ++ []) :=
    hf.fill hdistinct fun _ _ => List.not_mem_nil
  have hmissing : (fields.find? fun f => f.presence == .required &&
      !((entries.map Prod.fst).reverse ++ []).contains f.name) = none := by
    rw [List.find?_eq_none]
    intro f hmem hlost
    obtain ⟨hrequired, hlost⟩ :
        f.presence = .required ∧ ∀ t, (f.name, t) ∉ entries := by simpa using hlost
    obtain ⟨⟨_, t⟩, hentry, rfl⟩ := List.mem_map.1 (hgiven f hmem hrequired)
    exact hlost t hentry
  refine decoded_bind hfill ?_
  simp only [hmissing]
  rfl

/-! ## What is missing -/

/-- Only names that are given are seen. -/
theorem mem_of_fill {fields : List (Field τ σ)} {entries : List (String × τ)} {s s' : σ}
    {seen seen' : List String} (hfill : fill fields seen entries s = .ok (s', seen'))
    {name : String} (hname : name ∈ seen') : name ∈ seen ∨ name ∈ entries.map Prod.fst := by
  induction entries generalizing seen s with
  | nil =>
    cases hfill
    exact .inl hname
  | cons entry rest ih =>
    obtain ⟨other, t⟩ := entry
    rw [List.map_cons, List.mem_cons]
    simp only [fill] at hfill
    split at hfill
    · exact (ih hfill).imp_right .inr
    · next field _ =>
      split at hfill
      · cases hfill
      · cases hread : field.read t s with
        | error e =>
          rw [hread] at hfill
          cases hfill
        | ok s₁ =>
          rw [hread] at hfill
          rcases ih hfill with hseen | hrest
          · rcases List.mem_cons.1 hseen with rfl | hseen
            · exact .inr (.inl rfl)
            · exact .inl hseen
          · exact .inr (.inr hrest)

/-- A record cannot be read where a required field is missing. -/
theorem ofEntries_of_missing {fields : List (Field τ σ)} {blank : σ} {entries : List (String × τ)}
    {f : Field τ σ} (hf : f ∈ fields) (hrequired : f.presence = .required)
    (hmissing : f.name ∉ entries.map Prod.fst) : ∃ e, ofEntries fields blank entries = .error e := by
  cases hfill : fill fields [] entries blank with
  | error e =>
    refine ⟨e, ?_⟩
    rw [ofEntries, hfill]
    rfl
  | ok result =>
    obtain ⟨s, seen⟩ := result
    have hunseen : f.name ∉ seen := by
      intro hseen
      exact (mem_of_fill hfill hseen).elim List.not_mem_nil hmissing
    cases hlost : fields.find? fun f => f.presence == .required && !seen.contains f.name with
    | none =>
      have hgiven := List.find?_eq_none.1 hlost f hf
      simp [hrequired, hunseen] at hgiven
    | some lost =>
      refine ⟨.missingField lost.name, ?_⟩
      simp only [ofEntries, hfill, bind, Except.bind, hlost]

/-! ## What cannot be read -/

/-- Entries are not read if one of them belongs to a field that never reads it. -/
theorem fill_of_unreadable {fields : List (Field τ σ)} {f : Field τ σ} {name : String} {t : τ}
    (hfound : fields.find? (·.name == name) = some f) (hread : ∀ s, ∃ e, f.read t s = .error e)
    {entries : List (String × τ)} (hmem : (name, t) ∈ entries) (seen : List String) (s : σ) :
    ∃ e, fill fields seen entries s = .error e := by
  induction entries generalizing seen s with
  | nil => cases hmem
  | cons entry rest ih =>
    obtain ⟨other, u⟩ := entry
    simp only [fill]
    rcases List.mem_cons.1 hmem with heq | hrest
    · cases heq
      rw [hfound]
      dsimp only
      split
      · exact ⟨_, rfl⟩
      · obtain ⟨e, he⟩ := hread s
        exact ⟨e, by rw [he]; rfl⟩
    · -- another entry comes first: it fails, or the rest is read from where it leads
      split
      · exact ih hrest seen s
      · next field _ =>
        split
        · exact ⟨_, rfl⟩
        · cases hother : field.read u s with
          | error e => exact ⟨e, rfl⟩
          | ok s' => exact ih hrest (other :: seen) s'

end Record

namespace Holder

variable [Source τ] (h : Holder τ)

theorem ofEntries_hold {fields : List (Field τ σ)} {entries : Fields} {blank s : σ}
    (hf : Record.Filled fields (entries.map (Prod.map id h.hold)) blank s)
    (hcovers : Record.covers fields (entries.map Prod.fst) = true) :
    Record.ofEntries fields blank (entries.map (Prod.map id h.hold)) = .ok s := by
  have hnames : (entries.map (Prod.map id h.hold)).map Prod.fst = entries.map Prod.fst := by simp
  apply hf.ofEntries
  rw [hnames]
  exact hcovers

/-- The fields of a variant are read from an object. -/
theorem decodeVariant_hold {title : String} {fields : List (Field τ σ)} {entries : Fields}
    {blank s : σ} (hf : Record.Filled fields (entries.map (Prod.map id h.hold)) blank s)
    (hcovers : Record.covers fields (entries.map Prod.fst) = true) :
    decodeVariant title fields blank (h.hold (.object entries)) = .ok s := by
  simp only [decodeVariant, layer_object]
  exact h.ofEntries_hold hf hcovers

/-- A record is read from an object. -/
theorem decodeRecord_hold {name : String} {fields : List (Field τ σ)} {entries : Fields}
    {blank s : σ} (hf : Record.Filled fields (entries.map (Prod.map id h.hold)) blank s)
    (hcovers : Record.covers fields (entries.map Prod.fst) = true) :
    Record.decode name fields blank (h.hold (.object entries)) = .ok s := by
  simp only [Record.decode, layer_object]
  exact h.ofEntries_hold hf hcovers

/-! ## Choices -/

theorem decodeName_hold {names : List (String × α)} {name : String} {a : α}
    (hname : names.find? (·.1 == name) = some (name, a)) :
    decodeName names (h.hold (.string name)) = .ok a := by
  simp [decodeName, hname]

/-- A choice whose content stands before its tag is read from what was set aside. -/
theorem decodeTagged_hold {ν : Type} {spelling : TagSpelling} {names : List (String × ν)}
    {build : ν → Decoder α} {bare : ν → Decoded α} {content value : Json} {name : String} {v : ν}
    {a : α} (hspelling : spelling.content ≠ spelling.tag)
    (hvalue : Source.value (h.hold content) = .ok value)
    (hname : names.find? (·.1 == name) = some (name, v))
    (ha : build v ((h.setAside true).hold content) = .ok a) :
    decodeTagged spelling names build bare
      (h.hold (.object [(spelling.content, content), (spelling.tag, .string name)])) = .ok a := by
  have hcontent : (spelling.content == spelling.tag) = false := by simpa using hspelling
  have htag : (spelling.tag == spelling.content) = false := by simpa using hspelling.symm
  have hstored : SetAside.of true (h.hold content) = .ok ((h.setAside true).hold content) := by
    rw [SetAside.of, hvalue]
    rfl
  have hread : decodeName names (h.hold (.string name)) = .ok v := h.decodeName_hold hname
  simp only [decodeTagged, layer_object, List.map_cons, List.map_nil, Prod.map_apply, id_eq,
    List.filter_cons_of_pos, List.filter_nil, BEq.rfl, Bool.or_true, Bool.or_false, hcontent, htag,
    Bool.false_eq_true, if_false, hstored, hread, bind_pure]
  exact ha

/-- A record is not read from an object without one of its required fields. -/
theorem decodeRecord_of_missing {name : String} {fields : List (Field τ σ)} {entries : Fields}
    {blank : σ} {f : Field τ σ} (hf : f ∈ fields) (hrequired : f.presence = .required)
    (hmissing : f.name ∉ entries.map Prod.fst) :
    ∃ e, Record.decode name fields blank (h.hold (.object entries)) = .error e := by
  simp only [Record.decode, layer_object]
  apply Record.ofEntries_of_missing hf hrequired
  simpa using hmissing

/-- A record is not read from an object with a field that never reads what is given for it. -/
theorem decodeRecord_of_unreadable {title name : String} {fields : List (Field τ σ)}
    {entries : Fields} {f : Field τ σ} {j : Json} (hmem : (name, j) ∈ entries)
    (hfound : fields.find? (·.name == name) = some f)
    (hread : ∀ s, ∃ e, f.read (h.hold j) s = .error e) (blank : σ) :
    ∃ e, Record.decode title fields blank (h.hold (.object entries)) = .error e := by
  have hgiven : (name, h.hold j) ∈ entries.map (Prod.map id h.hold) :=
    List.mem_map.2 ⟨(name, j), hmem, rfl⟩
  obtain ⟨e, he⟩ := Record.fill_of_unreadable hfound hread hgiven [] blank
  refine ⟨e, ?_⟩
  simp only [Record.decode, layer_object]
  rw [Record.ofEntries, he]
  rfl

variable {h}

/-- Of two shapes the first one is read if it fits. -/
theorem Whole.decodeEither_first {j : Json} (hw : h.Whole j) {choice : String}
    {first second : Decoder α} {a : α} (ha : first ((h.setAside false).hold j) = .ok a) :
    decodeEither choice first second (h.hold j) = .ok a := by
  refine decoded_bind (hw.of_hold false) ?_
  simp only [ha]
  rfl

/-- The second one is read if only that one fits. -/
theorem Whole.decodeEither_second {j : Json} (hw : h.Whole j) {choice : String}
    {first second : Decoder α} {e : DecodeError} {a : α}
    (he : first ((h.setAside false).hold j) = .error e)
    (ha : second ((h.setAside false).hold j) = .ok a) :
    decodeEither choice first second (h.hold j) = .ok a := by
  refine decoded_bind (hw.of_hold false) ?_
  simp only [he, ha]
  rfl

end Holder

end Chalkboard.Json
