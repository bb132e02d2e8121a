import Chalkboard.Config.Json
import Chalkboard.Proofs.Config.Dialect
import Chalkboard.Proofs.Json.Read
import Chalkboard.Proofs.Json.Record

/-!
# Configurations in JSON

A configuration whose numbers are finite is decoded as it was (`Config.decode_hold`), and read back
from its text, as long as its numbers are (`Config.json_read_write`).
-/

namespace Chalkboard

open Json

/-! ## Settings -/

section Settings

variable {τ : Type} [Source τ] (h : Holder τ) {type : SettingType} {v : type.Value}

theorem decodeUInt64_hold (n : UInt64) : decodeUInt64 (h.hold (ofNat n.toNat)) = .ok n := by
  have hn : n.toNat < Nat.pow 2 64 := n.toNat_lt
  rw [decodeUInt64, h.decodeNatural_hold hn]
  exact congrArg Except.ok UInt64.ofNat_toNat

theorem decodeSides_hold {b : BoundingBox Float} (hb : ∀ x ∈ b.sides, x.isFinite = true) :
    decodeSides (h.hold (.array (b.sides.map Json.ofFloat))) = .ok b := by
  have hitems : ((b.sides.map Json.ofFloat).map h.hold).mapM decodeFloat = .ok b.sides :=
    h.mapM_hold fun x hx => h.decodeFloat_hold (hb x hx)
  have hexact : decodeExactly 4 decodeFloat (h.hold (.array (b.sides.map Json.ofFloat))) =
      .ok b.sides := by
    simp only [decodeExactly, Holder.layer_array]
    exact decoded_bind hitems rfl
  exact decoded_bind hexact rfl

/-- The value of a setting is decoded as it was. -/
theorem SettingType.decode_hold (hfinite : ∀ x ∈ type.numbers v, x.isFinite = true) :
    type.decode (h.hold (type.toJson v)) = .ok v := by
  cases type with
  | text => exact h.decodeString_hold v
  | flag => exact h.decodeBool_hold v
  | millis => exact decodeUInt64_hold h v
  | pixels => exact h.decodeUInt32_hold v
  | number => exact h.decodeFloat_hold (hfinite v List.mem_cons_self)
  | box => exact decodeSides_hold h hfinite

end Settings

/-! ## Records -/

section Records

variable {τ ι : Type} {part : ι → Field τ Config} {copy : ι → Config → Config}

/-- What is given under the name of each field is filled in field by field. -/
theorem filled_fields {items todo : List ι} (hsub : ∀ i ∈ todo, i ∈ items)
    (hnodup : (items.map fun i => (part i).name).Nodup) {given : List (String × τ)}
    (hgiven : List.Forall₂ (fun i g => g.1 = (part i).name ∧
      ∀ c, (part i).read g.2 c = .ok (copy i c)) todo given) (c : Config) :
    Record.Filled (items.map part) given c (todo.foldl (fun c i => copy i c) c) := by
  induction hgiven generalizing c with
  | nil => exact .nil
  | @cons i g todo given hi _ ih =>
    obtain ⟨name, t⟩ := g
    obtain ⟨rfl, hread⟩ : name = (part i).name ∧ _ := hi
    obtain ⟨hmem, hsub⟩ := List.forall_mem_cons.1 hsub
    exact .cons (find?_named hnodup hmem) (hread c) (ih hsub (copy i c))

/-- Fields that may all be left out are covered by their names. -/
theorem covers_names {σ : Type} {fields : List (Field τ σ)} {names : List String}
    (hnodup : names.Nodup)
    (hoptional : ∀ f ∈ fields, f.presence = .optional) : Record.covers fields names = true := by
  refine Record.covers_iff.2 ⟨hnodup, fun f hf hrequired => ?_⟩
  rw [hoptional f hf] at hrequired
  cases hrequired

end Records

namespace Config

variable {τ : Type} [Source τ] (h : Holder τ) {c : Config}

/-- A setting with its value in JSON. -/
def jsonEntry (c : Config) (s : Setting) : String × Json :=
  (s.name, s.type.toJson (s.get c))

/-- An entry in JSON; a group is an object of its own. -/
def jsonField (c : Config) : ConfigEntry → String × Json
  | .setting s => c.jsonEntry s
  | .group name _ settings => (name, .object (settings.map c.jsonEntry))

theorem toJson_eq (c : Config) : c.toJson = .object (entries.map c.jsonField) :=
  rfl

theorem read_setting {s : Setting} (hfinite : ∀ x ∈ s.type.numbers (s.get c), x.isFinite = true)
    (c' : Config) : s.field.read (h.hold (c.jsonEntry s).2) c' = .ok (s.copy c c') := by
  show (s.type.decode (h.hold (s.type.toJson (s.get c)))).map _ = _
  rw [SettingType.decode_hold h hfinite]
  rfl

/-- The fields of an object are decoded if each of them is. -/
theorem decode_fields {ι : Type} {part : ι → Field τ Config} {copy : ι → Config → Config}
    {items : List ι} {write : ι → String × Json} (title : String)
    (hnodup : (items.map fun i => (part i).name).Nodup)
    (hoptional : ∀ i ∈ items, (part i).presence = .optional)
    (hread : ∀ i ∈ items, (write i).1 = (part i).name ∧
      ∀ c, (part i).read (h.hold (write i).2) c = .ok (copy i c)) (c : Config) :
    Record.decode title (items.map part) c (h.hold (.object (items.map write))) =
      .ok (items.foldl (fun c i => copy i c) c) := by
  have hnames : (items.map write).map Prod.fst = items.map fun i => (part i).name := by
    rw [List.map_map]
    exact List.map_congr_left fun i hi => (hread i hi).1
  have hfilled : Record.Filled (items.map part) ((items.map write).map (Prod.map id h.hold)) c
      (items.foldl (fun c i => copy i c) c) := by
    refine filled_fields (fun _ hi => hi) hnodup ?_ c
    rw [List.map_map]
    exact List.forall₂_map_right_iff.2 (List.forall₂_same.2 hread)
  refine h.decodeRecord_hold hfilled (covers_names (hnames ▸ hnodup) fun f hf => ?_)
  obtain ⟨i, hi, rfl⟩ := List.mem_map.1 hf
  exact hoptional i hi

/-- A configuration with finite numbers is decoded as it was. -/
theorem decode_hold (hfinite : ∀ x ∈ c.numbers, x.isFinite = true) :
    decode (h.hold c.toJson) = .ok c := by
  have hsetting {e : ConfigEntry} (he : e ∈ entries) {s : Setting} (hs : s ∈ e.settings)
      (c' : Config) : s.field.read (h.hold (c.jsonEntry s).2) c' = .ok (s.copy c c') :=
    read_setting h (fun x hx => hfinite x (mem_numbers he hs hx)) c'
  have hentry : ∀ e ∈ entries, (c.jsonField e).1 = (ConfigEntry.field (τ := τ) e).name ∧
      ∀ c', e.field.read (h.hold (c.jsonField e).2) c' = .ok (e.copy c c') := by
    intro e he
    cases e with
    | setting s => exact ⟨rfl, hsetting he List.mem_cons_self⟩
    | group name title settings =>
      exact ⟨rfl, decode_fields h title (nodup_settings _ he) (fun _ _ => rfl) fun s hs =>
        ⟨rfl, hsetting he hs⟩⟩
  have hnodup : (entries.map ConfigEntry.name).Nodup := by decide
  have hnames : (entries.map fun e => (ConfigEntry.field (τ := τ) e).name).Nodup := hnodup
  have hdecode := decode_fields h "MathboardConfig" hnames (fun e _ => by cases e <;> rfl) hentry
    standard
  rw [foldl_copy] at hdecode
  exact hdecode

/-- A configuration is not decoded if a setting in one of its groups never is. -/
theorem decode_hold_of_unreadable {name title : String} {settings : List Setting} {s : Setting}
    (he : ConfigEntry.group name title settings ∈ entries) (hs : s ∈ settings)
    (hread : ∀ c', ∃ e, s.field.read (h.hold (c.jsonEntry s).2) c' = .error e) :
    ∃ e, decode (h.hold c.toJson) = .error e := by
  have hsettings : (settings.map fun s => (Setting.field (τ := τ) s).name).Nodup :=
    nodup_settings _ he
  have hentries : (entries.map ConfigEntry.name).Nodup := by decide
  have hnames : (entries.map fun e => (ConfigEntry.field (τ := τ) e).name).Nodup := hentries
  have hsetting : (settings.map Setting.field).find?
      (fun f => f.name == (Setting.field (τ := τ) s).name) = some s.field :=
    find?_named hsettings hs
  have hentry : (entries.map ConfigEntry.field).find?
      (fun f => f.name == (ConfigEntry.field (τ := τ) (.group name title settings)).name) =
        some (ConfigEntry.group name title settings).field :=
    find?_named hnames he
  have hgiven : c.jsonEntry s ∈ settings.map c.jsonEntry := List.mem_map.2 ⟨s, hs, rfl⟩
  have hfield : c.jsonField (.group name title settings) ∈ entries.map c.jsonField :=
    List.mem_map.2 ⟨_, he, rfl⟩
  have hgroup (c' : Config) : ∃ e, (ConfigEntry.field (.group name title settings)).read
      (h.hold (.object (settings.map c.jsonEntry))) c' = .error e :=
    h.decodeRecord_of_unreadable hgiven hsetting hread c'
  exact h.decodeRecord_of_unreadable hfield hentry hgroup standard

/-- A divisor that is not finite is written as nothing, and so it is not decoded. -/
theorem decode_hold_of_endless (hdivisor : c.gestures.reachDivisor.isFinite = false) :
    ∃ e, decode (h.hold c.toJson) = .error e := by
  have he : ConfigEntry.group "interaction" "InteractionSettings" gestureSettings ∈ entries := by
    simp [entries]
  refine decode_hold_of_unreadable h he (.tail _ (.tail _ (.tail _ (.head _)))) ?_
  intro c'
  obtain ⟨e, he⟩ := h.decodeFloat_hold_of_endless hdivisor
  refine ⟨e, ?_⟩
  show (decodeFloat (h.hold (Json.ofFloat c.gestures.reachDivisor))).map _ = _
  rw [he]
  rfl

/-! ## Texts -/

/-- A number in the value of a setting is a whole number in range, or one of the value's numbers,
and finite. -/
theorem number_toJson {type : SettingType} {v : type.Value} {n : Number}
    (hn : .number n ∈ (type.toJson v).parts) :
    (∃ k : Nat, k < UInt64.size ∧ n = .integer k) ∨
      ∃ x ∈ type.numbers v, x.isFinite = true ∧ n = .real x := by
  have hreal {x : Float} (hx : Json.number n ∈ (Json.ofFloat x).parts) :
      x.isFinite = true ∧ n = .real x := by
    unfold Json.ofFloat at hx
    split at hx
    · next hfinite => exact ⟨hfinite, Json.number.inj (List.mem_singleton.1 hx)⟩
    · cases List.mem_singleton.1 hx
  cases type with
  | text | flag => cases List.mem_singleton.1 hn
  | millis => exact .inl ⟨v.toNat, v.toNat_lt, Json.number.inj (List.mem_singleton.1 hn)⟩
  | pixels =>
    have hsize : v.toNat < UInt64.size := Nat.lt_trans v.toNat_lt (by decide)
    exact .inl ⟨v.toNat, hsize, Json.number.inj (List.mem_singleton.1 hn)⟩
  | number => exact .inr ⟨v, List.mem_cons_self, hreal hn⟩
  | box =>
    rcases List.mem_cons.1 hn with hn | hn
    · cases hn
    · obtain ⟨item, hitem, hn⟩ := mem_itemParts hn
      obtain ⟨x, hx, rfl⟩ := List.mem_map.1 hitem
      exact .inr ⟨x, hx, hreal hn⟩

theorem nesting_toJson (type : SettingType) (v : type.Value) : (type.toJson v).nesting ≤ 1 := by
  have hzero (x : Float) : (Json.ofFloat x).nesting ≤ 0 := by
    unfold Json.ofFloat
    split <;> exact Nat.le_refl 0
  cases type with
  | text | flag | millis | pixels => exact Nat.zero_le 1
  | number => exact Nat.le_succ_of_le (hzero v)
  | box =>
    refine Nat.succ_le_succ (itemNesting_le fun item hitem => ?_)
    obtain ⟨x, -, rfl⟩ := List.mem_map.1 hitem
    exact hzero x

theorem nesting_config (c : Config) : c.toJson.nesting ≤ maxDepth := by
  have hsettings (settings : List Setting) : fieldNesting (settings.map c.jsonEntry) ≤ 1 := by
    refine fieldNesting_le fun field hfield => ?_
    obtain ⟨s, -, rfl⟩ := List.mem_map.1 hfield
    exact nesting_toJson s.type (s.get c)
  have hfields : fieldNesting (entries.map c.jsonField) ≤ 2 := by
    refine fieldNesting_le fun field hfield => ?_
    obtain ⟨e, -, rfl⟩ := List.mem_map.1 hfield
    cases e with
    | setting s => exact Nat.le_succ_of_le (nesting_toJson s.type (s.get c))
    | group name title settings => exact Nat.succ_le_succ (hsettings settings)
  rw [toJson_eq]
  exact Nat.le_trans (Nat.succ_le_succ hfields) (by decide)

/-- All numbers in the text of a configuration are read back if the configuration's own are; those
that are not finite do not stand in the text. -/
theorem legible_toJson (hnumbers : ∀ x ∈ c.numbers, x.isFinite = true → (Number.real x).ReadsBack) :
    c.toJson.Legible := by
  have hsetting {e : ConfigEntry} (he : e ∈ entries) {s : Setting} (hs : s ∈ e.settings) {n : Number}
      (hn : .number n ∈ (c.jsonEntry s).2.parts) : n.ReadsBack := by
    rcases number_toJson hn with ⟨k, hk, rfl⟩ | ⟨x, hx, hfinite, rfl⟩
    · exact Number.readsBack_integer (Int.le_trans (by decide) (Int.natCast_nonneg k))
        (Int.ofNat_lt.2 hk)
    · exact hnumbers x (mem_numbers he hs hx) hfinite
  intro n hn
  rw [toJson_eq] at hn
  rcases List.mem_cons.1 (number_mem_parts hn) with hn | hn
  · cases hn
  obtain ⟨field, hfield, hn⟩ := mem_fieldParts hn
  obtain ⟨e, he, rfl⟩ := List.mem_map.1 hfield
  cases e with
  | setting s => exact hsetting he List.mem_cons_self hn
  | group name title settings =>
    rcases List.mem_cons.1 hn with hn | hn
    · cases hn
    obtain ⟨field, hfield, hn⟩ := mem_fieldParts hn
    obtain ⟨s, hs, rfl⟩ := List.mem_map.1 hfield
    exact hsetting he hs hn

/-- The text is read as the value that it was written for. -/
theorem decodeText_pretty
    (hnumbers : ∀ x ∈ c.numbers, x.isFinite = true → (Number.real x).ReadsBack) :
    decodeText decode c.toJson.pretty = decode (Holder.tree.hold c.toJson) := by
  have halone : c.toJson.pretty.toList = [] ++ (c.toJson.pretty.toList ++ []) := by simp
  have hread : Tree.read? c.toJson.pretty = some (Tree.ofJson c.toJson) :=
    read?_of_lexes (lexes_pretty (legible_toJson hnumbers)) (nesting_config c) halone nofun nofun
  rw [decodeText, hread]
  rfl

/-- A configuration with finite numbers is read back from its text. -/
theorem json_read_write (hfinite : ∀ x ∈ c.numbers, x.isFinite = true)
    (hnumbers : ∀ x ∈ c.numbers, (Number.real x).ReadsBack) :
    decodeText decode c.toJson.pretty = .ok c := by
  rw [decodeText_pretty fun x hx _ => hnumbers x hx]
  exact decode_hold Holder.tree hfinite

end Config

end Chalkboard
