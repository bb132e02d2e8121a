import Chalkboard.Config.Toml
import Chalkboard.Proofs.Config.Dialect
import Chalkboard.Proofs.Toml.Document

/-!
# Configurations in TOML

A configuration whose times fit into 63 bits is read back from its document, as long as its numbers
are (`ofToml?_write`).
-/

namespace Chalkboard

open Toml

section Settings

variable {type : SettingType} {v : type.Value}

/-- The value of a setting is read back. -/
theorem SettingType.ofToml?_toToml (type : SettingType) (v : type.Value) :
    type.ofToml? (type.toToml v) = some v := by
  cases type with
  | text | flag | number | box => rfl
  | millis =>
    have hbelow : (0 : Int) ≤ v.toNat ∧ (v.toNat : Int) < UInt64.size :=
      ⟨Int.natCast_nonneg _, Int.ofNat_lt.2 v.toNat_lt⟩
    show (Value.below? UInt64.size (.integer v.toNat)).map UInt64.ofNat = some v
    rw [Value.below?, if_pos hbelow, Int.toNat_natCast, Option.map_some, UInt64.ofNat_toNat]
  | pixels =>
    have hbelow : (0 : Int) ≤ v.toNat ∧ (v.toNat : Int) < UInt32.size :=
      ⟨Int.natCast_nonneg _, Int.ofNat_lt.2 v.toNat_lt⟩
    show (Value.below? UInt32.size (.integer v.toNat)).map UInt32.ofNat = some v
    rw [Value.below?, if_pos hbelow, Int.toNat_natCast, Option.map_some, UInt32.ofNat_toNat]

/-- The value of a setting stands on a line. -/
theorem SettingType.flat_toToml (hfits : type.fitsToml v = true)
    (hnumbers : ∀ x ∈ type.numbers v, number? (numberLayout.write x).toList = some (.float x)) :
    (type.toToml v).Flat := by
  cases type with
  | text | flag => trivial
  | number => exact hnumbers v List.mem_cons_self
  | box =>
    intro item hitem
    obtain ⟨x, hx, rfl⟩ := List.mem_map.1 hitem
    exact hnumbers x hx
  | millis =>
    exact ⟨Int.le_trans (by decide) (Int.natCast_nonneg v.toNat), of_decide_eq_true hfits⟩
  | pixels =>
    have hbound : ((UInt32.size : Nat) : Int) ≤ Int64.maxValue.toInt := by decide
    have hsize : (v.toNat : Int) < (UInt32.size : Nat) := Int.ofNat_lt.2 v.toNat_lt
    exact ⟨Int.le_trans (by decide) (Int.natCast_nonneg v.toNat),
      Int.le_trans (Int.le_of_lt hsize) hbound⟩

end Settings

namespace Config

variable {c : Config}

theorem bareKey_names : ∀ name ∈ names, BareKey name := by
  have hall : ∀ name ∈ names, name.toList ≠ [] ∧ name.toList.all isKeyChar = true := by decide
  exact fun name hname => ⟨(hall name hname).1, List.all_eq_true.1 (hall name hname).2⟩

/-- A setting with its value in TOML. -/
def tomlEntry (c : Config) (s : Setting) : String × Value :=
  (s.name, s.type.toToml (s.get c))

/-- The groups of settings, each a table of its own. -/
def tomlSections (c : Config) : List Section :=
  [("bridge", bridgeSettings.map c.tomlEntry), ("interaction", gestureSettings.map c.tomlEntry),
    ("viewport", viewSettings.map c.tomlEntry), ("intent", intentSettings.map c.tomlEntry)]

theorem encode_toml (c : Config) : c.encode SettingType.toToml (.table .header) =
    [("version", .string c.version)] ++ c.tomlSections.map Section.entry :=
  rfl

/-- The settings of an entry stand on lines. -/
theorem lined_settings {e : ConfigEntry} (he : e ∈ entries) (hfits : c.fitsToml = true)
    (hnumbers : ∀ x ∈ c.numbers, number? (numberLayout.write x).toList = some (.float x)) :
    Lined (e.settings.map c.tomlEntry) where
  bare := by
    intro entry hentry
    obtain ⟨s, hs, rfl⟩ := List.mem_map.1 hentry
    exact bareKey_names _ (mem_names_of_mem he hs)
  flat := by
    intro entry hentry
    obtain ⟨s, hs, rfl⟩ := List.mem_map.1 hentry
    obtain ⟨path, hsetting⟩ := mem_settings he hs
    exact SettingType.flat_toToml (List.all_eq_true.1 hfits (path, s) hsetting)
      fun x hx => hnumbers x (mem_numbers he hs hx)
  nodup := by
    have hnames : (e.settings.map c.tomlEntry).map Prod.fst = e.settings.map Setting.name :=
      List.map_map
    rw [hnames]
    exact nodup_settings e he

theorem outlined_toml (hfits : c.fitsToml = true)
    (hnumbers : ∀ x ∈ c.numbers, number? (numberLayout.write x).toList = some (.float x)) :
    Outlined [("version", .string c.version)] c.tomlSections := by
  have hlined {e : ConfigEntry} (he : e ∈ entries) := lined_settings he hfits hnumbers
  have hkeys : ∀ name ∈ ["bridge", "interaction", "viewport", "intent"], name ∈ names := by decide
  have hnodup : ["version", "bridge", "interaction", "viewport", "intent"].Nodup := by decide
  refine ⟨hlined List.mem_cons_self, fun s hs => ?_, fun s hs => ?_, hnodup⟩
  · have hname : s.1 ∈ c.tomlSections.map Prod.fst := List.mem_map.2 ⟨s, hs, rfl⟩
    exact bareKey_names _ (hkeys _ hname)
  · simp only [tomlSections, List.mem_cons, List.not_mem_nil, or_false] at hs
    rcases hs with rfl | rfl | rfl | rfl
    · exact hlined (e := .group "bridge" "BridgeSettings" bridgeSettings) (by simp [entries])
    · exact hlined (e := .group "interaction" "InteractionSettings" gestureSettings)
        (by simp [entries])
    · exact hlined (e := .group "viewport" "ViewportSettings" viewSettings) (by simp [entries])
    · exact hlined (e := .group "intent" "IntentSettings" intentSettings) (by simp [entries])

/-- Every setting is found in the document with its value. -/
theorem offers_toml (c : Config) : List.Forall₂ (Dialect.toml.Offers c) entries
    (c.encode SettingType.toToml (.table .header)) := by
  have hgives (s : Setting) : Dialect.toml.Gives c s (c.tomlEntry s) :=
    ⟨rfl, SettingType.ofToml?_toToml s.type (s.get c)⟩
  refine List.forall₂_map_right_iff.2 (List.forall₂_same.2 fun e _ => ?_)
  cases e with
  | setting s => exact hgives s
  | group name title settings =>
    exact ⟨rfl, settings.map c.tomlEntry, rfl,
      List.forall₂_map_right_iff.2 (List.forall₂_same.2 fun s _ => hgives s)⟩

/-- A configuration is read back from its document. -/
theorem toml_read_write (hfits : c.fitsToml = true)
    (hnumbers : ∀ x ∈ c.numbers, number? (numberLayout.write x).toList = some (.float x)) :
    ∃ doc, c.toToml? = some doc ∧
      (Toml.read? (Toml.write doc)).bind (fun doc => Dialect.toml.config? (.table .header doc)) =
        some c := by
  refine ⟨_, if_pos hfits, ?_⟩
  rw [encode_toml, read?_write (outlined_toml hfits hnumbers), ← encode_toml]
  exact Dialect.config?_eq rfl (offers_toml c)

end Config

end Chalkboard
