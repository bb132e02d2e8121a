import Mathlib.Data.List.Forall2
import Mathlib.Data.List.Nodup
import Chalkboard.Config.Schema

/-!
# Reading a configuration setting by setting

A table in which every setting stands once with its value is read as the configuration with these
values (`Dialect.config?_eq`), whatever the settings were before.
-/

namespace Chalkboard

/-! ## Parts under their names -/

/-- Among parts with different names each is found under its own. -/
theorem find?_named {ι α : Type} {key : α → String} {part : ι → α} {items : List ι} {i : ι}
    (hnodup : (items.map fun i => key (part i)).Nodup) (hi : i ∈ items) :
    (items.map part).find? (fun a => key a == key (part i)) = some (part i) := by
  induction items with
  | nil => cases hi
  | cons j items ih =>
    obtain ⟨hnew, hnodup⟩ := List.nodup_cons.1 hnodup
    rw [List.map_cons, List.find?_cons]
    rcases List.mem_cons.1 hi with rfl | hi
    · rw [beq_self_eq_true]
    · have hne : (key (part j) == key (part i)) = false := by
        rw [beq_eq_false_iff_ne]
        exact fun h => hnew (List.mem_map.2 ⟨i, hi, h.symm⟩)
      rw [hne]
      exact ih hnodup hi

/-! ## What a configuration holds -/

/-- The settings of an entry. -/
def ConfigEntry.settings : ConfigEntry → List Setting
  | .setting s => [s]
  | .group _ _ settings => settings

/-- The settings of an entry have different names. -/
theorem nodup_settings : ∀ e ∈ Config.entries, (e.settings.map Setting.name).Nodup := by
  simp [Config.entries, ConfigEntry.settings, Config.bridgeSettings, Config.gestureSettings,
    Config.viewSettings, Config.intentSettings]

/-- The names of all entries and settings. -/
def Config.names : List String :=
  Config.entries.flatMap fun e => e.name :: e.settings.map Setting.name

theorem mem_names {e : ConfigEntry} (he : e ∈ Config.entries) : e.name ∈ Config.names :=
  List.mem_flatMap.2 ⟨e, he, List.mem_cons_self⟩

theorem mem_names_of_mem {e : ConfigEntry} (he : e ∈ Config.entries) {s : Setting}
    (hs : s ∈ e.settings) : s.name ∈ Config.names :=
  List.mem_flatMap.2 ⟨e, he, List.mem_cons_of_mem _ (List.mem_map.2 ⟨s, hs, rfl⟩)⟩

theorem mem_settings {e : ConfigEntry} (he : e ∈ Config.entries) {s : Setting}
    (hs : s ∈ e.settings) : ∃ path, (path, s) ∈ Config.settings := by
  cases e with
  | setting s' =>
    rw [List.mem_singleton.1 hs]
    exact ⟨s'.name, List.mem_flatMap.2 ⟨_, he, List.mem_singleton_self _⟩⟩
  | group name title settings =>
    exact ⟨name ++ "." ++ s.name, List.mem_flatMap.2 ⟨_, he, List.mem_map.2 ⟨s, hs, rfl⟩⟩⟩

/-- The numbers in the value of a setting. -/
def SettingType.numbers : (type : SettingType) → type.Value → List Float
  | number, x => [x]
  | box, b => b.sides
  | _, _ => []

/-- The numbers of a configuration. -/
def Config.numbers (c : Config) : List Float :=
  Config.settings.flatMap fun entry => entry.2.type.numbers (entry.2.get c)

theorem mem_numbers {c : Config} {e : ConfigEntry} (he : e ∈ Config.entries) {s : Setting}
    (hs : s ∈ e.settings) {x : Float} (hx : x ∈ s.type.numbers (s.get c)) : x ∈ c.numbers := by
  obtain ⟨path, hsetting⟩ := mem_settings he hs
  exact List.mem_flatMap.2 ⟨(path, s), hsetting, hx⟩

/-! ## Copies of settings -/

/-- The first configuration with this setting as in the second. -/
def Setting.copy (s : Setting) (c c' : Config) : Config :=
  s.set (s.get c) c'

/-- The same for several settings. -/
def copySettings (settings : List Setting) (c c' : Config) : Config :=
  settings.foldl (fun c' s => s.copy c c') c'

/-- The same for all that an entry holds. -/
def ConfigEntry.copy (c : Config) : ConfigEntry → Config → Config
  | .setting s, c' => s.copy c c'
  | .group _ _ settings, c' => copySettings settings c c'

/-- The entries are all there is of a configuration. -/
theorem foldl_copy (c c' : Config) : Config.entries.foldl (fun c' e => e.copy c c') c' = c := by
  simp only [Config.entries, List.foldl_cons, List.foldl_nil, ConfigEntry.copy, copySettings,
    Setting.copy, Config.bridgeSettings, Config.gestureSettings, Config.viewSettings,
    Config.intentSettings]

namespace Dialect

variable {ν : Type} {d : Dialect ν} {c : Config}

/-! ## Reading -/

section Fill

variable {ι : Type} {part : ι → Part ν} {copy : ι → Config → Config}

/-- What is given under the name of each part is read part by part. -/
theorem fill_eq {items done todo : List ι} (hall : items = done ++ todo)
    (hnodup : (items.map fun i => (part i).1).Nodup) {given : List (String × ν)}
    (hgiven : List.Forall₂ (fun i g => g.1 = (part i).1 ∧ ∀ c', (part i).2 g.2 c' = some (copy i c'))
      todo given) (c' : Config) :
    fill (items.map part) (done.map fun i => (part i).1).reverse given c' =
      some (todo.foldl (fun c' i => copy i c') c') := by
  induction hgiven generalizing done c' with
  | nil => rfl
  | @cons i g todo given hi _ ih =>
    obtain ⟨name, v⟩ := g
    obtain ⟨rfl, hread⟩ : name = (part i).1 ∧ _ := hi
    have hnames : (items.map part).find? (fun p => p.1 == (part i).1) = some (part i) :=
      find?_named hnodup (hall ▸ List.mem_append_right done List.mem_cons_self)
    have hnew : (done.map fun i => (part i).1).reverse.contains (part i).1 = false := by
      rw [hall, List.map_append, List.map_cons] at hnodup
      have hapart := (List.nodup_append.1 hnodup).2.2
      rw [Bool.eq_false_iff]
      intro hmem
      rw [List.contains_iff_mem, List.mem_reverse] at hmem
      exact hapart _ hmem _ List.mem_cons_self rfl
    have hrest : fill (items.map part) ((done ++ [i]).map fun i => (part i).1).reverse given
        (copy i c') = some (todo.foldl (fun c' i => copy i c') (copy i c')) :=
      ih (by rw [hall, List.append_assoc]; rfl) (copy i c')
    rw [List.map_append, List.reverse_append] at hrest
    rw [List.foldl_cons, ← hrest, fill, hnames]
    dsimp only
    rw [hnew, if_neg Bool.false_ne_true, hread]
    rfl

end Fill

/-- A value of the format is read as what the configuration holds under this setting. -/
def Gives (d : Dialect ν) (c : Config) (s : Setting) (given : String × ν) : Prop :=
  given.1 = s.name ∧ d.value? s.type given.2 = some (s.get c)

/-- A table is read as a copy of the settings that it gives. -/
theorem table_settings {settings : List Setting} (hnodup : (settings.map Setting.name).Nodup)
    {v : ν} {given : List (String × ν)} (hparts : d.parts? (settings.map Setting.name) v = some given)
    (hgiven : List.Forall₂ (d.Gives c) settings given) (c' : Config) :
    d.table (settings.map d.setting) v c' = some (copySettings settings c c') := by
  have hnames : (settings.map d.setting).map Prod.fst = settings.map Setting.name := by simp [setting]
  have hread : List.Forall₂ (fun s g => g.1 = (d.setting s).1 ∧
      ∀ c', (d.setting s).2 g.2 c' = some (s.copy c c')) settings given := by
    refine hgiven.imp fun s g ⟨hname, hvalue⟩ => ⟨hname, fun c' => ?_⟩
    exact congrArg (Option.map fun x => s.set x c') hvalue
  have hfill : fill (settings.map d.setting) [] given c' = some (copySettings settings c c') :=
    fill_eq (List.nil_append settings).symm hnodup hread c'
  rw [table, hnames, hparts]
  exact hfill

/-- So is an entry. -/
def Offers (d : Dialect ν) (c : Config) : ConfigEntry → String × ν → Prop
  | .setting s, given => d.Gives c s given
  | .group name _ settings, given =>
    given.1 = name ∧ ∃ inner, d.parts? (settings.map Setting.name) given.2 = some inner ∧
      List.Forall₂ (d.Gives c) settings inner

theorem Offers.entry {e : ConfigEntry} {given : String × ν} (h : d.Offers c e given)
    (hnodup : (e.settings.map Setting.name).Nodup) :
    given.1 = (d.entry e).1 ∧ ∀ c', (d.entry e).2 given.2 c' = some (e.copy c c') := by
  cases e with
  | setting s => exact ⟨h.1, fun c' => congrArg (Option.map fun x => s.set x c') h.2⟩
  | group name title settings =>
    obtain ⟨hname, inner, hparts, hgiven⟩ := h
    exact ⟨hname, table_settings hnodup hparts hgiven⟩

/-- A table with all entries is read as the configuration that they come from. -/
theorem config?_eq {v : ν} {given : List (String × ν)}
    (hparts : d.parts? (Config.entries.map ConfigEntry.name) v = some given)
    (hgiven : List.Forall₂ (d.Offers c) Config.entries given) : d.config? v = some c := by
  have hread := ((List.forall₂_and_left _ _).2 ⟨nodup_settings, hgiven⟩).imp
    fun _ _ ⟨hdistinct, h⟩ => h.entry hdistinct
  have hnodup : (Config.entries.map fun e => (d.entry e).1).Nodup := by
    have hnames : (Config.entries.map ConfigEntry.name).Nodup := by decide
    exact hnames
  have hfill : fill (Config.entries.map d.entry) [] given .standard =
      some (Config.entries.foldl (fun c' e => e.copy c c') .standard) :=
    fill_eq (List.nil_append Config.entries).symm hnodup hread .standard
  rw [foldl_copy] at hfill
  have hentries : (Config.entries.map d.entry).map Prod.fst = Config.entries.map ConfigEntry.name :=
    rfl
  rw [config?, table, hentries, hparts]
  exact hfill

end Dialect

end Chalkboard
