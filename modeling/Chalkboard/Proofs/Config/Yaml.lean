import Chalkboard.Config.Yaml
import Chalkboard.Proofs.Config.Dialect
import Chalkboard.Proofs.Yaml.Number

/-!
# Configurations in YAML

A configuration is read back from its document, as long as its numbers are (`yaml_read_write`). Its
texts are read back in whichever style they are written.
-/

namespace Chalkboard

open Yaml

/-! ## Settings -/

section Settings

variable {type : SettingType} {v : type.Value} {col : Nat}

theorem item_ofFloat {x : Float} (hnan : x.isNaN = false) :
    Item col (Yaml.ofFloat x) (Yaml.ofFloat x) :=
  ⟨_, rfl, written_float rfl hnan⟩

theorem below?_toString {bound n : Nat} (h : n < bound) :
    (Node.scalar true (toString n)).below? bound = some n := by
  have hbound : decide (n < bound) = true := decide_eq_true h
  rw [Node.below?, natural?_toString, Option.filter_some, hbound, if_pos rfl]

/-- The value of a setting is read as a node that stands for it. -/
theorem SettingType.value_toNode (hnan : ∀ x ∈ type.numbers v, x.isNaN = false)
    (hnumbers : ∀ x ∈ type.numbers v, float? (numberLayout.write x) = some x) :
    ∃ node, Yaml.Value col ((type.toNode v).writeAt (col + 2) col) node ∧
      type.ofNode? node = some v := by
  cases type with
  | text =>
    obtain ⟨plain, hwritten⟩ := written_text col v
    exact ⟨.scalar plain v, hwritten.value, rfl⟩
  | flag =>
    have hplain : canBePlain (if v then "true" else "false") = true := by cases v <;> decide
    obtain ⟨htext, hbegins⟩ := PlainText.of_canBePlain hplain
    have hwritten : Written col (if v then "true" else "false").toList _ :=
      written_plain htext hbegins
    rw [String.ofList_toList] at hwritten
    refine ⟨_, hwritten.value, ?_⟩
    cases v <;> rfl
  | millis =>
    have hbelow := below?_toString v.toNat_lt
    refine ⟨.scalar true (toString v.toNat), (written_natural v.toNat).value, ?_⟩
    show (Node.below? UInt64.size _).map UInt64.ofNat = some v
    rw [hbelow, Option.map_some, UInt64.ofNat_toNat]
  | pixels =>
    have hbelow := below?_toString v.toNat_lt
    refine ⟨.scalar true (toString v.toNat), (written_natural v.toNat).value, ?_⟩
    show (Node.below? UInt32.size _).map UInt32.ofNat = some v
    rw [hbelow, Option.map_some, UInt32.ofNat_toNat]
  | number =>
    have hwritten : Written col (numberLayout.write v).toList _ :=
      written_float rfl (hnan v List.mem_cons_self)
    exact ⟨_, hwritten.value, hnumbers v List.mem_cons_self⟩
  | box =>
    have hitems : List.Forall₂ (Item col) (v.sides.map Yaml.ofFloat) (v.sides.map Yaml.ofFloat) :=
      List.forall₂_same.2 fun node hnode => by
        obtain ⟨x, hx, rfl⟩ := List.mem_map.1 hnode
        exact item_ofFloat (hnan x hx)
    have hread {x : Float} (hx : x ∈ v.sides) : (Yaml.ofFloat x).number? = some x := hnumbers x hx
    refine ⟨.sequence (v.sides.map Yaml.ofFloat), value_sequence hitems (List.cons_ne_nil _ _), ?_⟩
    show Node.sides? (.sequence [Yaml.ofFloat v.left, Yaml.ofFloat v.top, Yaml.ofFloat v.right,
      Yaml.ofFloat v.bottom]) = some v
    rw [Node.sides?, hread (x := v.left) (by simp [BoundingBox.sides]),
      hread (x := v.top) (by simp [BoundingBox.sides]),
      hread (x := v.right) (by simp [BoundingBox.sides]),
      hread (x := v.bottom) (by simp [BoundingBox.sides])]
    rfl

end Settings

/-! ## Tables -/

/-- A table is read entry by entry, if each of its values is read. -/
theorem exists_nodes {ι : Type} {items : List ι} {write : ι → Node × Node}
    {P : ι → String × Node → Prop} {col : Nat}
    (h : ∀ i ∈ items, ∃ name value node, write i = (.scalar false name, value) ∧ KeyName name ∧
      Yaml.Value col (value.writeAt (col + 2) col) node ∧ P i (name, node)) :
    ∃ nodes parts, List.Forall₂ (Entry col) (items.map write) nodes ∧
      (Node.mapping nodes).entries? = some parts ∧ List.Forall₂ P items parts := by
  induction items with
  | nil => exact ⟨[], [], .nil, rfl, .nil⟩
  | cons i items ih =>
    obtain ⟨⟨name, value, node, hwrite, hname, hvalue, hi⟩, hitems⟩ := List.forall_mem_cons.1 h
    obtain ⟨nodes, parts, hentries, hparts, hall⟩ := ih hitems
    refine ⟨(.scalar true name, node) :: nodes, (name, node) :: parts, ?_, ?_, .cons hi hall⟩
    · rw [List.map_cons, hwrite]
      exact .cons (.named hname hvalue) hentries
    · unfold Node.entries? at hparts ⊢
      dsimp only at hparts ⊢
      rw [List.mapM_cons, hparts]
      rfl

/-! ## Configurations -/

namespace Config

variable {c : Config}

theorem keyName_names : ∀ name ∈ names, KeyName name := by
  have hall : ∀ name ∈ names, canBePlain name = true ∧ isAmbiguous name = false ∧
      name.toList.head?.any Char.isAlpha = true ∧ name.toList.length ≤ maxKeyLength := by
    decide +kernel
  exact fun name hname => ⟨(hall name hname).1, (hall name hname).2.1, (hall name hname).2.2.1,
    (hall name hname).2.2.2⟩

/-- A setting with its value in YAML. -/
def yamlEntry (c : Config) (s : Setting) : Node × Node :=
  (.scalar false s.name, s.type.toNode (s.get c))

/-- An entry in YAML; a group is a mapping of its own. -/
def yamlNode (c : Config) : ConfigEntry → Node × Node
  | .setting s => c.yamlEntry s
  | .group name _ settings => (.scalar false name, .mapping (settings.map c.yamlEntry))

theorem toNode_eq (c : Config) : c.toNode = .mapping (entries.map c.yamlNode) :=
  rfl

theorem settings_ne_nil : ∀ e ∈ entries, e.settings ≠ [] := by
  simp [entries, ConfigEntry.settings, bridgeSettings, gestureSettings, viewSettings, intentSettings]

section Numbers

variable (hnan : ∀ x ∈ c.numbers, x.isNaN = false)
  (hnumbers : ∀ x ∈ c.numbers, float? (numberLayout.write x) = some x)

include hnan hnumbers

/-- A setting is read behind its name. -/
theorem value_setting {e : ConfigEntry} (he : e ∈ entries) {s : Setting} (hs : s ∈ e.settings)
    (col : Nat) : ∃ name value node, c.yamlEntry s = (.scalar false name, value) ∧ KeyName name ∧
      Yaml.Value col (value.writeAt (col + 2) col) node ∧ Dialect.yaml.Gives c s (name, node) := by
  obtain ⟨node, hvalue, hread⟩ : ∃ node,
      Yaml.Value col ((s.type.toNode (s.get c)).writeAt (col + 2) col) node ∧
        s.type.ofNode? node = some (s.get c) :=
    SettingType.value_toNode (fun x hx => hnan x (mem_numbers he hs hx))
      fun x hx => hnumbers x (mem_numbers he hs hx)
  exact ⟨s.name, _, node, rfl, keyName_names _ (mem_names_of_mem he hs), hvalue, rfl, hread⟩

/-- So is an entry. -/
theorem value_entry {e : ConfigEntry} (he : e ∈ entries) :
    ∃ name value node, c.yamlNode e = (.scalar false name, value) ∧ KeyName name ∧
      Yaml.Value 0 (value.writeAt (0 + 2) 0) node ∧ Dialect.yaml.Offers c e (name, node) := by
  cases e with
  | setting s => exact value_setting hnan hnumbers he List.mem_cons_self 0
  | group name title settings =>
    obtain ⟨nodes, parts, hentries, hparts, hgives⟩ := exists_nodes fun s hs =>
      value_setting hnan hnumbers he hs 2
    have hsome : settings.map c.yamlEntry ≠ [] := by
      rw [ne_eq, List.map_eq_nil_iff]
      exact settings_ne_nil _ he
    exact ⟨name, _, .mapping nodes, rfl, keyName_names _ (mem_names he), value_mapping hentries hsome,
      rfl, parts, hparts, hgives⟩

/-- A configuration is read back from its document. -/
theorem yaml_read_write : (Node.read? c.toNode.write).bind Dialect.yaml.config? = some c := by
  obtain ⟨nodes, parts, hentries, hparts, hoffers⟩ := exists_nodes fun e he =>
    value_entry hnan hnumbers he
  rw [toNode_eq, read?_write hentries (by simp [entries])]
  exact Dialect.config?_eq hparts hoffers

end Numbers

end Config

end Chalkboard
