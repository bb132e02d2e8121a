import Chalkboard.Json.Decode

/-!
# Values that are held by a source

A value can be decoded where it is, in memory, and also after it was set aside until a tag was
known. A `Holder` is a way to hold values: taking a layer off a held value gives held values again.
What a decoder reads from a held value is shown here once for all holders, decoder by decoder.
-/

namespace Chalkboard.Json

variable {τ υ : Type} {α : Type}

/-! ## Layers -/

/-- The layer with each of its parts replaced. -/
def Layer.map (f : τ → υ) : Layer τ → Layer υ
  | .null => .null
  | .bool b => .bool b
  | .number n => .number n
  | .string s => .string s
  | .array items => .array (items.map f)
  | .object fields => .object (fields.map (Prod.map id f))
  | .unreadable => .unreadable

theorem Layer.map_id (l : Layer τ) : l.map id = l := by
  cases l <;> simp [Layer.map]

theorem Layer.map_map {φ : Type} (g : υ → φ) (f : τ → υ) (l : Layer τ) :
    (l.map f).map g = l.map (g ∘ f) := by
  cases l <;> simp [Layer.map]

theorem SetAside.layer_eq [Source τ] (t : SetAside τ) :
    Source.layer t = (Source.layer t.content).map (⟨·, t.tagged⟩) := by
  show SetAside.layer t = _
  unfold SetAside.layer
  cases Source.layer t.content <;> rfl

/-- A decoder that goes on with what another one has read. -/
theorem decoded_bind {β : Type} {x : Decoded α} {f : α → Decoded β} {a : α} {b : β}
    (hx : x = .ok a) (hf : f a = .ok b) : (x >>= f) = .ok b := by
  rw [hx]
  exact hf

/-! ## Holders -/

/-- A way to hold values in a source. -/
structure Holder (τ : Type) [Source τ] where
  hold : Json → τ
  layer_hold : ∀ j, Source.layer (hold j) = (Source.layer j).map hold

namespace Holder

/-- A value in memory holds itself. -/
def memory : Holder Json :=
  ⟨id, fun j => (Layer.map_id (Source.layer j)).symm⟩

/-- A held value can be set aside. -/
def setAside [Source τ] (h : Holder τ) (tagged : Bool) : Holder (SetAside τ) where
  hold j := ⟨h.hold j, tagged⟩
  layer_hold j := by rw [SetAside.layer_eq, h.layer_hold, Layer.map_map]; rfl

variable [Source τ] (h : Holder τ)

/-! ## Layers of held values -/

@[simp] theorem layer_null : Source.layer (h.hold .null) = .null :=
  h.layer_hold .null

@[simp] theorem layer_bool (b : Bool) : Source.layer (h.hold (.bool b)) = .bool b :=
  h.layer_hold (.bool b)

@[simp] theorem layer_number (n : Number) : Source.layer (h.hold (.number n)) = .number n :=
  h.layer_hold (.number n)

@[simp] theorem layer_string (s : String) : Source.layer (h.hold (.string s)) = .string s :=
  h.layer_hold (.string s)

@[simp] theorem layer_array (items : List Json) :
    Source.layer (h.hold (.array items)) = .array (items.map h.hold) :=
  h.layer_hold (.array items)

@[simp] theorem layer_object (fields : Fields) :
    Source.layer (h.hold (.object fields)) = .object (fields.map (Prod.map id h.hold)) :=
  h.layer_hold (.object fields)

/-! ## Scalars -/

@[simp] theorem decodeString_hold (s : String) : decodeString (h.hold (.string s)) = .ok s := by
  simp [decodeString]

theorem decodeBool_hold (b : Bool) : decodeBool (h.hold (.bool b)) = .ok b := by
  simp [decodeBool]

/-- A finite number has a form that it can be read from. -/
theorem decodeFloat_hold {x : Float} (hx : x.isFinite) :
    decodeFloat (h.hold (ofFloat x)) = .ok x := by
  simp [decodeFloat, ofFloat, hx]

/-- A number that is not finite is written as nothing. -/
theorem decodeFloat_hold_of_endless {x : Float} (hx : x.isFinite = false) :
    ∃ e, decodeFloat (h.hold (ofFloat x)) = .error e := by
  simp [decodeFloat, ofFloat, hx]

theorem decodeNatural_hold {bits n : Nat} (hn : n < Nat.pow 2 bits) :
    decodeNatural bits (h.hold (ofNat n)) = .ok n := by
  have hbound : (0 : Int) ≤ n ∧ (n : Int) < (Nat.pow 2 bits : Nat) :=
    ⟨Int.natCast_nonneg n, Int.ofNat_lt.2 hn⟩
  simp only [decodeNatural, ofNat, layer_number]
  rw [if_pos hbound, Int.toNat_natCast]

theorem decodeUInt32_hold (n : UInt32) : decodeUInt32 (h.hold (ofNat n.toNat)) = .ok n := by
  have hn : n.toNat < Nat.pow 2 32 := n.toNat_lt
  rw [decodeUInt32, h.decodeNatural_hold hn]
  exact congrArg Except.ok UInt32.ofNat_toNat

/-! ## Options and lists -/

/-- What can be read from something else than `null` can be read as an option. -/
theorem decodeOptional_hold {decode : τ → Decoded α} {j : Json} {a : α}
    (hj : Source.layer j ≠ .null) (ha : decode (h.hold j) = .ok a) :
    decodeOptional decode (h.hold j) = .ok (some a) := by
  have hlayer : Source.layer (h.hold j) ≠ .null := by
    rw [h.layer_hold]
    cases hl : Source.layer j with
    | null => exact absurd hl hj
    | _ => simp [Layer.map]
  rw [decodeOptional, ha]
  cases hl : Source.layer (h.hold j) with
  | null => exact absurd hl hlayer
  | _ => rfl

theorem decodeOptionalString_hold (s : String) :
    decodeOptional decodeString (h.hold (.string s)) = .ok (some s) := by
  have hlayer : Source.layer (Json.string s) ≠ .null := by simp [Source.layer]
  exact h.decodeOptional_hold hlayer (h.decodeString_hold s)

/-- The items of a list are read one by one. -/
theorem mapM_hold {decode : τ → Decoded α} {encode : α → Json} {as : List α}
    (has : ∀ a ∈ as, decode (h.hold (encode a)) = .ok a) :
    ((as.map encode).map h.hold).mapM decode = .ok as := by
  induction as with
  | nil => rfl
  | cons a as ih =>
    have hhead : decode (h.hold (encode a)) = .ok a := has a List.mem_cons_self
    have htail := ih fun b hb => has b (List.mem_cons_of_mem a hb)
    rw [List.map_cons, List.map_cons, List.mapM_cons, hhead, htail]
    rfl

theorem decodeList_hold {decode : τ → Decoded α} {encode : α → Json} {as : List α}
    (has : ∀ a ∈ as, decode (h.hold (encode a)) = .ok a) :
    decodeList decode (h.hold (.array (as.map encode))) = .ok as := by
  simp only [decodeList, layer_array]
  exact h.mapM_hold has

theorem decodeStrings_hold (texts : List String) :
    decodeList decodeString (h.hold (.array (texts.map .string))) = .ok texts :=
  h.decodeList_hold fun s _ => h.decodeString_hold s

theorem decodePair_hold {p : Float × Float} (hfst : p.1.isFinite) (hsnd : p.2.isFinite) :
    decodePair (h.hold (.array [ofFloat p.1, ofFloat p.2])) = .ok p := by
  have hitems : (([p.1, p.2].map ofFloat).map h.hold).mapM decodeFloat = .ok [p.1, p.2] := by
    apply h.mapM_hold
    intro x hx
    have hx : x = p.1 ∨ x = p.2 := by simpa using hx
    rcases hx with rfl | rfl
    · exact h.decodeFloat_hold hfst
    · exact h.decodeFloat_hold hsnd
  have hexact :
      decodeExactly 2 decodeFloat (h.hold (.array [ofFloat p.1, ofFloat p.2])) =
        .ok [p.1, p.2] := by
    simp only [decodeExactly, layer_array]
    exact decoded_bind hitems rfl
  exact decoded_bind hexact rfl

/-! ## Free-form data -/

/-- All of a held value can be read as it is. -/
def Whole (h : Holder τ) (j : Json) : Prop :=
  Source.value (h.hold j) = .ok j

theorem whole_memory (j : Json) : memory.Whole j := rfl

variable {h} {j : Json}

theorem Whole.setAside (hw : h.Whole j) (tagged : Bool) : (h.setAside tagged).Whole j :=
  hw

theorem Whole.of_hold (hw : h.Whole j) (tagged : Bool) :
    SetAside.of tagged (h.hold j) = .ok ((h.setAside tagged).hold j) := by
  rw [SetAside.of, hw]
  rfl

theorem Whole.decodeFields_hold {fields : Fields} (hw : h.Whole (.object fields)) :
    decodeFields (h.hold (.object fields)) = .ok fields := by
  have hvalue : Source.value (h.hold (.object fields)) = .ok (.object fields) := hw
  simp only [decodeFields, layer_object, hvalue]
  rfl

end Holder

end Chalkboard.Json
