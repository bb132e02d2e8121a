import Chalkboard.Element.Wire
import Chalkboard.Proofs.Element.Parents
import Chalkboard.Proofs.Json.Record

/-!
# Elements survive their wire form

A parent carries no tag: what can be read as a number is one. No id is read as a number, so numbers
and references keep apart, and a finite element can be read back from its JSON form, wherever that
is held (`Element.decode_hold`).
-/

namespace Chalkboard

open Json

variable {τ : Type} [Source τ] {h : Holder τ}

/-! ## Parents -/

/-- A text is not read as a number. -/
theorem decodeFloat_string (h : Holder τ) (s : String) :
    decodeFloat (h.hold (.string s)) = .error (.wrongType (.string s) "f64") := by
  simp [decodeFloat, Layer.unexpected]

theorem ElementId.decode_hold (h : Holder τ) (id : ElementId) :
    ElementId.decode (h.hold (.string id.name)) = .ok id := by
  rw [ElementId.decode, h.decodeString_hold]
  rfl

/-- A parent with a finite number, or none, can be read back. -/
theorem Parent.decode_hold {p : Parent} (hw : h.Whole p.toJson) (hp : p.isFinite = true) :
    Parent.decode (h.hold p.toJson) = .ok p := by
  cases p with
  | number x =>
    refine hw.decodeEither_first ?_
    have hx := (h.setAside false).decodeFloat_hold hp
    simp only [Parent.toJson, hx]
    rfl
  | ref id =>
    refine hw.decodeEither_second (e := .wrongType (.string id.name) "f64") ?_ ?_
    · simp only [Parent.toJson, decodeFloat_string]
      rfl
    · simp only [Parent.toJson, ElementId.decode_hold]
      rfl

/-! ## Elements -/

theorem ElementKind.decode_hold (h : Holder τ) (kind : ElementKind) :
    ElementKind.decode (h.hold (.string kind.name)) = .ok kind := by
  refine h.decodeName_hold ?_
  cases kind <;> rfl

namespace Element

variable {e : Element}

theorem IsFinite.parent (he : e.IsFinite) {p : Parent} (hp : p ∈ e.parents) :
    p.isFinite = true := by
  cases p with
  | number x => exact he x hp
  | ref id => rfl

/-- The parts of an element that are set aside or read as they are can be read where they are held.
-/
structure Open (h : Holder τ) (e : Element) : Prop where
  parents : ∀ p ∈ e.parents, h.Whole p.toJson
  props : h.Whole (.object e.props)

theorem open_of_whole (hw : ∀ j, h.Whole j) (e : Element) : e.Open h :=
  ⟨fun p _ => hw p.toJson, hw (.object e.props)⟩

/-- An element with finite numbers can be read back from its JSON form, in whatever order its fields
are written. -/
theorem decode_hold (hw : e.Open h) (he : e.IsFinite) :
    Element.decode (h.hold e.toJson) = .ok e ∧ Element.decode (h.hold e.listing) = .ok e := by
  have hid := ElementId.decode_hold h e.id
  have hparents : decodeList Parent.decode (h.hold (.array (e.parents.map Parent.toJson))) =
      .ok e.parents :=
    h.decodeList_hold fun p hp => Parent.decode_hold (hw.parents p hp) (he.parent hp)
  have hprops := hw.props.decodeFields_hold
  have hkind := ElementKind.decode_hold h e.kind
  constructor
  · exact h.decodeRecord_hold
      (.value rfl hid (.value rfl hparents (.value rfl hprops (.value rfl hkind .nil)))) rfl
  · exact h.decodeRecord_hold
      (.value rfl hid (.value rfl hkind (.value rfl hparents (.value rfl hprops .nil)))) rfl

/-- So can a list of them. -/
theorem decodeList_hold {elements : List Element} (hw : ∀ e ∈ elements, e.Open h)
    (hfinite : ∀ e ∈ elements, e.IsFinite) :
    decodeList Element.decode (h.hold (.array (elements.map toJson))) = .ok elements ∧
      decodeList Element.decode (h.hold (.array (elements.map listing))) = .ok elements :=
  ⟨h.decodeList_hold fun e he => (decode_hold (hw e he) (hfinite e he)).1,
    h.decodeList_hold fun e he => (decode_hold (hw e he) (hfinite e he)).2⟩

end Element

end Chalkboard
