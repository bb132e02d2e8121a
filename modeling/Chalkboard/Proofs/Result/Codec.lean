import Chalkboard.Proofs.Element.Codec
import Chalkboard.Result.Wire

/-!
# Results survive their wire form

The two shapes of a result carry no tag. Each has a required field that the other one never has, so
neither is taken for the other, and the answer of a host that is no bare failure is read in the shape
in which it was written. With the check of what was read this gives the codec of results
(`CommandResult.ofAnswer_consistent`): whatever is read is consistent, and whatever is consistent
comes back.
-/

namespace Chalkboard

open Json

variable {τ : Type} [Source τ] {h : Holder τ}

/-! ## Consistent results -/

namespace CommandResult

/-- There is nothing to show. -/
def ShowsNothing : CommandResult → Prop
  | graph r => r.graphs = [] ∧ r.annotations = []
  | geometry r => r.elements = []

/-- A failed result says why, and shows nothing. -/
def Consistent (r : CommandResult) : Prop :=
  r.success = true ∨
    (∃ message, r.error = some message ∧ Text.allBlank message = false) ∧ r.ShowsNothing

/-- All numbers of the result are finite. -/
def IsFinite : CommandResult → Prop
  | graph r => ∀ a ∈ r.annotations, a.x.isFinite ∧ a.y.isFinite
  | geometry r => ∀ e ∈ r.elements, e.IsFinite

theorem hasPayload_eq_false_iff {r : CommandResult} : r.hasPayload = false ↔ r.ShowsNothing := by
  cases r <;> simp [hasPayload, ShowsNothing]

theorem all_allBlank_eq_false_iff {error : Option String} :
    error.all Text.allBlank = false ↔
      ∃ message, error = some message ∧ Text.allBlank message = false := by
  cases error <;> simp

/-- The check passes exactly the consistent results. -/
theorem check_eq_ok_iff {r : CommandResult} : r.check = .ok () ↔ r.Consistent := by
  rw [Consistent, ← hasPayload_eq_false_iff, ← all_allBlank_eq_false_iff, check]
  cases r.success <;> cases r.error.all Text.allBlank <;> cases r.hasPayload <;> simp

end CommandResult

/-! ## Texts that may be absent -/

/-- Where a text is left out, the record keeps having none. -/
theorem Json.Record.Filled.text {σ : Type} {fields : List (Field τ σ)} {name : String}
    {set : Option String → σ → σ} {text : Option String} {rest : Fields} {s s' : σ}
    (found : fields.find? (·.name == name) = some (optionalText name set))
    (hnone : set none s = s)
    (tail : Filled fields (rest.map (Prod.map id h.hold)) (set text s) s') :
    Filled fields ((textField name text ++ rest).map (Prod.map id h.hold)) s s' := by
  cases text with
  | none => exact hnone ▸ tail
  | some text => exact .value found (h.decodeOptionalString_hold text) tail

/-! ## The shapes -/

theorem GraphEntry.decode_hold (h : Holder τ) (g : GraphEntry) :
    GraphEntry.decode (h.hold g.toJson) = .ok g := by
  have hcolor := h.decodeString_hold g.color
  have hfunction := h.decodeString_hold g.function
  have hfields : g.toJson = .object (("color", .string g.color) ::
      (textField "error" g.error ++ ("fn", .string g.function) ::
        (textField "label" g.label ++ (textField "latex" g.latex ++
          (textField "original" g.expression ++ []))))) := by
    simp [toJson]
  rw [hfields]
  refine h.decodeRecord_hold (.value rfl hcolor (.text rfl rfl (.value rfl hfunction
    (.text rfl rfl (.text rfl rfl (.text rfl rfl .nil)))))) ?_
  -- each of the four texts is there or not
  obtain ⟨_, _, latex, label, expression, error⟩ := g
  cases latex <;> cases label <;> cases expression <;> cases error <;> rfl

theorem Annotation.decode_hold (h : Holder τ) {a : Annotation} (hx : a.x.isFinite)
    (hy : a.y.isFinite) : Annotation.decode (h.hold a.toJson) = .ok a := by
  have htext := h.decodeString_hold a.text
  have hx := h.decodeFloat_hold hx
  have hy := h.decodeFloat_hold hy
  exact h.decodeRecord_hold (.value rfl htext (.value rfl hx (.value rfl hy .nil))) rfl

theorem GraphResult.decode_hold (h : Holder τ) {r : GraphResult}
    (hr : ∀ a ∈ r.annotations, a.x.isFinite ∧ a.y.isFinite) :
    GraphResult.decode (h.hold r.toJson) = .ok r := by
  have hannotations : decodeList Annotation.decode
      (h.hold (.array (r.annotations.map Annotation.toJson))) = .ok r.annotations :=
    h.decodeList_hold fun a ha => Annotation.decode_hold h (hr a ha).1 (hr a ha).2
  have hgraphs : decodeList GraphEntry.decode
      (h.hold (.array (r.graphs.map GraphEntry.toJson))) = .ok r.graphs :=
    h.decodeList_hold fun g _ => GraphEntry.decode_hold h g
  have hexplanation := h.decodeString_hold r.explanation
  have hsuccess := h.decodeBool_hold r.success
  refine h.decodeRecord_hold (.value rfl hannotations (.text rfl rfl
    (.value rfl hexplanation (.value rfl hgraphs (.value rfl hsuccess .nil))))) ?_
  cases r.error <;> rfl

theorem GeometryResult.decode_hold (hw : ∀ j, h.Whole j) {r : GeometryResult}
    (hr : ∀ e ∈ r.elements, e.IsFinite) : GeometryResult.decode (h.hold r.toJson) = .ok r := by
  have helements := (Element.decodeList_hold (fun e _ => e.open_of_whole hw) hr).1
  have hexplanation := h.decodeString_hold r.explanation
  have hsuccess := h.decodeBool_hold r.success
  refine h.decodeRecord_hold (.value rfl helements (.text rfl rfl
    (.value rfl hexplanation (.value rfl hsuccess .nil)))) ?_
  cases r.error <;> rfl

/-- A list of elements is not read as plotted functions: it has none. -/
theorem GraphResult.decode_geometry (h : Holder τ) (r : GeometryResult) :
    ∃ e, GraphResult.decode (h.hold r.toJson) = .error e := by
  have hgraphs : (Record.required "graphs" (decodeList GraphEntry.decode)
      fun graphs r => { r with graphs } : Field τ GraphResult) ∈ GraphResult.fields := by
    simp [GraphResult.fields]
  refine h.decodeRecord_of_missing hgraphs rfl ?_
  cases r.error <;> simp [Record.required, textField, optionalField]

/-! ## Results of either shape -/

namespace CommandResult

/-- A result with finite numbers is read back in its own shape. -/
theorem decode_hold (hw : ∀ j, h.Whole j) {r : CommandResult} (hr : r.IsFinite) :
    CommandResult.decode (h.hold r.toJson) = .ok r := by
  cases r with
  | graph r =>
    refine (hw _).decodeEither_first ?_
    simp only [toJson, GraphResult.decode_hold (h.setAside false) hr]
    rfl
  | geometry r =>
    obtain ⟨e, he⟩ := GraphResult.decode_geometry (h.setAside false) r
    refine (hw _).decodeEither_second (e := e) ?_ ?_
    · simp only [toJson, he]
      rfl
    · simp only [toJson, GeometryResult.decode_hold (fun j => (hw j).setAside false) hr]
      rfl

/-- The JSON form of a result has functions or elements, so it is no bare failure. -/
theorem isBareFailure_toJson (r : CommandResult) : isBareFailure r.toJson = false := by
  cases r with
  | graph r =>
    have hgraphs : (r.toJson.field? "graphs").isNone = false := by
      obtain ⟨_, _, _, _, error⟩ := r
      cases error <;> rfl
    simp [isBareFailure, toJson, hgraphs]
  | geometry r =>
    have helements : (r.toJson.field? "elements").isNone = false := rfl
    simp [isBareFailure, toJson, helements]

/-- A failure that is made of its message alone is consistent if the message is not blank. -/
theorem consistent_failure {message : String} (hmessage : Text.allBlank message = false) :
    (failure message).Consistent :=
  .inr ⟨⟨message, rfl, hmessage⟩, rfl, rfl⟩

/-- What is read as a result is consistent. -/
theorem consistent_of_ofAnswer {answer : Json} {r : CommandResult}
    (hr : ofAnswer answer = .ok r) : r.Consistent := by
  rw [ofAnswer] at hr
  split at hr
  · split at hr
    · next message _ =>
      split at hr
      · cases hr
      · next hmessage =>
        cases hr
        exact consistent_failure (Bool.eq_false_iff.2 hmessage)
    · cases hr
  · cases hdecode : CommandResult.decode answer with
    | error e =>
      rw [hdecode] at hr
      cases hr
    | ok result =>
      rw [hdecode] at hr
      cases hcheck : result.check with
      | error i =>
        simp [Except.mapError, hcheck, bind, Except.bind] at hr
      | ok _ =>
        have hresult : result = r := by
          simpa [Except.mapError, hcheck, bind, Except.bind, pure, Except.pure] using hr
        exact hresult ▸ check_eq_ok_iff.1 hcheck

/-- A consistent result with finite numbers is the answer that its JSON form carries. -/
theorem ofAnswer_toJson {r : CommandResult} (hconsistent : r.Consistent) (hfinite : r.IsFinite) :
    ofAnswer r.toJson = .ok r := by
  have hdecode : CommandResult.decode r.toJson = .ok r :=
    decode_hold Holder.whole_memory hfinite
  have hcheck : r.check = .ok () := check_eq_ok_iff.2 hconsistent
  rw [ofAnswer, isBareFailure_toJson, hdecode]
  simp [Except.mapError, hcheck, bind, Except.bind, pure, Except.pure]

/-- Whatever answer is read as a result, the result is consistent; and every consistent result with
finite numbers is read back from its JSON form as it was, in its own shape. -/
theorem ofAnswer_consistent :
    (∀ (answer : Json) (r : CommandResult), ofAnswer answer = .ok r → r.Consistent) ∧
      ∀ r : CommandResult, r.Consistent → r.IsFinite → ofAnswer r.toJson = .ok r :=
  ⟨fun _ _ hr => consistent_of_ofAnswer hr, fun _ hr hfinite => ofAnswer_toJson hr hfinite⟩

/-- A circle around a point, with settings of its own. -/
def sampleCircle : List Element :=
  [.freePoint ⟨"p"⟩ 1 2, (Element.new ⟨"c"⟩ .circle [.ref ⟨"p"⟩, .number 3]).withProp "style"
    (.object [("dash", .array [Json.ofNat 2, .null])])]

/-- A plot with a function that cannot be drawn and a labelled point, the circle, and a failure that
only has a message. -/
theorem ofAnswer_consistent_sample :
    let plot : CommandResult := .graph ⟨true,
      [⟨"x", "#2563eb", some "x", none, none, none⟩, ⟨"", "red", none, some "f", some "1/", some "?"⟩],
      [⟨0.5, -0, "root"⟩], "a line", none⟩
    let circle : CommandResult := .geometry ⟨true, sampleCircle, "", some "rounded"⟩
    let answer : Json := .object [("error", .string "no solution"), ("success", .bool false)]
    ofAnswer plot.toJson = .ok plot ∧ ofAnswer circle.toJson = .ok circle ∧
      ofAnswer answer = .ok (.failure "no solution") ∧ (failure "no solution").Consistent := by
  intro plot circle answer
  have hplot : plot.IsFinite := by
    intro a ha
    rw [List.mem_singleton.1 ha]
    decide
  have hcircle : ∀ e ∈ sampleCircle, e.IsFinite := by decide
  have hanswer : ofAnswer answer = .ok (.failure "no solution") := rfl
  refine ⟨ofAnswer_consistent.2 plot (.inl rfl) hplot, ?_, hanswer, ?_⟩
  · exact ofAnswer_consistent.2 circle (.inl rfl) hcircle
  · exact ofAnswer_consistent.1 answer _ hanswer

end CommandResult

end Chalkboard
