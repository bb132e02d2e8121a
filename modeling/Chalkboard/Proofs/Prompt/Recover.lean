import Chalkboard.Proofs.Element.Codec
import Chalkboard.Proofs.Json.Read
import Chalkboard.Proofs.Prompt.Fence

/-!
# Answers survive a model's text

The text of an answer is read back as the answer, also out of prose and a code fence, if three
backticks nowhere follow each other in it (`IntentResponse.recovers`). A string in the answer may hold
three of them, and then the text is cut there, with or without a wrapping
(`IntentResponse.recovers_not`).
-/

namespace Chalkboard

open Json

namespace IntentResponse

/-- An answer with its fields in the order in which they are declared. -/
def listing (r : IntentResponse) : Json :=
  .object ([("intent", .string r.intent), ("data", r.data), ("explanation", .string r.explanation)] ++
    Json.optionalField "elements" (r.elements.map fun es => .array (es.map Element.listing)))

/-- An answer that its JSON forms show in full: the numbers of its elements are finite, and its
free-form data list the fields of every object in order. -/
structure Regular (r : IntentResponse) : Prop where
  data : r.data.Ordered
  elements : ∀ es, r.elements = some es → ∀ e ∈ es, e.IsFinite ∧ (Json.object e.props).Ordered

variable {r : IntentResponse}

theorem Regular.open (hr : r.Regular) {es : List Element} (hes : r.elements = some es) :
    ∀ e ∈ es, e.Open Holder.tree := by
  intro e he
  refine ⟨fun p _ => ?_, (hr.elements es hes e he).2.whole⟩
  -- a parent is no object
  refine Ordered.whole fun fields hfields => ?_
  rw [mem_objects] at hfields
  cases p with
  | number x =>
    by_cases hx : x.isFinite = true <;> simp [Parent.toJson, ofFloat, hx, parts] at hfields
  | ref id => simp [Parent.toJson, parts] at hfields

/-- Both forms of an answer are read from the tree of their text. -/
theorem decode_tree (hr : r.Regular) :
    decode (Tree.ofJson r.toJson) = .ok r ∧ decode (Tree.ofJson r.listing) = .ok r := by
  have hintent := Holder.tree.decodeString_hold r.intent
  have hdata : decodeAny (Holder.tree.hold r.data) = .ok r.data := hr.data.whole
  have hexplanation := Holder.tree.decodeString_hold r.explanation
  obtain ⟨intent, data, explanation, elements⟩ := r
  cases elements with
  | none =>
    exact ⟨Holder.tree.decodeRecord_hold
      (.value rfl hdata (.value rfl hexplanation (.value rfl hintent .nil))) rfl,
      Holder.tree.decodeRecord_hold
      (.value rfl hintent (.value rfl hdata (.value rfl hexplanation .nil))) rfl⟩
  | some es =>
    obtain ⟨hsorted, hlisted⟩ := Element.decodeList_hold (hr.open rfl)
      fun e he => (hr.elements es rfl e he).1
    have harray (items : List Json) : Source.layer (Json.array items) ≠ .null := by
      simp [Source.layer]
    have hsorted := Holder.tree.decodeOptional_hold (harray _) hsorted
    have hlisted := Holder.tree.decodeOptional_hold (harray _) hlisted
    exact ⟨Holder.tree.decodeRecord_hold
      (.value rfl hdata (.value rfl hsorted (.value rfl hexplanation (.value rfl hintent .nil)))) rfl,
      Holder.tree.decodeRecord_hold
      (.value rfl hintent (.value rfl hdata (.value rfl hexplanation (.value rfl hlisted .nil)))) rfl⟩

/-- The text of an object stands in braces. -/
theorem braced {fields : Fields} (hsome : fields ≠ []) {text : String}
    (htext : text = compact (.object fields) ∨ text = pretty (.object fields))
    (hfence : ¬ fence <:+: text.toList) : Braced text.toList := by
  refine ⟨hfence, ?_⟩
  rcases htext with rfl | rfl
  · simp only [compact, String.toList_append]
    exact ⟨_, rfl⟩
  · obtain ⟨field, rest, rfl⟩ := List.exists_cons_of_ne_nil hsome
    simp only [pretty, prettyAt, String.toList_append]
    refine ⟨(prettyFields (0 + 1) (field :: rest)).toList ++ (newLine 0).toList, ?_⟩
    simp

/-- Every answer is read back from its text as it was: with blanks around the text, and out of prose
and a code fence. The text must hold no fence. It may be compact or indented, with the fields of
records in either order. -/
theorem recovers (hr : r.Regular) {j : Json} (hj : j = r.toJson ∨ j = r.listing)
    (hlegible : j.Legible) (hdepth : j.nesting ≤ maxDepth) {text : String}
    (htext : text = compact j ∨ text = pretty j) (hfence : ¬ fence <:+: text.toList) :
    (∀ before after : String, Text.allBlank before = true → Text.allBlank after = true →
      ofModelText (before ++ text ++ after) = .ok r) ∧
      ∀ w : Wrapping, w.Plain → ofModelText (w.around text) = .ok r := by
  have hbraced : Braced text.toList := by
    obtain ⟨fields, rfl, hsome⟩ : ∃ fields, j = .object fields ∧ fields ≠ [] := by
      rcases hj with rfl | rfl
      · exact ⟨_, rfl, List.cons_ne_nil _ _⟩
      · exact ⟨_, rfl, List.cons_ne_nil _ _⟩
    exact braced hsome htext hfence
  have hlexes : Lexes text.toList j.tokens := by
    rcases htext with rfl | rfl
    · exact lexes_compact hlegible
    · exact lexes_pretty hlegible
  have halone : text.toList = [] ++ (text.toList ++ []) := by simp
  -- the whole text is read as one value, with nothing around it
  have hread : Tree.read? text = some (Tree.ofJson j) :=
    read?_of_lexes hlexes hdepth halone nofun nofun
  have hdecode : decodeText decode text = .ok r := by
    obtain ⟨hsorted, hlisted⟩ := decode_tree hr
    rw [decodeText, hread]
    rcases hj with rfl | rfl
    · exact hsorted
    · exact hlisted
  constructor
  · intro before after hbefore hafter
    rw [ofModelText, stripFence_blanks hbraced hbefore hafter]
    exact hdecode
  · intro w hw
    rw [ofModelText, stripFence_around hbraced hw]
    exact hdecode

/-- An answer with code spans in its explanation and a point. -/
def sampleAnswer : IntentResponse :=
  ⟨"plot", .object [("a", .array [.number (.integer (-3)), .null])], "`x` or ``y``\n",
    some [.freePoint ⟨"p"⟩ 0.5 2]⟩

theorem regular_sampleAnswer : sampleAnswer.Regular where
  data fields hfields := by
    have hfields : fields ∈ [[("a", Json.array [.number (.integer (-3)), .null])]] := hfields
    rw [List.mem_singleton.1 hfields]
    decide
  elements es hes e he := by
    cases hes
    rw [List.mem_singleton.1 he]
    refine ⟨by decide, fun fields hfields => ?_⟩
    rw [List.mem_singleton.1 (hfields : fields ∈ [[]])]
    exact .nil

theorem legible_sampleAnswer : sampleAnswer.listing.Legible := by
  intro n hn
  have hn : n ∈ [Number.integer (-3), .real 0.5, .real 2] := hn
  simp only [List.mem_cons, List.not_mem_nil, or_false] at hn
  rcases hn with rfl | rfl | rfl
  · exact Number.readsBack_integer (by decide) (by decide)
  · exact Number.readsBack_of_scaled "0.5" 5 1 false (by decide +kernel) rfl (by decide) (by decide)
  · exact Number.readsBack_of_scaled "2.0" 20 1 false (by decide +kernel) rfl (by decide) (by decide)

/-- The sample comes back out of the blanks around its text, and out of prose and a bare fence. -/
theorem recovers_sample :
    let text := compact sampleAnswer.listing
    let w : Wrapping := ⟨"So it is:\n", false, "\n", "\n", "\nDone."⟩
    sampleAnswer.Regular ∧ sampleAnswer.listing.Legible ∧ ¬ fence <:+: text.toList ∧ w.Plain ∧
      ofModelText (" \n" ++ text ++ "\n") = .ok sampleAnswer ∧
      ofModelText (w.around text) = .ok sampleAnswer := by
  intro text w
  have hw : w.Plain := ⟨by decide, by decide, by decide, by decide, fun _ => by decide⟩
  have hdepth : sampleAnswer.listing.nesting ≤ maxDepth := by decide
  have hfence : ¬ fence <:+: text.toList := by decide +kernel
  obtain ⟨hblanks, hwrapped⟩ := recovers regular_sampleAnswer (.inr rfl) legible_sampleAnswer hdepth
    (.inl rfl) hfence
  exact ⟨regular_sampleAnswer, legible_sampleAnswer, hfence, hw,
    hblanks " \n" "\n" (by decide) (by decide), hwrapped w hw⟩

/-- An answer whose explanation is a fence is not read back from its text. -/
theorem recovers_not :
    let r : IntentResponse := ⟨"calculate", .object [("expression", .string "1+1")],
      String.ofList fence, none⟩
    r.Regular ∧ r.listing.Legible ∧ r.listing.nesting ≤ maxDepth ∧
      ofModelText (compact r.listing) = .error .unreadable := by
  intro r
  refine ⟨⟨?_, nofun⟩, nofun, by decide, ?_⟩
  · intro fields hfields
    rw [List.mem_singleton.1 (hfields : fields ∈ [[("expression", Json.string "1+1")]])]
    decide
  · -- of the text only its end is left, which is no JSON
    have hbody : stripFence (compact r.listing) = "\"\x7d" := by decide +kernel
    have hnone : Tree.read? "\"\x7d" = none := by
      rw [← Option.isNone_iff_eq_none]
      decide +kernel
    rw [ofModelText, hbody, decodeText, hnone]

end IntentResponse

end Chalkboard
