import Chalkboard.Command.Wire
import Chalkboard.Proofs.Command.Check
import Chalkboard.Proofs.Json.Record

/-!
# Commands survive their wire form

The data of an intent can be read back from its JSON form, also after it was set aside because its
tag stands behind it (`Intent.decode_toJson`). With the check of the data this gives the codec of
commands: what was sent is what arrives, what arrives could have been made on the spot, and both
ways to make a command refuse the same intents with the same error.
-/

namespace Chalkboard

open Json

variable {τ : Type} [Source τ]

/-! ## Data of one variant -/

theorem decodeExpression_hold (h : Holder τ) (title expression : String) :
    decodeExpression title (h.hold (.object [("expression", .string expression)])) =
      .ok expression :=
  h.decodeVariant_hold (.value rfl (h.decodeString_hold expression) .nil) rfl

namespace Intent

/-- The data of an intent with finite numbers can be read back, wherever it is held. -/
theorem decodeData_hold (h : Holder τ) {i : Intent} (hi : ∀ x ∈ i.numbers, x.isFinite) :
    i.kind.decodeData (h.hold i.data) = .ok i := by
  cases i with
  | plotFunction expressions colors =>
    have hexpressions := h.decodeStrings_hold expressions
    have hcolors := h.decodeStrings_hold colors
    refine decoded_bind (a := (expressions, colors)) ?_ rfl
    -- without colors their field is left out, and reading starts with none
    cases colors with
    | nil => exact h.decodeVariant_hold (.value rfl hexpressions .nil) rfl
    | cons color colors =>
      exact h.decodeVariant_hold (.value rfl hcolors (.value rfl hexpressions .nil)) rfl
  | plotDerivative expression order =>
    have hexpression := h.decodeString_hold expression
    have horder := h.decodeUInt32_hold order
    refine decoded_bind (a := (expression, order)) ?_ rfl
    exact h.decodeVariant_hold (.value rfl hexpression (.value rfl horder .nil)) rfl
  | plotIntegral e => exact congrArg (Except.map _) (decodeExpression_hold h _ e)
  | solveAndPlot e => exact congrArg (Except.map _) (decodeExpression_hold h _ e)
  | findExtrema e => exact congrArg (Except.map _) (decodeExpression_hold h _ e)
  | convert e => exact congrArg (Except.map _) (decodeExpression_hold h _ e)
  | calculate e => exact congrArg (Except.map _) (decodeExpression_hold h _ e)
  | drawPoint x y name =>
    have hx := h.decodeFloat_hold (hi x (by simp [numbers]))
    have hy := h.decodeFloat_hold (hi y (by simp [numbers]))
    refine decoded_bind (a := (x, y, name)) ?_ rfl
    -- a name that is absent is left out as well
    cases name with
    | none => exact h.decodeVariant_hold (.value rfl hx (.value rfl hy .nil)) rfl
    | some name =>
      have hname := h.decodeOptionalString_hold name
      exact h.decodeVariant_hold (.value rfl hname (.value rfl hx (.value rfl hy .nil))) rfl
  | drawSegment start finish =>
    have hstart : decodePair (h.hold (pairToJson start)) = .ok start :=
      h.decodePair_hold (hi start.1 (by simp [numbers])) (hi start.2 (by simp [numbers]))
    have hfinish : decodePair (h.hold (pairToJson finish)) = .ok finish :=
      h.decodePair_hold (hi finish.1 (by simp [numbers])) (hi finish.2 (by simp [numbers]))
    refine decoded_bind (a := (start, finish)) ?_ rfl
    exact h.decodeVariant_hold (.value rfl hstart (.value rfl hfinish .nil)) rfl
  | drawCircle center radius =>
    have hcenter : decodePair (h.hold (pairToJson center)) = .ok center :=
      h.decodePair_hold (hi center.1 (by simp [numbers])) (hi center.2 (by simp [numbers]))
    have hradius := h.decodeFloat_hold (hi radius (by simp [numbers]))
    refine decoded_bind (a := (center, radius)) ?_ rfl
    exact h.decodeVariant_hold (.value rfl hcenter (.value rfl hradius .nil)) rfl
  | drawPolygon vertices =>
    have hvertices :
        decodeList decodePair (h.hold (.array (vertices.map pairToJson))) = .ok vertices := by
      apply h.decodeList_hold
      intro v hv
      apply h.decodePair_hold
      · exact hi v.1 (List.mem_flatMap.2 ⟨v, hv, by simp⟩)
      · exact hi v.2 (List.mem_flatMap.2 ⟨v, hv, by simp⟩)
    refine decoded_bind (a := vertices) ?_ rfl
    exact h.decodeVariant_hold (.value rfl hvertices .nil) rfl

/-! ## Intents -/

theorem find?_name (i : Intent) :
    IntentKind.names.find? (·.1 == i.name) = some (i.name, i.kind) := by
  have hkind (k : IntentKind) :
      IntentKind.names.find? (·.1 == k.name) = some (k.name, k) := by
    cases k <;> rfl
  exact hkind i.kind

/-- An intent with finite numbers can be read back from its JSON form. -/
theorem decode_toJson {i : Intent} (hi : ∀ x ∈ i.numbers, x.isFinite) :
    Intent.decode i.toJson = .ok i := by
  have hname := i.find?_name
  -- the data stands before the tag, so it is read from what was set aside
  have hdata := decodeData_hold (Holder.memory.setAside true) hi
  have hspelling : (⟨"Intent", "intent", "data"⟩ : TagSpelling).content ≠ "intent" := by decide
  exact Holder.memory.decodeTagged_hold hspelling rfl hname hdata

end Intent

/-! ## Commands on the wire -/

theorem RawCommand.decode_toJson (r : RawCommand) : RawCommand.decode r.toJson = .ok r := by
  obtain ⟨intent, data, explanation⟩ := r
  have hdata : decodeAny data = .ok data := rfl
  have hintent := Holder.memory.decodeString_hold intent
  cases explanation with
  | none =>
    exact Holder.memory.decodeRecord_hold (.value rfl hdata (.value rfl hintent .nil)) rfl
  | some explanation =>
    have hexplanation := Holder.memory.decodeOptionalString_hold explanation
    exact Holder.memory.decodeRecord_hold
      (.value rfl hdata (.value rfl hexplanation (.value rfl hintent .nil))) rfl

/-! ## Making commands -/

namespace Command

theorem new_eq_ok_iff {i : Intent} {c : Command} :
    Command.new i = .ok c ↔ i.check = .ok () ∧ c = ⟨i, none⟩ := by
  rw [Command.new]
  cases i.check with
  | error e => simp [bind, Except.bind]
  | ok _ => simp [bind, Except.bind, pure, Except.pure, eq_comm]

theorem new_eq_error_iff {i : Intent} {e : CommandError} :
    Command.new i = .error e ↔ i.check = .error e := by
  rw [Command.new]
  cases i.check with
  | error e => simp [bind, Except.bind]
  | ok _ => simp [bind, Except.bind, pure, Except.pure]

end Command

namespace RawCommand

/-- A command on the wire whose intent can be read is made like a command of that intent. -/
theorem toCommand_of_decode {r : RawCommand} {i : Intent} (hi : Intent.decode r.tagged = .ok i) :
    r.toCommand = (Command.new i).map ({ · with explanation := r.explanation }) := by
  have hintent : r.intent? = .ok i := by
    rw [intent?, hi]
    rfl
  have hcommand : r.toCommand = i.check >>= fun _ => .ok ⟨i, r.explanation⟩ := by
    rw [toCommand, hintent]
    rfl
  rw [hcommand, Command.new]
  cases i.check <;> rfl

/-- What a command on the wire is made into was read from it and passed the check. -/
theorem of_toCommand {r : RawCommand} {c : Command} (hc : r.toCommand = .ok c) :
    Intent.decode r.tagged = .ok c.intent ∧ c.intent.check = .ok () ∧
      c.explanation = r.explanation := by
  cases hi : Intent.decode r.tagged with
  | error e =>
    have hintent : r.intent? = .error (.malformed r.intent e.message) := by
      rw [intent?, hi]
      rfl
    rw [toCommand, hintent] at hc
    cases hc
  | ok i =>
    rw [toCommand_of_decode hi] at hc
    cases hnew : Command.new i with
    | error e =>
      rw [hnew] at hc
      cases hc
    | ok c' =>
      obtain ⟨hcheck, rfl⟩ := Command.new_eq_ok_iff.1 hnew
      rw [hnew] at hc
      cases hc
      exact ⟨rfl, hcheck, rfl⟩

end RawCommand

namespace Command

/-- Putting the tag beside the data of a command gives its intent as JSON. -/
theorem tagged_toRaw (c : Command) : c.toRaw.tagged = c.intent.toJson := by
  obtain ⟨intent, explanation⟩ := c
  cases intent <;> rfl

/-- A command comes back from the wire, with and without JSON on the way. -/
structure Returns (c : Command) : Prop where
  raw : c.toRaw.toCommand = .ok c
  json : RawCommand.decode c.toRaw.toJson = .ok c.toRaw
  both : Command.decode c.toJson = .ok c

/-- A command with a checked intent comes back. -/
theorem returns_of_check {c : Command} (hc : c.intent.check = .ok ()) : c.Returns := by
  -- of what the check demands only this is needed: other numbers have no form in JSON
  have hfinite := (Intent.check_eq_ok_iff.1 hc).isFinite
  have hdecode : Intent.decode c.toRaw.tagged = .ok c.intent := by
    rw [tagged_toRaw]
    exact Intent.decode_toJson hfinite
  have hraw : c.toRaw.toCommand = .ok c := by
    rw [RawCommand.toCommand_of_decode hdecode, new_eq_ok_iff.2 ⟨hc, rfl⟩]
    rfl
  have hjson := RawCommand.decode_toJson c.toRaw
  have hboth : Command.decode c.toJson = .ok c := by
    rw [Command.decode, toJson, hjson]
    show c.toRaw.toCommand.mapError _ = _
    rw [hraw]
    rfl
  exact ⟨hraw, hjson, hboth⟩

/-- Decoding undoes encoding, and both ways to make a command accept the same intents: a command
that was made from an intent comes back from the wire with its explanation; one that was made from
the wire could have been made from its intent, has the explanation that came with it, and comes back
as well; and where an intent can be read, both ways agree, down to the error. -/
theorem codec_agrees :
    (∀ (i : Intent) (explanation : Option String) (c : Command), Command.new i = .ok c →
      Returns { c with explanation }) ∧
    (∀ (r : RawCommand) (c : Command), r.toCommand = .ok c →
      Command.new c.intent = .ok ⟨c.intent, none⟩ ∧ c.explanation = r.explanation ∧ c.Returns) ∧
    ∀ (r : RawCommand) (i : Intent), Intent.decode r.tagged = .ok i →
      ((∃ c, r.toCommand = .ok c) ↔ ∃ c, Command.new i = .ok c) ∧
      ∀ e, Command.new i = .error e →
        r.toCommand = .error e ∧ ∃ field message, e = .invalid field message := by
  refine ⟨?_, ?_, ?_⟩
  · intro i explanation c hc
    obtain ⟨hcheck, rfl⟩ := new_eq_ok_iff.1 hc
    exact returns_of_check hcheck
  · intro r c hc
    obtain ⟨_, hcheck, hexplanation⟩ := RawCommand.of_toCommand hc
    exact ⟨new_eq_ok_iff.2 ⟨hcheck, rfl⟩, hexplanation, returns_of_check hcheck⟩
  · intro r i hi
    have hmade := RawCommand.toCommand_of_decode hi
    constructor
    · rw [hmade]
      cases Command.new i <;> simp [Except.map]
    · intro e he
      have hrefused := i.check_refuses e (new_eq_error_iff.1 he)
      rw [hmade, he]
      exact ⟨rfl, hrefused⟩

/-- Without an order the first derivative is asked for; order zero is refused both ways. -/
theorem codec_agrees_sample :
    let first : Intent := .plotDerivative "x^2" 1
    let zeroth : Intent := .plotDerivative "x^2" 0
    let refusal : CommandError := .invalid "order" "derivative order must be at least 1"
    let sent : RawCommand :=
      ⟨"plot_derivative", .object [("expression", .string "x^2")], some "slope"⟩
    let sentZeroth : RawCommand :=
      ⟨"plot_derivative", .object [("expression", .string "x^2"), ("order", Json.ofNat 0)], none⟩
    (Command.new first = .ok ⟨first, none⟩ ∧ Returns ⟨first, some "slope"⟩) ∧
    (sent.toCommand = .ok ⟨first, some "slope"⟩ ∧ Command.new first = .ok ⟨first, none⟩) ∧
    Command.new zeroth = .error refusal ∧ sentZeroth.toCommand = .error refusal := by
  intro first zeroth refusal sent sentZeroth
  have hnew : Command.new first = .ok ⟨first, none⟩ := rfl
  have hmade : sent.toCommand = .ok ⟨first, some "slope"⟩ := rfl
  have hread : Intent.decode sentZeroth.tagged = .ok zeroth := rfl
  have hrefused : Command.new zeroth = .error refusal := rfl
  refine ⟨⟨hnew, ?_⟩, ⟨hmade, ?_⟩, hrefused, ?_⟩
  · exact codec_agrees.1 first (some "slope") ⟨first, none⟩ hnew
  · exact (codec_agrees.2.1 sent ⟨first, some "slope"⟩ hmade).1
  · exact ((codec_agrees.2.2 sentZeroth zeroth hread).2 refusal hrefused).1

end Command

end Chalkboard
