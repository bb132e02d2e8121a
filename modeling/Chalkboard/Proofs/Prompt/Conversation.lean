import Chalkboard.Prompt.Client
import Chalkboard.Proofs.Command.Codec

/-!
# What a conversation remembers

A prompt that ends in a command leaves itself and the explanation of the command. One that fails
before there is a response leaves nothing; one whose response is refused as a command leaves its
exchange all the same, and every later prompt carries it along (`IntentClient.recorded`,
`IntentClient.recorded_refused`). What describes the scene is sent and never remembered.
-/

namespace Chalkboard

/-- A prompt with the elements of the scene, and what the service answers to it. -/
structure Prompted where
  prompt : String
  elements : List Element
  answer : ServiceAnswer

namespace Prompted

/-- There is a response, but it makes no command. -/
def Refused (p : Prompted) : Prop :=
  ∃ r e, IntentClient.responseOf p.answer = .ok r ∧ r.toCommand = .error e

/-- What the prompt leaves in the conversation. -/
def remembered (p : Prompted) : List ChatMessage :=
  match IntentClient.responseOf p.answer with
  | .error _ => []
  | .ok r => IntentClient.exchange p.prompt r

variable {p : Prompted}

theorem remembered_of_lost {e : SessionError} (h : IntentClient.responseOf p.answer = .error e) :
    p.remembered = [] := by
  rw [remembered, h]

theorem remembered_of_response {r : IntentResponse}
    (h : IntentClient.responseOf p.answer = .ok r) :
    p.remembered = IntentClient.exchange p.prompt r := by
  rw [remembered, h]

end Prompted

/-- A command has the explanation of its answer, unless that is empty. -/
theorem IntentResponse.explanation_of_toCommand {r : IntentResponse} {command : Command}
    (h : r.toCommand = .ok command) :
    command.explanation = if r.explanation.isEmpty then none else some r.explanation :=
  (RawCommand.of_toCommand h).2.2

namespace IntentClient

/-- An exchange is the prompt with the explanation of the command it ends in. -/
theorem exchange_of_toCommand (prompt : String) {r : IntentResponse} {command : Command}
    (h : r.toCommand = .ok command) :
    exchange prompt r =
      ⟨.user, prompt⟩ :: command.explanation.toList.map fun text => ⟨.assistant, text⟩ := by
  rw [exchange, IntentResponse.explanation_of_toCommand h]
  split
  · rfl
  · rfl

/-! ## One prompt -/

section Prompt

variable (c : IntentClient) (p : Prompted)

/-- The client behind a prompt. -/
def afterPrompt : IntentClient :=
  (c.commandFor p.prompt p.answer).1

/-- What the prompt ends in. -/
def outcome : Except SessionError Command :=
  (c.commandFor p.prompt p.answer).2

/-- The conversation grows by what is remembered. -/
theorem afterPrompt_eq :
    c.afterPrompt p = { c with history := c.history ++ p.remembered } := by
  rw [afterPrompt, commandFor, Prompted.remembered]
  cases responseOf p.answer with
  | error e => simp
  | ok r => rfl

theorem outcome_of_response {r : IntentResponse} (h : responseOf p.answer = .ok r) :
    c.outcome p = r.toCommand.mapError .command := by
  rw [outcome, commandFor, h]

/-- A prompt ends without a response, in a command, or in the refusal of its response. -/
theorem outcome_cases :
    (∃ e, responseOf p.answer = .error e ∧ c.outcome p = .error e) ∨
      (∃ r command, responseOf p.answer = .ok r ∧ r.toCommand = .ok command ∧
        c.outcome p = .ok command) ∨
      ∃ r e, responseOf p.answer = .ok r ∧ r.toCommand = .error e ∧
        c.outcome p = .error (.command e) := by
  cases hresponse : responseOf p.answer with
  | error e =>
    left
    refine ⟨e, rfl, ?_⟩
    rw [outcome, commandFor, hresponse]
  | ok r =>
    right
    rw [outcome_of_response c p hresponse]
    cases hcommand : r.toCommand with
    | ok command => exact .inl ⟨r, command, rfl, hcommand, rfl⟩
    | error e => exact .inr ⟨r, e, rfl, hcommand, rfl⟩

variable {c p}

/-- A command leaves the prompt and its explanation. -/
theorem afterPrompt_of_command {command : Command} (h : c.outcome p = .ok command) :
    (c.afterPrompt p).history =
        c.history ++
          ⟨.user, p.prompt⟩ :: command.explanation.toList.map (fun text => ⟨.assistant, text⟩) ∧
      command.explanation ≠ some "" := by
  rcases c.outcome_cases p with ⟨e, -, hlost⟩ | ⟨r, made, hresponse, hcommand, hmade⟩ |
    ⟨r, e, -, -, hrefused⟩
  · rw [h] at hlost
    cases hlost
  · rw [h] at hmade
    cases hmade
    constructor
    · rw [afterPrompt_eq, Prompted.remembered_of_response hresponse,
        exchange_of_toCommand p.prompt hcommand]
    · intro hempty
      rw [IntentResponse.explanation_of_toCommand hcommand] at hempty
      split at hempty
      · cases hempty
      · next hsome =>
        rw [Option.some.inj hempty] at hsome
        exact hsome rfl
  · rw [h] at hrefused
    cases hrefused

/-- What is refused fails as a command, and leaves its exchange. -/
theorem afterPrompt_of_refused {r : IntentResponse} {e : CommandError}
    (hresponse : responseOf p.answer = .ok r) (hrefused : r.toCommand = .error e) :
    c.outcome p = .error (.command e) ∧
      (c.afterPrompt p).history = c.history ++ exchange p.prompt r := by
  constructor
  · rw [outcome_of_response c p hresponse, hrefused]
    rfl
  · rw [afterPrompt_eq, Prompted.remembered_of_response hresponse]

/-- A prompt that fails leaves nothing exactly if it was not refused. -/
theorem afterPrompt_eq_self_iff {e : SessionError} (h : c.outcome p = .error e) :
    c.afterPrompt p = c ↔ ¬ p.Refused := by
  constructor
  · rintro hself ⟨r, refusal, hresponse, hrefused⟩
    -- an exchange holds its prompt at least
    have hgrown : c.history ++ exchange p.prompt r = c.history := by
      rw [← (afterPrompt_of_refused hresponse hrefused).2, hself]
    exact List.cons_ne_nil _ _ (List.append_right_eq_self.1 hgrown)
  · intro hrefused
    rcases c.outcome_cases p with ⟨e, hlost, -⟩ | ⟨r, command, -, -, hmade⟩ |
      ⟨r, refusal, hresponse, hcommand, -⟩
    · rw [afterPrompt_eq, Prompted.remembered_of_lost hlost, List.append_nil]
    · rw [h] at hmade
      cases hmade
    · exact absurd ⟨r, refusal, hresponse, hcommand⟩ hrefused

end Prompt

/-! ## A run of prompts -/

/-- The client behind a run of prompts. -/
def converse (c : IntentClient) (ps : List Prompted) : IntentClient :=
  ps.foldl afterPrompt c

/-- A run leaves what its prompts leave, in their order. -/
theorem converse_eq (c : IntentClient) (ps : List Prompted) :
    c.converse ps = { c with history := c.history ++ ps.flatMap Prompted.remembered } := by
  induction ps generalizing c with
  | nil => simp [converse]
  | cons p ps ih =>
    calc c.converse (p :: ps)
      _ = (c.afterPrompt p).converse ps := rfl
      _ = { c with history := c.history ++ (p :: ps).flatMap Prompted.remembered } := by
        rw [ih, afterPrompt_eq, List.flatMap_cons, List.append_assoc]

/-- After any conversation, a prompt travels with all that was remembered and, last, with the
elements of the scene. If it ends in a command, it and the explanation are remembered. If it fails,
the client stays as it was, except where there is a response that makes no command: that exchange is
remembered. -/
theorem recorded (c : IntentClient) (before : List Prompted) (p : Prompted) :
    let now := c.converse before
    now.request p.prompt p.elements =
        ⟨p.prompt, c.history ++ before.flatMap Prompted.remembered ++
          (sceneMessage? p.elements).toList⟩ ∧
      (∀ command, now.outcome p = .ok command →
        (now.afterPrompt p).history =
            now.history ++
              ⟨.user, p.prompt⟩ ::
                command.explanation.toList.map (fun text => ⟨.assistant, text⟩) ∧
          command.explanation ≠ some "") ∧
      (∀ e, now.outcome p = .error e → (now.afterPrompt p = now ↔ ¬ p.Refused)) ∧
      ∀ r e, responseOf p.answer = .ok r → r.toCommand = .error e →
        now.outcome p = .error (.command e) ∧
          (now.afterPrompt p).history = now.history ++ exchange p.prompt r := by
  intro now
  refine ⟨?_, ?_, ?_, ?_⟩
  · have hnow : now.history = c.history ++ before.flatMap Prompted.remembered :=
      congrArg history (converse_eq c before)
    rw [request, hnow]
  · intro command hcommand
    exact afterPrompt_of_command hcommand
  · intro e herror
    exact afterPrompt_eq_self_iff herror
  · intro r e hresponse hrefused
    exact afterPrompt_of_refused hresponse hrefused

/-- A prompt whose answer names an intent that there is none of. -/
def sampleRefused : Prompted :=
  ⟨"dance", [.freePoint ⟨"p"⟩ 0.5 2], .answered 200
    "\x7b\"intent\":\"dance\",\"data\":\x7b\x7d,\"explanation\":\"No.\"\x7d"⟩

/-- The sample fails, and yet it is remembered with its answer. -/
theorem recorded_refused :
    let c := IntentClient.new "http://localhost:8000"
    (∃ e, c.outcome sampleRefused = .error e) ∧
      c.history = [] ∧
      (c.afterPrompt sampleRefused).history = [⟨.user, "dance"⟩, ⟨.assistant, "No."⟩] := by
  intro c
  refine ⟨?_, rfl, by decide +kernel⟩
  have hfails : (c.outcome sampleRefused).toOption.isNone = true := by decide +kernel
  cases houtcome : c.outcome sampleRefused with
  | error e => exact ⟨e, rfl⟩
  | ok command =>
    rw [houtcome] at hfails
    cases hfails

/-- Behind the sample, a prompt that the service does not answer travels with its exchange and
leaves the client as it is. -/
theorem recorded_sample :
    let now := (IntentClient.new "http://localhost:8000").converse [sampleRefused]
    let p : Prompted := ⟨"1 + 1", [], .answered 500 ""⟩
    now.request p.prompt p.elements =
        ⟨"1 + 1", [⟨.user, "dance"⟩, ⟨.assistant, "No."⟩]⟩ ∧
      now.outcome p = .error (.http "HTTP status 500") ∧ ¬ p.Refused ∧ now.afterPrompt p = now := by
  intro now p
  obtain ⟨hrequest, -, huntouched, -⟩ :=
    recorded (IntentClient.new "http://localhost:8000") [sampleRefused] p
  have houtcome : now.outcome p = .error (.http "HTTP status 500") := rfl
  have hrefused : ¬ p.Refused := by
    rintro ⟨r, e, hresponse, -⟩
    cases hresponse
  exact ⟨hrequest.trans (by decide +kernel), houtcome, hrefused,
    (huntouched _ houtcome).2 hrefused⟩

end IntentClient

end Chalkboard
