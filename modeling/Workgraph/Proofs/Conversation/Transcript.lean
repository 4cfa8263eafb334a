import Mathlib.Data.List.Forall2
import Workgraph.Conversation.Message
/-!
# Transcripts

Conversations that a model could be shown: every request for tools is followed at once by its
answers, one for each call and in the order of the calls. Two such conversations can be put one
behind the other.

## Main definitions

- `Message.Answers`: a message that answers a call
- `Transcript`: a conversation in which every request has been answered

## Main statements

- `Transcript.append`: one conversation behind another
- `Transcript.answered`, `Transcript.answered_exactly`: the answers behind a request
-/

namespace Workgraph

/-- A message answers a call: it is the result of a tool, under the identifier and the name of the
call. -/
structure Message.Answers (m : Message) (call : ToolCall) : Prop where
  role : m.hasRole Role.tool = true
  callId : m.toolCallId = some call.id
  name : m.name = some call.name

theorem Message.answer_answers (call : ToolCall) (content : String) :
    (Message.answer call content).Answers call :=
  ⟨beq_self_eq_true _, rfl, rfl⟩

/-- An answer asks for nothing. -/
theorem Message.Answers.hasToolCalls {m : Message} {call : ToolCall} (h : m.Answers call) :
    m.hasToolCalls = false := by
  have hrole : m.role = Role.tool := beq_iff_eq.mp h.role
  unfold Message.hasToolCalls Message.hasRole
  rw [hrole]
  rfl

/-- Messages that answer calls, one for each and in order. -/
def AnswersAll (calls : List ToolCall) (answers : List Message) : Prop :=
  List.Forall₂ (fun call m => m.Answers call) calls answers

theorem AnswersAll.hasRole {calls : List ToolCall} {answers : List Message}
    (h : AnswersAll calls answers) : ∀ m ∈ answers, m.hasRole Role.tool = true := by
  induction h with
  | nil => simp
  | cons hanswers _ ih =>
    intro m hm
    obtain rfl | hm := List.mem_cons.mp hm
    · exact hanswers.role
    · exact ih m hm

theorem answersAll_map (calls : List ToolCall) (content : String) :
    AnswersAll calls (calls.map fun call => .answer call content) := by
  induction calls with
  | nil => exact .nil
  | cons call rest ih => exact .cons (Message.answer_answers call content) ih

/-- A conversation in which every request for tools has been answered. What is said besides is of a
given form. -/
inductive Transcript (aside : Message → Prop) : List Message → Prop
  | nil : Transcript aside []
  | said {m : Message} {ms : List Message} (hs : aside m) (hm : m.hasToolCalls = false)
      (h : Transcript aside ms) : Transcript aside (m :: ms)
  | asked {m : Message} {answers ms : List Message} (hm : m.hasToolCalls = true)
      (ha : AnswersAll m.toolCalls answers) (h : Transcript aside ms) :
      Transcript aside (m :: (answers ++ ms))

namespace Transcript

variable {aside : Message → Prop} {m : Message} {ms more after answers : List Message}

/-- One conversation behind another. -/
theorem append (h : Transcript aside ms) (h' : Transcript aside more) :
    Transcript aside (ms ++ more) := by
  induction h with
  | nil => exact h'
  | said hs hm _ ih => exact .said hs hm ih
  | asked hm ha _ ih =>
    rw [List.cons_append, List.append_assoc]
    exact .asked hm ha ih

/-- A request with its answers. -/
theorem exchange (hm : m.hasToolCalls = true) (ha : AnswersAll m.toolCalls answers) :
    Transcript aside (m :: answers) := by
  have h : Transcript aside (m :: (answers ++ [])) := .asked hm ha .nil
  rwa [List.append_nil] at h

/-- A request behind answers is none of them. -/
theorem suffix_of_answers {calls : List ToolCall} (ha : AnswersAll calls answers)
    (hm : m.hasToolCalls = true) (h : m :: after <:+ answers ++ ms) : m :: after <:+ ms := by
  induction ha with
  | nil => exact h
  | cons hanswers _ ih =>
    obtain heq | h := List.suffix_cons_iff.mp h
    · obtain ⟨rfl, -⟩ := List.cons.inj heq
      rw [hanswers.hasToolCalls] at hm
      cases hm
    · exact ih h

/-- Behind a request stand its answers, and the conversation goes on behind them. -/
theorem answered (h : Transcript aside ms) (hsuffix : m :: after <:+ ms)
    (hm : m.hasToolCalls = true) :
    ∃ answers rest, after = answers ++ rest ∧ AnswersAll m.toolCalls answers ∧
      Transcript aside rest := by
  induction h with
  | nil => simp at hsuffix
  | said _ hsaid _ ih =>
    obtain heq | hsuffix := List.suffix_cons_iff.mp hsuffix
    · obtain ⟨rfl, -⟩ := List.cons.inj heq
      rw [hsaid] at hm
      cases hm
    · exact ih hsuffix
  | @asked m' answers ms _ ha hrest ih =>
    obtain heq | hsuffix := List.suffix_cons_iff.mp hsuffix
    · obtain ⟨rfl, rfl⟩ := List.cons.inj heq
      exact ⟨answers, ms, rfl, ha, hrest⟩
    -- Answers are no requests, so it stands behind those of the first one.
    · exact ih (suffix_of_answers ha hm hsuffix)

/-- If nothing that is said besides is the result of a tool, a conversation does not begin with one.
-/
theorem takeWhile_eq_nil (haside : ∀ m, aside m → m.hasRole Role.tool = false)
    (h : Transcript aside ms) : ms.takeWhile (·.hasRole Role.tool) = [] := by
  cases h with
  | nil => rfl
  | said hs _ _ => rw [List.takeWhile_cons_of_neg (by rw [haside _ hs]; decide)]
  | asked hm _ _ =>
    have hrole : Message.hasRole _ Role.assistant = true := (Bool.and_eq_true_iff.mp hm).1
    rw [List.takeWhile_cons_of_neg]
    unfold Message.hasRole at hrole ⊢
    rw [beq_iff_eq.mp hrole]
    decide

/-- If nothing that is said besides is the result of a tool, the results of tools behind a request
are exactly its answers. -/
theorem answered_exactly (haside : ∀ m, aside m → m.hasRole Role.tool = false)
    (h : Transcript aside ms) (hsuffix : m :: after <:+ ms) (hm : m.hasToolCalls = true) :
    AnswersAll m.toolCalls (after.takeWhile (·.hasRole Role.tool)) := by
  obtain ⟨answers, rest, rfl, ha, hrest⟩ := h.answered hsuffix hm
  rw [List.takeWhile_append_of_pos ha.hasRole, takeWhile_eq_nil haside hrest, List.append_nil]
  exact ha

end Transcript

end Workgraph
