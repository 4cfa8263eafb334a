import Workgraph.Proofs.Conversation.Transcript
import Workgraph.Proofs.Node.Silent
import Workgraph.Proofs.Run.Routing
/-!
# What agents say

An agent without layers answers every request of its model. The answers up to a transfer stand among
its own messages, and the answer to the transfer and the notices behind it stand among those of the
transfer, so that the two together are a transcript.

## Main definitions

- `Tool.Acknowledges`: tools whose transfers answer the call that asked for them
- `Agent.Fit`: agents without layers, with such tools

## Main statements

- `Agent.runCalls_gives`: all calls of a request are answered
- `Agent.node_gives`: what an agent adds to the conversation is a transcript
-/

namespace Workgraph

variable {σ : Type}

open Activity

/-- A tool does not transfer, or the messages of its transfers are the answer to the call. -/
def Tool.Acknowledges (t : Tool σ) : Prop :=
  ∀ call ctx, call.name = t.name → (t.invoke call ctx).Gives fun result =>
    ∀ signal, result = .ok (.handoff signal) → AnswersAll [call] signal.messages

theorem TransferTool.acknowledges (t : TransferTool) : (t.toTool : Tool σ).Acknowledges := by
  rintro call ctx hname world signal h
  cases h
  exact .cons ⟨beq_self_eq_true _, rfl, congrArg some hname.symm⟩ .nil

namespace Agent

/-- An agent without layers, whose transfers answer the calls that asked for them, and whose model
says only what is allowed. -/
structure Fit (a : Agent σ) (aside : Message → Prop) : Prop where
  chain : a.chain = []
  tools : ∀ t ∈ a.tools, t.Acknowledges
  replies : ∀ request, (a.model request).Gives fun result =>
    ∀ reply, result = .ok reply → aside reply
  prompts : ∀ text, aside (.user text)

namespace Fit

variable {a : Agent σ} {aside : Message → Prop} (hfit : a.Fit aside)

include hfit

theorem runCall_gives (ctx : NodeContext) (toolCtx : ToolContext) (call : ToolCall) :
    (a.runCall ctx toolCtx call).Gives fun out =>
      ∀ signal, out = .handoff signal → AnswersAll [call] signal.messages := by
  unfold runCall
  refine .after _ fun _ => ?_
  cases ht : a.tool? call.name with
  | none => exact .after _ fun _ => .pure nofun
  | some tool =>
    have hname : tool.name = call.name := by simpa using List.find?_some ht
    have hinvoke := hfit.tools tool (List.mem_of_find?_eq_some ht) call toolCtx hname.symm
    unfold Chain.callTool
    rw [hfit.chain]
    refine .bind hinvoke ?_
    rintro (e | out) hout
    · exact .after _ fun _ => .pure nofun
    · refine .after _ fun _ => .pure ?_
      rintro signal rfl
      exact hout signal rfl

/-- All calls of a request are answered, by the agent or with the transfer. -/
theorem runCalls_gives (ctx : NodeContext) (toolCtx : ToolContext) (calls : List ToolCall) :
    (a.runCalls ctx toolCtx calls).Gives fun result =>
      AnswersAll calls (result.1 ++ (result.2.map (·.messages)).getD []) := by
  induction calls with
  | nil => exact .pure .nil
  | cons call rest ih =>
    unfold runCalls
    refine .bind (hfit.runCall_gives ctx toolCtx call) ?_
    rintro (text | signal) hout
    · refine .bind ih ?_
      rintro ⟨answers, signal⟩ hrest
      exact .pure (.cons (Message.answer_answers call text) hrest)
    · refine .pure ?_
      -- The transfer answers its own call, and its notices answer those behind it.
      show AnswersAll ([call] ++ rest) (signal.messages ++ _)
      exact List.rel_append (hout signal rfl) (answersAll_map rest skippedNotice)

end Fit

/-! ## The loop -/

/-- What an agent has added to a conversation is a transcript, together with the messages of a
transfer. -/
def Says (aside : Message → Prop) (inherited : List Message) (s : AgentState)
    (more : List Message) : Prop :=
  ∃ own, s.messages = inherited ++ own ∧ Transcript aside (own ++ more)

/-- What an agent has added is a transcript up to a request that it has just made. -/
def Asks (aside : Message → Prop) (inherited : List Message) (s : AgentState) : Prop :=
  ∃ own request, s.messages = inherited ++ (own ++ [request]) ∧ Transcript aside own ∧
    request.hasToolCalls = true

/-- What is known of what an agent has added at the end of its loop. -/
def EndsSaying (aside : Message → Prop) (inherited : List Message) (s : AgentState) :
    LoopEnd → Prop
  | .done => Says aside inherited s []
  | .handoff signal => Says aside inherited s signal.messages
  | _ => True

/-- What is known of what an agent has added behind a turn. -/
def TurnsSaying (aside : Message → Prop) (inherited : List Message) (s : AgentState) :
    TurnEnd → Prop
  | .ended e => EndsSaying aside inherited s e
  | .again jump => jump = none ∧ Says aside inherited s []

namespace Fit

variable {a : Agent σ} {aside : Message → Prop} (hfit : a.Fit aside)
  {inherited : List Message} {s : AgentState}

include hfit

theorem toolsTurn_gives (ctx : NodeContext) (toolCtx : ToolContext) (hs : Asks aside inherited s) :
    (a.toolsTurn ctx toolCtx s).Gives fun result =>
      TurnsSaying aside inherited result.1 result.2 := by
  obtain ⟨own, request, hmessages, hown, hrequest⟩ := hs
  -- The request is still the last message, so its calls are those that are pending.
  have hcalls : pendingCalls s.messages = request.toolCalls := by
    unfold pendingCalls
    rw [hmessages, ← List.append_assoc, List.getLast?_concat]
    exact if_pos (Bool.and_eq_true_iff.mp hrequest).1
  unfold toolsTurn
  refine .bind (hfit.runCalls_gives ctx toolCtx _) ?_
  rintro ⟨answers, signal⟩ hall
  rw [hcalls] at hall
  have hsaid : Says aside inherited { s with messages := s.messages ++ answers }
      ((signal.map (·.messages)).getD []) := by
    refine ⟨own ++ request :: answers, ?_, ?_⟩
    · rw [hmessages]
      simp
    · rw [List.append_assoc, List.cons_append]
      exact hown.append (.exchange hrequest hall)
  cases signal with
  | none => exact .pure ⟨rfl, hsaid⟩
  | some signal => exact .pure hsaid

theorem beforeModel (s : AgentState) : a.chain.beforeModel s = pure (s, .ok none) := by
  rw [hfit.chain]
  rfl

theorem afterModel (s : AgentState) : a.chain.afterModel s = pure (s, .ok none) := by
  rw [hfit.chain]
  rfl

theorem callModel_gives (system : Option Message) (hs : Says aside inherited s []) :
    (a.callModel system s).Gives fun result => result.2 = .ok () →
      ∃ own reply, result.1.messages = inherited ++ (own ++ [reply]) ∧ Transcript aside own ∧
        aside reply := by
  obtain ⟨own, hmessages, hown⟩ := hs
  rw [List.append_nil] at hown
  unfold callModel
  by_cases hcap : a.maxIterations ≤ s.iteration
  · rw [if_pos hcap]
    exact .pure nofun
  · rw [if_neg hcap, hfit.chain]
    refine .bind (hfit.replies _) ?_
    rintro (e | reply) hreply
    · exact .pure nofun
    · refine .pure fun _ => ⟨own, reply, ?_, hown, hreply reply rfl⟩
      show s.messages ++ [reply] = _
      rw [hmessages, List.append_assoc]

/-- What follows a call of the model, as far as the conversation is concerned. -/
theorem afterReply_gives {own : List Message} {reply : Message}
    (hmessages : s.messages = inherited ++ (own ++ [reply])) (hown : Transcript aside own)
    (hreply : aside reply) :
    (a.afterReply s).Gives fun result => match result.2 with
      | .tools => Asks aside inherited result.1
      | .turn e => TurnsSaying aside inherited result.1 e := by
  unfold afterReply
  rw [hfit.afterModel, pure_bind]
  dsimp only
  rw [show s.messages.getLast? = some reply by
    rw [hmessages, ← List.append_assoc, List.getLast?_concat]]
  cases hcalls : reply.hasToolCalls with
  | true =>
    rw [if_pos (by simpa using hcalls)]
    exact .pure ⟨own, reply, hmessages, hown, hcalls⟩
  | false =>
    rw [if_neg (by simpa using hcalls)]
    refine .pure ⟨own ++ [reply], hmessages, ?_⟩
    rw [List.append_nil]
    exact hown.append (.said hreply hcalls .nil)

theorem modelTurn_gives (system : Option Message) (hs : Says aside inherited s []) :
    (a.modelTurn system s).Gives fun result => match result.2 with
      | .tools => Asks aside inherited result.1
      | .turn e => TurnsSaying aside inherited result.1 e := by
  unfold modelTurn
  rw [hfit.beforeModel, pure_bind]
  refine .bind (hfit.callModel_gives system hs) ?_
  rintro ⟨s, e | _⟩ hcalled
  · exact .pure trivial
  · obtain ⟨own, reply, hmessages, hown, hreply⟩ := hcalled rfl
    exact hfit.afterReply_gives hmessages hown hreply

theorem turn_gives (system : Option Message) (ctx : NodeContext) (toolCtx : ToolContext)
    (hs : Says aside inherited s []) :
    (a.turn system ctx toolCtx none s).Gives fun result =>
      TurnsSaying aside inherited result.1 result.2 := by
  unfold turn
  refine .after _ fun cancelled => ?_
  cases cancelled with
  | true => exact .pure trivial
  | false =>
    refine .bind (hfit.modelTurn_gives system hs) ?_
    rintro ⟨s, _ | e⟩ hturn
    · exact hfit.toolsTurn_gives ctx toolCtx hturn
    · exact .pure hturn

theorem loop_gives (system : Option Message) (ctx : NodeContext) (toolCtx : ToolContext)
    (turns : Nat) (hs : Says aside inherited s []) :
    (a.loop system ctx toolCtx turns none s).Gives fun result =>
      EndsSaying aside inherited result.1 result.2 := by
  induction turns generalizing s with
  | zero => exact .pure trivial
  | succ turns ih =>
    unfold loop
    refine .bind (hfit.turn_gives system ctx toolCtx hs) ?_
    rintro ⟨s, e | jump⟩ hturn
    · exact .pure hturn
    · obtain ⟨rfl, hs⟩ := hturn
      exact ih hs

theorem run_gives (patience : Nat) (system : Option Message) (ctx : NodeContext)
    (toolCtx : ToolContext) (hs : Says aside inherited s []) :
    (a.run patience system ctx toolCtx s).Gives fun result =>
      EndsSaying aside inherited result.1 result.2 := by
  unfold run
  rw [show a.chain.beforeAgent s = pure (s, .ok none) by rw [hfit.chain]; rfl, pure_bind]
  exact hfit.loop_gives system ctx toolCtx patience hs

end Fit

/-- A return to a supervisor is a request with its answer. -/
theorem returnMessages_transcript (aside : Message → Prop) (callId agentName : String)
    (supervisorName : Option String) :
    Transcript aside [(returnMessages callId agentName supervisorName).1,
      (returnMessages callId agentName supervisorName).2] :=
  .exchange rfl (.cons ⟨beq_self_eq_true _, rfl, rfl⟩ .nil)

theorem fail_gives (aside : Message → Prop) (ctx : NodeContext) (message : String) :
    (fail ctx message : Activity σ (Except NodeError NodeOutput)).Gives fun result =>
      ∀ out, result = .ok out → Transcript aside out.said := by
  refine .after _ fun _ => .pure ?_
  intro out hout
  cases hout
  exact .nil

theorem returnSignal_gives (a : Agent σ) (aside : Message → Prop) :
    a.returnSignal.Gives fun signal => Transcript aside ((signal.map (·.messages)).getD []) := by
  unfold returnSignal
  cases a.supervisor with
  | none => exact .pure .nil
  | some supervisor =>
    refine .after _ fun callId => .pure ?_
    exact returnMessages_transcript aside callId a.name (some supervisor.name)

namespace Fit

variable {a : Agent σ} {aside : Message → Prop} (hfit : a.Fit aside)

include hfit

theorem conclude_gives (ctx : NodeContext) {inherited : List Message} {signal : Option Handoff}
    {s : AgentState} (hs : Says aside inherited s ((signal.map (·.messages)).getD [])) :
    (a.conclude ctx inherited.length signal s).Gives fun result =>
      ∀ out, result = .ok out → Transcript aside out.said := by
  obtain ⟨own, hmessages, hown⟩ := hs
  -- What the agent gives back is what it has added, without what it had found.
  have hdrop : s.messages.drop inherited.length = own := by
    rw [hmessages, List.drop_left]
  unfold conclude
  rw [show a.chain.afterAgent s = pure (s, .ok none) by rw [hfit.chain]; rfl, pure_bind]
  dsimp only
  rw [hdrop]
  cases signal with
  | some signal =>
    refine .pure ?_
    intro out hout
    cases hout
    exact hown
  | none =>
    refine .bind (a.returnSignal_gives aside) fun signal hsignal => .pure ?_
    intro out hout
    cases hout
    rw [show ((none : Option Handoff).map (·.messages)).getD [] = [] from rfl,
      List.append_nil] at hown
    exact hown.append hsignal

/-- What an agent gives back adds a transcript to the conversation. -/
theorem node_gives (patience : Nat) (ctx : NodeContext) (s : Snapshot) :
    (a.node patience ctx s).Gives fun result =>
      ∀ out, result = .ok out → Transcript aside out.said := by
  have hopening : Says aside s.messages ⟨ctx.nodeKey, a.opening s, 0, s⟩ [] := by
    refine ⟨_, rfl, ?_⟩
    rw [List.append_nil]
    cases a.prompt with
    | none => exact .nil
    | some prompt => exact .said (hfit.prompts _) rfl .nil
  unfold node
  refine .bind (hfit.run_gives patience _ ctx _ hopening) ?_
  rintro ⟨state, e⟩ hend
  cases e with
  | done => exact hfit.conclude_gives ctx hend
  | handoff signal => exact hfit.conclude_gives ctx hend
  | failed message => exact fail_gives aside ctx message
  | cancelled => exact .pure nofun
  | endless => exact .pure nofun

end Fit

end Agent

/-! ## Making agents -/

/-- No tool of a toolset transfers. -/
def Services.KeepControl (services : Services σ) : Prop :=
  ∀ name make, services.toolsets.get? name = some make → ∀ entity tools, make entity = .ok tools →
    ∀ t ∈ tools, ∀ call ctx, (t.invoke call ctx).Gives fun result =>
      ∀ signal, result ≠ .ok (.handoff signal)

/-- The model of the host, if there is one, says only what is allowed. -/
def Services.Replies (services : Services σ) (aside : Message → Prop) : Prop :=
  ∀ model, services.model = some model → ∀ request, (model request).Gives fun result =>
    ∀ reply, result = .ok reply → aside reply

section Making

variable {ctx : BuildContext σ}

theorem toolsetTools_acknowledge (hkeep : ctx.services.KeepControl) {tools : List (Tool σ)}
    (h : toolsetTools ctx = .ok tools) : ∀ t ∈ tools, t.Acknowledges := by
  intro t ht call toolCtx _ world signal hsignal
  obtain ⟨l, -, -, toolset, group, -, hmade, ht⟩ := exists_toolset h ht
  obtain ⟨provider, make, -, hget, htools⟩ := toolsOf_eq_ok hmade
  exact absurd hsignal (hkeep provider make hget toolset.entity group htools t ht call toolCtx world
    signal)

/-- An agent to which no middleware is attached is fit. -/
theorem Agent.MadeFrom.fit {a : Agent σ} (hmade : a.MadeFrom ctx) {aside : Message → Prop}
    (hattach : attachments ctx.graph ctx.node = []) (hkeep : ctx.services.KeepControl)
    (hreplies : ctx.services.Replies aside) (hprompts : ∀ text, aside (.user text)) :
    a.Fit aside := by
  obtain ⟨tools, htools, hall⟩ := hmade.tools
  have hnil : a.chain = [] := by
    rw [hmade.chain, hattach]
    rfl
  refine ⟨hnil, ?_, hreplies a.model hmade.model, hprompts⟩
  intro t ht
  rw [hall, hnil] at ht
  obtain ht | ht := List.mem_append.mp ht
  · obtain ht | ht := List.mem_append.mp ht
    · obtain ⟨transfer, -, rfl⟩ := List.mem_map.mp ht
      exact transfer.acknowledges
    · exact toolsetTools_acknowledge hkeep htools t ht
  · cases ht

end Making

end Workgraph
