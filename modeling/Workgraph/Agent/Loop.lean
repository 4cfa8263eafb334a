import Workgraph.Agent.Middleware
import Workgraph.Agent.Transfer
import Workgraph.Template
/-!
# The loop of an agent

An agent calls its model, runs the tools that the model asks for, and goes on like this until the
model asks for none, a tool hands control to another agent, a hook ends the agent, or the model has
been called too often. Nothing in the agent itself bounds the number of turns if hooks keep sending
it around, so the loop takes a number of turns after which it is given up.

## Main definitions

- `Agent`: the parts of an agent
- `Agent.runCalls`: the tools that a message asks for
- `Agent.modelTurn`, `Agent.turn`, `Agent.loop`: one call of the model, one turn, all turns
- `Agent.node`: the agent as a node
-/

namespace Workgraph

/-- The agent that another agent returns control to. -/
structure Supervisor where
  key : String
  name : String

/-- The parts of an agent. The tools include those of the layers around it. -/
structure Agent (σ : Type) where
  name : String
  modelName : String
  model : Model σ
  systemPrompt : Option String
  prompt : Option String
  maxIterations : Nat
  tools : List (Tool σ)
  chain : Chain σ
  supervisor : Option Supervisor

/-- How the loop of an agent ends: at rest, with a transfer, with a failure that the graph can deal
with, because the run is cancelled, or because it is given up. -/
inductive LoopEnd where
  | done
  | handoff (signal : Handoff)
  | failed (message : String)
  | cancelled
  | endless

/-- What follows a turn: the end, or another turn, with or without a jump. -/
inductive TurnEnd where
  | ended (e : LoopEnd)
  | again (jump : Option Jump)

/-- What follows a call of the model: the tools that it asks for, or the end of the turn. -/
inductive ModelTurnEnd where
  | tools
  | turn (e : TurnEnd)

namespace Agent

variable {σ : Type}

/-- The answer to calls behind a transfer. -/
def skippedNotice : String := "Skipped: control was handed off to another agent."

/-- The first tool with a given name. -/
def tool? (a : Agent σ) (name : String) : Option (Tool σ) := a.tools.find? (·.name == name)

/-- The next call of the model. -/
def request (a : Agent σ) (system : Option Message) (messages : List Message) : ModelRequest :=
  ⟨a.modelName, system.toList ++ messages, a.tools.map (·.spec)⟩

/-- Reports a phase of a tool call. -/
def sayCall (ctx : NodeContext) (call : ToolCall) (phase : ToolPhase) (message : Option String) :
    Activity σ Unit :=
  ctx.report fun t => .toolCall ⟨ctx.nodeKey, ctx.step, call.name, call.id, phase, message, t⟩

/-- Runs one call: the text that answers it, or a transfer. -/
def runCall (a : Agent σ) (ctx : NodeContext) (toolCtx : ToolContext) (call : ToolCall) :
    Activity σ ToolOutput := do
  sayCall ctx call .started none
  match a.tool? call.name with
  | none =>
    let message := s!"Error: tool '{call.name}' is not available"
    sayCall ctx call .failed (some message)
    return .content message
  | some tool =>
    match ← a.chain.callTool tool toolCtx call with
    | .ok out =>
      sayCall ctx call .ended none
      return out
    | .error e =>
      let message := "Error: " ++ e.message
      sayCall ctx call .failed (some message)
      return .content message

/-- Runs calls in order: the answers, and the transfer if there is one. Calls behind a transfer are
not run; the transfer answers them with a notice. -/
def runCalls (a : Agent σ) (ctx : NodeContext) (toolCtx : ToolContext) :
    List ToolCall → Activity σ (List Message × Option Handoff)
  | [] => return ([], none)
  | call :: rest => do
    match ← a.runCall ctx toolCtx call with
    | .content text =>
      let (answers, signal) ← runCalls a ctx toolCtx rest
      return (.answer call text :: answers, signal)
    | .handoff signal =>
      let skipped := rest.map fun c => Message.answer c skippedNotice
      return ([], some { signal with messages := signal.messages ++ skipped })

/-- The calls that the last message asks for. -/
def pendingCalls (messages : List Message) : List ToolCall :=
  match messages.getLast? with
  | some m => if m.hasRole Role.assistant then m.toolCalls else []
  | none => []

/-- Runs the tools that the last message asks for. -/
def toolsTurn (a : Agent σ) (ctx : NodeContext) (toolCtx : ToolContext) (s : AgentState) :
    Activity σ (AgentState × TurnEnd) := do
  let (answers, signal) ← a.runCalls ctx toolCtx (pendingCalls s.messages)
  let s := { s with messages := s.messages ++ answers }
  match signal with
  | some h => return (s, .ended (.handoff h))
  | none => return (s, .again none)

/-- Calls the model, unless it has been called too often. -/
def callModel (a : Agent σ) (system : Option Message) (s : AgentState) :
    Activity σ (AgentState × Except String Unit) := do
  if a.maxIterations ≤ s.iteration then
    return (s, .error s!"agent exceeded max iterations ({a.maxIterations})")
  let s := { s with iteration := s.iteration + 1 }
  match ← a.chain.callModel a.model (a.request system s.messages) with
  | .ok reply => return (s.push reply, .ok ())
  | .error e => return (s, .error e.message)

/-- What follows the hooks behind a call of the model. -/
def afterReply (a : Agent σ) (s : AgentState) : Activity σ (AgentState × ModelTurnEnd) := do
  let (s, hooked) ← a.chain.afterModel s
  match hooked with
  | .error e => return (s, .turn (.ended (.failed e.message)))
  | .ok (some jump) => return (s, .turn (.again (some jump)))
  | .ok none =>
    if s.messages.getLast?.any (·.hasToolCalls) then return (s, .tools)
    else return (s, .turn (.ended .done))

/-- One call of the model with the hooks around it. -/
def modelTurn (a : Agent σ) (system : Option Message) (s : AgentState) :
    Activity σ (AgentState × ModelTurnEnd) := do
  let (s, hooked) ← a.chain.beforeModel s
  match hooked with
  | .error e => return (s, .turn (.ended (.failed e.message)))
  | .ok (some .stop) => return (s, .turn (.ended .done))
  | .ok (some .tools) => return (s, .turn (.again (some .tools)))
  | .ok _ =>
    match ← a.callModel system s with
    | (s, .error message) => return (s, .turn (.ended (.failed message)))
    | (s, .ok ()) => a.afterReply s

/-- One turn, which begins as a jump says. -/
def turn (a : Agent σ) (system : Option Message) (ctx : NodeContext) (toolCtx : ToolContext)
    (jump : Option Jump) (s : AgentState) : Activity σ (AgentState × TurnEnd) := do
  if ← Activity.isCancelled then return (s, .ended .cancelled)
  match jump with
  | some .stop => return (s, .ended .done)
  | some .tools => a.toolsTurn ctx toolCtx s
  | _ =>
    match ← a.modelTurn system s with
    | (s, .turn e) => return (s, e)
    | (s, .tools) => a.toolsTurn ctx toolCtx s

/-- Turn after turn, up to a number of turns. -/
def loop (a : Agent σ) (system : Option Message) (ctx : NodeContext) (toolCtx : ToolContext) :
    Nat → Option Jump → AgentState → Activity σ (AgentState × LoopEnd)
  | 0, _, s => return (s, .endless)
  | turns + 1, jump, s => do
    match ← a.turn system ctx toolCtx jump s with
    | (s, .ended e) => return (s, e)
    | (s, .again jump) => loop a system ctx toolCtx turns jump s

/-- The hooks before the agent and then the loop. -/
def run (a : Agent σ) (patience : Nat) (system : Option Message) (ctx : NodeContext)
    (toolCtx : ToolContext) (s : AgentState) : Activity σ (AgentState × LoopEnd) := do
  let (s, hooked) ← a.chain.beforeAgent s
  match hooked with
  | .error e => return (s, .failed e.message)
  | .ok jump => a.loop system ctx toolCtx patience jump s

/-- The last text of a model in a conversation. -/
def lastText (messages : List Message) : String :=
  match messages.reverse.find? fun m => m.hasRole Role.assistant && !m.content.isEmpty with
  | some m => m.content
  | none => ""

/-- What is written behind an agent that did not fail. -/
def report (output : String) : Json :=
  .object [("output", .str output), (Channel.errorField, .null)]

/-- Reports a failure that the graph can deal with. -/
def fail (ctx : NodeContext) (message : String) : Activity σ (Except NodeError NodeOutput) := do
  ctx.report fun t => .error ⟨some ctx.nodeKey, ctx.step, message, t⟩
  return .ok (.failure message)

/-- The transfer back to the supervisor, if there is one. -/
def returnSignal (a : Agent σ) : Activity σ (Option Handoff) := do
  match a.supervisor with
  | none => return none
  | some supervisor =>
    let (request, answer) := returnMessages (← Activity.drawCallId) a.name (some supervisor.name)
    return some ⟨supervisor.key, [request, answer]⟩

/-- What an agent gives back. `inherited` messages were there before. -/
def conclude (a : Agent σ) (ctx : NodeContext) (inherited : Nat) (signal : Option Handoff)
    (s : AgentState) : Activity σ (Except NodeError NodeOutput) := do
  let (s, hooked) ← a.chain.afterAgent s
  match hooked with
  | .error e => fail ctx e.message
  | .ok _ =>
    let signal ← match signal with
      | some h => pure (some h)
      | none => a.returnSignal
    return .ok ⟨some (report (lastText s.messages)), some (s.messages.drop inherited), signal, none⟩

/-- The conversation that an agent begins with: the history, and its prompt if it has one. -/
def opening (a : Agent σ) (s : Snapshot) : List Message :=
  s.messages ++ (a.prompt.map fun t => Message.user (renderTemplate t s.parameters)).toList

/-- The agent as a node. -/
def node (a : Agent σ) (patience : Nat) : Node σ := fun ctx s => do
  let system := a.systemPrompt.map fun t => Message.system (renderTemplate t s.parameters)
  let start : AgentState := ⟨ctx.nodeKey, a.opening s, 0, s⟩
  let (state, e) ← a.run patience system ctx ⟨ctx.nodeKey, ctx.step, s⟩ start
  match e with
  | .failed message => fail ctx message
  | .cancelled => return .error .cancelled
  | .endless => return .error .endless
  | .done => a.conclude ctx s.messages.length none state
  | .handoff h => a.conclude ctx s.messages.length (some h) state

end Agent

end Workgraph
