import Workgraph.Agent.Loop
import Workgraph.Node.Plan
/-!
# Making agents

An agent of a description gets a transfer tool for each agent that it may hand off to, the tools of
its toolsets, and the layers attached to it with their tools. An agent that stands outside the
control flow and works for another agent returns control to it.

## Main definitions

- `AgentSetup`: the configuration of an agent
- `transferTools`, `toolsetTools`: the tools of an agent
- `returnsTo?`: the agent that control is returned to
- `agentMaker`: makes agents
-/

namespace Workgraph

/-- The configuration of an agent. -/
structure AgentSetup where
  model : String
  systemPrompt : Option String
  prompt : Option String
  maxIterations : Nat

namespace AgentSetup

/-- The number of calls of the model unless stated otherwise. -/
def defaultMaxIterations : Nat := 10

/-- The configuration in which nothing is stated. -/
def blank : AgentSetup := ⟨"", none, none, defaultMaxIterations⟩

def decoder : Decoder AgentSetup :=
  Record.decoder "AgentEntity" <|
    AgentSetup.mk
      <$> Record.defaulted "model" Decoder.text ""
      <*> Record.defaulted "systemPrompt" (Decoder.optional Decoder.text) none ["system_prompt"]
      <*> Record.defaulted "prompt" (Decoder.optional Decoder.text) none
      <*> Record.defaulted "maxIterations" Decoder.size defaultMaxIterations ["max_iterations"]

end AgentSetup

/-- The transfer tools of an agent, one for each agent that it may hand off to. -/
def transferTools (g : Description) (key : String) : List TransferTool :=
  (g.collaborators key).map fun c =>
    transferTool c.key c.displayName c.title ((c.entity.field? "description").bind Json.asText?)

variable {σ : Type}

/-- The tools of one toolset. -/
def toolsOf (ctx : BuildContext σ) (toolset : NodeSpec) : Except BuildError (List (Tool σ)) := do
  let some provider := toolset.provider
    | throw (ctx.invalid s!"toolset '{toolset.key}' has no provider")
  let make ← (Services.lookup ctx.services.toolsets "toolset" provider).mapError
    (.ofProvider toolset.typeKey)
  (make toolset.entity).mapError fun e => ctx.invalid e.message

/-- The tools of the toolsets that an agent is connected to. -/
def toolsetTools (ctx : BuildContext σ) : Except BuildError (List (Tool σ)) := do
  let toolsets := (ctx.graph.outgoing ctx.node.key .toolset).filterMap fun l =>
    ctx.graph.node? l.targetKey
  return (← toolsets.mapM (toolsOf ctx)).flatten

/-- Whether a node is part of the control flow. -/
def hasEdges (g : Description) (key : String) : Bool :=
  !(g.edgeTargets key).isEmpty || !(g.incoming key .edge).isEmpty

/-- The agent that an agent returns control to. Agents in the control flow return to nobody. -/
def returnsTo? (g : Description) (key : String) : Option Supervisor :=
  if hasEdges g key then none
  else (g.supervisor? key).map fun s => ⟨s.key, s.displayName⟩

/-- Makes agents. -/
def agentMaker : Maker σ := fun ctx => do
  let setup ← ctx.configuration AgentSetup.decoder .blank
  let key := ctx.node.key
  let some model := ctx.services.model
    | throw (.providerNotFound ctx.node.typeKey.text "model")
  let transfers := transferTools ctx.graph key
  let chain := instantiate ctx.middleware ctx.site (attachments ctx.graph ctx.node)
  let tools := transfers.map TransferTool.toTool ++ (← toolsetTools ctx) ++ chain.tools
  if let some name := repeatedName? [] (tools.map Tool.name) then
    throw (ctx.invalid s!"duplicate tool name '{name}'")
  let supervisor := returnsTo? ctx.graph key
  let agent : Agent σ :=
    { name := ctx.node.displayName
      modelName := setup.model
      model := model
      systemPrompt := setup.systemPrompt
      prompt := setup.prompt
      maxIterations := setup.maxIterations
      tools := tools
      chain := chain
      supervisor := supervisor }
  return {
    run := agent.node ctx.patience
    channel := some (.shallowMerge (channelName key))
    navigator := some (.ofErrors ctx.graph key)
    handoffTargets := appendNew (transfers.map (·.agentKey)) (supervisor.toList.map (·.key)) }

end Workgraph
