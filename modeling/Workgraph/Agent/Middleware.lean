import Workgraph.Graph.Description
import Workgraph.Host.Service
import Workgraph.Selector
/-!
# Middleware

Middleware augments an agent: it can offer tools, look at and edit the conversation at four points,
send the agent somewhere else, and wrap the calls of the model and of tools. The first one in order
is the outermost layer.

## Main definitions

- `AgentState`, `Jump`, `Hook`: what hooks see, and what they can ask for
- `Middleware`, `Middleware.passing`: a layer, and the layer that changes nothing
- `Chain`: layers in order, with `Chain.before`, `Chain.after`, `Chain.callModel`, `Chain.callTool`
- `attachments`: the middleware nodes attached to an agent, in order
- `instantiate`: the layers made from them
-/

namespace Workgraph

/-- Where a hook sends the agent. -/
inductive Jump where
  | model
  | tools
  | stop
deriving DecidableEq

def Jump.names : List (String × Jump) := [("model", .model), ("tools", .tools), ("end", .stop)]

/-- What hooks see and can edit: the conversation with the agent's own turns, the number of calls of
the model, and the state before the step. -/
structure AgentState where
  nodeKey : String
  messages : List Message
  iteration : Nat
  state : Snapshot

def AgentState.push (s : AgentState) (m : Message) : AgentState :=
  { s with messages := s.messages ++ [m] }

/-- Why middleware failed. -/
inductive MiddlewareError where
  | hook (middleware message : String)
  | factory (provider message : String)
deriving DecidableEq

namespace MiddlewareError

def message : MiddlewareError → String
  | hook middleware message => s!"middleware '{middleware}' failed: {message}"
  | factory provider message =>
    s!"middleware provider '{provider}' could not be created: {message}"

def fault (e : MiddlewareError) : Fault :=
  match e with
  | hook _ _ => .coded "Hook" e.message "agentweave::middleware::hook"
  | factory _ _ =>
    .advised "Factory" e.message "agentweave::middleware::factory"
      "Check the middleware node's options."

end MiddlewareError

/-- A hook edits the state of the agent and may send the agent somewhere else. -/
abbrev Hook (σ : Type) :=
  AgentState → Activity σ (AgentState × Except MiddlewareError (Option Jump))

/-- The hook that does nothing. -/
def Hook.idle {σ : Type} : Hook σ := fun s => pure (s, .ok none)

/-- A call of a tool, as layers pass it on. -/
abbrev ToolRun (σ : Type) := ToolCall → Activity σ (Except ToolError ToolOutput)

/-- A layer around an agent. -/
structure Middleware (σ : Type) where
  name : String
  tools : List (Tool σ)
  beforeAgent : Hook σ
  beforeModel : Hook σ
  afterModel : Hook σ
  afterAgent : Hook σ
  wrapModel : Model σ → Model σ
  wrapTool : String → ToolContext → ToolRun σ → ToolRun σ

/-- The layer that changes nothing. -/
def Middleware.passing {σ : Type} (name : String) : Middleware σ where
  name := name
  tools := []
  beforeAgent := Hook.idle
  beforeModel := Hook.idle
  afterModel := Hook.idle
  afterAgent := Hook.idle
  wrapModel := id
  wrapTool := fun _ _ => id

/-- The layers of an agent, the outermost one first. -/
abbrev Chain (σ : Type) := List (Middleware σ)

namespace Chain

variable {σ : Type}

/-- The tools that the layers offer. -/
def tools (c : Chain σ) : List (Tool σ) := c.flatMap (·.tools)

/-- Runs hooks one after the other until one of them jumps or fails. -/
def runHooks : List (Hook σ) → Hook σ
  | [], s => pure (s, .ok none)
  | h :: rest, s => do
    let (s, result) ← h s
    match result with
    | .ok none => runHooks rest s
    | result => pure (s, result)

/-- The hooks before the agent, in order. -/
def beforeAgent (c : Chain σ) : Hook σ := runHooks (c.map (·.beforeAgent))

/-- The hooks before a call of the model, in order. -/
def beforeModel (c : Chain σ) : Hook σ := runHooks (c.map (·.beforeModel))

/-- The hooks after a call of the model, the innermost one first. -/
def afterModel (c : Chain σ) : Hook σ := runHooks (c.reverse.map (·.afterModel))

/-- The hooks after the agent, the innermost one first. -/
def afterAgent (c : Chain σ) : Hook σ := runHooks (c.reverse.map (·.afterAgent))

/-- The model behind all layers. -/
def callModel (c : Chain σ) (model : Model σ) : Model σ :=
  c.foldr (fun m inner => m.wrapModel inner) model

/-- A tool behind all layers. -/
def callTool (c : Chain σ) (tool : Tool σ) (ctx : ToolContext) : ToolRun σ :=
  c.foldr (fun m inner => m.wrapTool tool.name ctx inner) (fun call => tool.invoke call ctx)

end Chain

/-- A middleware node as it is attached to an agent. -/
structure Attachment where
  key : String
  provider : Option String
  options : Json

namespace Attachment

/-- The attachment that a node stands for. -/
def ofNode (n : NodeSpec) : Attachment :=
  ⟨n.key, n.provider, (n.entity.field? "options").getD .null⟩

def toJson (a : Attachment) : Json :=
  .object [("key", .str a.key), ("provider", .text? a.provider), ("options", a.options)]

end Attachment

/-- The middleware nodes connected to an agent, each once, in the order of the connections. -/
def attachedNodes (g : Description) (agent : NodeSpec) : List NodeSpec :=
  let reached := (g.outgoing agent.key .workflow).filterMap fun l => g.node? l.targetKey
  (reached.filter (·.isMiddleware)).foldl
    (fun acc n => if acc.any (·.key == n.key) then acc else acc ++ [n]) []

/-- The order that an agent asks for, as keys of middleware nodes. -/
def statedOrder (agent : NodeSpec) : List String :=
  match agent.entity.select? "options.middlewares.order" with
  | some (.arr keys) => keys.filterMap Json.asText?
  | _ => []

/-- The middleware nodes attached to an agent: those in the stated order first, each once, then the
others in the order of the connections. -/
def attachments (g : Description) (agent : NodeSpec) : List Attachment :=
  let attached := attachedNodes g agent
  let listed := (distinct (statedOrder agent)).filterMap fun key => attached.find? (·.key == key)
  let others := attached.filter fun n => !listed.any (·.key == n.key)
  (listed ++ others).map Attachment.ofNode

/-- Makes a layer from the options of a middleware node. The site names the nodes around the layer,
the outermost one first, so that no two layers of a workflow have the same site. -/
abbrev MiddlewareFactory (σ : Type) :=
  List String → Json → Except MiddlewareError (Middleware σ)

/-- The layers made from attachments. Those without a known provider, and those that cannot be
made, are left out. -/
def instantiate {σ : Type} (factories : Table (MiddlewareFactory σ)) (site : List String)
    (as : List Attachment) : Chain σ :=
  as.filterMap fun a => do
    let provider ← a.provider
    let factory ← factories.get? provider
    (factory (site ++ [a.key]) a.options).toOption

end Workgraph
