import Workgraph.Agent.Middleware
import Workgraph.Node.Navigator
import Workgraph.Node.Registry
import Workgraph.State.Channel
/-!
# Plans of nodes

What a node of a description becomes when a graph is compiled, and what it is made from. A maker is
registered for each type of node; it sees the whole description and the services of the host, and it
can ask for the plan of another node.

## Main definitions

- `NodePlan`: what becomes of a node
- `BuildContext`, `Maker`: what a plan is made from, and how
- `Workshop`, `Workshop.build`: everything that is registered, and the plan of a node
-/

namespace Workgraph

/-- What becomes of a node: what it does, the channel that it owns, how it chooses where the run
continues, and the nodes that it may hand off to. -/
structure NodePlan (σ : Type) where
  run : Node σ
  channel : Option Channel
  navigator : Option Navigator
  handoffTargets : List String

namespace NodePlan

variable {σ : Type}

/-- The plan of a node that owns a channel and does nothing special. -/
def writing (run : Node σ) (channel : Channel) : NodePlan σ := ⟨run, some channel, none, []⟩

/-- The plan of a node that owns a channel and chooses where the run continues. -/
def routing (run : Node σ) (channel : Channel) (navigator : Navigator) : NodePlan σ :=
  ⟨run, some channel, some navigator, []⟩

end NodePlan

/-- What the plan of a node is made from: the node and its description, what the host offers, the
keys of the nodes around it (the node itself last), the number of turns that a loop may take, and
the plans of other nodes. -/
structure BuildContext (σ : Type) where
  node : NodeSpec
  graph : Description
  services : Services σ
  middleware : Table (MiddlewareFactory σ)
  site : List String
  patience : Nat
  planOf : NodeSpec → Except BuildError (NodePlan σ)

namespace BuildContext

variable {σ α : Type}

/-- The error of a node whose configuration is no good. -/
def invalid (ctx : BuildContext σ) (message : String) : BuildError :=
  .invalidConfig ctx.node.key message

/-- The provider that the node names. -/
def requireProvider (ctx : BuildContext σ) : Except BuildError String :=
  match ctx.node.provider with
  | some p => .ok p
  | none => .error (ctx.invalid "node requires a provider")

/-- The configuration of the node; null stands for the defaults. -/
def configuration (ctx : BuildContext σ) (d : Decoder α) (default : α) : Except BuildError α :=
  if ctx.node.entity.isNull then .ok default
  else (decodeValue d ctx.node.entity).mapError fun e => ctx.invalid e.message

end BuildContext

/-- The first name that occurs a second time; `seen` are the names so far. -/
def repeatedName? (seen : List String) : List String → Option String
  | [] => none
  | name :: rest => if seen.contains name then some name else repeatedName? (name :: seen) rest

/-- Makes the plans of the nodes of some type. -/
abbrev Maker (σ : Type) := BuildContext σ → Except BuildError (NodePlan σ)

/-- Everything that plans are made with. -/
structure Workshop (σ : Type) where
  makers : Registry (Maker σ)
  services : Services σ
  middleware : Table (MiddlewareFactory σ)
  patience : Nat

namespace Workshop

variable {σ : Type}

/-- The plan of a node. Makers may ask for the plans of other nodes, up to a depth. -/
def planAt (w : Workshop σ) (g : Description) :
    Nat → List String → NodeSpec → Except BuildError (NodePlan σ)
  | 0, _, n => .error (.invalidConfig n.key "nodes are nested without end")
  | depth + 1, site, n => do
    let maker ← w.makers.resolve n.typeKey
    let site := site ++ [n.key]
    maker ⟨n, g, w.services, w.middleware, site, w.patience, w.planAt g depth site⟩

/-- The plan of a node of a description. No node can be nested in more nodes than there are. -/
def build (w : Workshop σ) (g : Description) (site : List String) (n : NodeSpec) :
    Except BuildError (NodePlan σ) :=
  w.planAt g (g.nodes.length + 1) site n

end Workshop

end Workgraph
