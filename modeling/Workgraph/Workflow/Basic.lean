import Workgraph.Node.Plan
/-!
# Workflows

What a description becomes when it is fit to run: the nodes that run, with everything that is known
about their surroundings, the channels, and the nodes to begin with.

## Main definitions

- `WorkNode`, `Workflow`: a node that runs, and a workflow
- `WorkNode.route`: where a run continues behind a node
- `WorkNode.isJoin`: whether a node waits for several others
-/

namespace Workgraph

/-- A node that runs. Its edges are the targets that plain routing leads to; its successors are all
nodes that an edge from any of its ports leads to; its inputs are the other nodes that have an edge
into it. -/
structure WorkNode (σ : Type) where
  key : String
  run : Node σ
  navigator : Option Navigator
  channel : Option String
  handoffTargets : List String
  edges : List String
  successors : List String
  inputs : List String

namespace WorkNode

variable {σ : Type}

/-- Where a run continues behind the node, in the state in which its update has been written. -/
def route (n : WorkNode σ) (s : Snapshot) : Route :=
  match n.navigator with
  | some navigator => navigator.choose s
  | none => .ofTargets n.edges

/-- Whether the node waits for several others. -/
def isJoin (n : WorkNode σ) : Bool := decide (1 < n.inputs.length)

/-- Whether the node may hand off to another one. -/
def canHandOffTo (n : WorkNode σ) (target : String) : Bool := n.handoffTargets.contains target

/-- The written form of what is known about the node. -/
def toJson (n : WorkNode σ) : Json :=
  .object [("key", .str n.key), ("channel", .text? n.channel),
    ("terminal", .texts n.handoffTargets), ("edges", .texts n.edges),
    ("successors", .texts n.successors), ("inputs", .texts n.inputs), ("join", .bool n.isJoin),
    ("navigator", .bool n.navigator.isSome)]

end WorkNode

/-- A workflow that is fit to run. -/
structure Workflow (σ : Type) where
  nodes : List (WorkNode σ)
  schema : Schema
  entry : List String

namespace Workflow

variable {σ : Type}

def node? (w : Workflow σ) (key : String) : Option (WorkNode σ) := w.nodes.find? (·.key == key)

/-- Whether there is a node with a given key. -/
def contains (w : Workflow σ) (key : String) : Bool := (w.node? key).isSome

/-- The keys of the nodes in the order of the description. -/
def keys (w : Workflow σ) : List String := w.nodes.map (·.key)

/-- The written form of what is known about a workflow. -/
def toJson (w : Workflow σ) : Json :=
  .object [("entry", .texts w.entry), ("nodes", .arr (w.nodes.map WorkNode.toJson)),
    ("schema", .arr (w.schema.map Channel.toJson)), ("len", .nat w.nodes.length),
    ("empty", .bool w.nodes.isEmpty)]

end Workflow

end Workgraph
