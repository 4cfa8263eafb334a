import Workgraph.Checkpoint.Archive
import Workgraph.Node.Activity
/-!
# How runs fail

The states a run goes through, and the reasons why it can fail or be refused.

## Main definitions

- `RunStatus`: the states of a run
- `RunError`: why a run fails or is refused
- `RunFailure`: what is reported of a failure
-/

namespace Workgraph

/-- The states of a run: it is pending, then it runs, and then it ends in one of four ways. -/
inductive RunStatus where
  | pending
  | running
  | completed
  | interrupted
  | failed
  | canceled
deriving DecidableEq

namespace RunStatus

def names : List (String × RunStatus) :=
  [("pending", pending), ("running", running), ("completed", completed),
    ("interrupted", interrupted), ("failed", failed), ("canceled", canceled)]

def text : RunStatus → String
  | pending => "pending"
  | running => "running"
  | completed => "completed"
  | interrupted => "interrupted"
  | failed => "failed"
  | canceled => "canceled"

/-- Whether a run has ended. -/
def isTerminal : RunStatus → Bool
  | pending => false
  | running => false
  | completed => true
  | interrupted => true
  | failed => true
  | canceled => true

end RunStatus

/-- Why a run fails or is refused. -/
inductive RunError where
  | stepBudget (limit : Nat)
  | node (nodeKey : String) (channel : Option String) (e : NodeError)
  | channel (nodeKey : String) (e : ChannelError)
  | invalidHandoff (nodeKey target : String)
  | unknownNode (nodeKey source : String)
  | graphNotFound (graphId : String)
  | threadNotFound (threadId : String)
  | threadBusy (threadId : String)
  | archive (e : ArchiveError)
deriving DecidableEq

namespace RunError

def message : RunError → String
  | stepBudget limit => s!"step budget of {limit} exhausted"
  | node nodeKey _ e => s!"node '{nodeKey}' failed: {e.message}"
  | channel nodeKey e => s!"node '{nodeKey}' wrote to an unknown channel: {e.message}"
  | invalidHandoff nodeKey target =>
    s!"node '{nodeKey}' handed off to '{target}', which it is not connected to"
  | unknownNode nodeKey source => s!"node '{source}' routed to unknown node '{nodeKey}'"
  | graphNotFound graphId => "graph not registered: " ++ graphId
  | threadNotFound threadId => "no checkpoint for thread: " ++ threadId
  | threadBusy threadId => s!"thread {threadId} already has an active run"
  | archive e => e.message

def fault (e : RunError) : Fault :=
  match e with
  | stepBudget _ =>
    .advised "StepBudgetExhausted" e.message "agentweave::runner::step_budget"
      "Raise the recursion limit or check the graph for unintended cycles."
  | node _ _ _ => .coded "Node" e.message "agentweave::runner::node"
  | channel _ _ =>
    .advised "Channel" e.message "agentweave::runner::channel"
      "Nodes may only update the channel their strategy registered."
  | invalidHandoff _ _ =>
    .advised "InvalidHandoff" e.message "agentweave::runner::invalid_handoff"
      "Handoff targets must be among the node's terminal edges."
  | unknownNode _ _ => .coded "UnknownNode" e.message "agentweave::runner::unknown_node"
  | graphNotFound _ =>
    .advised "GraphNotFound" e.message "agentweave::runner::graph_not_found"
      "Register the compiled graph with the runtime before starting runs."
  | threadNotFound _ =>
    .coded "ThreadNotFound" e.message "agentweave::runner::thread_not_found"
  | threadBusy _ =>
    .advised "ThreadBusy" e.message "agentweave::runner::thread_busy"
      "Wait for or cancel the active run before starting another one."
  | archive _ => .coded "Checkpointer" e.message "agentweave::runner::checkpointer"

/-- The node at which a run failed. -/
def nodeKey? : RunError → Option String
  | node nodeKey _ _ => some nodeKey
  | channel nodeKey _ => some nodeKey
  | invalidHandoff nodeKey _ => some nodeKey
  | unknownNode _ source => some source
  | _ => none

/-- The channel at which a run failed. -/
def channel? : RunError → Option String
  | node _ name _ => name
  | channel _ e => some e.name
  | _ => none

end RunError

/-- What is reported of a failure. -/
structure RunFailure where
  nodeKey : Option String
  channel : Option String
  message : String
deriving DecidableEq

namespace RunFailure

def ofError (e : RunError) : RunFailure := ⟨e.nodeKey?, e.channel?, e.message⟩

def toJson (f : RunFailure) : Json :=
  .object [("node_key", .text? f.nodeKey), ("channel", .text? f.channel),
    ("message", .str f.message)]

end RunFailure

end Workgraph
