import Workgraph.Conversation.Signal
import Workgraph.Event.Basic
import Workgraph.State.Snapshot
/-!
# Checkpoints

A checkpoint records the state of a run at some point, together with what is needed to go on from
there. The checkpoints of a thread form a chain: each one names the one before it.

## Main definitions

- `CheckpointSource`: why a checkpoint was written
- `StepRecord`: what the step before it did and left to do
- `Checkpoint`: a state with a record and a place in a chain
-/

namespace Workgraph

/-- Why a checkpoint was written: a run begins, a step is done, or a run pauses. -/
inductive CheckpointSource where
  | input
  | step
  | pause
deriving DecidableEq

namespace CheckpointSource

def names : List (String × CheckpointSource) :=
  [("input", input), ("loop", step), ("interrupt", pause)]

def text : CheckpointSource → String
  | input => "input"
  | step => "loop"
  | pause => "interrupt"

end CheckpointSource

/-- What the step before a checkpoint did and left to do: the nodes that ran, the transfers that
they asked for, the nodes that a pause stopped in front of, and the joins that still wait. -/
structure StepRecord where
  graphId : String
  step : Nat
  source : CheckpointSource
  ranNodes : List String
  handoffs : List (String × Handoff)
  pending : List String
  deferred : List String
  interrupt : Option Interrupt

namespace StepRecord

/-- The record of a step in which nothing happened. -/
def blank (graphId : String) (step : Nat) (source : CheckpointSource) : StepRecord :=
  ⟨graphId, step, source, [], [], [], [], none⟩

/-- The written form of a transfer and the node that asked for it. -/
def handoffToJson (h : String × Handoff) : Json := .arr [.str h.1, h.2.toJson]

def toJson (r : StepRecord) : Json :=
  .object [("graph_id", .str r.graphId), ("step", .nat r.step), ("source", .str r.source.text),
    ("ran_nodes", .texts r.ranNodes), ("handoffs", .arr (r.handoffs.map handoffToJson)),
    ("pending", .texts r.pending), ("deferred", .texts r.deferred),
    ("interrupt", (r.interrupt.map Interrupt.toJson).getD .null)]

def decoder : Decoder StepRecord :=
  Record.decoder "CheckpointMetadata" <|
    StepRecord.mk
      <$> Record.required "graph_id" Decoder.text
      <*> Record.required "step" Decoder.unsigned64
      <*> Record.required "source" (Decoder.enumeration CheckpointSource.names)
      <*> Record.defaulted "ran_nodes" (Decoder.list Decoder.text) []
      <*> Record.defaulted "handoffs" (Decoder.list (Decoder.pair Decoder.text Handoff.decoder)) []
      <*> Record.defaulted "pending" (Decoder.list Decoder.text) []
      <*> Record.defaulted "deferred" (Decoder.list Decoder.text) []
      <*> Record.defaulted "interrupt" (Decoder.optional Interrupt.decoder) none

end StepRecord

/-- A state with a record and a place in the chain of its thread and namespace. -/
structure Checkpoint where
  threadId : String
  checkpointNs : String
  id : String
  parentId : Option String
  state : Snapshot
  record : StepRecord
  createdAt : Timestamp

namespace Checkpoint

/-- Whether a checkpoint belongs to a thread and a namespace. -/
def isOf (c : Checkpoint) (threadId checkpointNs : String) : Bool :=
  c.threadId == threadId && c.checkpointNs == checkpointNs

def toJson (c : Checkpoint) : Json :=
  .object [("thread_id", .str c.threadId), ("checkpoint_ns", .str c.checkpointNs),
    ("checkpoint_id", .str c.id), ("parent_id", .text? c.parentId), ("state", c.state.toJson),
    ("metadata", c.record.toJson), ("created_at", .str c.createdAt.text)]

end Checkpoint

end Workgraph
