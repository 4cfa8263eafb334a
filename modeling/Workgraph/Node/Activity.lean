import Workgraph.Event.Log
import Workgraph.Fault
import Workgraph.State.Channel
import Workgraph.State.Snapshot
/-!
# Activities

What the nodes of a run do besides computing: they call on the host for models, tools and documents,
report events, draw identifiers, and notice that the run is cancelled. An activity is a function of
the world as it finds it, so running activities one after the other is the composition of functions.

## Main definitions

- `World`: what activities can see and change
- `Activity`: an activity with a result
- `NodeContext`, `NodeOutput`, `NodeError`: what a node is told, and what it gives back
- `Node`: what a node does
-/

namespace Workgraph

/-- What the activities of a run can see and change: the state of the host, the log of the events
reported so far, whether the run has been cancelled, the time, and the number of identifiers
drawn. -/
structure World (σ : Type) where
  host : σ
  log : EventLog
  cancelled : Bool
  clock : Timestamp
  issued : Nat

namespace World

variable {σ : Type}

/-- A world in which nothing has happened. -/
def start (host : σ) : World σ := ⟨host, [], false, .epoch, 0⟩

/-- The events reported so far, in order. -/
def events (w : World σ) : List Event := w.log.events

end World

/-- An activity with a result. -/
abbrev Activity (σ : Type) (α : Type) := StateM (World σ) α

namespace Activity

variable {σ α : Type}

/-- The state of the host is used and changed. -/
def onHost (f : σ → α × σ) : Activity σ α := fun w =>
  let (a, h) := f w.host
  (a, { w with host := h })

/-- Reports an event. -/
def report (e : Event) : Activity σ Unit := fun w => ((), { w with log := .reported e :: w.log })

/-- Waits, so that whoever listens to the events catches up. -/
def wait : Activity σ Unit := fun w => ((), { w with log := .waited :: w.log })

def now : Activity σ Timestamp := fun w => (w.clock, w)

def cancel : Activity σ Unit := fun w => ((), { w with cancelled := true })

def isCancelled : Activity σ Bool := fun w => (w.cancelled, w)

/-- Draws a number of numbers that no other activity of the run has drawn; they follow one another,
and the first one is given. -/
def reserve (count : Nat) : Activity σ Nat := fun w =>
  (w.issued, { w with issued := w.issued + count })

/-- Draws a number that no other activity of the run has drawn. -/
def draw : Activity σ Nat := reserve 1

/-- Draws an identifier for a tool call. -/
def drawCallId : Activity σ String := do
  let n ← draw
  return "call_" ++ Text.zeroPadded 32 (Nat.toDigits 16 n)

end Activity

/-- What a node is told about the step it runs in: where it runs, the checkpoint that the step
starts from, the number of this execution on its thread, and, inside an iteration, the indices of
the elements that it runs for. A silent context belongs to no run: nobody listens to its events. -/
structure NodeContext where
  nodeKey : String
  step : Nat
  threadId : String
  checkpointNs : String
  checkpointId : Option String
  execution : Nat
  elements : List Nat
  silent : Bool

namespace NodeContext

variable {σ : Type}

/-- A context that belongs to no run. -/
def detached (nodeKey : String) : NodeContext :=
  ⟨nodeKey, 0, "", "", none, 0, [], true⟩

/-- Reports an event from a node. -/
def report (ctx : NodeContext) (e : Timestamp → Event) : Activity σ Unit := do
  if ctx.silent then return
  Activity.report (e (← Activity.now))

def say (ctx : NodeContext) (message : String) : Activity σ Unit :=
  ctx.report fun t => .node ⟨ctx.nodeKey, ctx.step, .message, some message, t⟩

end NodeContext

/-- What a node gives back. What is absent is left as it is. -/
structure NodeOutput where
  update : Option Json
  messages : Option (List Message)
  handoff : Option Handoff
  interrupt : Option Interrupt

namespace NodeOutput

/-- A write to the channel of the node and nothing else. -/
def write (update : Json) : NodeOutput := ⟨some update, none, none, none⟩

/-- The written form of what is present. -/
def fields (o : NodeOutput) : List (String × Json) :=
  (o.update.map fun v => ("update", v)).toList ++
    (o.messages.map fun ms => ("messages", Message.listToJson ms)).toList ++
    (o.handoff.map fun h => ("handoff", h.toJson)).toList ++
    (o.interrupt.map fun i => ("interrupt", i.toJson)).toList

/-- The report of a failure that the graph can deal with. -/
def failure (message : String) : NodeOutput :=
  write (.obj [(Channel.errorField, .str message)])

end NodeOutput

/-- Why a node fails the whole run. -/
inductive NodeError where
  | missingInput (what : String)
  | provider (name message : String)
  | decoding (e : DecodeError)
  | validation (message : String)
  | cancelled
  | endless
deriving DecidableEq

namespace NodeError

def message : NodeError → String
  | missingInput what => "missing expected input: " ++ what
  | provider name message => "provider error (" ++ name ++ "): " ++ message
  | decoding e => e.message
  | validation message => "validation failed: " ++ message
  | cancelled => "node cancelled"
  | endless => "the node does not come to an end"

def fault (e : NodeError) : Fault :=
  match e with
  | missingInput _ =>
    .advised "MissingInput" e.message "agentweave::node::missing_input"
      "Check that the upstream node produced the required data."
  | provider _ _ => .coded "Provider" e.message "agentweave::node::provider"
  | decoding _ => .coded "Serde" e.message "agentweave::node::serde_json"
  | validation _ =>
    .advised "ValidationFailed" e.message "agentweave::node::validation"
      "Check input data format and required fields."
  | cancelled => .coded "Cancelled" e.message "agentweave::node::cancelled"
  | endless => ⟨"Endless", e.message, none, none⟩

end NodeError

/-- What a node does with the state before its step. -/
abbrev Node (σ : Type) := NodeContext → Snapshot → Activity σ (Except NodeError NodeOutput)

end Workgraph
