import Workgraph.Conversation.Signal
import Workgraph.Time.Reader
/-!
# Events

What a run reports while it goes on: phases of nodes and tool calls, errors, pauses, changes of
status, and diagnostics.

## Main definitions

- `Event`: what is reported
- `Event.scope`, `Event.nodeKey?`, `Event.step?`: what an event is about
- `Event.text`: the wording
- `Event.summary`, `Event.toJson`: a uniform written form, and a complete one
- `Event.decoder`: events from the complete form
-/

namespace Workgraph

/-- The phases of a node, and messages of its own. -/
inductive NodePhase where
  | started
  | completed
  | failed
  | message
deriving DecidableEq

namespace NodePhase

def names : List (String × NodePhase) :=
  [("started", started), ("completed", completed), ("failed", failed), ("message", message)]

def text : NodePhase → String
  | started => "started"
  | completed => "completed"
  | failed => "failed"
  | message => "message"

end NodePhase

/-- The phases of a tool call. -/
inductive ToolPhase where
  | started
  | ended
  | failed
deriving DecidableEq

namespace ToolPhase

def names : List (String × ToolPhase) := [("start", started), ("end", ended), ("error", failed)]

def text : ToolPhase → String
  | started => "start"
  | ended => "end"
  | failed => "error"

end ToolPhase

/-- A node enters a phase or says something. -/
structure NodeEvent where
  nodeKey : String
  step : Nat
  phase : NodePhase
  message : Option String
  moment : Timestamp

/-- A tool call of a node enters a phase. -/
structure ToolCallEvent where
  nodeKey : String
  step : Nat
  tool : String
  callId : String
  phase : ToolPhase
  message : Option String
  moment : Timestamp

/-- Something went wrong, possibly at a node. -/
structure ErrorEvent where
  nodeKey : Option String
  step : Nat
  message : String
  moment : Timestamp

/-- A run pauses. -/
structure InterruptEvent where
  threadId : String
  step : Nat
  interrupt : Interrupt
  moment : Timestamp

/-- A run changes its status. -/
structure RunEvent where
  threadId : String
  step : Nat
  status : String
  moment : Timestamp

/-- A remark from outside any run. -/
structure DiagnosticEvent where
  scope : String
  message : String

/-- What is reported. -/
inductive Event where
  | node (e : NodeEvent)
  | toolCall (e : ToolCallEvent)
  | error (e : ErrorEvent)
  | interrupt (e : InterruptEvent)
  | run (e : RunEvent)
  | diagnostic (e : DiagnosticEvent)

namespace Event

/-- The label of the kind of an event; diagnostics bring their own. -/
def scope : Event → String
  | node _ => "node"
  | toolCall _ => "tool_call"
  | error _ => "error"
  | interrupt _ => "interrupt"
  | run _ => "run"
  | diagnostic e => e.scope

/-- The node that an event is about. -/
def nodeKey? : Event → Option String
  | node e => some e.nodeKey
  | toolCall e => some e.nodeKey
  | error e => e.nodeKey
  | interrupt e => some e.interrupt.node
  | run _ => none
  | diagnostic _ => none

/-- The step that an event belongs to. -/
def step? : Event → Option Nat
  | node e => some e.step
  | toolCall e => some e.step
  | error e => some e.step
  | interrupt e => some e.step
  | run e => some e.step
  | diagnostic _ => none

/-- The place of an event, as its wording begins. -/
def place (nodeKey : String) (step : Nat) : String := s!"[{nodeKey}@{step}] "

def text : Event → String
  | node e => place e.nodeKey e.step ++ e.message.getD e.phase.text
  | toolCall e =>
    place e.nodeKey e.step ++ "tool " ++ e.tool ++ " (" ++ e.callId ++ ") " ++ e.phase.text ++
      (match e.message with
        | some m => ": " ++ m
        | none => "")
  | error e =>
    (match e.nodeKey with
      | some key => place key e.step
      | none => s!"[step {e.step}] ") ++ "error: " ++ e.message
  | interrupt e => place e.interrupt.node e.step ++ "interrupted: " ++ e.interrupt.reason
  | run e => s!"[run {e.threadId}] {e.status} at step {e.step}"
  | diagnostic e => e.message

/-- The facts that a summary lists, which depend on the kind of the event. -/
def facts : Event → List (String × Json)
  | node e =>
    [("node_key", .str e.nodeKey), ("step", .nat e.step), ("phase", .str e.phase.text)]
  | toolCall e =>
    [("node_key", .str e.nodeKey), ("step", .nat e.step), ("tool", .str e.tool),
      ("call_id", .str e.callId), ("phase", .str e.phase.text)]
  | error e => (e.nodeKey.map fun k => ("node_key", Json.str k)).toList ++ [("step", .nat e.step)]
  | interrupt e =>
    [("thread_id", .str e.threadId), ("step", .nat e.step), ("node_key", .str e.interrupt.node)]
  | run e => [("thread_id", .str e.threadId), ("step", .nat e.step), ("status", .str e.status)]
  | diagnostic _ => []

/-- The name of the kind of an event. -/
def kindName : Event → String
  | diagnostic _ => "diagnostic"
  | e => e.scope

/-- A written form with the same fields for every kind of event. -/
def summary (e : Event) : Json :=
  .object [("type", .str e.kindName), ("scope", .str e.scope), ("message", .str e.text),
    ("metadata", .object e.facts)]

/-- The name under which the complete form holds an event. -/
def tag : Event → String
  | node _ => "Node"
  | toolCall _ => "ToolCall"
  | error _ => "Error"
  | interrupt _ => "Interrupt"
  | run _ => "Run"
  | diagnostic _ => "Diagnostic"

def fields : Event → List (String × Json)
  | node e =>
    [("node_key", .str e.nodeKey), ("step", .nat e.step), ("phase", .str e.phase.text),
      ("message", .text? e.message), ("when", .str e.moment.text)]
  | toolCall e =>
    [("node_key", .str e.nodeKey), ("step", .nat e.step), ("tool", .str e.tool),
      ("call_id", .str e.callId), ("phase", .str e.phase.text), ("message", .text? e.message),
      ("when", .str e.moment.text)]
  | error e =>
    [("node_key", .text? e.nodeKey), ("step", .nat e.step), ("message", .str e.message),
      ("when", .str e.moment.text)]
  | interrupt e =>
    [("thread_id", .str e.threadId), ("step", .nat e.step), ("interrupt", e.interrupt.toJson),
      ("when", .str e.moment.text)]
  | run e =>
    [("thread_id", .str e.threadId), ("step", .nat e.step), ("status", .str e.status),
      ("when", .str e.moment.text)]
  | diagnostic e => [("scope", .str e.scope), ("message", .str e.message)]

def toJson (e : Event) : Json := .object [(e.tag, .object e.fields)]

end Event

/-- A point in time from its written form, with some tolerance. -/
def Timestamp.decoder : Decoder Timestamp
  | _, .str s =>
    match Timestamp.ofTolerantText s with
    | .ok t => .ok t
    | .error flaw => .error (.invalidTime flaw.message)
  | _, t => .error (Decoder.mismatch "an RFC 3339 formatted date and time string" t)

namespace Event

/-- Events of nodes from their written form. -/
def nodeDecoder : Decoder NodeEvent :=
  Record.decoder "NodeEvent" <|
    NodeEvent.mk
      <$> Record.required "node_key" Decoder.text
      <*> Record.required "step" Decoder.unsigned64
      <*> Record.required "phase" (Decoder.enumeration NodePhase.names)
      <*> Record.nullable "message" Decoder.text
      <*> Record.required "when" Timestamp.decoder

/-- Events of tool calls from their written form. -/
def toolCallDecoder : Decoder ToolCallEvent :=
  Record.decoder "ToolCallEvent" <|
    ToolCallEvent.mk
      <$> Record.required "node_key" Decoder.text
      <*> Record.required "step" Decoder.unsigned64
      <*> Record.required "tool" Decoder.text
      <*> Record.required "call_id" Decoder.text
      <*> Record.required "phase" (Decoder.enumeration ToolPhase.names)
      <*> Record.nullable "message" Decoder.text
      <*> Record.required "when" Timestamp.decoder

def errorDecoder : Decoder ErrorEvent :=
  Record.decoder "ErrorEvent" <|
    ErrorEvent.mk
      <$> Record.nullable "node_key" Decoder.text
      <*> Record.required "step" Decoder.unsigned64
      <*> Record.required "message" Decoder.text
      <*> Record.required "when" Timestamp.decoder

def interruptDecoder : Decoder InterruptEvent :=
  Record.decoder "InterruptEvent" <|
    InterruptEvent.mk
      <$> Record.required "thread_id" Decoder.text
      <*> Record.required "step" Decoder.unsigned64
      <*> Record.required "interrupt" Interrupt.decoder
      <*> Record.required "when" Timestamp.decoder

/-- Changes of status from their written form. -/
def runDecoder : Decoder RunEvent :=
  Record.decoder "RunEvent" <|
    RunEvent.mk
      <$> Record.required "thread_id" Decoder.text
      <*> Record.required "step" Decoder.unsigned64
      <*> Record.required "status" Decoder.text
      <*> Record.required "when" Timestamp.decoder

def diagnosticDecoder : Decoder DiagnosticEvent :=
  Record.decoder "DiagnosticEvent" <|
    DiagnosticEvent.mk
      <$> Record.required "scope" Decoder.text
      <*> Record.required "message" Decoder.text

/-- A decoder followed by a function. -/
def wrapped {α : Type} (d : Decoder α) (f : α → Event) : Decoder Event := fun m t => (d m t).map f

def decoder : Decoder Event :=
  Decoder.tagged
    [("Node", wrapped nodeDecoder node), ("ToolCall", wrapped toolCallDecoder toolCall),
      ("Error", wrapped errorDecoder error), ("Interrupt", wrapped interruptDecoder interrupt),
      ("Run", wrapped runDecoder run), ("Diagnostic", wrapped diagnosticDecoder diagnostic)]

end Event

end Workgraph
