import Workgraph.Event.Basic
/-!
# Sinks

Where events end up: on a console, in memory, or in a channel that somebody reads.

## Main definitions

- `Event.line`: the line for an event, with or without colours
- `Console`, `Console.write`: lines under headings for the steps
- `Memory`: events that can be looked up by phase, step and node
- `Sink`, `Sink.receive`: a sink of some kind
-/

namespace Workgraph

namespace Ansi

/-- The sequence that sets the colour of the scope. -/
def scope : String := "\x1b[32m"

/-- The sequence that sets the colour of a message. -/
def message : String := "\x1b[35m"

/-- The sequence that sets the colour of an error. -/
def error : String := "\x1b[31m"

/-- The sequence that ends a colour. -/
def reset : String := "\x1b[0m"

end Ansi

namespace Event

/-- The colour of the wording. -/
def colour : Event → String
  | error _ => Ansi.error
  | _ => Ansi.message

/-- The line for an event. -/
def line (coloured : Bool) (e : Event) : String :=
  if coloured then
    Ansi.scope ++ e.scope ++ Ansi.reset ++ " " ++ e.colour ++ e.text ++ Ansi.reset ++ "\n"
  else e.scope ++ " " ++ e.text ++ "\n"

end Event

/-- A console that writes a line for each event, and if wanted a heading in front of the first event
of a later step. -/
structure Console where
  coloured : Bool
  headings : Bool
  step : Option Nat

namespace Console

/-- A console on which nothing has been written. -/
def start (coloured headings : Bool) : Console := ⟨coloured, headings, none⟩

/-- The step of an event, if it is later than all steps so far. -/
def laterStep? (c : Console) (e : Event) : Option Nat :=
  e.step?.filter fun step => c.headings && c.step.all (· < step)

/-- What is written for an event, and the console after that. -/
def write (c : Console) (e : Event) : String × Console :=
  match c.laterStep? e with
  | some step => (s!"-- step {step} --\n" ++ e.line c.coloured, { c with step := some step })
  | none => (e.line c.coloured, c)

end Console

/-- Events in the order in which they came in. -/
abbrev Memory := List Event

namespace Memory

/-- The keys of the nodes that entered a phase. -/
def nodeKeys (m : Memory) (phase : NodePhase) : List String :=
  m.filterMap fun e =>
    match e with
    | .node n => if n.phase == phase then some n.nodeKey else none
    | _ => none

/-- The changes of status of runs. -/
def runStatuses (m : Memory) : List String :=
  m.filterMap fun e =>
    match e with
    | .run r => some r.status
    | _ => none

def ofStep (m : Memory) (step : Nat) : List Event := m.filter (·.step? == some step)

/-- The events that are about a node. -/
def ofNode (m : Memory) (key : String) : List Event := m.filter (·.nodeKey? == some key)

end Memory

/-- A channel for events: which ones it takes, whether somebody still reads it, and what has been
sent. -/
structure EventChannel where
  takes : Event → Bool
  isOpen : Bool
  sent : List Event

namespace EventChannel

/-- An open channel. -/
def start (takes : Event → Bool) : EventChannel := ⟨takes, true, []⟩

/-- Sends an event, if the channel takes it and somebody reads it. -/
def send (c : EventChannel) (e : Event) : EventChannel :=
  if c.takes e && c.isOpen then { c with sent := c.sent ++ [e] } else c

end EventChannel

/-- A sink of some kind. -/
inductive Sink where
  | console (c : Console) (written : String)
  | memory (m : Memory)
  | channel (c : EventChannel)

namespace Sink

/-- The sink after it has received an event. -/
def receive (e : Event) : Sink → Sink
  | console c written =>
    let (text, c) := c.write e
    console c (written ++ text)
  | memory m => memory (m ++ [e])
  | channel c => channel (c.send e)

def memory? : Sink → Option Memory
  | memory m => some m
  | _ => none

end Sink

end Workgraph
