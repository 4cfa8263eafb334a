import Workgraph.Event.Sink
/-!
# The event bus

Events are accepted into a queue of limited length and delivered to all sinks in the order in which
they were accepted. A listener delivers them while it runs; when it is stopped it delivers
everything that has been accepted until then.

## Main definitions

- `Bus`, `Bus.emit`: a queue with its sinks; accepting an event
- `Bus.deliver`, `Bus.drain`: delivering one event, or all
- `Bus.listen`, `Bus.stop`, `Bus.close`: the listener, and the end of the bus
- `EmitError`: why an event is not accepted
- `BusConfig`: which bus to make
-/

namespace Workgraph

/-- Why an event is not accepted. -/
inductive EmitError where
  | closed
  | full
deriving DecidableEq

namespace EmitError

def name : EmitError → String
  | closed => "Closed"
  | full => "Full"

def message : EmitError → String
  | closed => "event bus closed"
  | full => "event buffer full; event dropped"

end EmitError

/-- A queue of accepted events with the sinks that they are delivered to. -/
structure Bus (σ : Type) where
  capacity : Nat
  queue : List Event
  sinks : List σ
  listening : Bool
  isClosed : Bool

namespace Bus

variable {σ : Type}

/-- A bus with an empty queue. -/
def start (capacity : Nat) (sinks : List σ) : Bus σ := ⟨capacity, [], sinks, false, false⟩

/-- Accepts an event, unless the bus is closed or the queue is full. -/
def emit (b : Bus σ) (e : Event) : Except EmitError (Bus σ) :=
  if b.isClosed then .error .closed
  else if b.capacity ≤ b.queue.length then .error .full
  else .ok { b with queue := b.queue ++ [e] }

/-- Delivers the first event of the queue to every sink. -/
def deliver (receive : Event → σ → σ) (b : Bus σ) : Bus σ :=
  match b.queue with
  | [] => b
  | e :: rest => { b with queue := rest, sinks := b.sinks.map (receive e) }

/-- Delivers all events of the queue. -/
def drain (receive : Event → σ → σ) (b : Bus σ) : Bus σ :=
  { b with
    queue := []
    sinks := b.sinks.map fun s => b.queue.foldl (fun s e => receive e s) s }

/-- Adds a sink, which receives what is delivered from now on. -/
def addSink (b : Bus σ) (s : σ) : Bus σ := { b with sinks := b.sinks ++ [s] }

/-- Starts the listener. -/
def listen (b : Bus σ) : Bus σ := if b.isClosed then b else { b with listening := true }

/-- Stops the listener, if it runs: what has been accepted is delivered first. -/
def stop (receive : Event → σ → σ) (b : Bus σ) : Bus σ :=
  if b.listening then { b.drain receive with listening := false } else b

/-- Closes the bus. What has not been delivered is lost. -/
def close (b : Bus σ) : Bus σ := { b with queue := [], listening := false, isClosed := true }

end Bus

/-- The kinds of sinks that a configuration can name. -/
inductive SinkKind where
  | console
  | memory
deriving DecidableEq

/-- The name of a kind of sink. -/
def SinkKind.text : SinkKind → String
  | console => "StdOut"
  | memory => "Memory"

/-- Which bus to make: the length of its queue and its sinks. -/
structure BusConfig where
  capacity : Nat
  sinks : List SinkKind

namespace BusConfig

/-- The length of a queue unless stated otherwise. -/
def defaultCapacity : Nat := 1024

/-- A configuration in which a length of zero stands for the default. -/
def make (capacity : Nat) (sinks : List SinkKind) : BusConfig :=
  ⟨if capacity = 0 then defaultCapacity else capacity, sinks⟩

/-- A bus that writes to the console only. -/
def consoleOnly : BusConfig := make defaultCapacity [.console]

/-- A bus that keeps events in memory only. -/
def memoryOnly : BusConfig := make defaultCapacity [.memory]

/-- Adds a sink, unless there is one of its kind. -/
def addSink (c : BusConfig) (kind : SinkKind) : BusConfig :=
  if c.sinks.contains kind then c else { c with sinks := c.sinks ++ [kind] }

def sinkOf (coloured : Bool) : SinkKind → Sink
  | .console => .console (.start coloured true) ""
  | .memory => .memory []

/-- The bus that is made. -/
def bus (c : BusConfig) (coloured : Bool) : Bus Sink :=
  .start c.capacity (c.sinks.map (sinkOf coloured))

end BusConfig

end Workgraph
