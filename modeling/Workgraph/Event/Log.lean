import Workgraph.Event.Bus
/-!
# Event logs

What becomes of the events of a run. They are reported one after the other, and from time to time
the run waits; only then does the listener of a bus catch up. Between two waits events pile up in
the queue of the bus, and those that it does not accept are lost.

## Main definitions

- `LogEntry`, `EventLog`: an event or a wait; what happened in a run
- `EventLog.events`: the reported events, whether or not somebody received them
- `Bus.follow`, `Bus.replay`: what a bus does behind one entry, and behind a whole log
-/

namespace Workgraph

/-- Something that happens in a run: an event is reported, or the run waits. -/
inductive LogEntry where
  | reported (e : Event)
  | waited

def LogEntry.event? : LogEntry → Option Event
  | reported e => some e
  | waited => none

/-- What happened in a run, the latest first. -/
abbrev EventLog := List LogEntry

def EventLog.events (log : EventLog) : List Event := (log.filterMap LogEntry.event?).reverse

namespace Bus

variable {σ : Type}

/-- The bus after an entry. An event that is not accepted is lost, and a wait lets the listener
deliver everything. -/
def follow (receive : Event → σ → σ) (b : Bus σ) : LogEntry → Bus σ
  | .reported e => (b.emit e).toOption.getD b
  | .waited => b.drain receive

/-- The bus after everything in a log and one more wait. -/
def replay (receive : Event → σ → σ) (b : Bus σ) (log : EventLog) : Bus σ :=
  (log.foldr (fun entry b => b.follow receive entry) b).drain receive

/-- The events that a bus keeps in memory, if one of its sinks is a memory. -/
def memory? (b : Bus Sink) : Option Memory := b.sinks.findSome? Sink.memory?

end Bus

end Workgraph
