import Workgraph.State.Channel
import Workgraph.State.Snapshot
/-!
# The store of a run

The state of a run together with the schema of its graph. Every write goes through the reducer of
its channel, and the version of a channel moves exactly when its value does.

## Main definitions

- `Store`, `Store.fresh`: a store, and one in which every channel has its first value
- `Store.get`, `Store.apply`: reading and writing a channel
- `Store.restore`: going back to an earlier state
-/

namespace Workgraph

/-- A state and the schema it follows. -/
structure Store where
  schema : Schema
  state : Snapshot

namespace Store

/-- Gives every declared channel without a value its first value. -/
def fillDefaults (schema : Schema) (channels : Table Json) : Table Json :=
  schema.foldl (fun t c => if t.contains c.name then t else t.insert c.name c.default) channels

/-- The store with a given state, completed by first values. -/
def ofState (schema : Schema) (state : Snapshot) : Store :=
  ⟨schema, { state with channels := fillDefaults schema state.channels }⟩

/-- The store in which every channel has its first value. -/
def fresh (schema : Schema) : Store := ofState schema .empty

/-- The store with a given input and environment. -/
def withInputs (s : Store) (input environment : Json) : Store :=
  { s with state := { s.state with input := input, environment := environment } }

/-- The value of a declared channel. -/
def get (s : Store) (name : String) : Except ChannelError Json :=
  match s.schema.get? name with
  | none => .error (.unknown name)
  | some c => .ok ((s.state.channel? name).getD c.default)

/-- The state with a new value for a channel, whose version moves on by one. -/
def put (state : Snapshot) (name : String) (value : Json) : Snapshot :=
  { state with
    channels := state.channels.insert name value
    versions := state.versions.insert name (state.version name + 1) }

/-- Writes to a declared channel: the value after the write and the new store. The store changes
only if the value does. -/
def apply (s : Store) (name : String) (written : Json) : Except ChannelError (Json × Store) :=
  match s.schema.get? name with
  | none => .error (.unknown name)
  | some c =>
    let current := (s.state.channel? name).getD c.default
    let next := c.reducer.apply current written
    if next == current then .ok (next, s) else .ok (next, { s with state := put s.state name next })

def append (s : Store) (messages : List Message) : Store :=
  { s with state := { s.state with messages := s.state.messages ++ messages } }

/-- Merges further input into the input. -/
def mergeInput (s : Store) (more : Json) : Store :=
  { s with state := { s.state with input := Reducer.shallowMerge.apply s.state.input more } }

/-- Goes back to an earlier state. Channels that the state does not know get their first value. -/
def restore (s : Store) (state : Snapshot) : Store := ofState s.schema state

end Store

end Workgraph
