import Workgraph.Fault
import Workgraph.State.Reducer
/-!
# Channels

A channel is a named slot of the state with a rule for writes and a first value. The channels of a
graph are declared in a schema, where no name occurs twice.

## Main definitions

- `Channel`: a declaration
- `Schema`, `Schema.register`: declarations in order
- `ChannelError`: a name that is unknown or already taken
-/

namespace Workgraph

/-- The declaration of a channel. -/
structure Channel where
  name : String
  reducer : Reducer
  default : Json

namespace Channel

/-- A channel that merges what is written, starting from the empty object. -/
def shallowMerge (name : String) : Channel := ⟨name, .shallowMerge, .obj []⟩

/-- A channel that keeps the last write, starting from the empty object. -/
def overwrite (name : String) : Channel := ⟨name, .overwrite, .obj []⟩

/-- The field of a channel that reports an error. -/
def errorField : String := "error"

def toJson (c : Channel) : Json :=
  .object [("name", .str c.name), ("reducer", .str c.reducer.text), ("default", c.default)]

end Channel

/-- What can be wrong with the name of a channel. -/
inductive ChannelError where
  | unknown (name : String)
  | duplicate (name : String)
deriving DecidableEq

namespace ChannelError

def name : ChannelError → String
  | unknown name => name
  | duplicate name => name

def message : ChannelError → String
  | unknown name => "unknown channel: " ++ name
  | duplicate name => "channel already registered: " ++ name

def fault (e : ChannelError) : Fault :=
  match e with
  | unknown _ =>
    .advised "UnknownChannel" e.message "agentweave::channels::unknown"
      "Only channels registered by a compiled node can be written."
  | duplicate _ =>
    .advised "DuplicateChannel" e.message "agentweave::channels::duplicate"
      "Two nodes derive the same channel name; rename one of the node keys."

end ChannelError

/-- The channels of a graph in the order of their declaration. -/
abbrev Schema := List Channel

namespace Schema

def get? (s : Schema) (name : String) : Option Channel := s.find? (·.name == name)

def contains (s : Schema) (name : String) : Bool := (s.get? name).isSome

/-- Adds a declaration, unless its name is taken. -/
def register (s : Schema) (c : Channel) : Except ChannelError Schema :=
  if s.contains c.name then .error (.duplicate c.name) else .ok (s ++ [c])

/-- The names of the channels in order. -/
def names (s : Schema) : List String := s.map (·.name)

end Schema

end Workgraph
