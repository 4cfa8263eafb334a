import Workgraph.Conversation.Message
import Workgraph.Selector
/-!
# The state of a run

Everything that nodes of a run share: the values of the channels, the conversation, the input and
the environment. Nodes see a state as it was before their step.

## Main definitions

- `Snapshot`: a state
- `Snapshot.parameters`: the value that conditions and templates are resolved in
- `Snapshot.resolve?`: the value that a selector of a node resolves to
- `Snapshot.toJson`, `Snapshot.decoder`: the written form
-/

namespace Workgraph

/-- The shared state of a run. The version of a channel counts the changes of its value. -/
structure Snapshot where
  channels : Table Json
  messages : List Message
  environment : Json
  input : Json
  versions : Table Nat

namespace Snapshot

/-- The state in which nothing is set. -/
def empty : Snapshot := ⟨[], [], .null, .null, []⟩

def channel? (s : Snapshot) (name : String) : Option Json := s.channels.get? name

/-- The number of changes of a channel. -/
def version (s : Snapshot) (name : String) : Nat := (s.versions.get? name).getD 0

/-- The name under which selectors find the input. -/
def inputName : String := "input"

/-- The name under which selectors find the environment. -/
def environmentName : String := "env"

/-- The channels as one object, together with the input and the environment, which hide channels of
their names. -/
def parameters (s : Snapshot) : Json :=
  .obj ((s.channels.insert inputName s.input).insert environmentName s.environment)

/-- The value that the first part of a selector names. -/
def root? (s : Snapshot) (name : String) : Option Json :=
  if name == inputName then some s.input
  else if name == environmentName then some s.environment
  else s.channel? name

/-- The value that a selector resolves to: its first part names the input, the environment or a
channel, and the rest is resolved in that value. -/
def resolve? (s : Snapshot) (selector : String) : Option Json :=
  let (name, rest) := (Text.cut? '.' selector).getD (selector, "")
  (s.root? name).bind fun v => v.select? rest

def toJson (s : Snapshot) : Json :=
  .object [("channels", .obj s.channels), ("messages", Message.listToJson s.messages),
    ("environment", s.environment), ("input", s.input),
    ("versions", .obj (s.versions.mapValues Json.nat))]

def decoder : Decoder Snapshot :=
  Record.decoder "ExecutionState" <|
    Snapshot.mk
      <$> Record.defaulted "channels" (Decoder.table Decoder.json) []
      <*> Record.defaulted "messages" (Decoder.list Message.decoder) []
      <*> Record.defaulted "environment" Decoder.json .null
      <*> Record.defaulted "input" Decoder.json .null
      <*> Record.defaulted "versions" (Decoder.table Decoder.unsigned32) []

end Snapshot

end Workgraph
