import Workgraph.Conversation.Signal
import Workgraph.Graph.Description
import Workgraph.State.Channel
import Workgraph.State.Snapshot
/-!
# Navigators

How a node chooses where a run continues, after its update has been written. The targets are looked
up in the description once, so that choosing is a matter of the state alone.

## Main definitions

- `Navigator`: a rule of choice
- `Navigator.ofErrors`, `Navigator.ofPorts`: the rules for a node of a description
- `Navigator.choose`: the choice in a state
-/

namespace Workgraph

/-- A rule by which a node chooses where a run continues: by whether its channel reports an error,
by the port that a field of its channel names, or by any other function of the state. -/
inductive Navigator where
  | byError (channel : String) (success failure : List String)
  | byPort (channel field : String) (ports : List (String × List String))
  | custom (choose : Snapshot → Route)

namespace Navigator

/-- Follows the plain edges of a node, or those for failures. -/
def ofErrors (g : Description) (key : String) : Navigator :=
  byError (channelName key) (g.edgeTargets key) (g.edgeTargets (failPort key))

/-- The ports of a node that connections leave, each once. -/
def portsOf (g : Description) (key : String) : List String :=
  distinct ((g.links.filter fun l => l.sourceKey == key && l.sourcePort?.isSome).map (·.source))

/-- Follows the edges from the port that a field of the node's channel names. -/
def ofPorts (g : Description) (key field : String) : Navigator :=
  byPort (channelName key) field ((portsOf g key).map fun port => (port, g.edgeTargets port))

/-- Whether the value of a channel reports an error, which neither null nor the empty text does. -/
def reportsError (v : Json) : Bool :=
  match v.field? Channel.errorField with
  | none => false
  | some e => !e.isNull && !(e == .str "")

/-- The port that a field of the value of a channel names. -/
def selectedPort? (v : Json) (field : String) : Option String :=
  (v.field? field).bind Json.asText?

/-- Where a run continues. -/
def choose (n : Navigator) (s : Snapshot) : Route :=
  match n with
  | byError channel success failure =>
    .ofTargets (if (s.channel? channel).any reportsError then failure else success)
  | byPort channel field ports =>
    let selected := (s.channel? channel).bind fun v => selectedPort? v field
    match selected.bind fun port => ports.find? (·.1 == port) with
    | some (_, targets) => .ofTargets targets
    | none => .stop
  | custom f => f s

end Navigator

end Workgraph
