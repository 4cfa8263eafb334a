import Workgraph.Conversation.Message
/-!
# Signals

What a node can ask for besides writing its channel: to continue at particular nodes, to hand
control to another agent, or to pause the run.

## Main definitions

- `Route`: where a run continues behind a node
- `Handoff`: a transfer of control
- `Interrupt`: a request to pause
-/

namespace Workgraph

/-- Where a run continues behind a node: at nodes in order, or nowhere. -/
inductive Route where
  | next (targets : List String)
  | stop
deriving DecidableEq

namespace Route

/-- The route to a list of targets, which may be empty. -/
def ofTargets (targets : List String) : Route := if targets.isEmpty then stop else next targets

/-- The targets of a route. -/
def targets : Route → List String
  | next ts => ts
  | stop => []

def toJson : Route → Json
  | next ts => .texts ts
  | stop => .str "end"

end Route

/-- A transfer of control to an agent, with the messages that record it. -/
structure Handoff where
  target : String
  messages : List Message

namespace Handoff

def toJson (h : Handoff) : Json :=
  .object <| ("target", .str h.target) ::
    (if h.messages.isEmpty then [] else [("messages", Message.listToJson h.messages)])

def decoder : Decoder Handoff :=
  Record.decoder "HandoffSignal" <|
    Handoff.mk
      <$> Record.required "target" Decoder.text
      <*> Record.defaulted "messages" (Decoder.list Message.decoder) []

end Handoff

/-- A request to pause a run: the node it was raised at, the reason, and a value to show. -/
structure Interrupt where
  node : String
  reason : String
  value : Json

namespace Interrupt

def plain (node reason : String) : Interrupt := ⟨node, reason, .null⟩

/-- The written form of a pause; a null value is left out. -/
def toJson (i : Interrupt) : Json :=
  .object <| [("node", .str i.node), ("reason", .str i.reason)] ++
    (if i.value.isNull then [] else [("value", i.value)])

def decoder : Decoder Interrupt :=
  Record.decoder "Interrupt" <|
    Interrupt.mk
      <$> Record.required "node" Decoder.text
      <*> Record.required "reason" Decoder.text
      <*> Record.defaulted "value" Decoder.json .null

end Interrupt

end Workgraph
