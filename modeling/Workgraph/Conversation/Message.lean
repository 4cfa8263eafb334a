import Workgraph.Json.Decoder
/-!
# Messages

The conversation that the agents of a run share: what users, models and tools have said, and which
tools were called.

## Main definitions

- `ToolCall`, `Message`: calls of tools and messages
- `Message.user`, `Message.assistant`, `Message.system`, `Message.tool`: messages by role
- `Message.hasToolCalls`: whether a message asks for tools
- `ToolCall.decoder`, `Message.decoder`: reading; `Message.toJson`: writing
-/

namespace Workgraph

/-- A request to run a tool. -/
structure ToolCall where
  id : String
  name : String
  args : Json

namespace Role

/-- The role of the people who use a workflow. -/
def user : String := "user"

def assistant : String := "assistant"

def system : String := "system"

/-- The role of the results of tools. -/
def tool : String := "tool"

end Role

/-- A message: who speaks, what is said, which tools are asked for, and which call is answered. -/
structure Message where
  role : String
  content : String
  name : Option String
  toolCalls : List ToolCall
  toolCallId : Option String

namespace ToolCall

def toJson (c : ToolCall) : Json :=
  .object [("id", .str c.id), ("name", .str c.name), ("args", c.args)]

def decoder : Decoder ToolCall :=
  Record.decoder "ToolCall" <|
    ToolCall.mk
      <$> Record.required "id" Decoder.text
      <*> Record.required "name" Decoder.text
      <*> Record.defaulted "args" Decoder.json .null

/-- Equality of calls. -/
def same (a b : ToolCall) : Bool := a.id == b.id && a.name == b.name && a.args.same b.args

end ToolCall

namespace Message

def plain (role content : String) : Message := ⟨role, content, none, [], none⟩

def user (content : String) : Message := plain Role.user content

def assistant (content : String) : Message := plain Role.assistant content

def system (content : String) : Message := plain Role.system content

/-- A model's request for tools. -/
def calling (content : String) (calls : List ToolCall) : Message :=
  { assistant content with toolCalls := calls }

def tool (content callId name : String) : Message :=
  ⟨Role.tool, content, some name, [], some callId⟩

/-- The result of a given call. -/
def answer (call : ToolCall) (content : String) : Message := tool content call.id call.name

/-- Whether a message has a given role. -/
def hasRole (m : Message) (role : String) : Bool := m.role == role

/-- Whether a model asks for tools. -/
def hasToolCalls (m : Message) : Bool := m.hasRole Role.assistant && !m.toolCalls.isEmpty

/-- The written form of a message; what is absent is left out. -/
def toJson (m : Message) : Json :=
  .object <| [("role", .str m.role), ("content", .str m.content)] ++
    (m.name.map fun n => ("name", Json.str n)).toList ++
    (if m.toolCalls.isEmpty then []
      else [("tool_calls", .arr (m.toolCalls.map ToolCall.toJson))]) ++
    (m.toolCallId.map fun i => ("tool_call_id", Json.str i)).toList

def decoder : Decoder Message :=
  Record.decoder "Message" <|
    Message.mk
      <$> Record.required "role" Decoder.text
      <*> Record.required "content" Decoder.text
      <*> Record.defaulted "name" (Decoder.optional Decoder.text) none
      <*> Record.defaulted "tool_calls" (Decoder.list ToolCall.decoder) []
      <*> Record.defaulted "tool_call_id" (Decoder.optional Decoder.text) none

def listToJson (ms : List Message) : Json := .arr (ms.map toJson)

end Message

end Workgraph
