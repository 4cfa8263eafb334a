import Workgraph.Checkpoint.Basic
import Workgraph.Fault
/-!
# Persisted checkpoints

The form in which checkpoints are kept as text. Each channel is kept together with its version, and
the time of creation is kept as a text, which may turn out to be none.

## Main definitions

- `PersistedChannel`, `PersistedState`, `PersistedCheckpoint`: what is kept
- `PersistedState.ofState`, `PersistedState.toState`: states to and from what is kept
- `PersistedCheckpoint.ofCheckpoint`, `PersistedCheckpoint.toCheckpoint`: checkpoints
- `PersistError`: what can be wrong with what is kept
-/

namespace Workgraph

/-- The value of a channel with its version. -/
structure PersistedChannel where
  version : Nat
  value : Json

namespace PersistedChannel

def toJson (c : PersistedChannel) : Json :=
  .object [("version", .nat c.version), ("value", c.value)]

def decoder : Decoder PersistedChannel :=
  Record.decoder "PersistedChannel" <|
    PersistedChannel.mk
      <$> Record.required "version" Decoder.unsigned32
      <*> Record.required "value" Decoder.json

end PersistedChannel

/-- A state as it is kept. -/
structure PersistedState where
  channels : Table PersistedChannel
  messages : List Message
  input : Json
  environment : Json

namespace PersistedState

/-- A state as it is kept. Versions of names that are no channels are not kept. -/
def ofState (s : Snapshot) : PersistedState where
  channels := s.channels.map fun (name, value) => (name, ⟨s.version name, value⟩)
  messages := s.messages
  input := s.input
  environment := s.environment

/-- The state that is kept. A version of zero is none. -/
def toState (p : PersistedState) : Snapshot where
  channels := p.channels.mapValues (·.value)
  messages := p.messages
  environment := p.environment
  input := p.input
  versions := Table.mapValues (·.version) (p.channels.filter fun e => 0 < e.2.version)

def toJson (p : PersistedState) : Json :=
  .object [("channels", .obj (p.channels.mapValues PersistedChannel.toJson)),
    ("messages", Message.listToJson p.messages), ("input", p.input),
    ("environment", p.environment)]

def decoder : Decoder PersistedState :=
  Record.decoder "PersistedState" <|
    PersistedState.mk
      <$> Record.defaulted "channels" (Decoder.table PersistedChannel.decoder) []
      <*> Record.defaulted "messages" (Decoder.list Message.decoder) []
      <*> Record.defaulted "input" Decoder.json .null
      <*> Record.defaulted "environment" Decoder.json .null

end PersistedState

/-- What can be wrong with what is kept. -/
inductive PersistError where
  | missingField (name : String)
  | unreadable (what : String) (e : DecodeError)
  | invalidTime (value : String)
deriving DecidableEq

namespace PersistError

def message : PersistError → String
  | missingField name => "missing field: " ++ name
  | unreadable what e =>
    s!"JSON serialization/deserialization of {what} failed: {e.message}"
  | invalidTime value => s!"invalid timestamp '{value}'"

def fault (e : PersistError) : Fault :=
  match e with
  | missingField _ =>
    .advised "MissingField" e.message "agentweave::persistence::missing_field"
      "Populate the field in the persisted JSON before conversion."
  | unreadable _ _ =>
    .advised "Serde" e.message "agentweave::persistence::serde"
      "Ensure the JSON structure matches the Persisted* types."
  | invalidTime _ => .coded "Timestamp" e.message "agentweave::persistence::timestamp"

end PersistError

/-- A checkpoint as it is kept. -/
structure PersistedCheckpoint where
  threadId : String
  checkpointNs : String
  id : String
  parentId : Option String
  state : PersistedState
  record : StepRecord
  createdAt : String

namespace PersistedCheckpoint

def ofCheckpoint (c : Checkpoint) : PersistedCheckpoint where
  threadId := c.threadId
  checkpointNs := c.checkpointNs
  id := c.id
  parentId := c.parentId
  state := .ofState c.state
  record := c.record
  createdAt := c.createdAt.offsetText

/-- The checkpoint that is kept. It must have an identifier and a time of creation. -/
def toCheckpoint (p : PersistedCheckpoint) : Except PersistError Checkpoint :=
  if p.id.isEmpty then .error (.missingField "checkpoint_id")
  else
    match Timestamp.ofText p.createdAt with
    | .error _ => .error (.invalidTime p.createdAt)
    | .ok t =>
      .ok ⟨p.threadId, p.checkpointNs, p.id, p.parentId, p.state.toState, p.record, t⟩

def toJson (p : PersistedCheckpoint) : Json :=
  .object [("thread_id", .str p.threadId), ("checkpoint_ns", .str p.checkpointNs),
    ("checkpoint_id", .str p.id), ("parent_id", .text? p.parentId), ("state", p.state.toJson),
    ("metadata", p.record.toJson), ("created_at", .str p.createdAt)]

def decoder : Decoder PersistedCheckpoint :=
  Record.decoder "PersistedCheckpoint" <|
    PersistedCheckpoint.mk
      <$> Record.required "thread_id" Decoder.text
      <*> Record.required "checkpoint_ns" Decoder.text
      <*> Record.required "checkpoint_id" Decoder.text
      <*> Record.nullable "parent_id" Decoder.text
      <*> Record.required "state" PersistedState.decoder
      <*> Record.required "metadata" StepRecord.decoder
      <*> Record.required "created_at" Decoder.text

end PersistedCheckpoint

/-- Reads what is kept in a text; `what` names it in errors. -/
def readPersisted {α : Type} (d : Decoder α) (what text : String) : Except PersistError α :=
  (decodeText d text).mapError (.unreadable what)

end Workgraph
