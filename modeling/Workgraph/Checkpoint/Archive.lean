import Workgraph.Checkpoint.Persisted
/-!
# Archives

Where checkpoints are kept. An archive only grows: a checkpoint that has been saved is never
changed, and no identifier is saved twice.

## Main definitions

- `ArchiveError`: why an archive refuses
- `Archive`: what every archive can do
- `Archive.memory`: an archive that keeps a chain for each thread and namespace
- `Archive.rows`: an archive that keeps rows of text in the order in which they were saved
- `Archive.either`: an archive that is one or the other
-/

namespace Workgraph

/-- Why an archive refuses. -/
inductive ArchiveError where
  | notFound (threadId : String)
  | conflict (checkpointId : String)
  | backend (message : String)
  | other (message : String)
deriving DecidableEq

namespace ArchiveError

def message : ArchiveError → String
  | notFound threadId => "checkpoint not found: " ++ threadId
  | conflict checkpointId => s!"checkpoint {checkpointId} already exists"
  | backend message => "backend error: " ++ message
  | other message => "checkpointer error: " ++ message

def fault (e : ArchiveError) : Fault :=
  match e with
  | notFound _ => .coded "NotFound" e.message "agentweave::checkpointer::not_found"
  | conflict _ =>
    .advised "Conflict" e.message "agentweave::checkpointer::conflict"
      "Checkpoints are append-only; save a new checkpoint instead."
  | backend _ =>
    .advised "Backend" e.message "agentweave::checkpointer::backend"
      "Check the storage backend's availability and credentials."
  | other _ => .coded "Other" e.message "agentweave::checkpointer::other"

end ArchiveError

/-- What an archive with contents of type `τ` can do: save a checkpoint, load one by its identifier
or the latest one, list the checkpoints behind another one or all of a chain, oldest first, and list
the threads. -/
structure Archive (τ : Type) where
  save : Checkpoint → τ → Except ArchiveError String × τ
  load : τ → String → String → Option String → Except ArchiveError (Option Checkpoint)
  children : τ → String → String → String → Except ArchiveError (List Checkpoint)
  list : τ → String → String → Except ArchiveError (List Checkpoint)
  threads : τ → Except ArchiveError (List String)

/-- Texts in increasing order, each once. -/
def sortedTexts (ss : List String) : List String :=
  (Table.ofList (ss.map fun s => (s, ()))).keys

/-- The chains of an archive in memory, by thread and namespace. -/
abbrev Chains := List ((String × String) × List Checkpoint)

namespace Chains

/-- The chain of a thread and a namespace. -/
def chain (cs : Chains) (threadId checkpointNs : String) : List Checkpoint :=
  ((cs.find? (·.1 == (threadId, checkpointNs))).map (·.2)).getD []

/-- Adds a checkpoint to the end of its chain. -/
def push : Chains → Checkpoint → Chains
  | [], c => [((c.threadId, c.checkpointNs), [c])]
  | (key, chain) :: rest, c =>
    if key == (c.threadId, c.checkpointNs) then (key, chain ++ [c]) :: rest
    else (key, chain) :: push rest c

/-- Saves a checkpoint unless its chain has one of the same identifier. -/
def save (c : Checkpoint) (cs : Chains) : Except ArchiveError String × Chains :=
  if (cs.chain c.threadId c.checkpointNs).any (·.id == c.id) then (.error (.conflict c.id), cs)
  else (.ok c.id, cs.push c)

/-- The checkpoint with an identifier in a chain, or the latest one. -/
def load (cs : Chains) (threadId checkpointNs : String) (id : Option String) : Option Checkpoint :=
  match id with
  | some id => (cs.chain threadId checkpointNs).find? (·.id == id)
  | none => (cs.chain threadId checkpointNs).getLast?

end Chains

/-- The archive that keeps chains in memory. -/
def Archive.memory : Archive Chains where
  save := Chains.save
  load := fun cs threadId checkpointNs id => .ok (cs.load threadId checkpointNs id)
  children := fun cs threadId checkpointNs parentId =>
    .ok ((cs.chain threadId checkpointNs).filter (·.parentId == some parentId))
  list := fun cs threadId checkpointNs => .ok (cs.chain threadId checkpointNs)
  threads := fun cs => .ok (sortedTexts (cs.map (·.1.1)))

/-- A row of an archive of text. -/
structure Row where
  id : String
  threadId : String
  checkpointNs : String
  parentId : Option String
  state : String
  record : String
  createdAt : String

namespace Row

/-- Whether a row belongs to a thread and a namespace. -/
def isOf (r : Row) (threadId checkpointNs : String) : Bool :=
  r.threadId == threadId && r.checkpointNs == checkpointNs

def ofCheckpoint (c : Checkpoint) : Row :=
  let p := PersistedCheckpoint.ofCheckpoint c
  ⟨p.id, p.threadId, p.checkpointNs, p.parentId, p.state.toJson.compact, p.record.toJson.compact,
    p.createdAt⟩

def toCheckpoint (r : Row) : Except PersistError Checkpoint := do
  let state ← readPersisted PersistedState.decoder "state" r.state
  let record ← readPersisted StepRecord.decoder "metadata" r.record
  PersistedCheckpoint.toCheckpoint
    ⟨r.threadId, r.checkpointNs, r.id, r.parentId, state, record, r.createdAt⟩

/-- Reads the checkpoint of a row; a row that cannot be read is an error of the archive. -/
def read (r : Row) : Except ArchiveError Checkpoint :=
  r.toCheckpoint.mapError fun e => .other e.message

end Row

/-- Rows in the order in which they were saved. -/
abbrev Rows := List Row

namespace Rows

/-- The rows of a thread and a namespace. -/
def chain (rs : Rows) (threadId checkpointNs : String) : List Row :=
  rs.filter (·.isOf threadId checkpointNs)

/-- Saves a checkpoint unless any row has its identifier. -/
def save (c : Checkpoint) (rs : Rows) : Except ArchiveError String × Rows :=
  if rs.any (·.id == c.id) then (.error (.conflict c.id), rs)
  else (.ok c.id, rs ++ [.ofCheckpoint c])

/-- The row with an identifier, or the latest one. -/
def row? (rs : Rows) (threadId checkpointNs : String) (id : Option String) : Option Row :=
  match id with
  | some id => (rs.chain threadId checkpointNs).find? (·.id == id)
  | none => (rs.chain threadId checkpointNs).getLast?

end Rows

/-- The archive that keeps rows of text. -/
def Archive.rows : Archive Rows where
  save := Rows.save
  load := fun rs threadId checkpointNs id => (rs.row? threadId checkpointNs id).mapM Row.read
  children := fun rs threadId checkpointNs parentId =>
    ((rs.chain threadId checkpointNs).filter (·.parentId == some parentId)).mapM Row.read
  list := fun rs threadId checkpointNs => (rs.chain threadId checkpointNs).mapM Row.read
  threads := fun rs => .ok (sortedTexts (rs.map (·.threadId)))

/-- The kinds of archives that a configuration can name. -/
inductive ArchiveKind where
  | inMemory
  | sqlite
deriving DecidableEq

/-- The name of a kind of archive. -/
def ArchiveKind.text : ArchiveKind → String
  | inMemory => "InMemory"
  | sqlite => "SQLite"

/-- The contents of an archive of either kind. -/
inductive Storage where
  | chains (cs : Chains)
  | rows (rs : Rows)

/-- An archive of a given kind in which nothing has been saved. -/
def Storage.empty : ArchiveKind → Storage
  | .inMemory => .chains []
  | .sqlite => .rows []

/-- The archive that works as the kind of its contents says. -/
def Archive.either : Archive Storage where
  save := fun c s =>
    match s with
    | .chains cs => let (r, cs) := memory.save c cs; (r, .chains cs)
    | .rows rs => let (r, rs) := rows.save c rs; (r, .rows rs)
  load := fun s =>
    match s with
    | .chains cs => memory.load cs
    | .rows rs => rows.load rs
  children := fun s =>
    match s with
    | .chains cs => memory.children cs
    | .rows rs => rows.children rs
  list := fun s =>
    match s with
    | .chains cs => memory.list cs
    | .rows rs => rows.list rs
  threads := fun s =>
    match s with
    | .chains cs => memory.threads cs
    | .rows rs => rows.threads rs

end Workgraph
