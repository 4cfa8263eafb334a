import Workgraph.Event.Bus
import Workgraph.Run.Engine
import Workgraph.Selector
import Workgraph.Text.Blank
/-!
# Configuration

The settings of an engine, their defaults, and the environment variables that override them.

## Main definitions

- `EngineConfig`: the settings
- `EngineConfig.ofEnvironment`: the defaults, overridden by environment variables
-/

namespace Workgraph

/-- The settings of an engine. -/
structure EngineConfig where
  run : RunSettings
  archive : ArchiveKind
  sqliteUrl : String
  events : BusConfig

namespace EngineConfig

/-- The variable for the number of steps of a run. -/
def limitVariable : String := "AGENTWEAVE_RECURSION_LIMIT"

/-- The variable for the number of nodes that may run at once. -/
def widthVariable : String := "AGENTWEAVE_MAX_CONCURRENCY"

/-- The variable for the namespace of checkpoints. -/
def checkpointNsVariable : String := "AGENTWEAVE_CHECKPOINT_NS"

/-- The variable for the address of a database. -/
def sqliteUrlVariable : String := "AGENTWEAVE_SQLITE_URL"

/-- The variable for the name of a database, which counts if there is no address. -/
def sqliteNameVariable : String := "SQLITE_DB_NAME"

/-- The address of a database with a given name, which may be an address already. -/
def sqliteUrlOf (name : String) : String :=
  if Text.startsWith name "sqlite:" then name else "sqlite://" ++ name

/-- The settings unless stated otherwise. -/
def default : EngineConfig where
  run := ⟨25, none, ""⟩
  archive := .inMemory
  sqliteUrl := sqliteUrlOf "agentweave.db"
  events := .consoleOnly

/-- The number that a variable holds, blanks around it aside. -/
def number? (s : String) : Option Nat := readIndex? (Text.trim s)

/-- The defaults, overridden by what variables hold. What cannot be read is passed over. -/
def ofEnvironment (lookup : String → Option String) : EngineConfig :=
  let c := default
  { c with
    run := {
      limit := ((lookup limitVariable).bind number?).getD c.run.limit
      width := (((lookup widthVariable).bind number?).filter (0 < ·)).or c.run.width
      checkpointNs := (lookup checkpointNsVariable).getD c.run.checkpointNs }
    sqliteUrl :=
      ((lookup sqliteUrlVariable).or ((lookup sqliteNameVariable).map sqliteUrlOf)).getD
        c.sqliteUrl }

/-- The settings with another number of steps. -/
def withLimit (c : EngineConfig) (n : Nat) : EngineConfig :=
  { c with run := { c.run with limit := n } }

/-- The settings with another number of nodes that may run at once; zero is treated as one. -/
def withWidth (c : EngineConfig) (n : Nat) : EngineConfig :=
  { c with run := { c.run with width := some (max n 1) } }

/-- The settings in which any number of nodes may run at once. -/
def withoutWidth (c : EngineConfig) : EngineConfig :=
  { c with run := { c.run with width := none } }

/-- The settings with another namespace of checkpoints. -/
def withCheckpointNs (c : EngineConfig) (ns : String) : EngineConfig :=
  { c with run := { c.run with checkpointNs := ns } }

def toJson (c : EngineConfig) : Json :=
  .object [("recursion_limit", .nat c.run.limit),
    ("max_concurrency", (c.run.width.map Json.nat).getD .null),
    ("checkpoint_ns", .str c.run.checkpointNs), ("checkpointer", .str c.archive.text),
    ("sqlite_url", .str c.sqliteUrl), ("capacity", .nat c.events.capacity),
    ("sinks", .texts (c.events.sinks.map SinkKind.text))]

end EngineConfig

end Workgraph
