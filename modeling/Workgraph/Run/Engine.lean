import Workgraph.Run.Machine
/-!
# Engines

An engine runs registered workflows on threads. A thread has at most one active run at a time, and a
run can be resumed at the latest checkpoint of its thread.

Resuming takes two steps: the latest checkpoint is looked up, and later a run is started from it. In
between, other runs may move.

## Main definitions

- `RunSettings`, `RunInput`, `ThreadOptions`: how runs are limited, started and paused
- `Engine`, `EngineState`: an engine, and everything that changes
- `Engine.start`, `Engine.latest`, `Engine.continueFrom`, `Engine.resume`, `Engine.cancel`: what one
  can ask of an engine
- `Engine.tick`, `Engine.finish`: one move of a run, and all of its moves
-/

namespace Workgraph

/-- How runs are limited: the number of steps, the number of nodes that may run at once, and the
namespace of the checkpoints. -/
structure RunSettings where
  limit : Nat
  width : Option Nat
  checkpointNs : String

/-- What a run is started with. -/
structure RunInput where
  input : Json
  environment : Json
  threadId : Option String
  pauseBefore : List String
  pauseAfter : List String

/-- What is remembered of a thread: its workflow and where its runs pause. -/
structure ThreadOptions where
  graphId : String
  pauseBefore : List String
  pauseAfter : List String
deriving DecidableEq

/-- A run that has not been cleared away. -/
structure ActiveRun (σ : Type) where
  options : ThreadOptions
  workflow : Workflow σ
  stage : Stage
  cancelled : Bool

/-- An engine with its settings and its archive. -/
structure Engine (σ τ : Type) where
  settings : RunSettings
  archive : Archive τ

/-- Everything that changes: the registered workflows, the active runs and the remembered options by
thread, how many identifiers each thread has drawn, the contents of the archive, the host, the log
of the events, and the time. -/
structure EngineState (σ τ : Type) where
  workflows : Table (Workflow σ)
  active : Table (ActiveRun σ)
  threads : Table ThreadOptions
  issued : Table Nat
  archive : τ
  host : σ
  log : EventLog
  clock : Timestamp

namespace EngineState

variable {σ τ : Type}

/-- The state in which nothing has been registered or started. -/
def start (host : σ) (archive : τ) : EngineState σ τ := ⟨[], [], [], [], archive, host, [], .epoch⟩

/-- Registers a workflow in place of an earlier one. -/
def register (s : EngineState σ τ) (graphId : String) (w : Workflow σ) : EngineState σ τ :=
  { s with workflows := s.workflows.insert graphId w }

/-- The registered workflow with a given name. -/
def workflow (s : EngineState σ τ) (graphId : String) : Except RunError (Workflow σ) :=
  match s.workflows.get? graphId with
  | some w => .ok w
  | none => .error (.graphNotFound graphId)

/-- Whether a thread has an active run. -/
def isActive (s : EngineState σ τ) (threadId : String) : Bool := s.active.contains threadId

/-- The world of a run on a thread. -/
def runWorld (s : EngineState σ τ) (threadId : String) (cancelled : Bool) : RunWorld σ τ :=
  ⟨⟨s.host, s.log, cancelled, s.clock, (s.issued.get? threadId).getD 0⟩, s.archive⟩

/-- The state after a run on a thread has changed its world. -/
def withRunWorld (s : EngineState σ τ) (threadId : String) (w : RunWorld σ τ) : EngineState σ τ :=
  { s with
    archive := w.archive
    host := w.world.host
    log := w.world.log
    issued := s.issued.insert threadId w.world.issued }

/-- Cancels the active run of a thread; whether there was one. -/
def cancel (s : EngineState σ τ) (threadId : String) : Bool × EngineState σ τ :=
  match s.active.get? threadId with
  | none => (false, s)
  | some run => (true, { s with active := s.active.insert threadId { run with cancelled := true } })

/-- Whether a thread has been seen. -/
def knows (s : EngineState σ τ) (threadId : String) : Bool := s.threads.contains threadId

/-- A name for a thread that has not been seen. One of one more names than there are threads is
free. -/
def freeThread (s : EngineState σ τ) : String :=
  let name (n : Nat) : String := s!"thread-{n}"
  name (((List.range (s.threads.length + 1)).find? fun n => !s.knows (name n)).getD 0)

/-- Lets a run begin on a thread, unless the thread is busy. -/
def spawn (s : EngineState σ τ) (threadId : String) (w : Workflow σ) (options : ThreadOptions)
    (start : RunStart) : Except RunError (EngineState σ τ) :=
  if s.isActive threadId then .error (.threadBusy threadId)
  else
    .ok { s with
      active := s.active.insert threadId ⟨options, w, .waiting start, false⟩
      threads := s.threads.insert threadId options }

end EngineState

namespace Engine

variable {σ τ : Type}

/-- The runner of a workflow on a thread. -/
def runner (e : Engine σ τ) (threadId : String) (w : Workflow σ) (options : ThreadOptions) :
    Runner σ τ where
  graphId := options.graphId
  workflow := w
  archive := e.archive
  threadId := threadId
  checkpointNs := e.settings.checkpointNs
  limit := e.settings.limit
  pauseBefore := options.pauseBefore
  pauseAfter := options.pauseAfter
  order := Runner.frontierOrder

/-- Starts a fresh run: the thread it runs on. -/
def start (s : EngineState σ τ) (graphId : String) (input : RunInput) :
    Except RunError (String × EngineState σ τ) := do
  let w ← s.workflow graphId
  let threadId := input.threadId.getD s.freeThread
  let options : ThreadOptions := ⟨graphId, input.pauseBefore, input.pauseAfter⟩
  let s ← s.spawn threadId w options (.fresh input.input input.environment)
  return (threadId, s)

/-- The latest checkpoint of a thread. -/
def latest (e : Engine σ τ) (s : EngineState σ τ) (threadId : String) :
    Except RunError Checkpoint :=
  match e.archive.load s.archive threadId e.settings.checkpointNs none with
  | .error err => .error (.archive err)
  | .ok none => .error (.threadNotFound threadId)
  | .ok (some c) => .ok c

/-- The options of a resumed run: those of the last run on the thread, if it ran the same
workflow. -/
def optionsFor (s : EngineState σ τ) (threadId graphId : String) : ThreadOptions :=
  ((s.threads.get? threadId).filter (·.graphId == graphId)).getD ⟨graphId, [], []⟩

/-- Starts a run on a thread at a checkpoint. -/
def continueFrom (s : EngineState σ τ) (threadId : String) (c : Checkpoint) (input : Option Json) :
    Except RunError (EngineState σ τ) := do
  let graphId := c.record.graphId
  let w ← s.workflow graphId
  s.spawn threadId w (optionsFor s threadId graphId) (.resume c input)

/-- Starts a run at the latest checkpoint of a thread. -/
def resume (e : Engine σ τ) (s : EngineState σ τ) (threadId : String) (input : Option Json) :
    Except RunError (EngineState σ τ) := do
  continueFrom s threadId (← e.latest s threadId) input

/-- One move of the active run of a thread. A run that has ended is cleared away, and its outcome is
given. -/
def tick (e : Engine σ τ) (threadId : String) (s : EngineState σ τ) :
    Option Outcome × EngineState σ τ :=
  match s.active.get? threadId with
  | none => (none, s)
  | some run =>
    match run.stage with
    | .ended o => (some o, { s with active := s.active.erase threadId })
    | stage =>
      let r := e.runner threadId run.workflow run.options
      let (stage, w) := r.advance stage (s.runWorld threadId run.cancelled)
      let s := s.withRunWorld threadId w
      (none, { s with
        active := s.active.insert threadId
          { run with stage := stage, cancelled := w.world.cancelled } })

/-- Moves of the active run of a thread, until its outcome is given. -/
def ticks (e : Engine σ τ) (threadId : String) :
    Nat → EngineState σ τ → Option Outcome × EngineState σ τ
  | 0, s => (none, s)
  | n + 1, s =>
    match e.tick threadId s with
    | (some o, s) => (some o, s)
    | (none, s) => ticks e threadId n s

/-- All moves of the active run of a thread. -/
def finish (e : Engine σ τ) (threadId : String) (s : EngineState σ τ) :
    Option Outcome × EngineState σ τ :=
  e.ticks threadId (Runner.enoughMoves e.settings.limit + 1) s

end Engine

end Workgraph
