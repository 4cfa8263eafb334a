import Workgraph.Run.Frontier
import Workgraph.State.Store
/-!
# Runs

A run goes through a workflow step by step. In a step all nodes of the frontier see the same state;
what they give back is then written in the order of the frontier, a checkpoint is saved, and the
next frontier is found. A run ends when nothing is left to do, when it pauses, fails or is
cancelled, or when it has used up its steps.

The run is a machine whose moves are as small as whatever else goes on could tell apart: between two
moves a run may be cancelled, and other runs may move.

## Main definitions

- `RunStart`, `Outcome`: how a run begins, and what is reported of it in the end
- `Cursor`: where a run stands between two steps
- `Stage`: where a run stands between two moves
- `Runner`: a workflow and the circumstances of a run
- `Runner.advance`: one move, which is one of `Runner.begin`, `Runner.dispatch`, `Runner.gather` and
  `Runner.settle`
- `Runner.run`: a run from its start to its end
-/

namespace Workgraph

/-- How a run begins: afresh, or at a checkpoint, possibly with further input. -/
inductive RunStart where
  | fresh (input environment : Json)
  | resume (checkpoint : Checkpoint) (input : Option Json)

/-- What is reported of a run in the end: the state, the number of the last step, and the last
checkpoint. -/
structure Outcome where
  threadId : String
  status : RunStatus
  state : Snapshot
  steps : Nat
  checkpointId : Option String
  interrupt : Option Interrupt
  failure : Option RunFailure

/-- Where a run stands between two steps: the nodes to run next, the joins that wait, the number of
the last step, the last checkpoint, whether the next step passes by a pause in front of it, and how
many steps may still be begun. -/
structure Cursor where
  store : Store
  frontier : List String
  deferred : List String
  step : Nat
  parentId : Option String
  passesPause : Bool
  budget : Nat

/-- The results of the nodes of a step, each with the index of the node in the frontier, in the
order in which they came in. -/
abbrev Arrivals := List (Nat × Except NodeError NodeOutput)

/-- Where a run stands between two moves: it waits to begin, it stands between two steps, the nodes
of a step have run, what they gave back has been accepted, or the run has ended. -/
inductive Stage where
  | waiting (start : RunStart)
  | ready (c : Cursor)
  | running (c : Cursor) (arrivals : Arrivals)
  | accepted (c : Cursor) (outputs : List NodeOutput)
  | ended (o : Outcome)

namespace Stage

/-- The status that can be watched from outside. -/
def status : Stage → RunStatus
  | waiting _ => .pending
  | ended o => o.status
  | _ => .running

/-- The outcome of a run that has ended. -/
def outcome? : Stage → Option Outcome
  | ended o => some o
  | _ => none

end Stage

/-- A workflow and the circumstances of a run: the archive, the thread, the number of steps that may
be begun, the nodes to pause in front of and behind, and the order in which the nodes of a step run,
given as indices by the number of the step and the number of its nodes. -/
structure Runner (σ τ : Type) where
  graphId : String
  workflow : Workflow σ
  archive : Archive τ
  threadId : String
  checkpointNs : String
  limit : Nat
  pauseBefore : List String
  pauseAfter : List String
  order : Nat → Nat → List Nat

/-- What a run can see and change: the world of its nodes, and the contents of the archive. -/
structure RunWorld (σ τ : Type) where
  world : World σ
  archive : τ

/-- A part of a run, with a result. -/
abbrev RunPart (σ τ : Type) (α : Type) := StateM (RunWorld σ τ) α

namespace RunPart

variable {σ τ α : Type}

/-- An activity as a part of a run. -/
def perform (a : Activity σ α) : RunPart σ τ α := fun w =>
  let (x, world) := a w.world
  (x, { w with world := world })

/-- A change of the archive as a part of a run. -/
def onArchive (f : τ → α × τ) : RunPart σ τ α := fun w =>
  let (x, archive) := f w.archive
  (x, { w with archive := archive })

/-- Reports an event. -/
def report (e : Timestamp → Event) : RunPart σ τ Unit := perform do
  Activity.report (e (← Activity.now))

end RunPart

/-- The results of the nodes of a step in the order of the frontier. A node whose result did not
come in was cancelled. -/
def resultAt (arrivals : Arrivals) (index : Nat) : Except NodeError NodeOutput :=
  ((arrivals.find? (·.1 == index)).map (·.2)).getD (.error .cancelled)

/-- What the nodes of a step gave back, in the order of the frontier, or the error of the first node
in the frontier that failed. -/
def barrier (frontier : List String) (arrivals : Arrivals) :
    Except (String × NodeError) (List NodeOutput) :=
  frontier.zipIdx.mapM fun (key, index) =>
    (resultAt arrivals index).mapError fun e => (key, e)

/-- The transfers that the nodes of a step asked for. -/
def handoffsOf (outputs : List (String × NodeOutput)) : List (String × Handoff) :=
  outputs.filterMap fun (key, out) => out.handoff.map fun h => (key, h)

/-- The pauses that the nodes of a step asked for. -/
def interruptsOf (outputs : List (String × NodeOutput)) : List Interrupt :=
  outputs.filterMap fun (_, out) => out.interrupt

namespace Workflow

variable {σ : Type}

/-- The channel that a node writes: its own, or else the one named after it. -/
def channelOf (w : Workflow σ) (key : String) : String :=
  ((w.node? key).bind (·.channel)).getD (channelName key)

/-- Whether a node may hand off to another one. -/
def allowsHandoff (w : Workflow σ) (key target : String) : Bool :=
  (w.node? key).any (·.canHandOffTo target) && w.contains target

/-- Writes the update of a node. -/
def writeUpdate (w : Workflow σ) (key : String) (out : NodeOutput) (store : Store) :
    Except ChannelError Store :=
  match out.update.filter fun u => !u.isNull with
  | none => .ok store
  | some u => (store.apply (w.channelOf key) u).map (·.2)

/-- The store after what a node gave back has been written, as far as it could be, and what was
wrong with it. -/
def writeOutput (w : Workflow σ) (key : String) (out : NodeOutput) (store : Store) :
    Store × Option RunError :=
  match w.writeUpdate key out store with
  | .error e => (store, some (.channel key e))
  | .ok store =>
    let store := store.append (out.messages.getD [])
    match out.handoff with
    | none => (store, none)
    | some h =>
      if w.allowsHandoff key h.target then (store.append h.messages, none)
      else (store, some (.invalidHandoff key h.target))

/-- The nodes that run behind a checkpoint and the joins that wait: the nodes that a pause stopped
in front of, or else those that the last step routes to, or else the entry. -/
def resumeFrontier (w : Workflow σ) (s : Snapshot) (r : StepRecord) :
    Except RunError (List String × List String) :=
  if !r.pending.isEmpty then .ok (r.pending, r.deferred)
  else if r.ranNodes.isEmpty && r.deferred.isEmpty then .ok (w.entry, [])
  else do
    let routed ← w.candidates r.ranNodes r.handoffs s
    .ok (w.holdJoins (appendNew routed r.deferred))

end Workflow

namespace Runner

variable {σ τ : Type}

/-- The order in which the nodes of a step stand in the frontier. -/
def frontierOrder (_step count : Nat) : List Nat := List.range count

/-- The store in which nothing has been written. -/
def freshStore (r : Runner σ τ) : Store := .fresh r.workflow.schema

/-- The cursor of a run that has not begun. -/
def blankCursor (r : Runner σ τ) : Cursor :=
  ⟨r.freshStore, [], [], 0, none, false, r.limit⟩

def reportStatus (r : Runner σ τ) (step : Nat) (status : RunStatus) : RunPart σ τ Unit :=
  RunPart.report fun t => .run ⟨r.threadId, step, status.text, t⟩

/-- What is reported of a run that ends where a cursor stands. -/
def outcomeAt (r : Runner σ τ) (c : Cursor) (status : RunStatus) (interrupt : Option Interrupt)
    (failure : Option RunFailure) : Outcome :=
  ⟨r.threadId, status, c.store.state, c.step, c.parentId, interrupt, failure⟩

/-- Ends a run without a failure. -/
def stop (r : Runner σ τ) (c : Cursor) (status : RunStatus) (interrupt : Option Interrupt) :
    RunPart σ τ Stage := do
  r.reportStatus c.step status
  return .ended (r.outcomeAt c status interrupt none)

/-- Ends a run with a failure. -/
def fail (r : Runner σ τ) (c : Cursor) (e : RunError) : RunPart σ τ Stage := do
  let failure := RunFailure.ofError e
  RunPart.report fun t => .error ⟨failure.nodeKey, c.step, failure.message, t⟩
  r.reportStatus c.step .failed
  return .ended (r.outcomeAt c .failed none (some failure))

/-- Saves a checkpoint: the cursor that stands behind it, or why it could not be saved. -/
def save (r : Runner σ τ) (c : Cursor) (record : StepRecord) :
    RunPart σ τ (Except RunError Cursor) := do
  let number ← RunPart.perform Activity.draw
  let time ← RunPart.perform Activity.now
  let checkpoint : Checkpoint :=
    { threadId := r.threadId
      checkpointNs := r.checkpointNs
      id := s!"{r.threadId}/{number}"
      parentId := c.parentId
      state := c.store.state
      record := record
      createdAt := time }
  match ← RunPart.onArchive (r.archive.save checkpoint) with
  | .ok id => return .ok { c with parentId := some id }
  | .error e => return .error (.archive e)

/-- Saves a checkpoint and pauses. -/
def pause (r : Runner σ τ) (c : Cursor) (record : StepRecord) (i : Interrupt) :
    RunPart σ τ Stage := do
  match ← r.save c { record with source := .pause, interrupt := some i } with
  | .error e => r.fail c e
  | .ok c => do
    RunPart.report fun t => .interrupt ⟨r.threadId, c.step, i, t⟩
    r.stop c .interrupted (some i)

/-- The cursor of a fresh run. -/
def freshCursor (r : Runner σ τ) (input environment : Json) : Cursor :=
  { r.blankCursor with
    store := r.freshStore.withInputs input environment
    frontier := r.workflow.entry }

/-- The store behind a checkpoint, with further input. -/
def resumedStore (r : Runner σ τ) (checkpoint : Checkpoint) (input : Option Json) : Store :=
  let store := r.freshStore.restore checkpoint.state
  match input with
  | some more => store.mergeInput more
  | none => store

/-- The cursor of a resumed run. -/
def resumedCursor (r : Runner σ τ) (checkpoint : Checkpoint) (input : Option Json) :
    Except RunError Cursor := do
  let store := r.resumedStore checkpoint input
  let (frontier, deferred) ← r.workflow.resumeFrontier store.state checkpoint.record
  return {
    store := store
    frontier := frontier
    deferred := deferred
    step := checkpoint.record.step
    parentId := some checkpoint.id
    passesPause := true
    budget := r.limit }

/-- The first move: the run comes to stand in front of its first step. -/
def begin (r : Runner σ τ) (start : RunStart) : RunPart σ τ Stage := do
  r.reportStatus 0 .running
  match start with
  | .fresh input environment =>
    match ← r.save (r.freshCursor input environment) (.blank r.graphId 0 .input) with
    | .ok c => return .ready c
    | .error e => r.fail r.blankCursor e
  | .resume checkpoint input =>
    match r.resumedCursor checkpoint input with
    | .ok c => return .ready c
    | .error e => r.fail r.blankCursor e

/-- What a node is told about its step. -/
def contextOf (r : Runner σ τ) (c : Cursor) (key : String) (execution : Nat) : NodeContext :=
  ⟨key, c.step + 1, r.threadId, r.checkpointNs, c.parentId, execution, [], false⟩

/-- Runs one node of a step. -/
def runNode (n : WorkNode σ) (ctx : NodeContext) (s : Snapshot) :
    Activity σ (Except NodeError NodeOutput) := do
  ctx.report fun t => .node ⟨ctx.nodeKey, ctx.step, .started, none, t⟩
  n.run ctx s

/-- Runs the nodes of a step with the given indices, one after the other. All see the same state.
`base` is the number of the first execution. -/
def runNodes (r : Runner σ τ) (c : Cursor) (base : Nat) : List Nat → Activity σ Arrivals
  | [] => return []
  | index :: rest => do
    match c.frontier[index]?.bind r.workflow.node? with
    | none => runNodes r c base rest
    | some n => do
      let result ← runNode n (r.contextOf c n.key (base + index)) c.store.state
      let more ← runNodes r c base rest
      return (index, result) :: more

/-- The node of a frontier that a run pauses in front of. -/
def pauseAhead? (r : Runner σ τ) (c : Cursor) : Option String :=
  if c.passesPause then none else c.frontier.find? r.pauseBefore.contains

/-- Begins a step: its nodes run, unless one of them is unknown. The run waits before they begin and
until they have come to an end, and nobody listens to events in between. -/
def runFrontier (r : Runner σ τ) (c : Cursor) : RunPart σ τ Stage := do
  match c.frontier.find? fun key => !r.workflow.contains key with
  | some key => r.fail c (.unknownNode key key)
  | none => do
    let base ← RunPart.perform (Activity.reserve c.frontier.length)
    let order := r.order (c.step + 1) c.frontier.length
    RunPart.perform Activity.wait
    let arrivals ← RunPart.perform (r.runNodes c base order)
    RunPart.perform Activity.wait
    return .running c arrivals

/-- The move between two steps: the run ends, pauses, or begins its next step. -/
def dispatch (r : Runner σ τ) (c : Cursor) : RunPart σ τ Stage := do
  if c.frontier.isEmpty then return ← r.stop c .completed none
  if ← RunPart.perform Activity.isCancelled then return ← r.stop c .canceled none
  match c.budget with
  | 0 => r.fail c (.stepBudget r.limit)
  | budget + 1 =>
    let c := { c with budget := budget }
    match r.pauseAhead? c with
    | some key =>
      let record := { StepRecord.blank r.graphId c.step .pause with
        pending := c.frontier
        deferred := c.deferred }
      r.pause c record (.plain key "interrupt_before")
    | none => r.runFrontier { c with passesPause := false }

/-- The move behind the nodes of a step: what they gave back is accepted as a whole, unless the run
has been cancelled or a node has failed. -/
def gather (r : Runner σ τ) (c : Cursor) (arrivals : Arrivals) : RunPart σ τ Stage := do
  if ← RunPart.perform Activity.isCancelled then return ← r.stop c .canceled none
  match barrier c.frontier arrivals with
  | .ok outputs => return .accepted c outputs
  | .error (key, e) => do
    RunPart.report fun t => .node ⟨key, c.step + 1, .failed, none, t⟩
    r.fail c (.node key ((r.workflow.node? key).bind (·.channel)) e)

/-- Writes what the nodes of a step gave back, one after the other, up to the first that cannot be
written: the store, and what was wrong. -/
def writeAll (r : Runner σ τ) (step : Nat) (store : Store) :
    List (String × NodeOutput) → RunPart σ τ (Store × Option RunError)
  | [] => return (store, none)
  | (key, out) :: rest => do
    match r.workflow.writeOutput key out store with
    | (store, some e) => return (store, some e)
    | (store, none) => do
      RunPart.report fun t => .node ⟨key, step, .completed, none, t⟩
      writeAll r step store rest

/-- The pause behind a step: the first one that a node asked for, or else one behind a node that the
run pauses behind. -/
def pauseBehind? (r : Runner σ τ) (outputs : List (String × NodeOutput)) (ran : List String) :
    Option Interrupt :=
  (interruptsOf outputs).head?.or <|
    (ran.find? r.pauseAfter.contains).map fun key => .plain key "interrupt_after"

/-- The last part of a step: the next frontier is found, and the run may pause. -/
def route (r : Runner σ τ) (c : Cursor) (record : StepRecord) (interrupt : Option Interrupt) :
    RunPart σ τ Stage := do
  match r.workflow.candidates record.ranNodes record.handoffs c.store.state with
  | .error e => r.fail c e
  | .ok routed =>
    let (frontier, deferred) := r.workflow.holdJoins (appendNew routed c.deferred)
    let c := { c with frontier := frontier, deferred := deferred }
    match interrupt with
    | none => return .ready c
    | some i => r.pause c record i

/-- The move that completes a step: everything is written, a checkpoint is saved, and the run comes
to stand in front of the next step. -/
def settle (r : Runner σ τ) (c : Cursor) (outputs : List NodeOutput) : RunPart σ τ Stage := do
  let step := c.step + 1
  let named := c.frontier.zip outputs
  match ← r.writeAll step c.store named with
  | (store, some e) => r.fail { c with store := store } e
  | (store, none) => do
    let c := { c with store := store, step := step }
    let record := { StepRecord.blank r.graphId step .step with
      ranNodes := c.frontier
      handoffs := handoffsOf named
      deferred := c.deferred }
    match ← r.save c record with
    | .error e => r.fail c e
    | .ok c => r.route c record (r.pauseBehind? named c.frontier)

/-- One move. -/
def advance (r : Runner σ τ) : Stage → RunPart σ τ Stage
  | .waiting start => r.begin start
  | .ready c => r.dispatch c
  | .running c arrivals => r.gather c arrivals
  | .accepted c outputs => r.settle c outputs
  | .ended o => return .ended o

/-- A number of moves. -/
def moves (r : Runner σ τ) : Nat → Stage → RunPart σ τ Stage
  | 0, stage => return stage
  | n + 1, stage => do
    match stage with
    | .ended o => return .ended o
    | stage => moves r n (← r.advance stage)

/-- A number of moves within which every run ends: one to begin, three for each step, and one to
notice that no step is left. -/
def enoughMoves (limit : Nat) : Nat := 3 * limit + 2

/-- A run from its start to its end. -/
def run (r : Runner σ τ) (start : RunStart) : RunPart σ τ (Option Outcome) := do
  return (← r.moves (enoughMoves r.limit) (.waiting start)).outcome?

end Runner

end Workgraph
