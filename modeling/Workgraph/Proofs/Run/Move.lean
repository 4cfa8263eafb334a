import Workgraph.Run.Machine
/-!
# Moves of runs

Everything that a move of a run can do, one constructor for each way it can go. Whatever is proved
of runs goes through this relation, so that no other proof has to take the machine apart. Of the log
of events it says nothing.

## Main definitions

- `Workflow.writeOutputs`: what the nodes of a step gave back is written in order
- `Runner.checkpointAt`, `Runner.pendingRecord`, `Runner.stepRecord`: what is saved
- `Cursor.stepped`, `Cursor.savedAs`, `Cursor.sentTo`: how a cursor moves on
- `Runner.Move`: the moves

## Main statements

- `Runner.advance_move`: one move of the machine is one of these
-/

namespace Workgraph

variable {σ τ : Type}

/-- The world after some identifiers have been drawn, with other contents of the archive and another
log. -/
def RunWorld.turn (w : RunWorld σ τ) (drawn : Nat) (archive : τ) (log : EventLog) : RunWorld σ τ :=
  ⟨{ w.world with issued := w.world.issued + drawn, log := log }, archive⟩

@[simp] theorem RunWorld.turn_archive (w : RunWorld σ τ) (drawn : Nat) (archive : τ)
    (log : EventLog) : (w.turn drawn archive log).archive = archive := rfl

@[simp] theorem RunWorld.turn_cancelled (w : RunWorld σ τ) (drawn : Nat) (archive : τ)
    (log : EventLog) : (w.turn drawn archive log).world.cancelled = w.world.cancelled := rfl

@[simp] theorem RunWorld.turn_issued (w : RunWorld σ τ) (drawn : Nat) (archive : τ)
    (log : EventLog) : (w.turn drawn archive log).world.issued = w.world.issued + drawn := rfl

/-- The cursor of a run that has begun and has not ended. -/
def Stage.cursor? : Stage → Option Cursor
  | .ready c | .running c _ | .accepted c _ => some c
  | _ => none

theorem Stage.eq_ended_of_outcome? {stage : Stage} {o : Outcome} (h : stage.outcome? = some o) :
    stage = .ended o := by
  cases stage with
  | ended o' => exact congrArg Stage.ended (Option.some.inj h)
  | _ => cases h

namespace RunPart

variable {α β : Type}

theorem bind_apply (x : RunPart σ τ α) (f : α → RunPart σ τ β) (w : RunWorld σ τ) :
    (x >>= f) w = f (x w).1 (x w).2 := rfl

end RunPart

namespace Workflow

/-- Writes what nodes gave back, one after the other, up to the first that cannot be written: the
store, and what was wrong. -/
def writeOutputs (w : Workflow σ) (store : Store) :
    List (String × NodeOutput) → Store × Option RunError
  | [] => (store, none)
  | (key, out) :: rest =>
    match w.writeOutput key out store with
    | (store, some e) => (store, some e)
    | (store, none) => writeOutputs w store rest

end Workflow

namespace Cursor

/-- The cursor behind a step that leaves a store. -/
def stepped (c : Cursor) (store : Store) : Cursor := { c with store := store, step := c.step + 1 }

/-- The cursor behind a checkpoint. -/
def savedAs (c : Cursor) (id : String) : Cursor := { c with parentId := some id }

/-- The cursor in front of a frontier and the joins that wait. -/
def sentTo (c : Cursor) (split : List String × List String) : Cursor :=
  { c with frontier := split.1, deferred := split.2 }

/-- The cursor of a step that begins, with the rest of the budget. -/
def entered (c : Cursor) (budget : Nat) : Cursor :=
  { c with budget := budget, passesPause := false }

end Cursor

namespace Runner

variable (r : Runner σ τ)

/-- The checkpoint that is saved where a cursor stands. -/
def checkpointAt (c : Cursor) (record : StepRecord) (w : World σ) : Checkpoint where
  threadId := r.threadId
  checkpointNs := r.checkpointNs
  id := s!"{r.threadId}/{w.issued}"
  parentId := c.parentId
  state := c.store.state
  record := record
  createdAt := w.clock

/-- The record of a pause in front of a frontier. -/
def pendingRecord (c : Cursor) (i : Interrupt) : StepRecord :=
  ⟨r.graphId, c.step, .pause, [], [], c.frontier, c.deferred, some i⟩

/-- The record of a step that begins where a cursor stands. -/
def stepRecord (c : Cursor) (outputs : List NodeOutput) : StepRecord :=
  ⟨r.graphId, c.step + 1, .step, c.frontier, handoffsOf (c.frontier.zip outputs), [], c.deferred,
    none⟩

/-- The record of a pause behind a step. -/
def pausedRecord (c : Cursor) (outputs : List NodeOutput) (i : Interrupt) : StepRecord :=
  { r.stepRecord c outputs with source := .pause, interrupt := some i }

/-- The outcome of a run that fails where a cursor stands. -/
def failedAt (c : Cursor) (e : RunError) : Outcome :=
  r.outcomeAt c .failed none (some (.ofError e))

/-- The cursor behind a checkpoint, in front of a frontier and the joins that wait. -/
def resumedAt (cp : Checkpoint) (input : Option Json) (split : List String × List String) :
    Cursor :=
  ⟨r.resumedStore cp input, split.1, split.2, cp.record.step, some cp.id, true, r.limit⟩

theorem resumedCursor_eq_ok_iff {cp : Checkpoint} {input : Option Json} {c : Cursor} :
    r.resumedCursor cp input = .ok c ↔ ∃ split,
      r.workflow.resumeFrontier (r.resumedStore cp input).state cp.record = .ok split ∧
      c = r.resumedAt cp input split := by
  unfold resumedCursor
  dsimp only
  cases r.workflow.resumeFrontier (r.resumedStore cp input).state cp.record with
  | error e => exact ⟨(nomatch ·), fun ⟨_, h, _⟩ => nomatch h⟩
  | ok split =>
    refine ⟨fun h => ⟨split, rfl, (Except.ok.inj h).symm⟩, ?_⟩
    rintro ⟨_, h, rfl⟩
    cases h
    rfl

/-- Saving goes through or is refused. -/
def Saves (c : Cursor) (record : StepRecord) (w : RunWorld σ τ)
    (result : Except ArchiveError String) (t : τ) : Prop :=
  r.archive.save (r.checkpointAt c record w.world) w.archive = (result, t)

/-- What a move of a run can do. -/
inductive Move : Stage → RunWorld σ τ → Stage → RunWorld σ τ → Prop
  | begun {w : RunWorld σ τ} {input environment : Json} {id : String} {t : τ} (log : EventLog)
      (hs : r.Saves (r.freshCursor input environment) (.blank r.graphId 0 .input) w (.ok id) t) :
      Move (.waiting (.fresh input environment)) w
        (.ready ((r.freshCursor input environment).savedAs id)) (w.turn 1 t log)
  | beginRefused {w : RunWorld σ τ} {input environment : Json} {e : ArchiveError} {t : τ}
      (log : EventLog)
      (hs : r.Saves (r.freshCursor input environment) (.blank r.graphId 0 .input) w (.error e) t) :
      Move (.waiting (.fresh input environment)) w
        (.ended (r.failedAt r.blankCursor (.archive e))) (w.turn 1 t log)
  | resumed {w : RunWorld σ τ} {cp : Checkpoint} {input : Option Json} {c : Cursor} (log : EventLog)
      (hc : r.resumedCursor cp input = .ok c) :
      Move (.waiting (.resume cp input)) w (.ready c) (w.turn 0 w.archive log)
  | resumeFailed {w : RunWorld σ τ} {cp : Checkpoint} {input : Option Json} {e : RunError}
      (log : EventLog) (he : r.resumedCursor cp input = .error e) :
      Move (.waiting (.resume cp input)) w (.ended (r.failedAt r.blankCursor e))
        (w.turn 0 w.archive log)
  | completed {w : RunWorld σ τ} {c : Cursor} (log : EventLog) (hf : c.frontier = []) :
      Move (.ready c) w (.ended (r.outcomeAt c .completed none none)) (w.turn 0 w.archive log)
  | canceled {w : RunWorld σ τ} {c : Cursor} (log : EventLog) (hf : c.frontier ≠ [])
      (hw : w.world.cancelled = true) :
      Move (.ready c) w (.ended (r.outcomeAt c .canceled none none)) (w.turn 0 w.archive log)
  | exhausted {w : RunWorld σ τ} {c : Cursor} (log : EventLog) (hf : c.frontier ≠ [])
      (hw : w.world.cancelled = false) (hb : c.budget = 0) :
      Move (.ready c) w (.ended (r.failedAt c (.stepBudget r.limit))) (w.turn 0 w.archive log)
  | pausedAhead {w : RunWorld σ τ} {c : Cursor} {budget : Nat} {key id : String} {t : τ}
      (log : EventLog) (hf : c.frontier ≠ []) (hw : w.world.cancelled = false)
      (hb : c.budget = budget + 1) (hp : r.pauseAhead? c = some key)
      (hs : r.Saves c (r.pendingRecord c (.plain key "interrupt_before")) w (.ok id) t) :
      Move (.ready c) w
        (.ended
          (r.outcomeAt (c.savedAs id) .interrupted (some (.plain key "interrupt_before")) none))
        (w.turn 1 t log)
  | pauseAheadRefused {w : RunWorld σ τ} {c : Cursor} {budget : Nat} {key : String}
      {e : ArchiveError} {t : τ} (log : EventLog) (hf : c.frontier ≠ [])
      (hw : w.world.cancelled = false) (hb : c.budget = budget + 1)
      (hp : r.pauseAhead? c = some key)
      (hs : r.Saves c (r.pendingRecord c (.plain key "interrupt_before")) w (.error e) t) :
      Move (.ready c) w (.ended (r.failedAt c (.archive e))) (w.turn 1 t log)
  | strayNode {w : RunWorld σ τ} {c : Cursor} {budget : Nat} {key : String} (log : EventLog)
      (hw : w.world.cancelled = false) (hb : c.budget = budget + 1) (hp : r.pauseAhead? c = none)
      (hk : key ∈ c.frontier) (hn : r.workflow.contains key = false) :
      Move (.ready c) w (.ended (r.failedAt c (.unknownNode key key))) (w.turn 0 w.archive log)
  | dispatched {w : RunWorld σ τ} {c : Cursor} {budget : Nat} {arrivals : Arrivals}
      {world : World σ} (log log' : EventLog) (hf : c.frontier ≠ [])
      (hw : w.world.cancelled = false) (hb : c.budget = budget + 1) (hp : r.pauseAhead? c = none)
      (hk : ∀ key ∈ c.frontier, r.workflow.contains key = true)
      (ha : r.runNodes (c.entered budget) w.world.issued
        (r.order (c.step + 1) c.frontier.length)
        (w.turn c.frontier.length w.archive log).world = (arrivals, world)) :
      Move (.ready c) w (.running (c.entered budget) arrivals)
        ⟨{ world with log := log' }, w.archive⟩
  | dropped {w : RunWorld σ τ} {c : Cursor} {arrivals : Arrivals} (log : EventLog)
      (hw : w.world.cancelled = true) :
      Move (.running c arrivals) w (.ended (r.outcomeAt c .canceled none none))
        (w.turn 0 w.archive log)
  | nodeFailed {w : RunWorld σ τ} {c : Cursor} {arrivals : Arrivals} {key : String} {e : NodeError}
      (log : EventLog) (hw : w.world.cancelled = false)
      (hb : barrier c.frontier arrivals = .error (key, e)) :
      Move (.running c arrivals) w
        (.ended (r.failedAt c (.node key ((r.workflow.node? key).bind (·.channel)) e)))
        (w.turn 0 w.archive log)
  | accepted {w : RunWorld σ τ} {c : Cursor} {arrivals : Arrivals} {outputs : List NodeOutput}
      (hw : w.world.cancelled = false) (hb : barrier c.frontier arrivals = .ok outputs) :
      Move (.running c arrivals) w (.accepted c outputs) w
  | writeFailed {w : RunWorld σ τ} {c : Cursor} {outputs : List NodeOutput} {store : Store}
      {e : RunError} (log : EventLog)
      (ho : r.workflow.writeOutputs c.store (c.frontier.zip outputs) = (store, some e)) :
      Move (.accepted c outputs) w (.ended (r.failedAt { c with store := store } e))
        (w.turn 0 w.archive log)
  | stepRefused {w : RunWorld σ τ} {c : Cursor} {outputs : List NodeOutput} {store : Store}
      {e : ArchiveError} {t : τ} (log : EventLog)
      (ho : r.workflow.writeOutputs c.store (c.frontier.zip outputs) = (store, none))
      (hs : r.Saves (c.stepped store) (r.stepRecord c outputs) w (.error e) t) :
      Move (.accepted c outputs) w (.ended (r.failedAt (c.stepped store) (.archive e)))
        (w.turn 1 t log)
  | routeFailed {w : RunWorld σ τ} {c : Cursor} {outputs : List NodeOutput} {store : Store}
      {id : String} {t : τ} {e : RunError} (log : EventLog)
      (ho : r.workflow.writeOutputs c.store (c.frontier.zip outputs) = (store, none))
      (hs : r.Saves (c.stepped store) (r.stepRecord c outputs) w (.ok id) t)
      (hr : r.workflow.candidates c.frontier (handoffsOf (c.frontier.zip outputs)) store.state =
        .error e) :
      Move (.accepted c outputs) w (.ended (r.failedAt ((c.stepped store).savedAs id) e))
        (w.turn 1 t log)
  | settled {w : RunWorld σ τ} {c : Cursor} {outputs : List NodeOutput} {store : Store}
      {id : String} {t : τ} {routed : List String} (log : EventLog)
      (ho : r.workflow.writeOutputs c.store (c.frontier.zip outputs) = (store, none))
      (hs : r.Saves (c.stepped store) (r.stepRecord c outputs) w (.ok id) t)
      (hr : r.workflow.candidates c.frontier (handoffsOf (c.frontier.zip outputs)) store.state =
        .ok routed)
      (hi : r.pauseBehind? (c.frontier.zip outputs) c.frontier = none) :
      Move (.accepted c outputs) w
        (.ready (((c.stepped store).savedAs id).sentTo
          (r.workflow.holdJoins (appendNew routed c.deferred)))) (w.turn 1 t log)
  | pausedBehind {w : RunWorld σ τ} {c : Cursor} {outputs : List NodeOutput} {store : Store}
      {id id' : String} {t t' : τ} {routed : List String} {i : Interrupt} (log log' : EventLog)
      (ho : r.workflow.writeOutputs c.store (c.frontier.zip outputs) = (store, none))
      (hs : r.Saves (c.stepped store) (r.stepRecord c outputs) w (.ok id) t)
      (hr : r.workflow.candidates c.frontier (handoffsOf (c.frontier.zip outputs)) store.state =
        .ok routed)
      (hi : r.pauseBehind? (c.frontier.zip outputs) c.frontier = some i)
      (hs' : r.Saves ((c.stepped store).savedAs id) (r.pausedRecord c outputs i) (w.turn 1 t log)
        (.ok id') t') :
      Move (.accepted c outputs) w
        (.ended (r.outcomeAt ((c.stepped store).savedAs id') .interrupted (some i) none))
        (w.turn 2 t' log')
  | pauseBehindRefused {w : RunWorld σ τ} {c : Cursor} {outputs : List NodeOutput} {store : Store}
      {id : String} {t t' : τ} {routed : List String} {i : Interrupt} {e : ArchiveError}
      (log log' : EventLog)
      (ho : r.workflow.writeOutputs c.store (c.frontier.zip outputs) = (store, none))
      (hs : r.Saves (c.stepped store) (r.stepRecord c outputs) w (.ok id) t)
      (hr : r.workflow.candidates c.frontier (handoffsOf (c.frontier.zip outputs)) store.state =
        .ok routed)
      (hi : r.pauseBehind? (c.frontier.zip outputs) c.frontier = some i)
      (hs' : r.Saves ((c.stepped store).savedAs id) (r.pausedRecord c outputs i) (w.turn 1 t log)
        (.error e) t') :
      Move (.accepted c outputs) w (.ended (r.failedAt ((c.stepped store).savedAs id) (.archive e)))
        (w.turn 2 t' log')
  | rested {w : RunWorld σ τ} (o : Outcome) : Move (.ended o) w (.ended o) w

/-! ## The machine makes these moves -/

theorem save_apply {c : Cursor} {record : StepRecord} {w : RunWorld σ τ}
    {result : Except ArchiveError String} {t : τ} (h : r.Saves c record w result t) :
    r.save c record w =
      ((result.map c.savedAs).mapError RunError.archive, w.turn 1 t w.world.log) := by
  unfold Saves checkpointAt at h
  unfold save
  simp only [RunPart.bind_apply, RunPart.perform, RunPart.onArchive, Activity.draw,
    Activity.reserve, Activity.now, h]
  cases result <;> rfl

theorem writeAll_apply (step : Nat) (store : Store) (outputs : List (String × NodeOutput))
    (w : RunWorld σ τ) :
    ∃ log, r.writeAll step store outputs w =
      (r.workflow.writeOutputs store outputs, w.turn 0 w.archive log) := by
  induction outputs generalizing store w with
  | nil => exact ⟨w.world.log, rfl⟩
  | cons output rest ih =>
    obtain ⟨key, out⟩ := output
    unfold writeAll Workflow.writeOutputs
    obtain ⟨store', e, hs⟩ : ∃ store' e, r.workflow.writeOutput key out store = (store', e) :=
      ⟨_, _, rfl⟩
    cases e with
    | some e => exact ⟨w.world.log, by simp only [hs]; rfl⟩
    | none =>
      simp only [hs, RunPart.bind_apply]
      obtain ⟨log, hw⟩ := ih store'
        (RunPart.report (fun t => .node ⟨key, step, .completed, none, t⟩) w).2
      exact ⟨log, hw⟩

/-- A pause saves its checkpoint and ends the run, or fails. -/
theorem pause_apply (c : Cursor) (record : StepRecord) (i : Interrupt) (w : RunWorld σ τ) :
    (∃ id t log, r.Saves c { record with source := .pause, interrupt := some i } w (.ok id) t ∧
      r.pause c record i w =
        (.ended (r.outcomeAt (c.savedAs id) .interrupted (some i) none), w.turn 1 t log)) ∨
    (∃ e t log, r.Saves c { record with source := .pause, interrupt := some i } w (.error e) t ∧
      r.pause c record i w = (.ended (r.failedAt c (.archive e)), w.turn 1 t log)) := by
  obtain ⟨result, t, hs⟩ : ∃ result t,
      r.Saves c { record with source := .pause, interrupt := some i } w result t := ⟨_, _, rfl⟩
  unfold pause
  rw [RunPart.bind_apply, r.save_apply hs]
  cases result with
  | ok id => exact .inl ⟨id, t, _, hs, rfl⟩
  | error e => exact .inr ⟨e, t, _, hs, rfl⟩

theorem begin_move (start : RunStart) (w : RunWorld σ τ) :
    r.Move (.waiting start) w (r.begin start w).1 (r.begin start w).2 := by
  unfold begin
  rw [RunPart.bind_apply]
  obtain ⟨w₁, hw⟩ : ∃ w₁, (r.reportStatus 0 .running w).2 = w₁ := ⟨_, rfl⟩
  obtain ⟨log, rfl⟩ : ∃ log, w₁ = w.turn 0 w.archive log := ⟨_, hw.symm⟩
  rw [hw]
  cases start with
  | fresh input environment =>
    obtain ⟨result, t, hs⟩ : ∃ result t, r.Saves (r.freshCursor input environment)
        (.blank r.graphId 0 .input) (w.turn 0 w.archive log) result t := ⟨_, _, rfl⟩
    dsimp only
    rw [RunPart.bind_apply, r.save_apply hs]
    cases result with
    | ok id => exact .begun _ hs
    | error e => exact .beginRefused _ hs
  | resume cp input =>
    dsimp only
    cases hc : r.resumedCursor cp input with
    | ok c => exact .resumed _ hc
    | error e => exact .resumeFailed _ hc

theorem runFrontier_move {c : Cursor} {budget : Nat} {w : RunWorld σ τ} (hf : c.frontier ≠ [])
    (hw : w.world.cancelled = false) (hb : c.budget = budget + 1) (hp : r.pauseAhead? c = none) :
    r.Move (.ready c) w (r.runFrontier (c.entered budget) w).1
      (r.runFrontier (c.entered budget) w).2 := by
  unfold runFrontier
  cases hfind : (c.entered budget).frontier.find? fun key => !r.workflow.contains key with
  | some key =>
    exact .strayNode _ hw hb hp (List.mem_of_find?_eq_some hfind)
      (by simpa using List.find?_some hfind)
  | none =>
    have hk : ∀ key ∈ c.frontier, r.workflow.contains key = true := by
      intro key hkey
      simpa using List.find?_eq_none.mp hfind key hkey
    exact .dispatched _ _ hf hw hb hp hk rfl

theorem dispatch_move (c : Cursor) (w : RunWorld σ τ) :
    r.Move (.ready c) w (r.dispatch c w).1 (r.dispatch c w).2 := by
  unfold dispatch
  by_cases hf : c.frontier = []
  · rw [if_pos (by rw [hf]; rfl)]
    exact .completed _ hf
  · rw [if_neg (by simpa using hf), RunPart.bind_apply]
    change r.Move _ w ((if w.world.cancelled = true then _ else _ : RunPart σ τ Stage) w).1
      ((if w.world.cancelled = true then _ else _ : RunPart σ τ Stage) w).2
    cases hw : w.world.cancelled with
    | true => exact .canceled _ hf hw
    | false =>
      rw [if_neg Bool.false_ne_true]
      cases hb : c.budget with
      | zero => exact .exhausted _ hf hw hb
      | succ budget =>
        dsimp only
        cases hp : r.pauseAhead? { c with budget := budget } with
        | none => exact r.runFrontier_move hf hw hb hp
        | some key =>
          dsimp only
          obtain ⟨id, t, log, hs, he⟩ | ⟨e, t, log, hs, he⟩ := r.pause_apply
            { c with budget := budget } { StepRecord.blank r.graphId c.step .pause with
              pending := c.frontier, deferred := c.deferred } (.plain key "interrupt_before") w
          · rw [he]
            exact .pausedAhead log hf hw hb hp hs
          · rw [he]
            exact .pauseAheadRefused log hf hw hb hp hs

theorem gather_move (c : Cursor) (arrivals : Arrivals) (w : RunWorld σ τ) :
    r.Move (.running c arrivals) w (r.gather c arrivals w).1 (r.gather c arrivals w).2 := by
  unfold gather
  rw [RunPart.bind_apply]
  change r.Move _ w ((if w.world.cancelled = true then _ else _ : RunPart σ τ Stage) w).1
    ((if w.world.cancelled = true then _ else _ : RunPart σ τ Stage) w).2
  cases hw : w.world.cancelled with
  | true => exact .dropped _ hw
  | false =>
    rw [if_neg Bool.false_ne_true]
    cases hb : barrier c.frontier arrivals with
    | ok outputs => exact .accepted hw hb
    | error failure => exact .nodeFailed _ hw hb

theorem route_move {c : Cursor} {outputs : List NodeOutput} {w : RunWorld σ τ} {store : Store}
    {id : String} {t : τ} (log : EventLog)
    (ho : r.workflow.writeOutputs c.store (c.frontier.zip outputs) = (store, none))
    (hs : r.Saves (c.stepped store) (r.stepRecord c outputs) w (.ok id) t) :
    r.Move (.accepted c outputs) w
      (r.route ((c.stepped store).savedAs id) (r.stepRecord c outputs)
        (r.pauseBehind? (c.frontier.zip outputs) c.frontier) (w.turn 1 t log)).1
      (r.route ((c.stepped store).savedAs id) (r.stepRecord c outputs)
        (r.pauseBehind? (c.frontier.zip outputs) c.frontier) (w.turn 1 t log)).2 := by
  unfold route
  cases hr : r.workflow.candidates (r.stepRecord c outputs).ranNodes
      (r.stepRecord c outputs).handoffs ((c.stepped store).savedAs id).store.state with
  | error e => exact .routeFailed _ ho hs hr
  | ok routed =>
    dsimp only
    cases hi : r.pauseBehind? (c.frontier.zip outputs) c.frontier with
    | none => exact .settled _ ho hs hr hi
    | some i =>
      obtain ⟨c', hc⟩ : ∃ c', c' = ((c.stepped store).savedAs id).sentTo
        (r.workflow.holdJoins (appendNew routed c.deferred)) := ⟨_, rfl⟩
      change r.Move _ w (r.pause (((c.stepped store).savedAs id).sentTo
          (r.workflow.holdJoins (appendNew routed c.deferred))) _ i _).1
        (r.pause (((c.stepped store).savedAs id).sentTo
          (r.workflow.holdJoins (appendNew routed c.deferred))) _ i _).2
      rw [← hc]
      obtain ⟨id', t', log', hs', he⟩ | ⟨e, t', log', hs', he⟩ := r.pause_apply c'
        (r.stepRecord c outputs) i (w.turn 1 t log)
      · subst hc
        rw [he]
        exact .pausedBehind _ _ ho hs hr hi hs'
      · subst hc
        rw [he]
        exact .pauseBehindRefused _ _ ho hs hr hi hs'

theorem settle_move (c : Cursor) (outputs : List NodeOutput) (w : RunWorld σ τ) :
    r.Move (.accepted c outputs) w (r.settle c outputs w).1 (r.settle c outputs w).2 := by
  unfold settle
  dsimp only
  obtain ⟨log, hw⟩ := r.writeAll_apply (c.step + 1) c.store (c.frontier.zip outputs) w
  rw [RunPart.bind_apply, hw]
  obtain ⟨store, result, ho⟩ : ∃ store result,
      r.workflow.writeOutputs c.store (c.frontier.zip outputs) = (store, result) := ⟨_, _, rfl⟩
  rw [ho]
  cases result with
  | some e => exact .writeFailed _ ho
  | none =>
    obtain ⟨saved, t, hs⟩ : ∃ saved t, r.Saves (c.stepped store) (r.stepRecord c outputs)
        (w.turn 0 w.archive log) saved t := ⟨_, _, rfl⟩
    change r.Move _ w ((r.save (c.stepped store) (r.stepRecord c outputs) >>= _) _).1
      ((r.save (c.stepped store) (r.stepRecord c outputs) >>= _) _).2
    rw [RunPart.bind_apply, r.save_apply hs]
    cases saved with
    | error e => exact .stepRefused _ ho hs
    | ok id => exact r.route_move log ho hs

/-- One move of the machine is one of these. -/
theorem advance_move (stage : Stage) (w : RunWorld σ τ) :
    r.Move stage w (r.advance stage w).1 (r.advance stage w).2 := by
  cases stage with
  | waiting start => exact r.begin_move start w
  | ready c => exact r.dispatch_move c w
  | running c arrivals => exact r.gather_move c arrivals w
  | accepted c outputs => exact r.settle_move c outputs w
  | ended o => exact .rested o

end Runner

end Workgraph
