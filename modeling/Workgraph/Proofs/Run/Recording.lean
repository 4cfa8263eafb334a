import Workgraph.Proofs.Run.Alike
import Workgraph.Proofs.Workflow.Compiled
/-!
# Recorded runs

A run that keeps a record of the checkpoints it has saved. The record is kept in the archive, beside
its contents, and changes nothing else. Between two moves anything else may go on: the run may be
cancelled, other runs may use the archive, the host may change; only the record belongs to the run.

## Main definitions

- `Archive.recording`, `Runner.recording`: an archive with a record, and a runner that uses it
- `Runner.SavesAt`: what a run saves, stage by stage
- `Runner.Reaches`: how far a run can come
- `Workflow.Wrote`: the checkpoints that runs of a workflow write
- `Workflow.Starts`: how runs of a workflow begin

## Main statements

- `Runner.recording_advance`: recording changes nothing
- `Runner.Reaches.induct`: what every move keeps holds wherever a run comes
-/

namespace Workgraph

variable {σ τ α β : Type}

/-- An archive with a record of the checkpoints that it has taken, oldest first. -/
def Archive.recording (a : Archive τ) : Archive (τ × List Checkpoint) where
  save := fun cp t =>
    match a.save cp t.1 with
    | (.ok id, contents) => (.ok id, (contents, t.2 ++ [cp]))
    | (.error e, contents) => (.error e, (contents, t.2))
  load := fun t => a.load t.1
  children := fun t => a.children t.1
  list := fun t => a.list t.1
  threads := fun t => a.threads t.1

namespace RunWorld

/-- The checkpoints on record. -/
def saved (w : RunWorld σ (τ × List Checkpoint)) : List Checkpoint := w.archive.2

/-- The world without the record. -/
def plain (w : RunWorld σ (τ × List Checkpoint)) : RunWorld σ τ := ⟨w.world, w.archive.1⟩

@[simp] theorem saved_turn (w : RunWorld σ (τ × List Checkpoint)) (drawn : Nat)
    (t : τ × List Checkpoint) (log : EventLog) : (w.turn drawn t log).saved = t.2 := rfl

end RunWorld

/-- A part of a run that does with a record what another does without. -/
def RunPart.Forgets (p : RunPart σ (τ × List Checkpoint) α) (q : RunPart σ τ α) : Prop :=
  ∀ w, ((p w).1, (p w).2.plain) = q w.plain

namespace Runner

/-- The runner whose archive keeps a record. -/
def recording (r : Runner σ τ) : Runner σ (τ × List Checkpoint) :=
  { r with archive := r.archive.recording }

section Recording

variable (r : Runner σ τ)

open RunPart

@[simp] theorem recording_workflow : r.recording.workflow = r.workflow := rfl

theorem recording_runNodes (c : Cursor) (base : Nat) (order : List Nat) :
    r.recording.runNodes c base order = r.runNodes c base order := by
  induction order with
  | nil => rfl
  | cons index rest ih =>
    unfold runNodes
    rw [ih]
    rfl

/-- Worlds that are the same but for the record correspond. -/
theorem recording_echoes :
    r.recording.Echoes r.archive r.order (fun w w' => w.plain = w') (fun _ => Eq) := by
  have hperform : ∀ {α : Type} (act : Activity σ α), Relates (fun w w' => w.plain = w') Eq
      (perform act : RunPart σ (τ × List Checkpoint) α) (perform act : RunPart σ τ α) := by
    rintro α act w _ rfl
    exact ⟨rfl, rfl⟩
  have hsave : ∀ cp, Relates (fun w w' => w.plain = w') Eq
      (onArchive (r.archive.recording.save cp) : RunPart σ (τ × List Checkpoint) _)
      (onArchive (r.archive.save cp) : RunPart σ τ _) := by
    rintro cp w _ rfl
    obtain ⟨result, t, hs⟩ : ∃ result t, r.archive.save cp w.archive.1 = (result, t) := ⟨_, _, rfl⟩
    cases result <;> simp [onArchive, Archive.recording, RunWorld.plain, hs]
  refine ⟨fun e => hperform _, hperform _, fun _ => hperform _, hperform _, ?_, ?_, ?_⟩
  · intro c record
    refine .bind_eq (hperform _) fun number => .bind_eq (hperform _) fun time =>
      .bind_eq (hsave _) ?_
    rintro (e | id)
    · exact .pure rfl
    · exact .pure rfl
  · intro c base hk
    rw [recording_runNodes]
    exact hperform _
  · rintro c arrivals _ rfl
    rfl

/-- A run does the same with a record as without. -/
theorem recording_advance (stage : Stage) :
    Forgets (r.recording.advance stage) (r.advance stage) := by
  intro w
  obtain ⟨hstage, hworld⟩ := r.recording_echoes.advance (.same stage) w w.plain rfl
  exact Prod.ext hstage.eq hworld

/-- What is saved is put on record. -/
theorem saved_of_saves {r : Runner σ τ} {c : Cursor} {record : StepRecord}
    {w : RunWorld σ (τ × List Checkpoint)} {id : String} {t : τ × List Checkpoint}
    (h : r.recording.Saves c record w (.ok id) t) :
    t.2 = w.saved ++ [r.checkpointAt c record w.world] := by
  obtain ⟨result, contents, hs⟩ : ∃ result contents,
      r.archive.save (r.checkpointAt c record w.world) w.archive.1 = (result, contents) :=
    ⟨_, _, rfl⟩
  change r.archive.recording.save (r.checkpointAt c record w.world) w.archive = (.ok id, t) at h
  cases result with
  | ok id' =>
    simp only [Archive.recording, hs, Prod.mk.injEq] at h
    rw [← h.2]
    rfl
  | error e => simp [Archive.recording, hs] at h

/-- What is refused is not put on record. -/
theorem saved_of_refuses {r : Runner σ τ} {c : Cursor} {record : StepRecord}
    {w : RunWorld σ (τ × List Checkpoint)} {e : ArchiveError} {t : τ × List Checkpoint}
    (h : r.recording.Saves c record w (.error e) t) : t.2 = w.saved := by
  obtain ⟨result, contents, hs⟩ : ∃ result contents,
      r.archive.save (r.checkpointAt c record w.world) w.archive.1 = (result, contents) :=
    ⟨_, _, rfl⟩
  change r.archive.recording.save (r.checkpointAt c record w.world) w.archive = (.error e, t) at h
  cases result with
  | ok id => simp [Archive.recording, hs] at h
  | error e' =>
    simp only [Archive.recording, hs, Prod.mk.injEq] at h
    rw [← h.2]
    rfl

end Recording

/-! ## What is saved -/

/-- What a run saves in the move behind a stage: a checkpoint in front of its first step, one of a
pause in front of a step, one of a step, and one of a pause behind it. -/
inductive SavesAt (r : Runner σ τ) : Stage → Checkpoint → Prop
  | first {input environment : Json} {cp : Checkpoint}
      (hs : cp.state = (r.freshCursor input environment).store.state)
      (hr : cp.record = .blank r.graphId 0 .input) :
      SavesAt r (.waiting (.fresh input environment)) cp
  | ahead {c : Cursor} {i : Interrupt} {cp : Checkpoint} (hs : cp.state = c.store.state)
      (hr : cp.record = r.pendingRecord c i) (hf : c.frontier ≠ []) : SavesAt r (.ready c) cp
  | step {c : Cursor} {outputs : List NodeOutput} {store : Store} {cp : Checkpoint}
      (ho : r.workflow.writeOutputs c.store (c.frontier.zip outputs) = (store, none))
      (hs : cp.state = store.state) (hr : cp.record = r.stepRecord c outputs) :
      SavesAt r (.accepted c outputs) cp
  | behind {c : Cursor} {outputs : List NodeOutput} {store : Store} {i : Interrupt}
      {cp : Checkpoint}
      (ho : r.workflow.writeOutputs c.store (c.frontier.zip outputs) = (store, none))
      (hs : cp.state = store.state) (hr : cp.record = r.pausedRecord c outputs i) :
      SavesAt r (.accepted c outputs) cp

/-- The record only grows, by checkpoints that belong to the stage. -/
theorem Move.saved {r : Runner σ τ} {stage stage' : Stage}
    {w w' : RunWorld σ (τ × List Checkpoint)} (h : r.recording.Move stage w stage' w') :
    ∃ more, w'.saved = w.saved ++ more ∧ ∀ cp ∈ more, r.SavesAt stage cp := by
  cases h with
  | begun log hs =>
    refine ⟨_, saved_of_saves hs, ?_⟩
    intro cp hcp
    rw [List.mem_singleton] at hcp
    subst hcp
    exact .first rfl rfl
  | beginRefused log hs => exact ⟨[], by simpa using saved_of_refuses hs, by simp⟩
  | pausedAhead log hf hw hb hp hs =>
    refine ⟨_, saved_of_saves hs, ?_⟩
    intro cp hcp
    rw [List.mem_singleton] at hcp
    subst hcp
    exact .ahead rfl rfl hf
  | pauseAheadRefused log hf hw hb hp hs => exact ⟨[], by simpa using saved_of_refuses hs, by simp⟩
  | stepRefused log ho hs => exact ⟨[], by simpa using saved_of_refuses hs, by simp⟩
  | routeFailed log ho hs hr =>
    refine ⟨_, saved_of_saves hs, ?_⟩
    intro cp hcp
    rw [List.mem_singleton] at hcp
    subst hcp
    exact .step ho rfl rfl
  | settled log ho hs hr hi =>
    refine ⟨_, saved_of_saves hs, ?_⟩
    intro cp hcp
    rw [List.mem_singleton] at hcp
    subst hcp
    exact .step ho rfl rfl
  | pausedBehind log log' ho hs hr hi hs' =>
    have hsaved := saved_of_saves hs'
    rw [RunWorld.saved_turn, saved_of_saves hs, List.append_assoc] at hsaved
    refine ⟨_, hsaved, ?_⟩
    intro cp hcp
    obtain hcp | hcp := List.mem_append.mp hcp
    · rw [List.mem_singleton] at hcp
      subst hcp
      exact .step ho rfl rfl
    · rw [List.mem_singleton] at hcp
      subst hcp
      exact .behind ho rfl rfl
  | pauseBehindRefused log log' ho hs hr hi hs' =>
    have hsaved := saved_of_refuses hs'
    rw [RunWorld.saved_turn, saved_of_saves hs] at hsaved
    refine ⟨_, hsaved, ?_⟩
    intro cp hcp
    rw [List.mem_singleton] at hcp
    subst hcp
    exact .step ho rfl rfl
  | _ => exact ⟨[], by simp [RunWorld.saved], by simp⟩

/-! ## How far a run can come -/

/-- How far a run can come that begins as stated. Between two moves everything but the record may
change. -/
inductive Reaches (r : Runner σ τ) (start : RunStart) :
    Stage → RunWorld σ (τ × List Checkpoint) → Prop
  | waiting {w : RunWorld σ (τ × List Checkpoint)} (hw : w.saved = []) :
      Reaches r start (.waiting start) w
  | moved {stage : Stage} {w : RunWorld σ (τ × List Checkpoint)} (h : Reaches r start stage w) :
      Reaches r start (r.recording.advance stage w).1 (r.recording.advance stage w).2
  | disturbed {stage : Stage} {w w' : RunWorld σ (τ × List Checkpoint)}
      (h : Reaches r start stage w) (hw : w'.saved = w.saved) : Reaches r start stage w'

/-- What holds in the beginning and is kept by every move holds wherever a run comes. -/
theorem Reaches.induct {r : Runner σ τ} {start : RunStart} {motive : Stage → List Checkpoint → Prop}
    (hwaiting : motive (.waiting start) [])
    (hmove : ∀ {stage w stage' w'}, motive stage w.saved → r.recording.Move stage w stage' w' →
      motive stage' w'.saved)
    {stage : Stage} {w : RunWorld σ (τ × List Checkpoint)} (h : r.Reaches start stage w) :
    motive stage w.saved := by
  induction h with
  | waiting hw =>
    rw [hw]
    exact hwaiting
  | moved _ ih => exact hmove ih (r.recording.advance_move _ _)
  | disturbed _ hw ih =>
    rw [hw]
    exact ih

/-- A run comes as far as its moves take it. -/
theorem Reaches.moves {r : Runner σ τ} {start : RunStart} {stage : Stage}
    {w : RunWorld σ (τ × List Checkpoint)} (h : r.Reaches start stage w) (n : Nat) :
    r.Reaches start (r.recording.moves n stage w).1 (r.recording.moves n stage w).2 := by
  induction n generalizing stage w with
  | zero => exact h
  | succ n ih =>
    cases stage with
    | ended o => exact h
    | waiting start => exact ih h.moved
    | ready c => exact ih h.moved
    | running c arrivals => exact ih h.moved
    | accepted c outputs => exact ih h.moved

end Runner

namespace Workflow

/-- The checkpoints that runs of a workflow write, fresh ones and those that begin at a checkpoint
that an earlier run wrote, with or without further input. -/
inductive Wrote (w : Workflow σ) : Checkpoint → Prop
  | fresh {τ : Type} {r : Runner σ τ} {input environment : Json} {stage : Stage}
      {world : RunWorld σ (τ × List Checkpoint)} {cp : Checkpoint} (hr : r.workflow = w)
      (h : r.Reaches (.fresh input environment) stage world) (hcp : cp ∈ world.saved) : Wrote w cp
  | resumed {τ : Type} {r : Runner σ τ} {origin : Checkpoint} {input : Option Json} {stage : Stage}
      {world : RunWorld σ (τ × List Checkpoint)} {cp : Checkpoint} (hr : r.workflow = w)
      (ho : Wrote w origin) (h : r.Reaches (.resume origin input) stage world)
      (hcp : cp ∈ world.saved) : Wrote w cp

/-- Runs of a workflow begin afresh or at a checkpoint that an earlier run wrote. -/
inductive Starts (w : Workflow σ) : RunStart → Prop
  | fresh (input environment : Json) : Starts w (.fresh input environment)
  | resume {cp : Checkpoint} (input : Option Json) (h : w.Wrote cp) : Starts w (.resume cp input)

/-- What every run keeps, provided that it holds of the checkpoint it begins at, holds of all
checkpoints that are written. -/
theorem Wrote.induct {w : Workflow σ} {motive : Checkpoint → Prop}
    (hrun : ∀ {τ : Type} {r : Runner σ τ} {start : RunStart} {stage : Stage}
      {world : RunWorld σ (τ × List Checkpoint)}, r.workflow = w →
      (∀ cp input, start = .resume cp input → motive cp) → r.Reaches start stage world →
      ∀ cp ∈ world.saved, motive cp)
    {cp : Checkpoint} (h : w.Wrote cp) : motive cp := by
  induction h with
  | fresh hr h hcp => exact hrun hr (by simp) h _ hcp
  | resumed hr _ h hcp ih =>
    refine hrun hr ?_ h _ hcp
    intro cp input he
    cases he
    exact ih

end Workflow

/-! ## A run through uneven branches -/

/-- A run through the uneven branches without pauses. -/
def unevenRunner : Runner Unit Chains where
  graphId := "uneven"
  workflow := unevenWorkflow
  archive := .memory
  threadId := "t"
  checkpointNs := ""
  limit := 5
  pauseBefore := []
  pauseAfter := []
  order := Runner.frontierOrder

/-- Where the run through the uneven branches comes to, and with which record. -/
def unevenRun : Stage × RunWorld Unit (Chains × List Checkpoint) :=
  unevenRunner.recording.moves (Runner.enoughMoves 5) (.waiting (.fresh .null .null))
    ⟨.start (), ([], [])⟩

theorem unevenRun_reaches :
    unevenRunner.Reaches (.fresh .null .null) unevenRun.1 unevenRun.2 :=
  Runner.Reaches.moves (.waiting rfl) _

theorem unevenRun_completed :
    unevenRun.1.outcome?.map (·.status) = some .completed := by decide +kernel

end Workgraph
