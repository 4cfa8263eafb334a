import Workgraph.Proofs.Run.Lineage
import Workgraph.Proofs.Run.States
/-!
# What is reported and what is stored

The outcome of a run that does not fail names the last checkpoint of its chain, and its step. Once
the run has saved a checkpoint, the state of the outcome is the one that is stored there. A resumed
run that ends before it has saved anything reports the state of the checkpoint that it began at,
completed by first values and with the further input that it was given; nothing stores that input.

## Main definitions

- `Runner.Backed`: what is reported where a run stands, and the checkpoint behind it
- `Runner.Stored`: the checkpoint behind every stage of a run

## Main statements

- `Workflow.wrote_whole`: the states on record have a value for every declared channel
- `outcome_stored`: an outcome against the checkpoint that it names
-/

namespace Workgraph

variable {σ τ : Type}

/-! ## States on record are complete -/

/-- Running a workflow builds no states in which a declared channel has no value. -/
theorem Workflow.maintains_whole (w : Workflow σ) :
    w.Maintains fun s => Store.Whole ⟨w.schema, s⟩ where
  fresh := fun _ _ => Store.ofState_whole w.schema .empty
  restored := fun s _ => Store.ofState_whole w.schema s
  merged := fun _ _ h => h
  written := by
    intro n _ ctx s before out _ store store' hwrite h
    obtain ⟨⟨mid, hmid, rfl⟩, -⟩ := Workflow.writeOutput_cases hwrite
    obtain rfl | ⟨name, value, -, rfl⟩ := Workflow.writeUpdate_cases hmid
    · exact h
    · exact Store.whole_put h name value

/-- The states on record have a value for every declared channel. -/
theorem Workflow.wrote_whole {w : Workflow σ} {cp : Checkpoint} (h : w.Wrote cp) :
    Store.Whole ⟨w.schema, cp.state⟩ :=
  w.maintains_whole.wrote h

namespace Runner

variable {r : Runner σ τ} {start : RunStart} {cps : List Checkpoint} {c : Cursor} {cp : Checkpoint}

/-- A run that is resumed without further input begins in the very state that is stored. -/
theorem resumedStore_none (h : r.workflow.Wrote cp) :
    (r.resumedStore cp none).state = cp.state := by
  have hstore : r.resumedStore cp none = ⟨r.workflow.schema, cp.state⟩ :=
    Store.restore_whole rfl (Workflow.wrote_whole h)
  exact congrArg Store.state hstore

/-- Further input is all that a resumed run adds to the state that is stored. -/
theorem resumedStore_some (h : r.workflow.Wrote cp) (more : Json) :
    (r.resumedStore cp (some more)).state =
      { cp.state with input := Reducer.shallowMerge.apply cp.state.input more } := by
  change ((r.resumedStore cp none).mergeInput more).state = _
  unfold Store.mergeInput
  rw [resumedStore_none h]

/-! ## The checkpoint behind a run -/

/-- What is reported where a run stands, against the last checkpoint of its chain: the checkpoint is
named, its step is that of the run, and its state is that of the run. Only a resumed run that has
saved nothing yet may stand in another state, which is the one that it was resumed in. -/
structure Backed (r : Runner σ τ) (start : RunStart) (cps : List Checkpoint) (id : Option String)
    (step : Nat) (state : Snapshot) (cp : Checkpoint) : Prop where
  last : (start.line cps).getLast? = some cp
  id_eq : id = some cp.id
  step_eq : step = cp.record.step
  state_eq : state = cp.state ∨ cps = [] ∧ ∃ input, start = .resume cp input ∧
    state = (r.resumedStore cp input).state

/-- A run has saved nothing before it begins, and behind its beginning there is a checkpoint to what
is reported of it, unless it has failed. -/
def Stored (r : Runner σ τ) (start : RunStart) (cps : List Checkpoint) : Stage → Prop
  | .waiting start' => start' = start ∧ cps = []
  | .ended o => o.status ≠ .failed → ∃ cp, r.Backed start cps o.checkpointId o.steps o.state cp
  | .ready c | .running c _ | .accepted c _ =>
    ∃ cp, r.Backed start cps c.parentId c.step c.store.state cp

/-- What has just been saved is the checkpoint behind the run. -/
theorem backed_of_saves (hids : r.archive.GivesIds) {record : StepRecord}
    {world : RunWorld σ (τ × List Checkpoint)} {id : String} {t : τ × List Checkpoint}
    (h : r.recording.Saves c record world (.ok id) t) (hstep : record.step = c.step) :
    ∃ cp, r.Backed start t.2 (some id) c.step c.store.state cp := by
  obtain ⟨cp, hcp, hid, -, hstate, hrecord⟩ := exists_saved_as hids h
  refine ⟨cp, ?_, congrArg some hid.symm, ?_, .inl hstate.symm⟩
  · rw [hcp, start.line_append, List.getLast?_concat]
  · rw [hrecord, hstep]

/-- A resumed run has the checkpoint behind it that it begins at. -/
theorem backed_of_resumed {input : Option Json} (h : r.resumedCursor cp input = .ok c) :
    r.Backed (.resume cp input) [] c.parentId c.step c.store.state cp := by
  obtain ⟨split, -, rfl⟩ := r.resumedCursor_eq_ok_iff.mp h
  exact ⟨rfl, rfl, rfl, .inr ⟨rfl, input, rfl, rfl⟩⟩

/-- Every move leaves a checkpoint behind what is reported. -/
theorem Move.stored {stage stage' : Stage} {world world' : RunWorld σ (τ × List Checkpoint)}
    (h : r.recording.Move stage world stage' world') (hids : r.archive.GivesIds)
    (hs : r.Stored start world.saved stage) : r.Stored start world'.saved stage' := by
  cases h with
  | begun log hsaved =>
    obtain ⟨cp, hcp⟩ := backed_of_saves hids hsaved rfl
    exact ⟨cp, hcp⟩
  | @resumed _ cp input c log hc =>
    obtain ⟨rfl, hnil⟩ := hs
    change r.Stored _ world.saved _
    rw [hnil]
    exact ⟨cp, backed_of_resumed (r := r) hc⟩
  | completed log hf => exact fun _ => hs
  | canceled log hf hw => exact fun _ => hs
  | pausedAhead log hf hw hb hp hsaved =>
    obtain ⟨cp, hcp⟩ := backed_of_saves hids hsaved rfl
    exact fun _ => ⟨cp, hcp⟩
  | dispatched log log' hf hw hb hp hk ha => exact hs
  | dropped log hw => exact fun _ => hs
  | accepted hw hb => exact hs
  | settled log ho hsaved hr hi =>
    obtain ⟨cp, hcp⟩ := backed_of_saves hids hsaved rfl
    exact ⟨cp, hcp⟩
  | pausedBehind log log' ho hsaved hr hi hsaved' =>
    obtain ⟨cp, hcp⟩ := backed_of_saves hids hsaved' rfl
    exact fun _ => ⟨cp, hcp⟩
  | rested o => exact hs
  | _ =>
    -- The other moves end in a failure.
    exact fun ho => absurd rfl ho

/-- Wherever a run comes, there is a checkpoint behind what is reported of it. -/
theorem Reaches.stored {stage : Stage} {world : RunWorld σ (τ × List Checkpoint)}
    (h : r.Reaches start stage world) (hids : r.archive.GivesIds) :
    r.Stored start world.saved stage :=
  h.induct (motive := fun stage cps => r.Stored start cps stage) ⟨rfl, rfl⟩
    fun hs hmove => hmove.stored hids hs

end Runner

/-- What is reported of a run that does not fail, against the last checkpoint of its chain. The
outcome names this checkpoint and its step, and whoever resumes it without further input stands in
exactly the state that it stores. That is the state of the outcome, unless the run was resumed with
further input and has saved nothing: then the outcome shows the further input as well, which the
checkpoint does not store. -/
theorem outcome_stored {r : Runner σ τ} (hids : r.archive.GivesIds) {start : RunStart}
    (hs : r.workflow.Starts start) {o : Outcome} {world : RunWorld σ (τ × List Checkpoint)}
    (h : r.Reaches start (.ended o) world) (ho : o.status ≠ .failed) :
    ∃ cp, (start.origin?.toList ++ world.saved).getLast? = some cp ∧
      o.checkpointId = some cp.id ∧ o.steps = cp.record.step ∧
      (∀ (τ' : Type) (r' : Runner σ τ'), r'.workflow = r.workflow →
        (r'.resumedStore cp none).state = cp.state) ∧
      (o.state = cp.state ∨ world.saved = [] ∧ ∃ more, start = .resume cp (some more) ∧
        o.state = { cp.state with input := Reducer.shallowMerge.apply cp.state.input more }) := by
  obtain ⟨cp, hbacked⟩ := h.stored hids ho
  have hwrote : r.workflow.Wrote cp := by
    obtain hmem | hmem := List.mem_append.mp (List.mem_of_getLast? hbacked.last)
    · cases hs with
      | fresh input environment => simp [RunStart.origin?] at hmem
      | resume input horigin =>
        obtain rfl : cp = _ := by simpa [RunStart.origin?] using hmem
        exact horigin
    · cases hs with
      | fresh input environment => exact .fresh rfl h hmem
      | resume input horigin => exact .resumed rfl horigin h hmem
  refine ⟨cp, hbacked.last, hbacked.id_eq, hbacked.step_eq, ?_, ?_⟩
  · intro τ' r' hr
    exact Runner.resumedStore_none (by rw [hr]; exact hwrote)
  · obtain hstate | ⟨hnil, input, rfl, hstate⟩ := hbacked.state_eq
    · exact .inl hstate
    · cases input with
      | none => exact .inl (hstate.trans (Runner.resumedStore_none hwrote))
      | some more =>
        exact .inr ⟨hnil, more, rfl, hstate.trans (Runner.resumedStore_some hwrote more)⟩

/-! ## A completed run that is resumed with further input -/

theorem unevenMark_wrote : unevenWorkflow.Wrote unevenMark :=
  .fresh (r := haltingRunner) rfl unevenPause_reaches (List.getLast_mem _)

theorem outcome_stored_uneven :
    Archive.memory.GivesIds ∧ unevenWorkflow.Starts (.resume unevenMark none) ∧
      ∃ o, unevenRunner.Reaches (.resume unevenMark none) (.ended o) unevenRest.2 ∧
        o.status ≠ .failed ∧ ∃ cp, unevenRest.2.saved.getLast? = some cp ∧
          o.checkpointId = some cp.id ∧ o.steps = cp.record.step ∧ o.state = cp.state := by
  obtain ⟨o, ho, hstatus⟩ := Option.map_eq_some_iff.mp unevenRest_completed
  have hreach := unevenRest_reaches
  rw [Stage.eq_ended_of_outcome? ho] at hreach
  have hne : o.status ≠ .failed := by
    rw [hstatus]
    decide
  refine ⟨Archive.memory_givesIds, .resume none unevenMark_wrote, o, hreach, hne, ?_⟩
  obtain ⟨cp, hlast, hid, hstep, -, hstate⟩ := outcome_stored (r := unevenRunner)
    Archive.memory_givesIds (.resume none unevenMark_wrote) hreach hne
  have hsaved : unevenRest.2.saved ≠ [] := by decide +kernel
  refine ⟨cp, ?_, hid, hstep, ?_⟩
  · exact (List.getLast?_append_of_ne_nil _ hsaved).symm.trans hlast
  · obtain hstate | ⟨hnil, -⟩ := hstate
    · exact hstate
    · exact absurd hnil hsaved

/-- The last checkpoint of the run through the uneven branches. -/
def unevenEnd : Checkpoint := unevenRest.2.saved.getLast (by decide +kernel)

/-- Where a run comes to that resumes the completed one with further input. -/
def unevenAgain : Stage × RunWorld Unit (Chains × List Checkpoint) :=
  unevenRunner.recording.moves (Runner.enoughMoves 5)
    (.waiting (.resume unevenEnd (some (.obj [("more", .bool true)]))))
    ⟨unevenRest.2.world, (unevenRest.2.archive.1, [])⟩

/-- Further input for a completed run is shown and not stored: nothing is left to run, so nothing is
saved, and whoever resumes the thread again does not find it. -/
theorem merged_input_not_stored :
    ∃ o, unevenRunner.Reaches (.resume unevenEnd (some (.obj [("more", .bool true)]))) (.ended o)
        unevenAgain.2 ∧
      o.status = .completed ∧ o.checkpointId = some unevenEnd.id ∧ unevenAgain.2.saved = [] ∧
      o.state ≠ unevenEnd.state ∧ (unevenRunner.resumedStore unevenEnd none).state ≠ o.state := by
  have hreach : unevenRunner.Reaches (.resume unevenEnd (some (.obj [("more", .bool true)])))
      unevenAgain.1 unevenAgain.2 := .moves (.waiting rfl) _
  have hended : unevenAgain.1.outcome?.map (fun o => (o.status, o.checkpointId,
      o.state.input.isNull)) = some (.completed, some unevenEnd.id, false) := by decide +kernel
  obtain ⟨o, ho, hfields⟩ := Option.map_eq_some_iff.mp hended
  simp only [Prod.mk.injEq] at hfields
  obtain ⟨hstatus, hid, hinput⟩ := hfields
  rw [Stage.eq_ended_of_outcome? ho] at hreach
  refine ⟨o, hreach, hstatus, hid, by decide +kernel, ?_, ?_⟩
  · intro heq
    have hnull : unevenEnd.state.input.isNull = true := by decide +kernel
    rw [heq, hnull] at hinput
    cases hinput
  · intro heq
    have hnull : (unevenRunner.resumedStore unevenEnd none).state.input.isNull = true := by
      decide +kernel
    rw [← heq, hnull] at hinput
    cases hinput

end Workgraph
