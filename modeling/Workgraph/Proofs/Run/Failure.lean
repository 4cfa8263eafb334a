import Workgraph.Proofs.Run.Joins
import Workgraph.Proofs.Run.Lineage
/-!
# Failures

What the state is worth that a failed run leaves behind. A step is complete when everything that its
nodes gave back has been written, whether or not it goes on record. The outcome of a run holds the
state behind its last complete step, with one exception: a step whose outputs are written up to one
that cannot be written leaves those before it in the state.

## Main definitions

- `Workflow.Accumulates`: the stores that complete steps lead to
- `Runner.Completes`: how far a run can come, with the steps that are complete by then
- `Workflow.Inherits`: how a run begins, with the steps that are complete before it
- `Workflow.Accounts`: a checkpoint that holds the state behind some of these steps

## Main statements

- `Runner.Move.accounts`: every move completes a step, or leaves the steps and the state alone
- `failed_state`: the state of an outcome
- `failed_write_torn`: a write that fails leaves part of its step behind
-/

namespace Workgraph

variable {σ τ : Type}

/-- What the nodes of a step gave back, beside their keys. -/
abbrev StepOutputs := List (String × NodeOutput)

namespace Workflow

variable {w : Workflow σ} {store store' : Store} {steps : List StepOutputs}

/-- The stores that have taken in what the nodes of some steps gave back, all of it and nothing
else. Between two steps, further input may have been given. -/
inductive Accumulates (w : Workflow σ) : List StepOutputs → Store → Prop
  | outset (input environment : Json) :
      Accumulates w [] ((Store.fresh w.schema).withInputs input environment)
  | informed {steps : List StepOutputs} {store : Store} (h : Accumulates w steps store)
      (more : Json) : Accumulates w steps (store.mergeInput more)
  | step {steps : List StepOutputs} {store store' : Store} {outputs : StepOutputs}
      (h : Accumulates w steps store) (ho : w.writeOutputs store outputs = (store', none)) :
      Accumulates w (steps ++ [outputs]) store'

/-! ## Writing to a channel -/

/-- The update of a node leaves the other channels alone. -/
theorem writeUpdate_version {key name : String} {out : NodeOutput}
    (h : w.writeUpdate key out store = .ok store') (hne : w.channelOf key ≠ name) :
    store'.state.version name = store.state.version name := by
  unfold writeUpdate at h
  cases hu : out.update.filter fun u => !u.isNull with
  | none =>
    rw [hu] at h
    cases h
    rfl
  | some u =>
    rw [hu] at h
    dsimp only at h
    cases ha : store.apply (w.channelOf key) u with
    | error e =>
      rw [ha] at h
      cases h
    | ok written =>
      obtain ⟨next, s'⟩ := written
      rw [ha] at h
      cases h
      obtain ⟨-, rfl | rfl⟩ := Store.apply_cases ha
      · rfl
      · show ((store.state.versions.insert _ _).get? name).getD 0 = _
        rw [Table.get?_insert_of_ne _ (Ne.symm hne)]
        rfl

/-! ## Complete steps -/

namespace Accumulates

theorem schema_eq (h : w.Accumulates steps store) : store.schema = w.schema := by
  induction h with
  | outset => rfl
  | informed _ _ ih => exact ih
  | step _ ho ih => exact (writeOutputs_schema ho).trans ih

theorem whole (h : w.Accumulates steps store) : store.Whole := by
  induction h with
  | outset => exact Store.ofState_whole _ _
  | informed _ _ ih => exact ih
  | step _ ho ih => exact writeOutputs_whole ho ih

/-- Going back to the state of such a store gives back the store. -/
theorem restored (h : w.Accumulates steps store) :
    (Store.fresh w.schema).restore store.state = store :=
  Store.restore_whole h.schema_eq.symm h.whole

/-- The conversation is what the nodes of the steps said. -/
theorem messages_eq (h : w.Accumulates steps store) :
    store.state.messages = steps.flatten.flatMap (·.2.said) := by
  induction h with
  | outset => rfl
  | informed _ _ ih => exact ih
  | step _ ho ih => rw [writeOutputs_messages ho, ih]; simp

/-- A channel that no node of the steps writes to has not changed. -/
theorem version_eq_zero (h : w.Accumulates steps store) {name : String}
    (hne : ∀ p ∈ steps.flatten, w.channelOf p.1 ≠ name) : store.state.version name = 0 := by
  induction h with
  | outset => rfl
  | informed _ _ ih => exact ih hne
  | @step steps store store' outputs _ ho ih =>
    rw [List.flatten_append] at hne
    refine writeOutputs_induct (motive := fun s => s.state.version name = 0) ?_ ho
      (ih fun p hp => hne p (List.mem_append_left _ hp))
    intro p hp before after hwrite hzero
    obtain ⟨⟨mid, hu, rfl⟩, -⟩ := writeOutput_cases hwrite
    have hkey := hne p (List.mem_append_right _ (by simpa using hp))
    exact (writeUpdate_version hu hkey).trans hzero

end Accumulates

/-- A checkpoint holds the state behind as many steps as its number says. -/
def Accounts (w : Workflow σ) (done : List StepOutputs) (cp : Checkpoint) : Prop :=
  cp.record.step ≤ done.length ∧
    ∃ store, w.Accumulates (done.take cp.record.step) store ∧ cp.state = store.state

theorem Accounts.append {done : List StepOutputs} {cp : Checkpoint} (h : w.Accounts done cp)
    (more : List StepOutputs) : w.Accounts (done ++ more) cp := by
  obtain ⟨hle, hacc⟩ := h
  refine ⟨by rw [List.length_append]; omega, ?_⟩
  rwa [List.take_append_of_le_length hle]

/-- Some complete steps, all of them, lead to the state of a checkpoint of their number. -/
theorem accounts_of_length {done : List StepOutputs} {cp : Checkpoint}
    (h : w.Accumulates done store) (hstep : cp.record.step = done.length)
    (hstate : cp.state = store.state) : w.Accounts done cp := by
  refine ⟨Nat.le_of_eq hstep, store, ?_, hstate⟩
  rwa [hstep, List.take_length]

/-- What an outcome holds: the state of a store, or else, if a write has failed, what the writes
before it have made of that. -/
def Leaves (w : Workflow σ) (store : Store) (o : Outcome) : Prop :=
  o.state = store.state ∨ ∃ outputs store' e, w.writeOutputs store outputs = (store', some e) ∧
    o.failure = some (.ofError e) ∧ o.state = store'.state

end Workflow

namespace Runner

variable {r : Runner σ τ} {start : RunStart} {done : List StepOutputs} {stage stage' : Stage}
  {c : Cursor} {outputs : List NodeOutput} {store : Store}

/-- The step that the move behind a stage completes. -/
def completing (r : Runner σ τ) : Stage → List StepOutputs
  | .accepted c outputs =>
    match r.workflow.writeOutputs c.store (c.frontier.zip outputs) with
    | (_, none) => [c.frontier.zip outputs]
    | (_, some _) => []
  | .waiting _ | .ready _ | .running _ _ | .ended _ => []

theorem completing_written
    (ho : r.workflow.writeOutputs c.store (c.frontier.zip outputs) = (store, none)) :
    r.completing (.accepted c outputs) = [c.frontier.zip outputs] := by
  rw [completing, ho]

theorem completing_torn {e : RunError}
    (ho : r.workflow.writeOutputs c.store (c.frontier.zip outputs) = (store, some e)) :
    r.completing (.accepted c outputs) = [] := by
  rw [completing, ho]

/-- How far a run can come that begins as stated, behind steps that are complete before it, and
which steps are complete by then. -/
inductive Completes (r : Runner σ τ) (start : RunStart) (before : List StepOutputs) :
    List StepOutputs → Stage → RunWorld σ (τ × List Checkpoint) → Prop
  | waiting {w : RunWorld σ (τ × List Checkpoint)} (hw : w.saved = []) :
      Completes r start before before (.waiting start) w
  | moved {done : List StepOutputs} {stage : Stage} {w : RunWorld σ (τ × List Checkpoint)}
      (h : Completes r start before done stage w) :
      Completes r start before (done ++ r.completing stage) (r.recording.advance stage w).1
        (r.recording.advance stage w).2
  | disturbed {done : List StepOutputs} {stage : Stage} {w w' : RunWorld σ (τ × List Checkpoint)}
      (h : Completes r start before done stage w) (hw : w'.saved = w.saved) :
      Completes r start before done stage w'

/-- The steps that a number of moves completes. -/
def completions (r : Runner σ τ) : Nat → Stage → RunWorld σ (τ × List Checkpoint) →
    List StepOutputs
  | 0, _, _ => []
  | n + 1, stage, w =>
    r.completing stage ++
      completions r n (r.recording.advance stage w).1 (r.recording.advance stage w).2

theorem Completes.moves {before : List StepOutputs} {w : RunWorld σ (τ × List Checkpoint)}
    (h : r.Completes start before done stage w) (n : Nat) :
    r.Completes start before (done ++ r.completions n stage w) (r.recording.moves n stage w).1
      (r.recording.moves n stage w).2 := by
  induction n generalizing done stage w with
  | zero =>
    rw [completions, List.append_nil]
    exact h
  | succ n ih =>
    rw [completions, ← List.append_assoc, moves_succ]
    exact ih h.moved

/-- The steps of a run that begins afresh are those that its moves complete. -/
theorem Completes.of_moves {w : RunWorld σ (τ × List Checkpoint)} (hw : w.saved = []) (n : Nat) :
    r.Completes start [] (r.completions n (.waiting start) w)
      (r.recording.moves n (.waiting start) w).1 (r.recording.moves n (.waiting start) w).2 := by
  have hwaiting : r.Completes start [] [] (.waiting start) w := .waiting hw
  have h := hwaiting.moves n
  rwa [List.nil_append] at h

/-- Wherever a run comes, some steps are complete. -/
theorem Reaches.exists_completes {w : RunWorld σ (τ × List Checkpoint)}
    (h : r.Reaches start stage w) (before : List StepOutputs) :
    ∃ done, r.Completes start before done stage w := by
  induction h with
  | waiting hw => exact ⟨before, .waiting hw⟩
  | moved _ ih =>
    obtain ⟨done, hd⟩ := ih
    exact ⟨_, hd.moved⟩
  | disturbed _ hw ih =>
    obtain ⟨done, hd⟩ := ih
    exact ⟨done, hd.disturbed hw⟩

/-- Where a run stands behind steps that are complete: its store holds all of them, and its number
is theirs. An outcome holds as many as it says, and all of them if the run got past its
preparation. -/
def StandsOn (r : Runner σ τ) (start : RunStart) (done : List StepOutputs) : Stage → Prop
  | .waiting start' => start' = start ∧ match start with
    | .fresh _ _ => done = []
    | .resume cp _ => r.workflow.Accounts done cp ∧ cp.record.step = done.length
  | .ready c | .running c _ | .accepted c _ =>
    r.workflow.Accumulates done c.store ∧ c.step = done.length
  | .ended o => o.steps ≤ done.length ∧ (r.Prepares start → o.steps = done.length) ∧
    ∃ store, r.workflow.Accumulates (done.take o.steps) store ∧ r.workflow.Leaves store o

/-- A run that ends where it stands holds all of its steps. -/
theorem standsOn_ended {o : Outcome} (h : r.workflow.Accumulates done c.store)
    (hc : c.step = done.length) (hstate : o.state = c.store.state) (hsteps : o.steps = c.step) :
    r.StandsOn start done (.ended o) := by
  have hlength := hsteps.trans hc
  refine ⟨Nat.le_of_eq hlength, fun _ => hlength, c.store, ?_, .inl hstate⟩
  rwa [hlength, List.take_length]

/-- A step that has been written is one more. -/
theorem stepped_accumulates
    (ho : r.workflow.writeOutputs c.store (c.frontier.zip outputs) = (store, none))
    (h : r.workflow.Accumulates done c.store) (hc : c.step = done.length) :
    r.workflow.Accumulates (done ++ r.completing (.accepted c outputs)) (c.stepped store).store ∧
      (c.stepped store).step = (done ++ r.completing (.accepted c outputs)).length := by
  rw [completing_written ho, List.length_append]
  exact ⟨h.step ho, congrArg (· + 1) hc⟩

/-- A run that cannot begin leaves the first values of all channels behind. -/
theorem standsOn_blank {o : Outcome} (hstate : o.state = r.freshStore.state) (hsteps : o.steps = 0)
    (hp : r.Prepares start → done = []) : r.StandsOn start done (.ended o) := by
  refine ⟨by omega, fun h => by rw [hp h]; exact hsteps, r.freshStore, ?_, .inl hstate⟩
  rw [hsteps, List.take_zero]
  exact .outset .null .null

/-- A resumed run stands on the steps that its checkpoint accounts for. -/
theorem resumed_accumulates {cp : Checkpoint} {input : Option Json}
    (hcp : r.workflow.Accounts done cp) (hstep : cp.record.step = done.length)
    (hc : r.resumedCursor cp input = .ok c) :
    r.workflow.Accumulates done c.store ∧ c.step = done.length := by
  obtain ⟨split, -, rfl⟩ := r.resumedCursor_eq_ok_iff.mp hc
  refine ⟨?_, hstep⟩
  obtain ⟨-, store, hacc, hstate⟩ := hcp
  rw [hstep, List.take_length] at hacc
  have hrestored : r.freshStore.restore cp.state = store := by
    rw [hstate]
    exact hacc.restored
  change r.workflow.Accumulates done (r.resumedStore cp input)
  unfold resumedStore
  rw [hrestored]
  cases input with
  | none => exact hacc
  | some more => exact hacc.informed more

/-- Every move completes a step, or leaves the steps and the state alone. -/
theorem Move.standsOn {w w' : RunWorld σ τ} (h : r.Move stage w stage' w')
    (hs : r.StandsOn start done stage) : r.StandsOn start (done ++ r.completing stage) stage' := by
  cases h with
  | begun log hsaved =>
    obtain ⟨rfl, rfl⟩ := hs
    exact ⟨.outset _ _, rfl⟩
  | beginRefused log hsaved =>
    obtain ⟨rfl, rfl⟩ := hs
    exact standsOn_blank rfl rfl fun _ => rfl
  | resumed log hc =>
    obtain ⟨rfl, hcp, hstep⟩ := hs
    rw [completing, List.append_nil]
    exact resumed_accumulates hcp hstep hc
  | resumeFailed log he =>
    obtain ⟨rfl, -⟩ := hs
    refine standsOn_blank rfl rfl fun hp => ?_
    obtain ⟨c, hc⟩ := hp _ _ rfl
    cases he.symm.trans hc
  | dispatched =>
    rw [completing, List.append_nil]
    exact hs
  | accepted =>
    rw [completing, List.append_nil]
    exact hs
  | @writeFailed _ c outputs store e log ho =>
    obtain ⟨hacc, hstep⟩ := hs
    rw [completing_torn ho, List.append_nil]
    -- What has been written of the step stays in the state.
    refine ⟨Nat.le_of_eq hstep, fun _ => hstep, c.store, ?_, .inr ⟨_, store, e, ho, rfl, rfl⟩⟩
    show r.workflow.Accumulates (done.take c.step) c.store
    rwa [hstep, List.take_length]
  | stepRefused log ho hsaved =>
    obtain ⟨hacc, hstep⟩ := stepped_accumulates ho hs.1 hs.2
    exact standsOn_ended hacc hstep rfl rfl
  | routeFailed log ho hsaved hr =>
    obtain ⟨hacc, hstep⟩ := stepped_accumulates ho hs.1 hs.2
    exact standsOn_ended hacc hstep rfl rfl
  | settled log ho hsaved hr hi => exact stepped_accumulates ho hs.1 hs.2
  | pausedBehind log log' ho hsaved hr hi hsaved' =>
    obtain ⟨hacc, hstep⟩ := stepped_accumulates ho hs.1 hs.2
    exact standsOn_ended hacc hstep rfl rfl
  | pauseBehindRefused log log' ho hsaved hr hi hsaved' =>
    obtain ⟨hacc, hstep⟩ := stepped_accumulates ho hs.1 hs.2
    exact standsOn_ended hacc hstep rfl rfl
  | rested o =>
    rw [completing, List.append_nil]
    exact hs
  | _ =>
    -- The other moves end the run where it stands.
    rw [completing, List.append_nil]
    exact standsOn_ended hs.1 hs.2 rfl rfl

/-- Whatever is saved accounts for the steps that are complete by then. -/
theorem SavesAt.accounts {cp : Checkpoint} (h : r.SavesAt stage cp)
    (hs : r.StandsOn start done stage) : r.workflow.Accounts (done ++ r.completing stage) cp := by
  cases h with
  | @first input environment _ hstate hr =>
    refine ⟨by rw [hr]; exact Nat.zero_le _, _, ?_, hstate⟩
    rw [hr]
    exact .outset input environment
  | ahead hstate hr hf =>
    rw [completing, List.append_nil]
    exact Workflow.accounts_of_length hs.1 (by rw [hr]; exact hs.2) hstate
  | step ho hstate hr =>
    obtain ⟨hacc, hstep⟩ := stepped_accumulates ho hs.1 hs.2
    exact Workflow.accounts_of_length hacc (by rw [hr]; exact hstep) hstate
  | behind ho hstate hr =>
    obtain ⟨hacc, hstep⟩ := stepped_accumulates ho hs.1 hs.2
    exact Workflow.accounts_of_length hacc (by rw [hr]; exact hstep) hstate

/-- Wherever a run comes, it stands on the steps that are complete, and so do its checkpoints. -/
theorem Completes.accounts {before : List StepOutputs} {world : RunWorld σ (τ × List Checkpoint)}
    (h : r.Completes start before done stage world)
    (hs : r.StandsOn start before (.waiting start)) :
    r.StandsOn start done stage ∧ ∀ cp ∈ world.saved, r.workflow.Accounts done cp := by
  induction h with
  | waiting hw =>
    refine ⟨hs, ?_⟩
    rw [hw]
    simp
  | @moved done stage world _ ih =>
    obtain ⟨hstands, hrecorded⟩ := ih
    have hmove := r.recording.advance_move stage world
    refine ⟨Move.standsOn (r := r.recording) hmove hstands, ?_⟩
    obtain ⟨more, hmore, hsaves⟩ := hmove.saved
    rw [hmore]
    intro cp hcp
    obtain hcp | hcp := List.mem_append.mp hcp
    · exact (hrecorded cp hcp).append _
    · exact (hsaves cp hcp).accounts hstands
  | disturbed _ hw ih =>
    rw [hw]
    exact ih

end Runner

namespace Workflow

/-- How runs of a workflow begin, and the steps that are complete before: none, or those that the
checkpoint of an earlier run accounts for. -/
inductive Inherits (w : Workflow σ) : RunStart → List StepOutputs → Prop
  | fresh (input environment : Json) : Inherits w (.fresh input environment) []
  | resume {τ : Type} {r : Runner σ τ} {start : RunStart} {before done : List StepOutputs}
      {stage : Stage} {world : RunWorld σ (τ × List Checkpoint)} {cp : Checkpoint}
      (hr : r.workflow = w) (h : Inherits w start before)
      (hc : r.Completes start before done stage world) (hcp : cp ∈ world.saved)
      (input : Option Json) : Inherits w (.resume cp input) (done.take cp.record.step)

/-- A run stands in the beginning on the steps that are complete before. -/
theorem Inherits.standsOn {w : Workflow σ} {start : RunStart} {before : List StepOutputs}
    (h : w.Inherits start before) {r : Runner σ τ} (hr : r.workflow = w) :
    r.StandsOn start before (.waiting start) := by
  subst hr
  refine ⟨rfl, ?_⟩
  induction h with
  | fresh input environment => rfl
  | @resume τ' r' start before done stage world cp hr _ hc hcp input ih =>
    obtain ⟨-, hrecorded⟩ := hc.accounts (r := r') ⟨rfl, by rw [hr]; exact ih⟩
    obtain ⟨hle, store, hacc, hstate⟩ := hrecorded cp hcp
    rw [hr] at hacc
    have hlength : cp.record.step = (done.take cp.record.step).length := by
      rw [List.length_take]
      omega
    exact ⟨accounts_of_length hacc hlength hstate, hlength⟩

end Workflow

/-- The state of an outcome, in particular of a run that failed, holds as many complete steps as the
outcome says, with everything that their nodes wrote and said. It holds nothing else, unless the run
failed at an output that cannot be written; then it also holds what has been written of the outputs
of that step. -/
theorem failed_state {w : Workflow σ} {r : Runner σ τ} (hr : r.workflow = w) {start : RunStart}
    {before done : List StepOutputs} (hi : w.Inherits start before) {o : Outcome}
    {world : RunWorld σ (τ × List Checkpoint)}
    (h : r.Completes start before done (.ended o) world) :
    o.steps ≤ done.length ∧ (r.Prepares start → o.steps = done.length) ∧
      ∃ store, w.Accumulates (done.take o.steps) store ∧
        store.state.messages = (done.take o.steps).flatten.flatMap (·.2.said) ∧
        ((∀ key e, o.failure ≠ some (.ofError (.channel key e))) →
          (∀ key target, o.failure ≠ some (.ofError (.invalidHandoff key target))) →
          o.state = store.state) ∧
        (o.state = store.state ∨ ∃ outputs store' e,
          w.writeOutputs store outputs = (store', some e) ∧ o.failure = some (.ofError e) ∧
          o.state = store'.state) := by
  subst hr
  obtain ⟨⟨hle, hall, store, hacc, hleaves⟩, -⟩ := h.accounts (hi.standsOn rfl)
  refine ⟨hle, hall, store, hacc, hacc.messages_eq, ?_, hleaves⟩
  intro hchannel hhandoff
  obtain hstate | ⟨outputs, store', e, ho, hf, -⟩ := hleaves
  · exact hstate
  · exfalso
    obtain ⟨key, reason, rfl⟩ | ⟨key, target, rfl⟩ := Workflow.writeOutputs_error ho
    · exact hchannel key reason hf
    · exact hhandoff key target hf

/-! ## A step that is torn -/

/-- A workshop that makes nodes that publish the input, and nodes that write although they own no
channel. -/
def tornShop : Workshop Unit := { inputShop with makers := inputShop.makers ++ muteShop.makers }

/-- Two nodes behind another one, of which the second writes although it owns no channel. -/
def tornFork : Description where
  nodes := [("s", "start"), ("x", "start"), ("y", "mute")].map fun p =>
    ⟨p.1, .workflow, some p.2, none, none, .null⟩
  links := [.edge "s" "x", .edge "s" "y"]
  entry := some "s"

/-- The workflow of the torn fork. -/
def tornWorkflow : Workflow Unit :=
  match compile tornShop tornFork [] with
  | .ok w => w
  | .error _ => ⟨[], [], []⟩

theorem compile_tornFork : compile tornShop tornFork [] = .ok tornWorkflow :=
  eq_ok_of_isOk ⟨[], [], []⟩ (by decide +kernel)

/-- A run through the torn fork. -/
def tornRunner : Runner Unit Chains :=
  { unevenRunner with graphId := "torn", workflow := tornWorkflow }

/-- The input of the run through the torn fork, which its nodes publish. -/
def tornStart : RunStart := .fresh (.obj [("n", .nat 1)]) .null

/-- Where the run through the torn fork comes to. -/
def tornRun : Stage × RunWorld Unit (Chains × List Checkpoint) :=
  tornRunner.recording.moves (Runner.enoughMoves 5) (.waiting tornStart) ⟨.start (), ([], [])⟩

/-- The steps that the run through the torn fork completes. -/
def tornSteps : List StepOutputs :=
  tornRunner.completions (Runner.enoughMoves 5) (.waiting tornStart) ⟨.start (), ([], [])⟩

theorem tornRun_completes : tornRunner.Completes tornStart [] tornSteps tornRun.1 tornRun.2 :=
  Runner.Completes.of_moves rfl _

/-- A write that fails leaves part of its step behind: the run through the torn fork fails behind
one complete step, and its state is not that of complete steps. -/
theorem failed_write_torn :
    compile tornShop tornFork [] = .ok tornWorkflow ∧ tornWorkflow.Inherits tornStart [] ∧
      tornRunner.Completes tornStart [] tornSteps tornRun.1 tornRun.2 ∧
      ∃ o, tornRun.1 = .ended o ∧ o.status = .failed ∧ o.steps = 1 ∧
        ¬ ∃ store, tornWorkflow.Accumulates (tornSteps.take o.steps) store ∧
          o.state = store.state := by
  refine ⟨compile_tornFork, .fresh _ _, tornRun_completes, ?_⟩
  have hended : tornRun.1.outcome?.map
      (fun o => (o.status, o.steps, o.state.version "x_channel")) = some (.failed, 1, 1) := by
    decide +kernel
  obtain ⟨o, ho, hreport⟩ := Option.map_eq_some_iff.mp hended
  obtain ⟨hstatus, hreport⟩ := Prod.mk.inj hreport
  obtain ⟨hsteps, hversion⟩ := Prod.mk.inj hreport
  refine ⟨o, Stage.eq_ended_of_outcome? ho, hstatus, hsteps, ?_⟩
  rintro ⟨store, hacc, hstate⟩
  -- Only the second step writes to the channel, and it is not complete.
  have hfirst : (tornSteps.take 1).flatten.all
      (fun p => tornWorkflow.channelOf p.1 != "x_channel") = true := by decide +kernel
  have hzero : store.state.version "x_channel" = 0 := by
    refine hacc.version_eq_zero fun p hp => ?_
    rw [hsteps] at hp
    simpa using List.all_eq_true.mp hfirst p hp
  rw [← hstate, hversion] at hzero
  cases hzero

/-- The run through the uneven branches with too few steps to come to its end. -/
def shortRunner : Runner Unit Chains := { unevenRunner with limit := 2 }

/-- Where the short run comes to. -/
def shortRun : Stage × RunWorld Unit (Chains × List Checkpoint) :=
  shortRunner.recording.moves (Runner.enoughMoves 2) (.waiting tornStart) ⟨.start (), ([], [])⟩

/-- The steps that the short run completes. -/
def shortSteps : List StepOutputs :=
  shortRunner.completions (Runner.enoughMoves 2) (.waiting tornStart) ⟨.start (), ([], [])⟩

theorem shortRun_completes : shortRunner.Completes tornStart [] shortSteps shortRun.1 shortRun.2 :=
  Runner.Completes.of_moves rfl _

theorem failed_state_short :
    unevenWorkflow.Inherits tornStart [] ∧
      shortRunner.Completes tornStart [] shortSteps shortRun.1 shortRun.2 ∧
      ∃ o, shortRun.1 = .ended o ∧ o.status = .failed ∧ o.steps = 2 ∧
        ∃ store, unevenWorkflow.Accumulates (shortSteps.take 2) store ∧
          store.state.messages = (shortSteps.take 2).flatten.flatMap (·.2.said) ∧
          o.state = store.state := by
  refine ⟨.fresh _ _, shortRun_completes, ?_⟩
  have hended : shortRun.1.outcome?.map (fun o => (o.status, o.steps, o.failure)) =
      some (.failed, 2, some (.ofError (.stepBudget 2))) := by decide +kernel
  obtain ⟨o, ho, hreport⟩ := Option.map_eq_some_iff.mp hended
  obtain ⟨hstatus, hreport⟩ := Prod.mk.inj hreport
  obtain ⟨hsteps, hfailure⟩ := Prod.mk.inj hreport
  have hstage := Stage.eq_ended_of_outcome? ho
  refine ⟨o, hstage, hstatus, hsteps, ?_⟩
  have hcompletes := shortRun_completes
  rw [hstage] at hcompletes
  obtain ⟨-, -, store, hacc, hmessages, hwhole, -⟩ :=
    failed_state (r := shortRunner) rfl (.fresh _ _) hcompletes
  rw [hsteps] at hacc hmessages
  refine ⟨store, hacc, hmessages, hwhole ?_ ?_⟩
  · rw [hfailure]
    exact fun key e h => nomatch congrArg (fun f => f.map (·.nodeKey)) h
  · rw [hfailure]
    exact fun key target h => nomatch congrArg (fun f => f.map (·.nodeKey)) h

end Workgraph
