import Workgraph.Proofs.Run.Recording
import Workgraph.Proofs.Run.Step
import Workgraph.Proofs.Run.Writing
/-!
# States on record

What fresh states have, and resuming and writing the output of any node keeps, all states have that
runs of a workflow come to and put on record.

## Main definitions

- `Workflow.Maintains`: what is kept by resuming and by writing

## Main statements

- `Runner.Reaches.maintained`, `Workflow.Maintains.wrote`: the states of runs and of checkpoints
-/

namespace Workgraph

variable {σ τ : Type}

/-- A property of states that fresh runs begin with, and that resuming a checkpoint and writing what
a node gave back keep. -/
structure Workflow.Maintains (w : Workflow σ) (motive : Snapshot → Prop) : Prop where
  fresh : ∀ input environment, motive ((Store.fresh w.schema).withInputs input environment).state
  restored : ∀ s, motive s → motive (Store.ofState w.schema s).state
  merged : ∀ (store : Store) more, motive store.state → motive (store.mergeInput more).state
  written : ∀ n ∈ w.nodes, ∀ ctx s before out, (n.run ctx s before).1 = .ok out →
    ∀ store store', w.writeOutput n.key out store = (store', none) →
      motive store.state → motive store'.state

namespace Runner

variable {r : Runner σ τ} {motive : Snapshot → Prop} {c : Cursor}

/-- What is known of the state at a stage: of the one that a run is resumed in, or of the one that
it stands in. -/
def Holds (motive : Snapshot → Prop) : Stage → Prop
  | .waiting start => ∀ cp input, start = .resume cp input → motive cp.state
  | stage => ∀ c, stage.cursor? = some c → motive c.store.state

theorem Maintains.resumed (hm : r.workflow.Maintains motive) {cp : Checkpoint}
    {input : Option Json} {c : Cursor} (hcp : motive cp.state)
    (hc : r.resumedCursor cp input = .ok c) : motive c.store.state := by
  obtain ⟨split, -, rfl⟩ := r.resumedCursor_eq_ok_iff.mp hc
  have hrestored := hm.restored cp.state hcp
  cases input with
  | none => exact hrestored
  | some more => exact hm.merged _ more hrestored

/-- Writing what the nodes of a step gave back keeps what writing each output keeps. -/
theorem Gave.maintained (hm : r.workflow.Maintains motive) {outputs : List NodeOutput}
    (h : r.Gave c outputs) {store : Store}
    (ho : r.workflow.writeOutputs c.store (c.frontier.zip outputs) = (store, none))
    (hc : motive c.store.state) : motive store.state := by
  have hwritten := h.induct (motive := fun key out => ∀ store store',
    r.workflow.writeOutput key out store = (store', none) → motive store.state →
      motive store'.state) hm.written
  exact Workflow.writeOutputs_induct (motive := fun store => motive store.state) hwritten ho hc

variable {stage stage' : Stage}

theorem SavesAt.maintained (hm : r.workflow.Maintains motive) {cp : Checkpoint}
    (h : r.SavesAt stage cp) (hp : r.Performed stage) (hs : Holds motive stage) :
    motive cp.state := by
  cases h with
  | first hstate hr =>
    rw [hstate]
    exact hm.fresh _ _
  | ahead hstate hr hf =>
    rw [hstate]
    exact hs _ rfl
  | step ho hstate hr =>
    rw [hstate]
    exact Gave.maintained hm hp ho (hs _ rfl)
  | behind ho hstate hr =>
    rw [hstate]
    exact Gave.maintained hm hp ho (hs _ rfl)

theorem Move.maintained {world world' : RunWorld σ τ} (hm : r.workflow.Maintains motive)
    (h : r.Move stage world stage' world') (hp : r.Performed stage) (hs : Holds motive stage) :
    Holds motive stage' := by
  cases h with
  | begun log hsaved =>
    rintro c hc
    cases hc
    exact hm.fresh _ _
  | resumed log hcursor =>
    rintro c hc
    cases hc
    exact Maintains.resumed hm (hs _ _ rfl) hcursor
  | @dispatched _ c budget arrivals after log log' hf hw hb hpause hk ha =>
    rintro c' hc
    cases hc
    exact hs c rfl
  | accepted hw hb =>
    rintro c hc
    cases hc
    exact hs _ rfl
  | settled log ho hsaved hr hi =>
    rintro c hc
    cases hc
    exact Gave.maintained hm hp ho (hs _ rfl)
  | rested o => exact hs
  | _ => exact nofun

/-- Wherever a run comes, its state and the states it has put on record have what is maintained, if
the state has that it is resumed in. -/
theorem Reaches.maintained (hm : r.workflow.Maintains motive) {start : RunStart}
    {world : RunWorld σ (τ × List Checkpoint)}
    (hs : ∀ cp input, start = .resume cp input → motive cp.state)
    (h : r.Reaches start stage world) :
    Holds motive stage ∧ ∀ cp ∈ world.saved, motive cp.state := by
  have hkept := h.induct (motive := fun stage cps => r.recording.Performed stage ∧
    Holds motive stage ∧ ∀ cp ∈ cps, motive cp.state) ⟨trivial, hs, by simp⟩ ?_
  · exact hkept.2
  · rintro stage world stage' world' ⟨hp, hholds, hrecorded⟩ hmove
    refine ⟨hmove.performed hp, Move.maintained (r := r.recording) hm hmove hp hholds, ?_⟩
    obtain ⟨more, hmore, hsaves⟩ := hmove.saved
    rw [hmore]
    intro cp hcp
    obtain hcp | hcp := List.mem_append.mp hcp
    · exact hrecorded cp hcp
    · exact (hsaves cp hcp).maintained hm hp hholds

end Runner

/-- What is maintained holds of every state that runs put on record. -/
theorem Workflow.Maintains.wrote {w : Workflow σ} {motive : Snapshot → Prop}
    (hm : w.Maintains motive) {cp : Checkpoint} (h : w.Wrote cp) : motive cp.state := by
  refine h.induct (motive := fun cp => motive cp.state) ?_
  rintro τ r start stage world rfl hs hreach
  exact (hreach.maintained hm hs).2

end Workgraph
