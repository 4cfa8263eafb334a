import Mathlib.Data.List.Chain
import Workgraph.Proofs.Checkpoint.Saving
import Workgraph.Proofs.Run.Resumption
/-!
# Lineage

The checkpoints that a run saves form one chain, which begins at the checkpoint that is resumed, if
there is one. Each checkpoint names the one before it as its parent, and the state behind it has
only grown: the conversation at its end, and the versions of the channels upwards. Versions are
counted without bound.

## Main definitions

- `Snapshot.Extends`: states that have grown from others
- `Checkpoint.Succeeds`: how a checkpoint follows its parent
- `RunStart.line`: the chain of a run
- `Runner.Descends`: what is known of the chain at a stage of a run

## Main statements

- `Runner.Move.descends`: every move puts checkpoints at the end of the chain only
- `checkpoints_chained`: the checkpoints of a run form one chain, which its outcome ends
-/

namespace Workgraph

variable {σ τ : Type}

/-! ## States that grow -/

/-- A state that has grown from another one: the conversation has only been added to, and no channel
has gone back to an earlier version. -/
structure Snapshot.Extends (s before : Snapshot) : Prop where
  messages : before.messages <+: s.messages
  versions : ∀ name, before.version name ≤ s.version name

namespace Snapshot.Extends

theorem refl (s : Snapshot) : s.Extends s := ⟨List.prefix_refl _, fun _ => Nat.le_refl _⟩

theorem trans {s middle before : Snapshot} (h : s.Extends middle) (h' : middle.Extends before) :
    s.Extends before :=
  ⟨h'.messages.trans h.messages, fun name => Nat.le_trans (h'.versions name) (h.versions name)⟩

theorem put (s : Snapshot) (name : String) (value : Json) : (Store.put s name value).Extends s := by
  refine ⟨List.prefix_refl _, fun other => ?_⟩
  unfold Store.put version
  by_cases h : other = name
  · subst h
    simp [Table.get?_insert_self]
  · rw [Table.get?_insert_of_ne _ h]

theorem append (store : Store) (messages : List Message) :
    (store.append messages).state.Extends store.state :=
  ⟨List.prefix_append _ _, fun _ => Nat.le_refl _⟩

end Snapshot.Extends

/-- What a step writes, the state only grows by. -/
theorem Workflow.writeOutputs_extends {w : Workflow σ} {store store' : Store}
    {outputs : List (String × NodeOutput)} (h : w.writeOutputs store outputs = (store', none)) :
    store'.state.Extends store.state := by
  refine writeOutputs_induct (motive := fun s => s.state.Extends store.state) ?_ h (.refl _)
  intro p _ before after ho hs
  obtain ⟨⟨mid, hu, rfl⟩, -⟩ := writeOutput_cases ho
  refine .trans (.append mid _) (.trans ?_ hs)
  obtain rfl | ⟨name, value, -, rfl⟩ := writeUpdate_cases hu
  · exact .refl _
  · exact .put _ name value

/-! ## The chain -/

/-- How a checkpoint follows its parent: a step is one further on and has run something, a pause is
where its parent is, and the state has only grown. -/
structure Checkpoint.Succeeds (cp parent : Checkpoint) : Prop where
  parentId_eq : cp.parentId = some parent.id
  source_ne : cp.record.source ≠ .input
  step : cp.record.source = .step →
    cp.record.step = parent.record.step + 1 ∧ cp.record.ranNodes ≠ []
  pause : cp.record.source = .pause →
    cp.record.step = parent.record.step ∧ cp.state = parent.state
  grown : cp.state.Extends parent.state

/-- How a run stands behind the last checkpoint of its chain. -/
structure Cursor.Succeeds (c : Cursor) (cp : Checkpoint) : Prop where
  parentId_eq : c.parentId = some cp.id
  step_eq : c.step = cp.record.step
  grown : c.store.state.Extends cp.state

namespace RunStart

/-- The checkpoint that a run is resumed at. -/
def origin? : RunStart → Option Checkpoint
  | fresh _ _ => none
  | resume cp _ => some cp

/-- The chain of a run: the checkpoint that it is resumed at, and those that it has saved. -/
def line (start : RunStart) (cps : List Checkpoint) : List Checkpoint := start.origin?.toList ++ cps

theorem line_append (start : RunStart) (cps more : List Checkpoint) :
    start.line (cps ++ more) = start.line cps ++ more := (List.append_assoc _ _ _).symm

end RunStart

/-- A chain goes on with whatever follows its last element. -/
theorem isChain_concat {α : Type} {R : α → α → Prop} {xs : List α} {last next : α}
    (h : xs.IsChain R) (hlast : xs.getLast? = some last) (hnext : R last next) :
    (xs ++ [next]).IsChain R := by
  refine List.isChain_append.mpr ⟨h, .singleton _, ?_⟩
  intro x hx y hy
  cases hlast.symm.trans hx
  cases hy
  exact hnext

namespace Runner

/-- A run gets past its preparation unless it begins at a checkpoint that cannot be resumed. -/
def Prepares (r : Runner σ τ) (start : RunStart) : Prop :=
  ∀ cp input, start = .resume cp input → ∃ c, r.resumedCursor cp input = .ok c

/-- Where a run stands whose chain has a given last checkpoint. In front of its first step, a
resumed run may have been given further input; otherwise the state is that of the checkpoint. -/
def StandsBehind (r : Runner σ τ) (last? : Option Checkpoint) : Stage → Prop
  | .waiting start => last? = start.origin? ∧ r.Prepares start
  | .ready c => ∃ cp, last? = some cp ∧ c.Succeeds cp ∧
    (c.passesPause = false → c.store.state = cp.state)
  | .running c _ | .accepted c _ => ∃ cp, last? = some cp ∧ c.Succeeds cp ∧ c.frontier ≠ []
  | .ended o => o.checkpointId = last?.map (·.id)

/-- What is known of the chain of a run: it is one, it begins at the checkpoint that is resumed or
at one in front of the first step, and the run stands behind its end. -/
structure Descends (r : Runner σ τ) (start : RunStart) (stage : Stage) (cps : List Checkpoint) :
    Prop where
  chained : (start.line cps).IsChain fun parent cp => cp.Succeeds parent
  first : start.origin? = none → ∀ cp, cps.head? = some cp →
    cp.record.source = .input ∧ cp.record.step = 0 ∧ cp.parentId = none
  stands : r.StandsBehind (start.line cps).getLast? stage

variable {r : Runner σ τ} {start : RunStart} {c : Cursor} {cp : Checkpoint}

/-- What is saved is put on record under the identifier that the archive gives. -/
theorem exists_saved_as (hids : r.archive.GivesIds) {record : StepRecord}
    {world : RunWorld σ (τ × List Checkpoint)} {id : String} {t : τ × List Checkpoint}
    (h : r.recording.Saves c record world (.ok id) t) :
    ∃ cp, t.2 = world.saved ++ [cp] ∧ cp.id = id ∧ cp.parentId = c.parentId ∧
      cp.state = c.store.state ∧ cp.record = record := by
  refine ⟨_, saved_of_saves h, ?_, rfl, rfl, rfl⟩
  obtain ⟨result, contents, hs⟩ : ∃ result contents,
      r.archive.save (r.checkpointAt c record world.world) world.archive.1 = (result, contents) :=
    ⟨_, _, rfl⟩
  change r.archive.recording.save (r.checkpointAt c record world.world) world.archive = _ at h
  cases result with
  | error e => simp [Archive.recording, hs] at h
  | ok id' =>
    simp only [Archive.recording, hs, Prod.mk.injEq, Except.ok.injEq] at h
    rw [← h.1]
    exact (hids _ _ _ _ hs).symm

/-- Behind a checkpoint of its own state, a run stands where the checkpoint does. -/
theorem savedAs_succeeds {id : String} (hid : cp.id = id) (hstate : cp.state = c.store.state)
    (hstep : cp.record.step = c.step) : (c.savedAs id).Succeeds cp := by
  refine ⟨congrArg some hid.symm, hstep.symm, ?_⟩
  rw [hstate]
  exact .refl _

/-- The checkpoint of a pause follows the one whose state it has. -/
theorem paused_succeeds {parent : Checkpoint} (hc : c.Succeeds parent)
    (hparent : cp.parentId = c.parentId) (hstate : cp.state = parent.state)
    (hsource : cp.record.source = .pause) (hstep : cp.record.step = c.step) :
    cp.Succeeds parent where
  parentId_eq := hparent.trans hc.parentId_eq
  source_ne := by simp [hsource]
  step := by simp [hsource]
  pause := fun _ => ⟨hstep.trans hc.step_eq, hstate⟩
  grown := by
    rw [hstate]
    exact .refl _

/-- The checkpoint of a step follows the one that the run stood behind. -/
theorem stepped_succeeds {parent : Checkpoint} {outputs : List NodeOutput} {store : Store}
    (hc : c.Succeeds parent) (hne : c.frontier ≠ [])
    (ho : r.workflow.writeOutputs c.store (c.frontier.zip outputs) = (store, none))
    (hparent : cp.parentId = c.parentId) (hstate : cp.state = store.state)
    (hrecord : cp.record = r.stepRecord c outputs) : cp.Succeeds parent where
  parentId_eq := hparent.trans hc.parentId_eq
  source_ne := by simp [hrecord, stepRecord]
  step := by
    intro _
    rw [hrecord, ← hc.step_eq]
    exact ⟨rfl, hne⟩
  pause := by simp [hrecord, stepRecord]
  grown := by
    rw [hstate]
    exact .trans (Workflow.writeOutputs_extends ho) hc.grown

/-- A resumed run stands behind the checkpoint that it begins at, whatever further input it has. -/
theorem resumed_succeeds {input : Option Json} (hc : r.resumedCursor cp input = .ok c) :
    c.Succeeds cp ∧ c.passesPause = true := by
  obtain ⟨split, -, rfl⟩ := r.resumedCursor_eq_ok_iff.mp hc
  refine ⟨⟨rfl, rfl, ?_⟩, rfl⟩
  cases input with
  | none => exact ⟨List.prefix_refl _, fun _ => Nat.le_refl _⟩
  | some more => exact ⟨List.prefix_refl _, fun _ => Nat.le_refl _⟩

namespace Descends

variable {stage stage' : Stage} {cps : List Checkpoint}

/-- A move that saves nothing leaves the chain as it is. -/
theorem stay (h : r.Descends start stage cps)
    (hs : r.StandsBehind (start.line cps).getLast? stage') : r.Descends start stage' cps :=
  ⟨h.chained, h.first, hs⟩

/-- A checkpoint that follows the last one goes to the end of the chain. -/
theorem push (h : r.Descends start stage cps) {last : Checkpoint}
    (hlast : (start.line cps).getLast? = some last) (hcp : cp.Succeeds last)
    (hs : r.StandsBehind (some cp) stage') : r.Descends start stage' (cps ++ [cp]) := by
  refine ⟨?_, ?_, ?_⟩
  · rw [start.line_append]
    exact isChain_concat h.chained hlast hcp
  · intro hfresh first hfirst
    -- A fresh run that stands behind a checkpoint has saved one before.
    cases cps with
    | nil => simp [RunStart.line, hfresh] at hlast
    | cons first' rest => exact h.first hfresh first hfirst
  · rw [start.line_append, List.getLast?_concat]
    exact hs

/-- The first checkpoint of a fresh run begins its chain. -/
theorem begin {input environment : Json}
    (h : r.Descends start (.waiting (.fresh input environment)) cps)
    (hinput : cp.record.source = .input) (hstep : cp.record.step = 0)
    (hparent : cp.parentId = none) (hs : r.StandsBehind (some cp) stage') :
    r.Descends start stage' (cps ++ [cp]) := by
  have hnil : start.line cps = [] := List.getLast?_eq_none_iff.mp h.stands.1
  obtain ⟨-, rfl⟩ := List.append_eq_nil_iff.mp hnil
  refine ⟨?_, ?_, ?_⟩
  · rw [start.line_append, hnil]
    exact .singleton _
  · intro _ first hfirst
    cases hfirst
    exact ⟨hinput, hstep, hparent⟩
  · rw [start.line_append, List.getLast?_concat]
    exact hs

end Descends

/-- Every move puts checkpoints at the end of the chain only, each one behind the last. -/
theorem Move.descends {stage stage' : Stage} {world world' : RunWorld σ (τ × List Checkpoint)}
    (h : r.recording.Move stage world stage' world') (hids : r.archive.GivesIds)
    (hs : r.Descends start stage world.saved) : r.Descends start stage' world'.saved := by
  cases h with
  | begun log hsaved =>
    obtain ⟨cp, hcp, hid, hparent, hstate, hrecord⟩ := exists_saved_as hids hsaved
    rw [RunWorld.saved_turn, hcp]
    exact hs.begin (by rw [hrecord]; rfl) (by rw [hrecord]; rfl) hparent
      ⟨cp, rfl, savedAs_succeeds hid hstate (by rw [hrecord]; rfl), fun _ => hstate.symm⟩
  | beginRefused log hsaved =>
    rw [RunWorld.saved_turn, saved_of_refuses hsaved]
    refine hs.stay ?_
    rw [hs.stands.1]
    rfl
  | @resumed _ cp input c log hc =>
    obtain ⟨hsucc, hpass⟩ := resumed_succeeds (r := r) hc
    exact hs.stay ⟨cp, hs.stands.1, hsucc, fun hnot => by rw [hpass] at hnot; cases hnot⟩
  | resumeFailed log he =>
    obtain ⟨c, hc⟩ := hs.stands.2 _ _ rfl
    cases he.symm.trans hc
  | @pausedAhead _ c budget key id t log hf hw hb hp hsaved =>
    obtain ⟨last, hlast, hc, hstate⟩ := hs.stands
    -- Only a run that is not to pass by its pause gets here, so nothing has been put in since.
    have hfree : c.passesPause = false := by
      cases hpass : c.passesPause with
      | false => rfl
      | true => simp [pauseAhead?, hpass] at hp
    obtain ⟨cp, hcp, hid, hparent, hstate', hrecord⟩ := exists_saved_as hids hsaved
    rw [RunWorld.saved_turn, hcp]
    exact hs.push hlast (paused_succeeds hc hparent (hstate'.trans (hstate hfree))
      (by rw [hrecord]; rfl) (by rw [hrecord]; rfl)) (congrArg some hid.symm)
  | pauseAheadRefused log hf hw hb hp hsaved =>
    obtain ⟨last, hlast, hc, -⟩ := hs.stands
    rw [RunWorld.saved_turn, saved_of_refuses hsaved]
    exact hs.stay (by rw [hlast]; exact hc.parentId_eq)
  | dispatched log log' hf hw hb hp hk ha =>
    obtain ⟨last, hlast, hc, -⟩ := hs.stands
    exact hs.stay ⟨last, hlast, ⟨hc.parentId_eq, hc.step_eq, hc.grown⟩, hf⟩
  | accepted hw hb => exact hs.stay hs.stands
  | stepRefused log ho hsaved =>
    obtain ⟨last, hlast, hc, -⟩ := hs.stands
    rw [RunWorld.saved_turn, saved_of_refuses hsaved]
    exact hs.stay (by rw [hlast]; exact hc.parentId_eq)
  | routeFailed log ho hsaved hr =>
    obtain ⟨last, hlast, hc, hne⟩ := hs.stands
    obtain ⟨cp, hcp, hid, hparent, hstate, hrecord⟩ := exists_saved_as hids hsaved
    rw [RunWorld.saved_turn, hcp]
    exact hs.push hlast (stepped_succeeds hc hne ho hparent hstate hrecord)
      (congrArg some hid.symm)
  | settled log ho hsaved hr hi =>
    obtain ⟨last, hlast, hc, hne⟩ := hs.stands
    obtain ⟨cp, hcp, hid, hparent, hstate, hrecord⟩ := exists_saved_as hids hsaved
    have hc' := savedAs_succeeds hid hstate (by rw [hrecord]; rfl)
    rw [RunWorld.saved_turn, hcp]
    exact hs.push hlast (stepped_succeeds hc hne ho hparent hstate hrecord)
      ⟨cp, rfl, ⟨hc'.parentId_eq, hc'.step_eq, hc'.grown⟩, fun _ => hstate.symm⟩
  | pausedBehind log log' ho hsaved hr hi hsaved' =>
    obtain ⟨last, hlast, hc, hne⟩ := hs.stands
    obtain ⟨cp, hcp, hid, hparent, hstate, hrecord⟩ := exists_saved_as hids hsaved
    have hc' := savedAs_succeeds hid hstate (by rw [hrecord]; rfl)
    obtain ⟨cp', hcp', hid', hparent', hstate', hrecord'⟩ := exists_saved_as hids hsaved'
    rw [RunWorld.saved_turn, hcp', RunWorld.saved_turn, hcp]
    -- The step goes on record first, and the pause behind it.
    have hstepped : r.Descends start (.ready _) (_ ++ [cp]) :=
      hs.push hlast (stepped_succeeds hc hne ho hparent hstate hrecord)
        ⟨cp, rfl, hc', fun _ => hstate.symm⟩
    refine hstepped.push ?_ (paused_succeeds hc' hparent' (hstate'.trans hstate.symm)
      (by rw [hrecord']; rfl) (by rw [hrecord']; rfl)) (congrArg some hid'.symm)
    rw [start.line_append, List.getLast?_concat]
  | pauseBehindRefused log log' ho hsaved hr hi hsaved' =>
    obtain ⟨last, hlast, hc, hne⟩ := hs.stands
    obtain ⟨cp, hcp, hid, hparent, hstate, hrecord⟩ := exists_saved_as hids hsaved
    rw [RunWorld.saved_turn, saved_of_refuses hsaved', RunWorld.saved_turn, hcp]
    exact hs.push hlast (stepped_succeeds hc hne ho hparent hstate hrecord)
      (congrArg some hid.symm)
  | rested => exact hs
  | _ =>
    -- The other moves end the run where it stands.
    obtain ⟨last, hlast, hc, -⟩ := hs.stands
    exact hs.stay (by rw [hlast]; exact hc.parentId_eq)

/-- Wherever a run comes, its checkpoints form one chain. -/
theorem Reaches.descends {stage : Stage} {world : RunWorld σ (τ × List Checkpoint)}
    (h : r.Reaches start stage world) (hids : r.archive.GivesIds) (hp : r.Prepares start) :
    r.Descends start stage world.saved := by
  refine h.induct (motive := fun stage cps => r.Descends start stage cps) ?_
    fun hs hmove => hmove.descends hids hs
  have hline : start.line [] = start.origin?.toList := List.append_nil _
  refine ⟨?_, by simp, ?_, hp⟩
  · rw [hline]
    cases start.origin? with
    | none => exact .nil
    | some cp => exact .singleton _
  · rw [hline]
    cases start.origin? with
    | none => rfl
    | some cp => rfl

/-- The checkpoint of a step names the frontier whose outputs have been accepted. -/
theorem SavesAt.ran {stage : Stage} (h : r.SavesAt stage cp) (hstep : cp.record.source = .step) :
    ∃ c outputs, stage = .accepted c outputs ∧ cp.record.ranNodes = c.frontier := by
  cases h with
  | step ho hs hr => exact ⟨_, _, rfl, by rw [hr]; rfl⟩
  | first hs hr => simp [hr, StepRecord.blank] at hstep
  | ahead hs hr hf => simp [hr, pendingRecord] at hstep
  | behind ho hs hr => simp [hr, pausedRecord] at hstep

end Runner

/-- The checkpoints of a run that gets past its preparation form one growing chain, whichever saves
the archive refuses. A fresh run begins its chain in front of its first step, and a resumed one at
the checkpoint that it begins at. Each checkpoint follows the one before it: it names it as its
parent, and it holds a step further on or a pause in the same place. What is put on record of a step
in a move are the nodes of the frontier whose outputs the move writes. The outcome names the last
checkpoint of the chain. -/
theorem checkpoints_chained {r : Runner σ τ} (hids : r.archive.GivesIds) {start : RunStart}
    (hp : r.Prepares start) {stage : Stage} {world : RunWorld σ (τ × List Checkpoint)}
    (h : r.Reaches start stage world) :
    (start.origin? = none → ∀ cp, world.saved.head? = some cp →
      cp.record.source = .input ∧ cp.record.step = 0 ∧ cp.parentId = none) ∧
    (start.origin?.toList ++ world.saved).IsChain (fun parent cp => cp.Succeeds parent) ∧
    (∃ more, (r.recording.advance stage world).2.saved = world.saved ++ more ∧
      ∀ cp ∈ more, cp.record.source = .step →
        ∃ c outputs, stage = .accepted c outputs ∧ cp.record.ranNodes = c.frontier) ∧
    ∀ o, stage = .ended o →
      o.checkpointId = ((start.origin?.toList ++ world.saved).getLast?).map (·.id) := by
  have hs := h.descends hids hp
  refine ⟨hs.first, hs.chained, ?_, ?_⟩
  · obtain ⟨more, hmore, hsaves⟩ := (r.recording.advance_move stage world).saved
    exact ⟨more, hmore, fun cp hcp hstep => (hsaves cp hcp).ran hstep⟩
  · rintro o rfl
    exact hs.stands

theorem unevenRest_prepares : unevenRunner.Prepares (.resume unevenMark none) := by
  intro cp input hstart
  obtain ⟨rfl, rfl⟩ := RunStart.resume.inj hstart
  have hok : (unevenRunner.resumedCursor unevenMark none).isOk = true := by decide +kernel
  cases hc : unevenRunner.resumedCursor unevenMark none with
  | ok c => exact ⟨c, rfl⟩
  | error e =>
    rw [hc] at hok
    cases hok

theorem checkpoints_chained_uneven :
    Archive.memory.GivesIds ∧ unevenRunner.Prepares (.resume unevenMark none) ∧
      unevenRunner.Reaches (.resume unevenMark none) unevenRest.1 unevenRest.2 ∧
      unevenRest.2.saved.length = 2 ∧
      (unevenMark :: unevenRest.2.saved).IsChain (fun parent cp => cp.Succeeds parent) ∧
      ∃ o, unevenRest.1 = .ended o ∧
        o.checkpointId = ((unevenMark :: unevenRest.2.saved).getLast?).map (·.id) := by
  refine ⟨Archive.memory_givesIds, unevenRest_prepares, unevenRest_reaches, by decide +kernel, ?_⟩
  obtain ⟨-, hchain, -, hlast⟩ := checkpoints_chained (r := unevenRunner) Archive.memory_givesIds
    unevenRest_prepares unevenRest_reaches
  obtain ⟨o, ho, -⟩ := Option.map_eq_some_iff.mp unevenRest_completed
  have hended := Stage.eq_ended_of_outcome? ho
  exact ⟨hchain, o, hended, hlast o hended⟩

end Workgraph
