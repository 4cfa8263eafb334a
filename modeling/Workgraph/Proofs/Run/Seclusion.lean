import Workgraph.Proofs.Checkpoint.Links
import Workgraph.Proofs.Run.Alike
import Workgraph.Proofs.Run.Step
/-!
# Seclusion

What a run on a thread takes from its surroundings, if its nodes take no more from them than what
they are told: whether it has been cancelled, how many identifiers its thread has drawn, and the
chains of its thread. Where these are the same, it makes the same moves, apart from times.

## Main definitions

- `Checkpoint.undated`, `Stage.undated`: what is left of them without times
- `Chains.history`: the chains of a thread, without times
- `WorkNode.Secluded`, `Workflow.Secluded`: nodes that take nothing else from their surroundings
- `RunWorld.Beside`: worlds that a run on a thread cannot tell apart

## Main statements

- `Chains.save_beside`, `Chains.save_of_ne`: saving goes by the chains of its thread and leaves the
  others alone
- `Runner.advance_beside`: a run makes the same moves in worlds that it cannot tell apart
-/

namespace Workgraph

variable {σ : Type}

/-! ## Without times -/

/-- A checkpoint without its time. -/
def Checkpoint.undated (cp : Checkpoint) : Checkpoint := { cp with createdAt := .epoch }

/-- How a run begins, without times. -/
def RunStart.undated : RunStart → RunStart
  | .resume cp input => .resume cp.undated input
  | start => start

/-- Where a run stands, without times. -/
def Stage.undated : Stage → Stage
  | .waiting start => .waiting start.undated
  | stage => stage

theorem RunStart.undated_undated (start : RunStart) : start.undated.undated = start.undated := by
  cases start with
  | fresh input environment => rfl
  | resume cp input => rfl

theorem Stage.undated_outcome? (stage : Stage) : stage.undated.outcome? = stage.outcome? := by
  cases stage with
  | waiting start => rfl
  | _ => rfl

/-- No move depends on the time of the checkpoint that a run is resumed at. -/
theorem Runner.advance_undated {τ : Type} (r : Runner σ τ) (stage : Stage) :
    r.advance stage.undated = r.advance stage := by
  cases stage with
  | waiting start =>
    cases start with
    | fresh input environment => rfl
    | resume cp input => rfl
  | _ => rfl

namespace Chains

variable {cs cs' : Chains} {cp cp' : Checkpoint} {threadId : String}

/-- The chains of a thread by namespace, without times. -/
def history (cs : Chains) (threadId checkpointNs : String) : List Checkpoint :=
  (cs.chain threadId checkpointNs).map Checkpoint.undated

/-- Whether an identifier is taken can be told from the history of its thread. -/
theorem any_history (cs : Chains) (threadId checkpointNs id : String) :
    (cs.history threadId checkpointNs).any (·.id == id) =
      (cs.chain threadId checkpointNs).any (·.id == id) := by
  unfold history
  rw [List.any_map]
  rfl

theorem history_push_self (cs : Chains) (cp : Checkpoint) :
    (cs.push cp).history cp.threadId cp.checkpointNs =
      cs.history cp.threadId cp.checkpointNs ++ [cp.undated] := by
  unfold history
  rw [chain_push_self, List.map_append]
  rfl

theorem history_push_of_ne {checkpointNs : String}
    (h : (cp.threadId, cp.checkpointNs) ≠ (threadId, checkpointNs)) :
    (cs.push cp).history threadId checkpointNs = cs.history threadId checkpointNs := by
  unfold history
  rw [chain_push_of_ne h]

/-- Saving a checkpoint of a thread leaves the histories of other threads alone. -/
theorem save_of_ne (h : cp.threadId ≠ threadId) :
    (cs.save cp).2.history threadId = cs.history threadId := by
  funext checkpointNs
  unfold Chains.save
  split
  · rfl
  · exact history_push_of_ne fun heq => h (congrArg Prod.fst heq)

/-- Saving a checkpoint goes by the history of its thread. -/
theorem save_beside (hcp : cp.undated = cp'.undated)
    (h : cs.history cp.threadId = cs'.history cp.threadId) :
    (cs.save cp).1 = (cs'.save cp').1 ∧
      (cs.save cp).2.history cp.threadId = (cs'.save cp').2.history cp.threadId := by
  obtain ⟨hthread, hns, hid, -⟩ := Checkpoint.mk.inj hcp.symm
  have hpush : (cs.push cp).history cp.threadId = (cs'.push cp').history cp.threadId := by
    funext ns
    by_cases hkey : cp.checkpointNs = ns
    · subst hkey
      have hpush' := history_push_self cs' cp'
      rw [hthread, hns, ← hcp] at hpush'
      rw [history_push_self, hpush', h]
    · have hne : (cp.threadId, cp.checkpointNs) ≠ (cp.threadId, ns) :=
        fun heq => hkey (congrArg Prod.snd heq)
      rw [history_push_of_ne hne, history_push_of_ne (by rwa [hthread, hns]), h]
  unfold Chains.save
  rw [hthread, hns, hid, ← any_history, ← any_history, h]
  split
  · exact ⟨rfl, h⟩
  · exact ⟨rfl, hpush⟩

end Chains

/-! ## What nodes take from their surroundings -/

/-- Worlds in which a run has been cancelled or not alike and has drawn as many identifiers. -/
structure World.Beside (w w' : World σ) : Prop where
  cancelled : w.cancelled = w'.cancelled
  issued : w.issued = w'.issued

/-- A node that depends on the state and on what it is told, and takes nothing else from its
surroundings than whether its run has been cancelled and fresh identifiers. What it does to the
host, to the log and to the time may depend on anything. -/
def WorkNode.Secluded (n : WorkNode σ) : Prop :=
  ∀ ctx s w w', World.Beside w w' →
    (n.run ctx s w).1 = (n.run ctx s w').1 ∧ (n.run ctx s w).2.Beside (n.run ctx s w').2

def Workflow.Secluded (w : Workflow σ) : Prop := ∀ n ∈ w.nodes, n.Secluded

/-- Worlds that a run on a thread cannot tell apart, but for times. -/
structure RunWorld.Beside (threadId : String) (w w' : RunWorld σ Chains) : Prop where
  world : w.world.Beside w'.world
  history : w.archive.history threadId = w'.archive.history threadId

/-! ## What runs take from their surroundings -/

namespace Runner

variable {r : Runner σ Chains}

/-- The nodes of a step give back the same in worlds that their run cannot tell apart. -/
theorem runNodes_beside {τ : Type} {r : Runner σ τ} (hw : r.workflow.Secluded) (c : Cursor)
    (base : Nat) (order : List Nat) {w w' : World σ} (h : w.Beside w') :
    (r.runNodes c base order w).1 = (r.runNodes c base order w').1 ∧
      (r.runNodes c base order w).2.Beside (r.runNodes c base order w').2 := by
  induction order generalizing w w' with
  | nil => exact ⟨rfl, h⟩
  | cons index rest ih =>
    unfold Runner.runNodes
    cases hn : c.frontier[index]?.bind r.workflow.node? with
    | none => exact ih h
    | some n =>
      obtain ⟨key, -, hnode⟩ := Option.bind_eq_some_iff.mp hn
      have hn' : n.Secluded := hw n (Workflow.node?_eq_some hnode).1
      obtain ⟨log, hrun⟩ := runNode_apply n (r.contextOf c n.key (base + index)) c.store.state w
      obtain ⟨log', hrun'⟩ := runNode_apply n (r.contextOf c n.key (base + index)) c.store.state w'
      obtain ⟨hresult, hbeside⟩ := hn' (r.contextOf c n.key (base + index)) c.store.state
        { w with log := log } { w' with log := log' } ⟨h.cancelled, h.issued⟩
      rw [← hrun, ← hrun'] at hresult hbeside
      obtain ⟨hrest, hbehind⟩ := ih hbeside
      exact ⟨congrArg₂ List.cons (congrArg (Prod.mk index) hresult) hrest, hbehind⟩

/-- Whatever a run does with worlds that it cannot tell apart corresponds. -/
theorem echoes_beside (hr : r.archive = .memory) (hw : r.workflow.Secluded) :
    r.Echoes r.archive r.order (RunWorld.Beside r.threadId) (fun _ => Eq) where
  report := fun _ _ _ h => ⟨rfl, ⟨h.world.cancelled, h.world.issued⟩, h.history⟩
  isCancelled := fun _ _ h => ⟨h.world.cancelled, h⟩
  reserve := fun count _ _ h =>
    ⟨h.world.issued, ⟨h.world.cancelled, congrArg (· + count) h.world.issued⟩, h.history⟩
  wait := fun _ _ h => ⟨rfl, ⟨h.world.cancelled, h.world.issued⟩, h.history⟩
  save := by
    intro c record w w' h
    obtain ⟨result, t, hs⟩ : ∃ result t, r.Saves c record w result t := ⟨_, _, rfl⟩
    obtain ⟨result', t', hs'⟩ : ∃ result t, r.Saves c record w' result t := ⟨_, _, rfl⟩
    have hcp : (r.checkpointAt c record w.world).undated =
        (r.checkpointAt c record w'.world).undated := by
      unfold Checkpoint.undated checkpointAt
      rw [h.world.issued]
    obtain ⟨hresult, hhistory⟩ := Chains.save_beside hcp h.history
    have hsave : Chains.save (r.checkpointAt c record w.world) w.archive = (result, t) := by
      rw [← hs, hr]
      rfl
    have hsave' : Chains.save (r.checkpointAt c record w'.world) w'.archive = (result', t') := by
      rw [← hs', hr]
      rfl
    rw [hsave, hsave'] at hresult hhistory
    obtain rfl : result = result' := hresult
    change _ = (r.save c record w').1 ∧ RunWorld.Beside _ _ (r.save c record w').2
    rw [r.save_apply hs, r.save_apply hs']
    exact ⟨rfl, ⟨h.world.cancelled, congrArg (· + 1) h.world.issued⟩, hhistory⟩
  runNodes := by
    intro c base _ w w' h
    obtain ⟨harrivals, hbeside⟩ :=
      runNodes_beside hw c base (r.order (c.step + 1) c.frontier.length) h.world
    exact ⟨harrivals, hbeside, h.history⟩
  barrier := fun h => congrArg (Workgraph.barrier _) h

/-- A run makes the same moves in worlds that it cannot tell apart. -/
theorem advance_beside (hr : r.archive = .memory) (hw : r.workflow.Secluded) {stage stage' : Stage}
    (hs : stage.undated = stage'.undated) {w w' : RunWorld σ Chains} (h : w.Beside r.threadId w') :
    (r.advance stage w).1 = (r.advance stage' w').1 ∧
      (r.advance stage w).2.Beside r.threadId (r.advance stage' w').2 := by
  rw [← r.advance_undated stage, ← r.advance_undated stage', hs]
  obtain ⟨hstage, hbeside⟩ := (echoes_beside hr hw).advance (.same stage'.undated) w w' h
  exact ⟨hstage.eq, hbeside⟩

end Runner

end Workgraph
