import Workgraph.Proofs.Run.Concurrency
import Workgraph.Proofs.State.Commuting
import Workgraph.Proofs.Workflow.Functional
import Workgraph.Proofs.Workflow.Mirrored
/-!
# Steps of functional workflows

What the nodes of a step give back in a functional workflow: it depends on the state and on which
nodes there are, and not on their order, on when they run or on what else is known of the step. It
can be written in any order, and in a workflow that mirrors the first one it is written alike.

## Main definitions

- `Answers.Given`, `Answers.passed`: what the nodes of a frontier give back, and what passes the
  barrier

## Main statements

- `Answers.Given.zip_perm`: the same nodes give back the same
- `Workflow.Functional.separate`: what they give back are writes to different channels
- `Workflow.Functional.runNodes`: what the nodes of a step do
-/

namespace Workgraph

variable {σ τ : Type}

/-- What the nodes of a frontier give back in a state. -/
def Answers.Given (f : Answers) (frontier : List String) (s : Snapshot)
    (outputs : List NodeOutput) : Prop :=
  List.Forall₂ (fun key out => f key s = .ok out) frontier outputs

namespace Answers.Given

variable {f : Answers} {frontier frontier' : List String} {s : Snapshot}
  {outputs outputs' : List NodeOutput}

theorem zip_eq (h : f.Given frontier s outputs) :
    frontier.zip outputs = frontier.filterMap fun key => (f key s).toOption.map (key, ·) := by
  induction h with
  | nil => rfl
  | cons hout _ ih =>
    rw [List.zip_cons_cons, ih, List.filterMap_cons, hout]
    rfl

/-- The same nodes give back the same. -/
theorem zip_perm (h : f.Given frontier s outputs) (h' : f.Given frontier' s outputs')
    (hperm : frontier.Perm frontier') : (frontier.zip outputs).Perm (frontier'.zip outputs') := by
  rw [h.zip_eq, h'.zip_eq]
  exact hperm.filterMap _

theorem of_mem_zip (h : f.Given frontier s outputs) {p : String × NodeOutput}
    (hp : p ∈ frontier.zip outputs) : p.1 ∈ frontier ∧ f p.1 s = .ok p.2 :=
  ⟨(List.of_mem_zip hp).1, (List.forall₂_iff_zip.mp h).2 hp⟩

end Answers.Given

namespace Workflow.Functional

variable {w : Workflow σ} {f : Answers} (hf : w.Functional f)

include hf

theorem depends : w.Depends (fun ctx s => f ctx.nodeKey s) fun _ _ => 0 := by
  intro n hn ctx s world hkey hawake
  dsimp only
  rw [hkey]
  exact hf.returns n hn ctx s world hawake

/-- A workflow that mirrors a functional one is functional. -/
theorem mirrored {w' : Workflow σ} (h : w.Mirrors w') : w'.Functional f where
  returns := by
    intro n' hn'
    obtain ⟨n, hn, hmirrors⟩ := h.exists_node hn'
    rw [hmirrors.run_eq, hmirrors.key_eq]
    exact hf.returns n hn
  writes := by
    intro n' hn'
    obtain ⟨n, hn, hmirrors⟩ := h.exists_node hn'
    rw [hmirrors.key_eq]
    exact hf.writes n hn
  registered := by
    intro n' hn'
    obtain ⟨n, hn, hmirrors⟩ := h.exists_node hn'
    rw [hmirrors.key_eq, h.schema_eq, h.channelOf_eq]
    exact hf.registered n hn
  owned := by
    intro n' hn' m' hm'
    obtain ⟨n, hn, hmirrors⟩ := h.exists_node hn'
    obtain ⟨m, hm, hmirrors'⟩ := h.exists_node hm'
    rw [hmirrors.key_eq, hmirrors'.key_eq, h.channelOf_eq, h.channelOf_eq]
    exact hf.owned n hn m hm

variable {frontier : List String} {s : Snapshot} {outputs : List NodeOutput}

/-- What the nodes of a frontier give back are writes to different channels. -/
theorem separate (hn : frontier.Nodup) (hk : ∀ key ∈ frontier, key ∈ w.keys)
    (h : f.Given frontier s outputs) : w.Separate (frontier.zip outputs) where
  writes := by
    intro p hp
    obtain ⟨hkey, hout⟩ := h.of_mem_zip hp
    obtain ⟨n, hmem, heq⟩ := List.mem_map.mp (hk p.1 hkey)
    rw [← heq] at hout
    exact hf.writes n hmem s p.2 hout
  channels := by
    have hkeys : ((frontier.zip outputs).map (·.1)).Pairwise (· ≠ ·) := by
      rw [List.map_fst_zip (Nat.le_of_eq h.length_eq)]
      exact hn
    refine (List.pairwise_map.mp hkeys).imp_of_mem fun {p q} hp hq hne heq => hne ?_
    obtain ⟨n, hmem, hkey⟩ := List.mem_map.mp (hk p.1 (h.of_mem_zip hp).1)
    obtain ⟨m, hmem', hkey'⟩ := List.mem_map.mp (hk q.1 (h.of_mem_zip hq).1)
    rw [← hkey, ← hkey'] at heq ⊢
    exact hf.owned n hmem m hmem' heq

/-- They can be written. -/
theorem exists_writeOutputs {store : Store} (hk : ∀ key ∈ frontier, key ∈ w.keys)
    (h : f.Given frontier s outputs) (hwrites : ∀ p ∈ frontier.zip outputs, ∃ u, p.2 = .write u)
    (hschema : store.schema = w.schema) :
    ∃ store', w.writeOutputs store (frontier.zip outputs) = (store', none) := by
  refine Workflow.exists_writeOutputs ?_ hschema
  intro p hp
  obtain ⟨n, hmem, hkey⟩ := List.mem_map.mp (hk p.1 (h.of_mem_zip hp).1)
  obtain ⟨u, hu⟩ := hwrites p hp
  refine ⟨fun _ _ _ => ?_, ?_⟩
  · rw [← hkey]
    exact hf.registered n hmem
  · rw [hu]
    exact nofun

end Workflow.Functional

/-- Writes are written alike. -/
theorem Workflow.Mirrors.writeOutputs_eq {w w' : Workflow σ} (h : w.Mirrors w')
    {outputs : List (String × NodeOutput)} (hwrites : ∀ p ∈ outputs, ∃ u, p.2 = .write u)
    (store : Store) : w'.writeOutputs store outputs = w.writeOutputs store outputs := by
  induction outputs generalizing store with
  | nil => rfl
  | cons p rest ih =>
    obtain ⟨key, out⟩ := p
    obtain ⟨u, rfl⟩ := hwrites (key, out) List.mem_cons_self
    have hfirst : w'.writeOutput key (.write u) store = w.writeOutput key (.write u) store := by
      unfold writeOutput writeUpdate NodeOutput.write
      rw [h.channelOf_eq]
    unfold writeOutputs
    rw [hfirst]
    simp only [ih fun p hp => hwrites p (List.mem_cons_of_mem _ hp)]

/-! ## Steps -/

/-- What passes the barrier of a step: what all nodes of the frontier give back, or the error of the
first of them that fails. -/
def Answers.passed (f : Answers) (frontier : List String) (s : Snapshot) :
    Except (String × NodeError) (List NodeOutput) :=
  frontier.mapM fun key => (f key s).mapError fun e => (key, e)

theorem Answers.given_of_passed {f : Answers} {frontier : List String} {s : Snapshot}
    {outputs : List NodeOutput} (h : f.passed frontier s = .ok outputs) :
    f.Given frontier s outputs :=
  (mapM_eq_ok_iff.mp h).imp fun _ _ => eq_ok_of_mapError

/-- In whatever order the nodes stand, all of them pass or not. -/
theorem Answers.passed_perm (f : Answers) {frontier frontier' : List String} (s : Snapshot)
    (hperm : frontier.Perm frontier') :
    Concur (fun outputs outputs' => f.Given frontier s outputs ∧ f.Given frontier' s outputs')
      (f.passed frontier s) (f.passed frontier' s) := by
  refine .of_iff ?_ fun outputs outputs' h h' => ⟨given_of_passed h, given_of_passed h'⟩
  unfold passed
  rw [exists_mapM_iff, exists_mapM_iff]
  simp only [hperm.mem_iff]

/-- The nodes of a step pass the barrier as they do by themselves. They do not cancel the run, and
they draw nothing. -/
theorem Workflow.Functional.runNodes {r : Runner σ τ} {f : Answers}
    (hf : r.workflow.Functional f) (c : Cursor) (base : Nat) {order : List Nat}
    (horder : order.Perm (List.range c.frontier.length))
    (hk : ∀ key ∈ c.frontier, r.workflow.contains key = true) {world : World σ}
    (hawake : world.cancelled = false) :
    barrier c.frontier (r.runNodes c base order world).1 = f.passed c.frontier c.store.state ∧
      (r.runNodes c base order world).2.cancelled = false ∧
      (r.runNodes c base order world).2.issued = world.issued := by
  obtain ⟨-, hcalm, hissued⟩ := Runner.Depends.runNodes hf.depends c base order hawake
  have hdelivers := Runner.Depends.delivers hf.depends c base horder hk hawake
  refine ⟨?_, hcalm, ?_⟩
  · unfold Answers.passed
    rw [hdelivers.barrier_eq]
    conv => rhs; rw [← List.zipIdx_map_fst 0 c.frontier, List.mapM_map]
    rfl
  · have hnone : (order.map (r.drawsAt (fun _ _ => 0) c base)).sum = 0 := by
      refine List.sum_eq_zero fun n hn => ?_
      obtain ⟨index, -, rfl⟩ := List.mem_map.mp hn
      unfold Runner.drawsAt
      cases c.frontier[index]?.bind r.workflow.node? with
      | none => rfl
      | some m => rfl
    rw [hissued, hnone, Nat.add_zero]

end Workgraph
