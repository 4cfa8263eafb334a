import Workgraph.Proofs.Run.Routing
import Workgraph.Proofs.Workflow.Reordering
/-!
# Frontiers of workflows that mirror each other

Where workflows differ in the order of targets and neighbours only, a step routes to the same
candidates, in another order at most, and the same joins are held back: whether a join waits depends
on which candidates there are and not on their order.

## Main statements

- `Workflow.Mirrors.candidates_perm`: a step routes to the same candidates, or fails in both
- `Workflow.Mirrors.holdJoins_perm`: the same candidates run, and the same joins wait
-/

namespace Workgraph

variable {σ : Type}

namespace WorkNode.Mirrors

variable {n n' : WorkNode σ} (h : n.Mirrors n')

include h

theorem isJoin_eq : n'.isJoin = n.isJoin := by
  unfold isJoin
  rw [h.inputs_perm.length_eq]

end WorkNode.Mirrors

namespace Workflow.Mirrors

variable {w w' : Workflow σ} (h : w.Mirrors w') {cs cs' : List String}

include h

theorem exists_node {n' : WorkNode σ} (hn : n' ∈ w'.nodes) : ∃ n ∈ w.nodes, n.Mirrors n' :=
  exists_of_forall₂ h.nodes.flip hn

theorem node?_cases (key : String) :
    (w.node? key = none ∧ w'.node? key = none) ∨
      ∃ n n', w.node? key = some n ∧ w'.node? key = some n' ∧ n.Mirrors n' := by
  obtain ⟨hnodes, -, -⟩ := h
  unfold Workflow.node?
  generalize w.nodes = nodes at hnodes
  generalize w'.nodes = nodes' at hnodes
  induction hnodes with
  | nil => exact .inl ⟨rfl, rfl⟩
  | @cons n n' _ _ hn _ ih =>
    rw [List.find?_cons, List.find?_cons, hn.key_eq]
    split
    · exact .inr ⟨n, n', rfl, rfl, hn⟩
    · exact ih

theorem contains_eq (key : String) : w'.contains key = w.contains key := by
  unfold Workflow.contains
  obtain ⟨hnode, hnode'⟩ | ⟨n, n', hnode, hnode', -⟩ := h.node?_cases key
  · rw [hnode, hnode']
  · rw [hnode, hnode']
    rfl

theorem keys_eq : w'.keys = w.keys := map_key_eq h.nodes

theorem channelOf_eq (key : String) : w'.channelOf key = w.channelOf key := by
  unfold Workflow.channelOf
  obtain ⟨hnode, hnode'⟩ | ⟨n, n', hnode, hnode', hn⟩ := h.node?_cases key
  · rw [hnode, hnode']
  · rw [hnode, hnode', Option.bind_some, Option.bind_some, hn.channel_eq]

/-! ## Joins -/

theorem leads_iff {a b : String} : w'.Leads a b ↔ w.Leads a b := by
  unfold Workflow.Leads
  obtain ⟨hnode, hnode'⟩ | ⟨n, n', hnode, hnode', hn⟩ := h.node?_cases a
  · simp [hnode, hnode']
  · simp [hnode, hnode', hn.successors_perm.mem_iff]

theorem leadsPast_eq (avoided : String) : w'.LeadsPast avoided = w.LeadsPast avoided := by
  funext a b
  unfold Workflow.LeadsPast
  rw [h.leads_iff]

theorem awaitsInput_eq {n n' : WorkNode σ} (hn : n.Mirrors n') (hperm : cs.Perm cs') :
    w'.awaitsInput n' cs' = w.awaitsInput n cs := by
  rw [Bool.eq_iff_iff, awaitsInput_iff, awaitsInput_iff, hn.key_eq, h.leadsPast_eq]
  simp only [hperm.mem_iff, hn.inputs_perm.mem_iff]

/-- The same joins wait. -/
theorem isHeld_eq (hperm : cs.Perm cs') (key : String) : w'.isHeld cs' key = w.isHeld cs key := by
  unfold Workflow.isHeld
  obtain ⟨hnode, hnode'⟩ | ⟨n, n', hnode, hnode', hn⟩ := h.node?_cases key
  · rw [hnode, hnode']
    rfl
  · rw [hnode, hnode', Option.any_some, Option.any_some, hn.isJoin_eq, h.awaitsInput_eq hn hperm]

theorem holdJoins_perm (hperm : cs.Perm cs') :
    (w.holdJoins cs).1.Perm (w'.holdJoins cs').1 ∧
      (w.holdJoins cs).2.Perm (w'.holdJoins cs').2 := by
  have hready : (cs.filter fun key => !w.isHeld cs key).Perm
      (cs'.filter fun key => !w'.isHeld cs' key) := by
    simp only [h.isHeld_eq hperm]
    exact hperm.filter _
  have hheld : (cs.filter (w.isHeld cs)).Perm (cs'.filter (w'.isHeld cs')) := by
    rw [show w'.isHeld cs' = w.isHeld cs from funext (h.isHeld_eq hperm)]
    exact hperm.filter _
  unfold Workflow.holdJoins
  dsimp only
  rw [hready.isEmpty_eq]
  split
  · exact ⟨hperm, .refl _⟩
  · exact ⟨hready, hheld⟩

/-! ## Candidates -/

theorem targets_concur (s : Snapshot) (key : String) :
    Concur List.Perm (w.targets [] s key) (w'.targets [] s key) := by
  unfold Workflow.targets
  dsimp only [Workflow.handoffFrom?, List.find?_nil, Option.map_none]
  obtain ⟨hnode, hnode'⟩ | ⟨n, n', hnode, hnode', hn⟩ := h.node?_cases key
  · rw [hnode, hnode']
    exact .error _ _
  · rw [hnode, hnode']
    exact .ok (hn.route_perm s)

theorem exists_knownTargets_iff (s : Snapshot) (key : String) :
    (∃ ts, w.knownTargets [] s key = .ok ts) ↔ ∃ ts, w'.knownTargets [] s key = .ok ts := by
  simp only [knownTargets_eq_ok_iff, h.keys_eq]
  refine (h.targets_concur s key).exists_iff fun ts ts' hperm => ?_
  simp only [hperm.mem_iff]

/-- The nodes of a step route to the same candidates, if none of them hands off. -/
theorem candidates_perm {ran ran' : List String} (hran : ran.Perm ran') (s : Snapshot) :
    Concur List.Perm (w.candidates ran [] s) (w'.candidates ran' [] s) := by
  have hcandidates : ∀ (w : Workflow σ) ran, (∃ routed, w.candidates ran [] s = .ok routed) ↔
      ∀ key ∈ ran, ∃ ts, w.knownTargets [] s key = .ok ts := by
    intro w ran
    rw [← exists_mapM_iff]
    simp only [candidates_eq_ok_iff]
    exact ⟨fun ⟨_, tss, htss, _⟩ => ⟨tss, htss⟩, fun ⟨tss, htss⟩ => ⟨_, tss, htss, rfl⟩⟩
  refine .of_iff ?_ ?_
  · rw [hcandidates, hcandidates]
    simp only [hran.mem_iff, h.exists_knownTargets_iff]
  · intro routed routed' hr hr'
    refine (List.perm_ext_iff_of_nodup (candidates_nodup hr) (candidates_nodup hr')).mpr fun t => ?_
    rw [mem_candidates hr, mem_candidates hr']
    simp only [hran.mem_iff]
    refine exists_congr fun key => and_congr_right fun _ => ?_
    exact (h.targets_concur s key).exists_iff fun ts ts' hperm => hperm.mem_iff

end Workflow.Mirrors

end Workgraph
