import Mathlib.Data.List.Perm.Basic
import Workgraph.Graph.Structure
import Workgraph.Proofs.Graph.Distinct
/-!
# Reordered connections

Two descriptions that differ in the order of their connections only. What is looked up in them
differs in its order at most, so the same checks pass.

## Main definitions

- `Description.Reordered`: descriptions that differ in the order of their connections

## Main statements

- `Description.Reordered.edgeTargets_perm`: edges lead to the same targets
- `Description.Reordered.checkStructure_hasErrors`: the same checks pass
-/

namespace Workgraph

variable {α : Type} [BEq α] [LawfulBEq α]

theorem perm_appendNew {base base' more more' : List α} (hbase : base.Perm base')
    (hmore : more.Perm more') (hn : base.Nodup) :
    (appendNew base more).Perm (appendNew base' more') := by
  refine (List.perm_ext_iff_of_nodup (nodup_appendNew more hn)
    (nodup_appendNew more' (hbase.nodup_iff.mp hn))).mpr fun a => ?_
  rw [mem_appendNew, mem_appendNew, hbase.mem_iff, hmore.mem_iff]

theorem perm_distinct {as bs : List α} (h : as.Perm bs) : (distinct as).Perm (distinct bs) :=
  perm_appendNew (.refl []) h List.nodup_nil

/-- Descriptions that differ in the order of their connections only. -/
structure Description.Reordered (g g' : Description) : Prop where
  nodes_eq : g'.nodes = g.nodes
  entry_eq : g'.entry = g.entry
  links_perm : g.links.Perm g'.links

namespace Description.Reordered

variable {g g' : Description} (h : g.Reordered g')

include h

theorem node?_eq (key : String) : g'.node? key = g.node? key := by
  unfold node?
  rw [h.nodes_eq]

theorem contains_eq (key : String) : g'.contains key = g.contains key := by
  unfold contains
  rw [h.node?_eq]

theorem outgoing_perm (key : String) (kind : LinkKind) :
    (g.outgoing key kind).Perm (g'.outgoing key kind) := h.links_perm.filter _

theorem incoming_perm (key : String) (kind : LinkKind) :
    (g.incoming key kind).Perm (g'.incoming key kind) := h.links_perm.filter _

theorem edgeTargets_perm (endpoint : String) :
    (g.edgeTargets endpoint).Perm (g'.edgeTargets endpoint) :=
  perm_distinct ((h.links_perm.filter _).map _)

/-! ## Checks -/

theorem danglingLinks_perm : (danglingLinks g).Perm (danglingLinks g') := by
  unfold danglingLinks
  simp only [h.contains_eq]
  exact h.links_perm.flatMap_right _

theorem freeNodes_eq : freeNodes g' = freeNodes g := by
  unfold freeNodes
  rw [h.nodes_eq]
  simp only [h.links_perm.any_eq]

theorem duplicateKeys_eq : duplicateKeys g' = duplicateKeys g := by
  unfold duplicateKeys
  rw [h.nodes_eq]

theorem duplicateNames_eq : duplicateNames g' = duplicateNames g := by
  unfold duplicateNames
  rw [h.nodes_eq]

/-- The same checks pass. -/
theorem checkStructure_hasErrors :
    (checkStructure g').hasErrors = (checkStructure g).hasErrors := by
  have hdangling : (danglingLinks g').hasErrors = (danglingLinks g).hasErrors :=
    h.danglingLinks_perm.symm.any_eq
  unfold Report.hasErrors at hdangling ⊢
  unfold checkStructure
  rw [h.freeNodes_eq, h.duplicateKeys_eq, h.duplicateNames_eq]
  simp only [List.any_append, hdangling]

end Description.Reordered

end Workgraph
