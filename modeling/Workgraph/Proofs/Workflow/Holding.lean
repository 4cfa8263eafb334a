import Mathlib.Data.List.Chain
import Workgraph.Proofs.Workflow.Reachability
/-!
# Which joins are held back

Which candidates wait can be said without the search: those with several inputs of which one is
another candidate, or lies behind another one on a path that does not visit the waiting one. On
cyclic graphs, too, exactly these are held back, except when nothing else is left to run.

## Main definitions

- `Workflow.Path`: a path along the successors of a workflow
- `Workflow.Waits`: a candidate with several inputs of which one can still come

## Main statements

- `Workflow.exists_path_iff`: paths past a node and the relation that avoids it
- `Workflow.holdJoins_exact`: how candidates are split
-/

namespace Workgraph

open Relation

namespace Workflow

variable {σ : Type} {w : Workflow σ}

/-! ## Paths -/

/-- A path along the successors of a workflow, given by the nodes that it visits after its first
one. A path of length zero stays where it begins. -/
structure Path (w : Workflow σ) (a b : String) (after : List String) : Prop where
  steps : (a :: after).IsChain w.Leads
  last : (a :: after).getLast (List.cons_ne_nil a after) = b

namespace Path

variable {a b c : String} {after : List String}

theorem nil (a : String) : w.Path a a [] := ⟨.singleton a, rfl⟩

theorem cons (hab : w.Leads a b) (h : w.Path b c after) : w.Path a c (b :: after) :=
  ⟨.cons_cons hab h.steps, by rw [List.getLast_cons_cons]; exact h.last⟩

/-- A path that goes on leads to a neighbour first. -/
theorem uncons (h : w.Path a c (b :: after)) : w.Leads a b ∧ w.Path b c after := by
  obtain ⟨hab, hsteps⟩ := List.isChain_cons_cons.mp h.steps
  refine ⟨hab, hsteps, ?_⟩
  rw [← List.getLast_cons_cons]
  exact h.last

/-- A path that does not visit a node avoids it at every step. -/
theorem avoids {avoided : String} (h : w.Path a b after) (hout : avoided ∉ a :: after) :
    a ≠ avoided ∧ ReflTransGen (w.LeadsPast avoided) a b := by
  induction after generalizing a with
  | nil =>
    have hab : a = b := h.last
    subst hab
    exact ⟨fun heq => hout (by simp [heq]), .refl⟩
  | cons c rest ih =>
    obtain ⟨hac, hrest⟩ := h.uncons
    simp only [List.mem_cons, not_or] at hout
    obtain ⟨hne, hcb⟩ := ih hrest (by simpa using hout.2)
    exact ⟨Ne.symm hout.1, .head ⟨hac, hne⟩ hcb⟩

end Path

/-- What can be reached past a node is what lies on paths that do not visit it. -/
theorem exists_path_iff {avoided a b : String} :
    (∃ after, w.Path a b after ∧ avoided ∉ a :: after) ↔
      a ≠ avoided ∧ ReflTransGen (w.LeadsPast avoided) a b := by
  constructor
  · rintro ⟨after, hpath, hout⟩
    exact hpath.avoids hout
  · rintro ⟨hne, hab⟩
    induction hab using ReflTransGen.head_induction_on with
    | refl => exact ⟨[], .nil b, by simpa using Ne.symm hne⟩
    | @head a c hac _ ih =>
      obtain ⟨after, hpath, hout⟩ := ih hac.2
      refine ⟨c :: after, hpath.cons hac.1, ?_⟩
      rw [List.mem_cons, not_or]
      exact ⟨Ne.symm hne, hout⟩

/-! ## Waiting -/

/-- A candidate waits if it has several inputs, and one of them is another candidate or lies behind
another one on a path that does not visit the waiting one. -/
def Waits (w : Workflow σ) (candidates : List String) (key : String) : Prop :=
  ∃ n, w.node? key = some n ∧ 1 < n.inputs.length ∧
    ∃ input ∈ n.inputs, ∃ other ∈ candidates, other ≠ key ∧
      ∃ after, w.Path other input after ∧ key ∉ other :: after

theorem isHeld_iff_waits {candidates : List String} {key : String} :
    w.isHeld candidates key = true ↔ w.Waits candidates key := by
  rw [isHeld_iff]
  constructor
  · rintro ⟨n, hn, hjoin, hawaits⟩
    obtain ⟨other, hother, hne, input, hinput, hreach⟩ := awaitsInput_iff.mp hawaits
    rw [(node?_eq_some hn).2] at hne hreach
    exact ⟨n, hn, by simpa [WorkNode.isJoin] using hjoin, input, hinput, other, hother, hne,
      exists_path_iff.mpr ⟨hne, hreach⟩⟩
  · rintro ⟨n, hn, hinputs, input, hinput, other, hother, hne, hpath⟩
    obtain ⟨-, hreach⟩ := exists_path_iff.mp hpath
    rw [← (node?_eq_some hn).2] at hne hreach
    exact ⟨n, hn, by simpa [WorkNode.isJoin] using hinputs,
      awaitsInput_iff.mpr ⟨other, hother, hne, input, hinput, hreach⟩⟩

/-- If everything waits, everything runs. -/
theorem holdJoins_of_all_waiting {candidates : List String}
    (h : ∀ key ∈ candidates, w.Waits candidates key) :
    w.holdJoins candidates = (candidates, []) := by
  have hready : (candidates.filter fun key => !w.isHeld candidates key) = [] := by
    apply List.filter_eq_nil_iff.mpr
    intro key hkey
    simp [isHeld_iff_waits.mpr (h key hkey)]
  simp [holdJoins, hready]

/-- If something does not wait, what does is held back and the rest runs. -/
theorem holdJoins_of_exists_ready {candidates : List String}
    (h : ∃ key ∈ candidates, ¬w.Waits candidates key) :
    w.holdJoins candidates =
      (candidates.filter fun key => !w.isHeld candidates key,
        candidates.filter (w.isHeld candidates)) := by
  obtain ⟨key, hkey, hwaits⟩ := h
  have hheld : w.isHeld candidates key = false := by
    rw [← isHeld_iff_waits] at hwaits
    simpa using hwaits
  have hready : (candidates.filter fun key => !w.isHeld candidates key).isEmpty = false := by
    rw [List.isEmpty_eq_false_iff_exists_mem]
    exact ⟨key, by simp [hkey, hheld]⟩
  simp [holdJoins, hready]

/-- Holding joins is exact, on cyclic graphs too. The candidates that run and those that are held
back are all of the candidates, each part in the order of the candidates. Whenever some candidate
does not wait, exactly those are held back that do; when every candidate waits, all of them run and
none is held back. So something runs if there is any candidate. -/
theorem holdJoins_exact (w : Workflow σ) (candidates : List String) :
    (w.holdJoins candidates).1.Sublist candidates ∧
    (w.holdJoins candidates).2.Sublist candidates ∧
    ((w.holdJoins candidates).1 ++ (w.holdJoins candidates).2).Perm candidates ∧
    ((∃ key ∈ candidates, ¬w.Waits candidates key) → ∀ key ∈ candidates,
      (key ∈ (w.holdJoins candidates).2 ↔ w.Waits candidates key) ∧
      (key ∈ (w.holdJoins candidates).1 ↔ ¬w.Waits candidates key)) ∧
    ((∀ key ∈ candidates, w.Waits candidates key) → w.holdJoins candidates = (candidates, [])) ∧
    (candidates ≠ [] → (w.holdJoins candidates).1 ≠ []) := by
  have hnonempty : candidates ≠ [] → (w.holdJoins candidates).1 ≠ [] :=
    mt holdJoins_ready_eq_nil
  by_cases h : ∃ key ∈ candidates, ¬w.Waits candidates key
  · have hsplit := holdJoins_of_exists_ready h
    refine ⟨?_, ?_, ?_, fun _ key hkey => ⟨?_, ?_⟩, fun hall => ?_, hnonempty⟩
    · rw [hsplit]
      exact List.filter_sublist
    · rw [hsplit]
      exact List.filter_sublist
    · rw [hsplit]
      exact List.perm_append_comm.trans (List.filter_append_perm _ candidates)
    · rw [hsplit, ← isHeld_iff_waits]
      simp [hkey]
    · rw [hsplit, ← isHeld_iff_waits]
      simp [hkey]
    · obtain ⟨key, hkey, hwaits⟩ := h
      exact absurd (hall key hkey) hwaits
  · have hall : ∀ key ∈ candidates, w.Waits candidates key := by
      intro key hkey
      by_contra hwaits
      exact h ⟨key, hkey, hwaits⟩
    have hsplit := holdJoins_of_all_waiting hall
    refine ⟨?_, ?_, ?_, fun hex => absurd hex h, fun _ => hsplit, hnonempty⟩
    · rw [hsplit]
    · rw [hsplit]
      exact List.nil_sublist _
    · rw [hsplit]
      simp

end Workflow

end Workgraph
