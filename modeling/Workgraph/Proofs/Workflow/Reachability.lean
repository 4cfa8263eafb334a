import Mathlib.Data.List.Perm.Subperm
import Mathlib.Data.Nat.Find
import Mathlib.Logic.Relation
import Workgraph.Proofs.Graph.Distinct
import Workgraph.Proofs.Workflow.Neighbours
/-!
# Reachability

A search in as many rounds as there are nodes finds everything that can be reached: a walk without
repetition has no more steps than there are nodes to step from. So a join is held back exactly if
one of its inputs can still come.

## Main definitions

- `Workflow.LeadsPast`: the relation of nodes to their successors, except into a given one

## Main statements

- `Workflow.mem_reachable_iff`: the search is exact
- `Workflow.awaitsInput_iff`, `Workflow.isHeld_iff`: which joins are held back
- `Workflow.mem_holdJoins`, `Workflow.holdJoins_disjoint`: how candidates are split
-/

namespace Workgraph

open Relation

/-! ## Walks -/

/-- A walk from one text to another in a number of steps, as the texts that it visits. -/
def Walk (R : String → String → Prop) (a b : String) (n : Nat) (f : Nat → String) : Prop :=
  f 0 = a ∧ f n = b ∧ ∀ i < n, R (f i) (f (i + 1))

theorem exists_walk_of_reflTransGen {R : String → String → Prop} {a b : String}
    (h : ReflTransGen R a b) : ∃ n f, Walk R a b n f := by
  induction h with
  | refl => exact ⟨0, fun _ => a, rfl, rfl, by simp⟩
  | @tail b c _ hbc ih =>
    obtain ⟨n, f, h0, hn, hstep⟩ := ih
    -- The walk goes on to where the last step leads.
    refine ⟨n + 1, fun i => if i ≤ n then f i else c, by simp [h0], if_neg (by omega), ?_⟩
    intro i hi
    dsimp only
    by_cases hin : i < n
    · rw [if_pos (Nat.le_of_lt hin), if_pos (Nat.succ_le_of_lt hin)]
      exact hstep i hin
    · have : i = n := by omega
      subst this
      rw [if_pos (Nat.le_refl i), if_neg (by omega), hn]
      exact hbc

/-- A walk that comes back to where it was can be cut short. -/
theorem Walk.shorten {R : String → String → Prop} {a b : String} {n i j : Nat} {f : Nat → String}
    (h : Walk R a b n f) (hij : i < j) (hj : j ≤ n) (hf : f i = f j) :
    Walk R a b (n - (j - i)) fun k => if k ≤ i then f k else f (k + (j - i)) := by
  -- The steps between the two visits are left out.
  obtain ⟨h0, hn, hstep⟩ := h
  refine ⟨by simp [h0], ?_, ?_⟩
  · dsimp only
    by_cases hk : n - (j - i) ≤ i
    · have hji : j = n := by omega
      have hin : n - (j - i) = i := by omega
      rw [if_pos hk, hin, hf, hji, hn]
    · rw [if_neg hk, ← hn]
      congr 1
      omega
  · intro k hk
    dsimp only
    by_cases hki : k + 1 ≤ i
    · rw [if_pos hki, if_pos (by omega)]
      exact hstep k (by omega)
    · by_cases hkeq : k = i
      · subst hkeq
        rw [if_pos (Nat.le_refl k), if_neg (by omega), hf]
        have : k + 1 + (j - k) = j + 1 := by omega
        rw [this]
        exact hstep j (by omega)
      · rw [if_neg (by omega), if_neg (by omega)]
        have : k + 1 + (j - i) = k + (j - i) + 1 := by omega
        rw [this]
        exact hstep _ (by omega)

/-- Whatever can be reached can be reached in as many steps as there are texts to step from. -/
theorem exists_short_walk {R : String → String → Prop} (sources : List String) {a b : String}
    (hR : ∀ a b, R a b → a ∈ sources) (h : ReflTransGen R a b) :
    ∃ n ≤ sources.length, ∃ f, Walk R a b n f := by
  classical
  have hex := exists_walk_of_reflTransGen h
  obtain ⟨f, hf⟩ := Nat.find_spec hex
  refine ⟨Nat.find hex, ?_, f, hf⟩
  -- A shortest walk comes nowhere twice, for what lies between could be cut out.
  have hinj : ∀ i < Nat.find hex, ∀ j < Nat.find hex, i < j → f i ≠ f j := by
    intro i hi j hj hij heq
    exact Nat.find_min hex (m := Nat.find hex - (j - i)) (by omega)
      ⟨_, hf.shorten hij (by omega) heq⟩
  have hnodup : ((List.range (Nat.find hex)).map f).Nodup := by
    refine List.Nodup.map_on ?_ List.nodup_range
    intro i hi j hj heq
    rw [List.mem_range] at hi hj
    by_contra hne
    obtain hij | hji := Nat.lt_or_gt_of_ne hne
    · exact hinj i hi j hj hij heq
    · exact hinj j hj i hi hji heq.symm
  -- So the places it leaves are different sources, and there are no more of them than sources.
  have hsub : (List.range (Nat.find hex)).map f ⊆ sources := by
    intro c hc
    obtain ⟨i, hi, rfl⟩ := List.mem_map.mp hc
    exact hR _ _ (hf.2.2 i (List.mem_range.mp hi))
  simpa using (List.subperm_of_subset hnodup hsub).length_le

namespace Workflow

variable {σ : Type} {w : Workflow σ}

/-! ## The search -/

/-- One node leads to another that is not the avoided one. -/
def LeadsPast (w : Workflow σ) (avoided a b : String) : Prop := w.Leads a b ∧ b ≠ avoided

theorem mem_successorsAvoiding {avoided a b : String} :
    b ∈ w.successorsAvoiding avoided a ↔ w.LeadsPast avoided a b := by
  unfold successorsAvoiding LeadsPast Leads
  cases w.node? a with
  | none => simp
  | some n => simp

theorem mem_spread_of_mem {avoided key : String} (steps : Nat) {keys : List String}
    (h : key ∈ keys) : key ∈ w.spread avoided steps keys := by
  induction steps generalizing keys with
  | zero => exact h
  | succ steps ih => exact ih (mem_appendNew.mpr (.inl h))

theorem mem_spread_of_walk {avoided a b : String} {n steps : Nat} {f : Nat → String}
    {keys : List String} (ha : a ∈ keys) (hn : n ≤ steps)
    (h : Walk (w.LeadsPast avoided) a b n f) : b ∈ w.spread avoided steps keys := by
  induction steps generalizing a n f keys with
  | zero =>
    obtain ⟨h0, hb, -⟩ := h
    have : n = 0 := by omega
    subst this
    rw [← hb, h0]
    exact ha
  | succ steps ih =>
    obtain ⟨h0, hb, hstep⟩ := h
    cases n with
    | zero =>
      rw [← hb, h0]
      exact mem_spread_of_mem _ ha
    | succ n =>
      -- The first step is part of the first round, the rest of the walk is left to the others.
      refine ih (a := f 1) (n := n) (f := fun i => f (i + 1)) ?_ (by omega)
        ⟨rfl, hb, fun i hi => hstep (i + 1) (by omega)⟩
      have h1 := hstep 0 (by omega)
      rw [h0] at h1
      exact mem_appendNew.mpr (.inr (List.mem_flatMap.mpr ⟨a, ha, mem_successorsAvoiding.mpr h1⟩))

theorem reflTransGen_of_mem_spread {avoided b : String} {steps : Nat} {keys : List String}
    (h : b ∈ w.spread avoided steps keys) :
    ∃ a ∈ keys, ReflTransGen (w.LeadsPast avoided) a b := by
  induction steps generalizing keys with
  | zero => exact ⟨b, h, .refl⟩
  | succ steps ih =>
    obtain ⟨c, hc, hcb⟩ := ih h
    obtain hc | hc := mem_appendNew.mp hc
    · exact ⟨c, hc, hcb⟩
    · obtain ⟨a, ha, hac⟩ := List.mem_flatMap.mp hc
      exact ⟨a, ha, .head (mem_successorsAvoiding.mp hac) hcb⟩

/-- The search finds what can be reached without passing through the avoided node. -/
theorem mem_reachable_iff {avoided b : String} {keys : List String} :
    b ∈ w.reachable avoided keys ↔
      ∃ a ∈ keys, a ≠ avoided ∧ ReflTransGen (w.LeadsPast avoided) a b := by
  have hmem : ∀ a, a ∈ distinct (keys.filter (· != avoided)) ↔ a ∈ keys ∧ a ≠ avoided := by
    simp
  constructor
  · intro h
    obtain ⟨a, ha, hab⟩ := reflTransGen_of_mem_spread h
    obtain ⟨ha, hne⟩ := (hmem a).mp ha
    exact ⟨a, ha, hne, hab⟩
  · rintro ⟨a, ha, hne, hab⟩
    obtain ⟨n, hn, f, hf⟩ := exists_short_walk w.keys (by
      rintro a b ⟨⟨n, hn, -⟩, -⟩
      exact mem_keys_of_node? hn) hab
    refine mem_spread_of_walk ((hmem a).mpr ⟨ha, hne⟩) ?_ hf
    simpa [Workflow.keys] using hn

/-- A join waits if one of its inputs is another candidate, or can be reached from one without
passing through the join. -/
theorem awaitsInput_iff {join : WorkNode σ} {candidates : List String} :
    w.awaitsInput join candidates = true ↔
      ∃ a ∈ candidates, a ≠ join.key ∧
        ∃ b ∈ join.inputs, ReflTransGen (w.LeadsPast join.key) a b := by
  unfold awaitsInput
  rw [List.any_eq_true]
  constructor
  · rintro ⟨b, hb, hin⟩
    obtain ⟨a, ha, hne, hab⟩ := mem_reachable_iff.mp hb
    exact ⟨a, ha, hne, b, by simpa using hin, hab⟩
  · rintro ⟨a, ha, hne, b, hin, hab⟩
    exact ⟨b, mem_reachable_iff.mpr ⟨a, ha, hne, hab⟩, by simpa using hin⟩

theorem isHeld_iff {candidates : List String} {key : String} :
    w.isHeld candidates key = true ↔
      ∃ n, w.node? key = some n ∧ n.isJoin = true ∧ w.awaitsInput n candidates = true := by
  unfold isHeld
  cases w.node? key with
  | none => simp
  | some n => simp

/-! ## Holding joins -/

/-- No candidate is lost, and none is added. -/
theorem mem_holdJoins {candidates : List String} {key : String} :
    key ∈ (w.holdJoins candidates).1 ∨ key ∈ (w.holdJoins candidates).2 ↔ key ∈ candidates := by
  unfold holdJoins
  dsimp only
  split
  · simp
  · by_cases hk : w.isHeld candidates key = true
    · simp [hk]
    · simp [hk]

/-- No candidate both runs and waits. -/
theorem holdJoins_disjoint {candidates : List String} {key : String}
    (h : key ∈ (w.holdJoins candidates).1) : key ∉ (w.holdJoins candidates).2 := by
  unfold holdJoins at h ⊢
  dsimp only at h ⊢
  split at h
  · rename_i hready
    rw [if_pos hready]
    simp
  · rename_i hready
    rw [if_neg hready]
    simp only [List.mem_filter, Bool.not_eq_true'] at h ⊢
    simp [h.2]

theorem holdJoins_ready_nodup {candidates : List String} (h : candidates.Nodup) :
    (w.holdJoins candidates).1.Nodup := by
  unfold holdJoins
  dsimp only
  split
  · exact h
  · exact h.filter _

theorem holdJoins_held_nodup {candidates : List String} (h : candidates.Nodup) :
    (w.holdJoins candidates).2.Nodup := by
  unfold holdJoins
  dsimp only
  split
  · exact List.nodup_nil
  · exact h.filter _

/-- What waits is a join that waits for an input. -/
theorem isHeld_of_mem_held {candidates : List String} {key : String}
    (h : key ∈ (w.holdJoins candidates).2) : w.isHeld candidates key = true := by
  unfold holdJoins at h
  dsimp only at h
  split at h
  · simp at h
  · exact (List.mem_filter.mp h).2

/-- Something runs as long as there are candidates. -/
theorem holdJoins_ready_eq_nil {candidates : List String}
    (h : (w.holdJoins candidates).1 = []) : candidates = [] := by
  unfold holdJoins at h
  dsimp only at h
  split at h
  · exact h
  · rename_i hready
    exact absurd (List.isEmpty_iff.mpr h) hready

/-- What runs does not wait for an input, unless everything does. -/
theorem not_isHeld_of_mem_ready {candidates : List String} {key : String}
    (h : key ∈ (w.holdJoins candidates).1) (hex : ∃ k ∈ candidates, w.isHeld candidates k = false) :
    w.isHeld candidates key = false := by
  unfold holdJoins at h
  dsimp only at h
  split at h
  · rename_i hready
    obtain ⟨k, hk, hheld⟩ := hex
    rw [List.isEmpty_iff, List.filter_eq_nil_iff] at hready
    exact absurd (by simpa using hheld) (hready k hk)
  · simpa using (List.mem_filter.mp h).2

end Workflow

end Workgraph
