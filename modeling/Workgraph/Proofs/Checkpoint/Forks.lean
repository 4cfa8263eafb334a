import Workgraph.Proofs.Checkpoint.Links
/-!
# Forks

How far the chain of a thread forks when runs put checkpoints at its end, one run after the other.
As long as every run is resumed at the latest checkpoint, the chain does not fork at all. A run that
is resumed too late gives one checkpoint one child more.

## Main definitions

- `ChainLink.Grows`: how a chain grows in a move
- `ChainLink.Chained`: how far a chain has forked
- `ChainLink.lateness`: the runs that were resumed too late

## Main statements

- `ChainLink.Chained.grown`: a chain forks no further while it grows
- `ChainLink.Chained.resume`: a run that is resumed makes it fork only if it is late
-/

namespace Workgraph

namespace ChainLink

/-- How a chain grows, and with it the parent of its next checkpoint: a checkpoint with a new
identifier becomes the parent of the one behind it, and a run that ends leaves the chain. -/
inductive Grows (chain : List ChainLink) (tip : Option String) :
    List ChainLink → Option String → Prop
  | stay : Grows chain tip chain tip
  | leave {chain' : List ChainLink} {tip' : Option String} (h : Grows chain tip chain' tip') :
      Grows chain tip chain' none
  | push {chain' : List ChainLink} {tip' : Option String} {id : String}
      (h : Grows chain tip chain' tip') (hid : id ∉ ids chain') :
      Grows chain tip (chain' ++ [⟨id, tip'⟩]) (some id)

/-- How far a chain has forked that a run with a given tip goes on with: the latest checkpoint has
no child, and every checkpoint has at most one, the one that the run would save included, and one
more for each run that was resumed at it too late. -/
structure Chained (chain : List ChainLink) (tip : Option String) (late : List String) : Prop where
  ids_nodup : (ids chain).Nodup
  parent_mem : ∀ l ∈ chain, ∀ id, l.parentId = some id → id ∈ ids chain
  tip_mem : ∀ id, tip = some id → id ∈ ids chain
  latest_childless : ∀ id, latest? chain = some id → children chain id = 0
  children_le : ∀ id, children chain id + (if tip = some id then 1 else 0) ≤ late.count id + 1

/-- What becomes of the record of late runs when a run is resumed at a checkpoint. -/
def lateness (chain : List ChainLink) (id : String) (late : List String) : List String :=
  if latest? chain = some id then late else id :: late

namespace Chained

variable {chain chain' : List ChainLink} {tip tip' : Option String} {late : List String}

theorem nil : Chained [] none [] := by
  refine ⟨List.nodup_nil, by simp, by simp, by simp [latest?], ?_⟩
  intro id
  simp [children]

/-- A run that ends leaves the chain as it is. -/
theorem leave (h : Chained chain tip late) : Chained chain none late where
  ids_nodup := h.ids_nodup
  parent_mem := h.parent_mem
  tip_mem := by simp
  latest_childless := h.latest_childless
  children_le := by
    intro id
    have := h.children_le id
    simp only [reduceCtorEq, if_false]
    omega

/-- No checkpoint has a child of which nothing is known yet. -/
theorem children_of_new (h : Chained chain tip late) {id : String} (hid : id ∉ ids chain) :
    children chain id = 0 ∧ tip ≠ some id := by
  refine ⟨children_eq_zero fun l hl hp => hid (h.parent_mem l hl id hp), fun ht => ?_⟩
  exact hid (h.tip_mem id ht)

/-- A run that saves a checkpoint at the end of the chain does not make it fork. -/
theorem push (h : Chained chain tip late) {id : String} (hid : id ∉ ids chain) :
    Chained (chain ++ [⟨id, tip⟩]) (some id) late := by
  obtain ⟨hnone, htip⟩ := h.children_of_new hid
  have hchildren : children (chain ++ [⟨id, tip⟩]) id = 0 := by
    rw [children_concat, hnone, if_neg htip]
  refine ⟨?_, ?_, ?_, ?_, ?_⟩
  · rw [ids_concat, List.nodup_append]
    refine ⟨h.ids_nodup, by simp, ?_⟩
    intro other hother new hnew heq
    have hnew : new = id := by simpa using hnew
    exact hid (hnew ▸ heq ▸ hother)
  · intro l hl parent hp
    rw [ids_concat, List.mem_append]
    obtain hl | hl := List.mem_append.mp hl
    · exact .inl (h.parent_mem l hl parent hp)
    · rw [List.mem_singleton] at hl
      subst hl
      exact .inl (h.tip_mem parent hp)
  · intro other hother
    cases hother
    simp
  · intro other hother
    rw [latest?_concat] at hother
    cases hother
    exact hchildren
  · intro other
    by_cases ho : some id = some other
    · cases ho
      rw [hchildren]
      simp
    · rw [children_concat, if_neg ho]
      exact h.children_le other

/-- A run that is resumed at a checkpoint of the chain makes it fork only if it is late. -/
theorem resume (h : Chained chain none late) {id : String} (hid : id ∈ ids chain) :
    Chained chain (some id) (lateness chain id late) where
  ids_nodup := h.ids_nodup
  parent_mem := h.parent_mem
  tip_mem := by
    intro other hother
    cases hother
    exact hid
  latest_childless := h.latest_childless
  children_le := by
    intro other
    have hle := h.children_le other
    unfold lateness
    by_cases hlatest : latest? chain = some id
    · rw [if_pos hlatest]
      by_cases ho : id = other
      · subst ho
        rw [h.latest_childless id hlatest]
        simp
      · simpa [ho] using hle
    · rw [if_neg hlatest]
      by_cases ho : id = other
      · subst ho
        simp only [reduceCtorEq, if_false] at hle
        simp only [if_true, List.count_cons_self]
        omega
      · simpa [ho] using hle

/-- A chain forks no further while it grows. -/
theorem grown (h : Chained chain tip late) (hg : Grows chain tip chain' tip') :
    Chained chain' tip' late := by
  induction hg with
  | stay => exact h
  | leave _ ih => exact ih.leave
  | push _ hid ih => exact ih.push hid

end Chained

/-- A chain that grows keeps what it has. -/
theorem Grows.prefix_of {chain chain' : List ChainLink} {tip tip' : Option String}
    (h : Grows chain tip chain' tip') : chain <+: chain' := by
  induction h with
  | stay => exact List.prefix_refl _
  | leave _ ih => exact ih
  | push _ _ ih => exact ih.trans (List.prefix_append _ _)

end ChainLink

end Workgraph
