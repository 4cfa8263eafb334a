import Workgraph.Checkpoint.Archive
/-!
# Fresh identifiers

An archive refuses a checkpoint only if its identifier has been used. So the checkpoints of a thread
that are numbered upwards are all taken.

## Main definitions

- `Archive.Takes`: archives that take whatever has a fresh identifier
- `Chains.Fresh`: numbers that no checkpoint of a chain has

## Main statements

- `Archive.memory_takes`: the archive in memory takes whatever has a fresh identifier
-/

namespace Workgraph

/-- An archive takes the checkpoints of a thread whose numbers have not been used: `fresh` tells of
a number and of contents that no checkpoint has the number or a later one. -/
structure Archive.Takes {τ : Type} (a : Archive τ) (threadId checkpointNs : String)
    (fresh : Nat → τ → Prop) : Prop where
  save : ∀ (cp : Checkpoint) {t : τ} {n : Nat}, fresh n t → cp.threadId = threadId →
    cp.checkpointNs = checkpointNs → cp.id = s!"{threadId}/{n}" →
    ∃ id t', a.save cp t = (.ok id, t') ∧ fresh (n + 1) t'
  mono : ∀ {n m : Nat} {t : τ}, n ≤ m → fresh n t → fresh m t

/-- Checkpoints of a thread with different numbers have different identifiers. -/
theorem eq_of_numbered_eq {threadId : String} {m n : Nat}
    (h : s!"{threadId}/{m}" = s!"{threadId}/{n}") : m = n := by
  have hrepr : Nat.repr m = Nat.repr n := by simpa using h
  rw [Nat.repr_eq_ofList_toDigits, Nat.repr_eq_ofList_toDigits] at hrepr
  have hdigits := String.ofList_injective hrepr
  rw [← Nat.ofDigitChars_ten_toDigits (n := m), hdigits, Nat.ofDigitChars_ten_toDigits]

namespace Chains

/-- No checkpoint of a chain has a given number or a later one. -/
def Fresh (threadId checkpointNs : String) (n : Nat) (cs : Chains) : Prop :=
  ∀ cp ∈ cs.chain threadId checkpointNs, ∀ m, n ≤ m → cp.id ≠ s!"{threadId}/{m}"

/-- A checkpoint is added at the end of its chain. -/
theorem chain_push_self (cs : Chains) (cp : Checkpoint) :
    (cs.push cp).chain cp.threadId cp.checkpointNs =
      cs.chain cp.threadId cp.checkpointNs ++ [cp] := by
  unfold chain
  induction cs with
  | nil => simp [push]
  | cons entry rest ih =>
    obtain ⟨key, chain⟩ := entry
    unfold push
    by_cases hk : key = (cp.threadId, cp.checkpointNs)
    · subst hk
      simp
    · simp [hk, ih]

end Chains

theorem Archive.memory_takes (threadId checkpointNs : String) :
    Archive.memory.Takes threadId checkpointNs (Chains.Fresh threadId checkpointNs) where
  mono := fun hnm h cp hcp m hm => h cp hcp m (Nat.le_trans hnm hm)
  save := by
    rintro cp cs n hfresh rfl rfl hid
    refine ⟨cp.id, cs.push cp, ?_, ?_⟩
    · change Chains.save cp cs = _
      unfold Chains.save
      rw [if_neg]
      -- Only a checkpoint with the same identifier would be in the way.
      intro hany
      obtain ⟨other, ho, heq⟩ := List.any_eq_true.mp hany
      rw [beq_iff_eq] at heq
      exact hfresh other ho n (Nat.le_refl n) (heq.trans hid)
    · intro other ho m hm
      rw [Chains.chain_push_self, List.mem_append, List.mem_singleton] at ho
      obtain ho | rfl := ho
      · exact hfresh other ho m (by omega)
      · rw [hid]
        intro heq
        have := eq_of_numbered_eq heq
        omega

end Workgraph
