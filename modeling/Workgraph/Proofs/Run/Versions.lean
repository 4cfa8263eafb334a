import Workgraph.Proofs.Run.States
import Workgraph.Proofs.State.Tables
import Workgraph.Proofs.State.Whole
/-!
# Versions of channels

The versions of a state are counts of changes of its channels: whatever has a version is a channel,
and its version is positive. Stores build no other states, and so no other state is ever put on
record.

## Main definitions

- `Snapshot.Versioned`: the versions of a state belong to its channels

## Main statements

- `Store.versioned_put`, `Store.versioned_ofState`: the states that stores build
- `Workflow.maintains_versioned`: running a workflow builds no other states
- `Workflow.wrote_versioned`: no other states are put on record
-/

namespace Workgraph

/-- The tables of a state are sorted, and its versions are positive and belong to channels. -/
structure Snapshot.Versioned (s : Snapshot) : Prop where
  channels : s.channels.Sorted
  versions : s.versions.Sorted
  known : ∀ e ∈ s.versions, s.channels.contains e.1 = true
  positive : ∀ e ∈ s.versions, 0 < e.2

namespace Snapshot.Versioned

variable {s : Snapshot}

/-- The number of changes of a channel is its version, if it has one. -/
theorem version_eq {name : String} {n : Nat} (h : s.Versioned) (hmem : (name, n) ∈ s.versions) :
    s.version name = n := by
  unfold Snapshot.version
  rw [h.versions.get?_eq_some_iff.mpr hmem]
  rfl

/-- A channel that has changed has a version. -/
theorem mem_versions {name : String} (h : s.Versioned) (hpos : 0 < s.version name) :
    (name, s.version name) ∈ s.versions := by
  unfold Snapshot.version at hpos ⊢
  cases hv : s.versions.get? name with
  | none =>
    rw [hv] at hpos
    exact absurd hpos (lt_irrefl 0)
  | some n => exact h.versions.get?_eq_some_iff.mp hv

theorem version_le (h : s.Versioned) {bound : Nat} (hle : ∀ e ∈ s.versions, e.2 ≤ bound)
    (name : String) : s.version name ≤ bound := by
  obtain hzero | hpos := Nat.eq_zero_or_pos (s.version name)
  · rw [hzero]
    exact Nat.zero_le _
  · exact hle _ (h.mem_versions hpos)

end Snapshot.Versioned

namespace Store

theorem versioned_empty : Snapshot.empty.Versioned where
  channels := .nil
  versions := .nil
  known := by simp [Snapshot.empty]
  positive := by simp [Snapshot.empty]

theorem sorted_fillDefaults (schema : Schema) {channels : Table Json} (h : channels.Sorted) :
    (fillDefaults schema channels).Sorted := by
  unfold fillDefaults
  induction schema generalizing channels with
  | nil => exact h
  | cons c rest ih =>
    rw [List.foldl_cons]
    split
    · exact ih h
    · exact ih (h.insert c.name c.default)

theorem versioned_ofState (schema : Schema) {s : Snapshot} (h : s.Versioned) :
    (ofState schema s).state.Versioned where
  channels := sorted_fillDefaults schema h.channels
  versions := h.versions
  known := fun e he => contains_fillDefaults (.inl (h.known e he))
  positive := h.positive

/-- A write counts one more change of a channel, which has a value now. -/
theorem versioned_put {s : Snapshot} (h : s.Versioned) (name : String) (value : Json) :
    (put s name value).Versioned where
  channels := h.channels.insert name value
  versions := h.versions.insert name _
  known := by
    intro e he
    change (s.channels.insert name value).contains e.1 = true
    rw [Table.contains_insert]
    obtain rfl | he := Table.mem_of_mem_insert he
    · simp
    · rw [h.known e he, Bool.or_true]
  positive := by
    intro e he
    obtain rfl | he := Table.mem_of_mem_insert he
    · exact Nat.succ_pos _
    · exact h.positive e he

end Store

/-- Running a workflow builds no states whose versions do not belong to their channels. -/
theorem Workflow.maintains_versioned {σ : Type} (w : Workflow σ) :
    w.Maintains Snapshot.Versioned where
  fresh := by
    intro input environment
    have h := Store.versioned_ofState w.schema Store.versioned_empty
    exact ⟨h.channels, h.versions, h.known, h.positive⟩
  restored := fun _ h => Store.versioned_ofState w.schema h
  merged := fun _ _ h => ⟨h.channels, h.versions, h.known, h.positive⟩
  written := by
    intro n _ ctx s before out _ store store' hwrite h
    obtain ⟨⟨mid, hmid, rfl⟩, -⟩ := Workflow.writeOutput_cases hwrite
    have hstate : mid.state.Versioned := by
      obtain rfl | ⟨name, value, -, rfl⟩ := Workflow.writeUpdate_cases hmid
      · exact h
      · exact Store.versioned_put h name value
    exact ⟨hstate.channels, hstate.versions, hstate.known, hstate.positive⟩

/-- The versions of every state on record belong to its channels. -/
theorem Workflow.wrote_versioned {σ : Type} {w : Workflow σ} {cp : Checkpoint} (h : w.Wrote cp) :
    cp.state.Versioned :=
  w.maintains_versioned.wrote h

end Workgraph
