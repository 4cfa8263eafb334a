import Workgraph.Proofs.Checkpoint.Links
/-!
# What archives go by

An archive takes a checkpoint or refuses it because of its thread, its namespace and its identifier.
States, records and times make no difference.

## Main definitions

- `Archive.Keyed`: archives that go by threads, namespaces and identifiers

## Main statements

- `Archive.memory_keyed`, `Archive.rows_keyed`, `Archive.either_keyed`: archives of either kind do
-/

namespace Workgraph

variable {τ : Type}

/-- With contents that are alike, an archive does alike with checkpoints that have the same thread,
namespace and identifier. -/
def Archive.Keyed (a : Archive τ) (V : τ → τ → Prop) : Prop :=
  ∀ cp cp' t t', cp'.threadId = cp.threadId → cp'.checkpointNs = cp.checkpointNs →
    cp'.id = cp.id → V t t' →
    (a.save cp t).1 = (a.save cp' t').1 ∧ V (a.save cp t).2 (a.save cp' t').2

namespace Chains

/-- The identifiers of a chain. -/
def ids (cs : Chains) (threadId checkpointNs : String) : List String :=
  (cs.chain threadId checkpointNs).map (·.id)

theorem any_id_eq_any_ids (cs : Chains) (threadId checkpointNs id : String) :
    ((cs.chain threadId checkpointNs).any fun cp => cp.id == id) =
      (cs.ids threadId checkpointNs).any (· == id) := by
  unfold ids
  rw [List.any_map]
  rfl

theorem ids_push (cs : Chains) (cp : Checkpoint) (threadId checkpointNs : String) :
    (cs.push cp).ids threadId checkpointNs =
      if (cp.threadId, cp.checkpointNs) = (threadId, checkpointNs) then
        cs.ids threadId checkpointNs ++ [cp.id]
      else cs.ids threadId checkpointNs := by
  unfold ids
  by_cases h : (cp.threadId, cp.checkpointNs) = (threadId, checkpointNs)
  · obtain ⟨rfl, rfl⟩ := Prod.mk.inj h
    rw [if_pos rfl, chain_push_self, List.map_append]
    rfl
  · rw [if_neg h, chain_push_of_ne h]

end Chains

theorem Archive.memory_keyed : Archive.memory.Keyed fun cs cs' => cs.ids = cs'.ids := by
  intro cp cp' cs cs' hthread hns hid hcs
  change (Chains.save cp cs).1 = (Chains.save cp' cs').1 ∧
    (Chains.save cp cs).2.ids = (Chains.save cp' cs').2.ids
  unfold Chains.save
  rw [Chains.any_id_eq_any_ids, Chains.any_id_eq_any_ids, hthread, hns, hid, hcs]
  split
  · exact ⟨rfl, hcs⟩
  · refine ⟨rfl, ?_⟩
    funext threadId checkpointNs
    rw [Chains.ids_push, Chains.ids_push, hthread, hns, hid, hcs]

theorem Archive.rows_keyed :
    Archive.rows.Keyed fun rs rs' => rs.map (·.id) = rs'.map (·.id) := by
  intro cp cp' rs rs' hthread hns hid hrs
  have hany : ∀ (rs : Rows) (id : String),
      (rs.any fun r => r.id == id) = (rs.map (·.id)).any (· == id) := by
    intro rs id
    rw [List.any_map]
    rfl
  have hrow : ∀ cp : Checkpoint, (Row.ofCheckpoint cp).id = cp.id := fun _ => rfl
  change (Rows.save cp rs).1 = (Rows.save cp' rs').1 ∧
    (Rows.save cp rs).2.map (·.id) = (Rows.save cp' rs').2.map (·.id)
  unfold Rows.save
  rw [hany, hany, hid, hrs]
  split
  · exact ⟨rfl, hrs⟩
  · refine ⟨rfl, ?_⟩
    rw [List.map_append, List.map_append, hrs, List.map_singleton, List.map_singleton, hrow, hrow,
      hid]

/-- Contents of archives of one kind with the same identifiers. -/
inductive Storage.SameIds : Storage → Storage → Prop
  | chains {cs cs' : Chains} (h : cs.ids = cs'.ids) : SameIds (.chains cs) (.chains cs')
  | rows {rs rs' : Rows} (h : rs.map (·.id) = rs'.map (·.id)) : SameIds (.rows rs) (.rows rs')

theorem Archive.either_keyed : Archive.either.Keyed Storage.SameIds := by
  intro cp cp' s s' hthread hns hid hs
  cases hs with
  | chains hcs =>
    obtain ⟨hresult, hcontents⟩ := memory_keyed cp cp' _ _ hthread hns hid hcs
    exact ⟨hresult, .chains hcontents⟩
  | rows hrs =>
    obtain ⟨hresult, hcontents⟩ := rows_keyed cp cp' _ _ hthread hns hid hrs
    exact ⟨hresult, .rows hcontents⟩

end Workgraph
