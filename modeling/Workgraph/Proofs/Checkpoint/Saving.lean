import Mathlib.Data.List.Forall2
import Workgraph.Checkpoint.Archive
/-!
# Saving

What all archives have in common when they save: the identifier that they give is that of the
checkpoint, and they take no notice of its time.

## Main definitions

- `Archive.GivesIds`: archives that save a checkpoint under its own identifier
- `Checkpoint.Alike`, `Archive.Timeless`: archives that take no notice of times

## Main statements

- `Archive.either_givesIds`, `Archive.either_timeless`: archives of either kind are such
-/

namespace Workgraph

variable {τ : Type}

/-! ## Identifiers -/

/-- An archive saves a checkpoint under the identifier of the checkpoint. -/
def Archive.GivesIds (a : Archive τ) : Prop :=
  ∀ cp t id t', a.save cp t = (.ok id, t') → id = cp.id

theorem Archive.memory_givesIds : Archive.memory.GivesIds := by
  intro cp cs id cs' h
  change Chains.save cp cs = _ at h
  unfold Chains.save at h
  split at h
  · cases h
  · cases h
    rfl

theorem Archive.rows_givesIds : Archive.rows.GivesIds := by
  intro cp rs id rs' h
  change Rows.save cp rs = _ at h
  unfold Rows.save at h
  split at h
  · cases h
  · cases h
    rfl

theorem Archive.either_givesIds : Archive.either.GivesIds := by
  intro cp s id s' h
  have hfst := congrArg Prod.fst h
  cases s with
  | chains cs => exact memory_givesIds cp cs id _ (Prod.ext hfst rfl)
  | rows rs => exact rows_givesIds cp rs id _ (Prod.ext hfst rfl)

/-! ## Times -/

/-- Checkpoints that are the same but for their times. -/
def Checkpoint.Alike (cp cp' : Checkpoint) : Prop := cp' = { cp with createdAt := cp'.createdAt }

/-- An archive takes no notice of times: with contents that are alike, it does alike with
checkpoints that are the same but for their times. -/
def Archive.Timeless (a : Archive τ) (V : τ → τ → Prop) : Prop :=
  ∀ cp cp' t t', cp.Alike cp' → V t t' →
    (a.save cp t).1 = (a.save cp' t').1 ∧ V (a.save cp t).2 (a.save cp' t').2

namespace Chains

/-- Chains that are the same but for the times of their checkpoints. -/
def Alike (cs cs' : Chains) : Prop :=
  List.Forall₂ (fun e e' => e.1 = e'.1 ∧ List.Forall₂ Checkpoint.Alike e.2 e'.2) cs cs'

variable {cs cs' : Chains}

theorem Alike.chain (h : cs.Alike cs') (threadId checkpointNs : String) :
    List.Forall₂ Checkpoint.Alike (cs.chain threadId checkpointNs)
      (cs'.chain threadId checkpointNs) := by
  unfold Chains.chain
  induction h with
  | nil => exact .nil
  | @cons e e' rest rest' he _ ih =>
    obtain ⟨key, cps⟩ := e
    obtain ⟨key', cps'⟩ := e'
    obtain ⟨rfl, hcps⟩ := he
    by_cases hk : key = (threadId, checkpointNs)
    · simpa [hk] using hcps
    · simpa [hk] using ih

theorem Alike.push (h : cs.Alike cs') {cp cp' : Checkpoint} (hcp : cp.Alike cp') :
    (cs.push cp).Alike (cs'.push cp') := by
  rw [hcp]
  induction h with
  | nil => exact .cons ⟨rfl, .cons rfl .nil⟩ .nil
  | @cons e e' rest rest' he hrest ih =>
    obtain ⟨key, cps⟩ := e
    obtain ⟨key', cps'⟩ := e'
    obtain ⟨rfl, hcps⟩ := he
    unfold Chains.push
    dsimp only
    by_cases hk : key = (cp.threadId, cp.checkpointNs)
    · rw [if_pos (by simpa using hk), if_pos (by simpa using hk)]
      exact .cons ⟨rfl, List.rel_append hcps (.cons rfl .nil)⟩ hrest
    · rw [if_neg (by simpa using hk), if_neg (by simpa using hk)]
      exact .cons ⟨rfl, hcps⟩ ih

end Chains

/-- Whether an identifier is taken does not depend on times. -/
theorem any_id_eq {cps cps' : List Checkpoint} (h : List.Forall₂ Checkpoint.Alike cps cps')
    (id : String) : (cps.any fun cp => cp.id == id) = cps'.any fun cp => cp.id == id := by
  induction h with
  | nil => rfl
  | cons hcp _ ih => rw [List.any_cons, List.any_cons, ih, hcp]

theorem Archive.memory_timeless : Archive.memory.Timeless Chains.Alike := by
  intro cp cp' cs cs' hcp hcs
  have hany := any_id_eq (hcs.chain cp.threadId cp.checkpointNs) cp.id
  have hpush := hcs.push hcp
  change (Chains.save cp cs).1 = (Chains.save cp' cs').1 ∧
    Chains.Alike (Chains.save cp cs).2 (Chains.save cp' cs').2
  rw [hcp] at hpush ⊢
  unfold Chains.save
  dsimp only
  rw [hany]
  split
  · exact ⟨rfl, hcs⟩
  · exact ⟨rfl, hpush⟩

/-- Rows that are the same but for their times. -/
def Row.Alike (r r' : Row) : Prop := r' = { r with createdAt := r'.createdAt }

theorem Archive.rows_timeless : Archive.rows.Timeless (List.Forall₂ Row.Alike) := by
  intro cp cp' rs rs' hcp hrs
  have hany : ∀ id : String, (rs.any fun r => r.id == id) = rs'.any fun r => r.id == id := by
    intro id
    induction hrs with
    | nil => rfl
    | cons hr _ ih => rw [List.any_cons, List.any_cons, ih, hr]
  have hrow : Row.Alike (.ofCheckpoint cp) (.ofCheckpoint cp') := by
    rw [hcp]
    rfl
  change (Rows.save cp rs).1 = (Rows.save cp' rs').1 ∧
    List.Forall₂ Row.Alike (Rows.save cp rs).2 (Rows.save cp' rs').2
  rw [hcp] at hrow ⊢
  unfold Rows.save
  dsimp only
  rw [hany]
  split
  · exact ⟨rfl, hrs⟩
  · exact ⟨rfl, List.rel_append hrs (.cons hrow .nil)⟩

/-- Contents of archives of one kind that are the same but for times. -/
inductive Storage.Alike : Storage → Storage → Prop
  | chains {cs cs' : Chains} (h : cs.Alike cs') : Alike (.chains cs) (.chains cs')
  | rows {rs rs' : Rows} (h : List.Forall₂ Row.Alike rs rs') : Alike (.rows rs) (.rows rs')

theorem Archive.either_timeless : Archive.either.Timeless Storage.Alike := by
  intro cp cp' s s' hcp hs
  cases hs with
  | chains hcs =>
    obtain ⟨hresult, hcontents⟩ := memory_timeless cp cp' _ _ hcp hcs
    exact ⟨hresult, .chains hcontents⟩
  | rows hrs =>
    obtain ⟨hresult, hcontents⟩ := rows_timeless cp cp' _ _ hcp hrs
    exact ⟨hresult, .rows hcontents⟩

end Workgraph
