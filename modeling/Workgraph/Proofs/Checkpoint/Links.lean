import Workgraph.Proofs.Checkpoint.Fresh
/-!
# Links

The chain of a thread without the states: which checkpoints there are, in the order in which they
were saved, and which one each of them names as its parent.

## Main definitions

- `ChainLink`: a checkpoint as a place in a chain
- `Archive.Keeps`: archives that keep chains, as far as links tell them apart
- `ChainLink.children`: how many checkpoints name a given one as their parent

## Main statements

- `Archive.memory_keeps`, `Archive.rows_keeps`, `Archive.either_keeps`: the archives keep chains
-/

namespace Workgraph

variable {τ : Type}

/-- A checkpoint as a place in a chain. -/
structure ChainLink where
  id : String
  parentId : Option String
deriving DecidableEq

namespace ChainLink

def ofCheckpoint (cp : Checkpoint) : ChainLink := ⟨cp.id, cp.parentId⟩

def ofRow (row : Row) : ChainLink := ⟨row.id, row.parentId⟩

/-- The identifiers of a chain. -/
def ids (chain : List ChainLink) : List String := chain.map (·.id)

/-- The identifier of the latest checkpoint of a chain. -/
def latest? (chain : List ChainLink) : Option String := chain.getLast?.map (·.id)

/-- How many checkpoints of a chain name a given one as their parent. -/
def children (chain : List ChainLink) (id : String) : Nat := chain.countP (·.parentId == some id)

@[simp] theorem ids_concat (chain : List ChainLink) (l : ChainLink) :
    ids (chain ++ [l]) = ids chain ++ [l.id] := by
  simp [ids]

@[simp] theorem latest?_concat (chain : List ChainLink) (l : ChainLink) :
    latest? (chain ++ [l]) = some l.id := by
  simp [latest?]

theorem children_concat (chain : List ChainLink) (l : ChainLink) (id : String) :
    children (chain ++ [l]) id = children chain id + if l.parentId = some id then 1 else 0 := by
  simp [children, List.countP_append, List.countP_singleton]

theorem children_eq_zero {chain : List ChainLink} {id : String}
    (h : ∀ l ∈ chain, l.parentId ≠ some id) : children chain id = 0 := by
  unfold children
  rw [List.countP_eq_zero]
  intro l hl
  simpa using h l hl

end ChainLink

/-- An archive keeps chains: `links` tells the chain that a thread has in a namespace. What is saved
goes to the end of its chain and leaves the others alone, no identifier goes into a chain twice, and
the latest checkpoint is the end of the chain. -/
structure Archive.Keeps (a : Archive τ) (links : τ → String → String → List ChainLink) : Prop where
  saved : ∀ cp t id t', a.save cp t = (.ok id, t') →
    id = cp.id ∧ cp.id ∉ ChainLink.ids (links t cp.threadId cp.checkpointNs) ∧
      links t' cp.threadId cp.checkpointNs =
        links t cp.threadId cp.checkpointNs ++ [.ofCheckpoint cp]
  apart : ∀ cp t threadId checkpointNs, (cp.threadId, cp.checkpointNs) ≠ (threadId, checkpointNs) →
    links (a.save cp t).2 threadId checkpointNs = links t threadId checkpointNs
  refused : ∀ cp t e t', a.save cp t = (.error e, t') → links t' = links t
  latest : ∀ t threadId checkpointNs cp,
    a.load t threadId checkpointNs none = .ok (some cp) →
      ChainLink.latest? (links t threadId checkpointNs) = some cp.id

/-! ## The archive in memory -/

namespace Chains

/-- Adding a checkpoint leaves the other chains alone. -/
theorem chain_push_of_ne {cs : Chains} {cp : Checkpoint} {threadId checkpointNs : String}
    (h : (cp.threadId, cp.checkpointNs) ≠ (threadId, checkpointNs)) :
    (cs.push cp).chain threadId checkpointNs = cs.chain threadId checkpointNs := by
  unfold chain
  induction cs with
  | nil => simp [push, h]
  | cons entry rest ih =>
    obtain ⟨key, cps⟩ := entry
    unfold push
    by_cases hk : key = (cp.threadId, cp.checkpointNs)
    · subst hk
      simp [h]
    · by_cases hkey : key = (threadId, checkpointNs)
      · subst hkey
        simp [hk]
      · rw [if_neg (by simpa using hk)]
        simpa [hkey] using ih

/-- The links of the chain of a thread in a namespace. -/
def links (cs : Chains) (threadId checkpointNs : String) : List ChainLink :=
  (cs.chain threadId checkpointNs).map .ofCheckpoint

end Chains

theorem Archive.memory_keeps : Archive.memory.Keeps Chains.links where
  saved := by
    intro cp cs id cs' h
    change Chains.save cp cs = _ at h
    unfold Chains.save at h
    split at h
    · cases h
    · rename_i hfree
      cases h
      refine ⟨rfl, ?_, ?_⟩
      · simpa [ChainLink.ids, Chains.links, ChainLink.ofCheckpoint, Function.comp_def] using hfree
      · unfold Chains.links
        rw [Chains.chain_push_self, List.map_append]
        rfl
  apart := by
    intro cp cs threadId checkpointNs hne
    change Chains.links (Chains.save cp cs).2 threadId checkpointNs = _
    unfold Chains.save
    split
    · rfl
    · unfold Chains.links
      rw [Chains.chain_push_of_ne hne]
  refused := by
    intro cp cs e cs' h
    change Chains.save cp cs = _ at h
    unfold Chains.save at h
    split at h
    · cases h
      rfl
    · cases h
  latest := by
    intro cs threadId checkpointNs cp h
    have hlast : (cs.chain threadId checkpointNs).getLast? = some cp := Except.ok.inj h
    unfold ChainLink.latest? Chains.links
    rw [List.getLast?_map, hlast]
    rfl

/-! ## The archive of rows -/

namespace Rows

/-- The links of the chain of a thread in a namespace. -/
def links (rs : Rows) (threadId checkpointNs : String) : List ChainLink :=
  (rs.chain threadId checkpointNs).map .ofRow

end Rows

/-- A row is read as the checkpoint of its identifier. -/
theorem Row.read_id {row : Row} {cp : Checkpoint} (h : row.read = .ok cp) : cp.id = row.id := by
  unfold read toCheckpoint PersistedCheckpoint.toCheckpoint at h
  cases hs : readPersisted PersistedState.decoder "state" row.state with
  | error e =>
    rw [hs] at h
    cases h
  | ok state =>
    rw [hs] at h
    cases hr : readPersisted StepRecord.decoder "metadata" row.record with
    | error e =>
      rw [hr] at h
      cases h
    | ok record =>
      rw [hr] at h
      simp only [bind, Except.bind] at h
      split at h
      · cases h
      · split at h
        · cases h
        · cases h
          rfl

theorem Archive.rows_keeps : Archive.rows.Keeps Rows.links where
  saved := by
    intro cp rs id rs' h
    change Rows.save cp rs = _ at h
    unfold Rows.save at h
    split at h
    · cases h
    · rename_i hfree
      cases h
      refine ⟨rfl, ?_, ?_⟩
      · intro hmem
        obtain ⟨link, hlink, hid⟩ := List.mem_map.mp hmem
        obtain ⟨row, hrow, rfl⟩ := List.mem_map.mp hlink
        exact hfree (List.any_eq_true.mpr ⟨row, (List.mem_filter.mp hrow).1, beq_iff_eq.mpr hid⟩)
      · unfold Rows.links Rows.chain
        rw [List.filter_append, List.filter_cons_of_pos (by simp [Row.isOf, Row.ofCheckpoint,
          PersistedCheckpoint.ofCheckpoint]), List.map_append]
        rfl
  apart := by
    intro cp rs threadId checkpointNs hne
    change Rows.links (Rows.save cp rs).2 threadId checkpointNs = _
    unfold Rows.save
    split
    · rfl
    · unfold Rows.links Rows.chain
      rw [List.filter_append, List.filter_cons_of_neg, List.filter_nil, List.append_nil]
      intro hof
      obtain ⟨hthread, hns⟩ := Bool.and_eq_true_iff.mp hof
      exact hne (Prod.ext (beq_iff_eq.mp hthread) (beq_iff_eq.mp hns))
  refused := by
    intro cp rs e rs' h
    change Rows.save cp rs = _ at h
    unfold Rows.save at h
    split at h
    · cases h
      rfl
    · cases h
  latest := by
    intro rs threadId checkpointNs cp h
    change ((rs.chain threadId checkpointNs).getLast?).mapM Row.read = _ at h
    unfold ChainLink.latest? Rows.links
    rw [List.getLast?_map]
    cases hlast : (rs.chain threadId checkpointNs).getLast? with
    | none =>
      rw [hlast] at h
      cases h
    | some row =>
      rw [hlast] at h
      cases hread : row.read with
      | error e => simp [hread, Functor.map, Except.map] at h
      | ok cp' =>
        have hcp : cp' = cp := by
          simpa [hread, bind, Except.bind, pure, Except.pure, Functor.map, Except.map] using h
        subst hcp
        exact congrArg some (Row.read_id hread).symm

/-! ## Archives of either kind -/

/-- The links of the chain of a thread in a namespace. -/
def Storage.links : Storage → String → String → List ChainLink
  | .chains cs => cs.links
  | .rows rs => rs.links

theorem Archive.either_keeps : Archive.either.Keeps Storage.links where
  saved := by
    intro cp s id s' h
    have hfst := congrArg Prod.fst h
    cases s with
    | chains cs =>
      obtain rfl : Storage.chains (memory.save cp cs).2 = s' := congrArg Prod.snd h
      exact memory_keeps.saved cp cs id _ (Prod.ext hfst rfl)
    | rows rs =>
      obtain rfl : Storage.rows (rows.save cp rs).2 = s' := congrArg Prod.snd h
      exact rows_keeps.saved cp rs id _ (Prod.ext hfst rfl)
  apart := by
    intro cp s threadId checkpointNs hne
    cases s with
    | chains cs => exact memory_keeps.apart cp cs threadId checkpointNs hne
    | rows rs => exact rows_keeps.apart cp rs threadId checkpointNs hne
  refused := by
    intro cp s e s' h
    have hfst := congrArg Prod.fst h
    cases s with
    | chains cs =>
      obtain rfl : Storage.chains (memory.save cp cs).2 = s' := congrArg Prod.snd h
      exact memory_keeps.refused cp cs e _ (Prod.ext hfst rfl)
    | rows rs =>
      obtain rfl : Storage.rows (rows.save cp rs).2 = s' := congrArg Prod.snd h
      exact rows_keeps.refused cp rs e _ (Prod.ext hfst rfl)
  latest := by
    intro s threadId checkpointNs cp h
    cases s with
    | chains cs => exact memory_keeps.latest cs threadId checkpointNs cp h
    | rows rs => exact rows_keeps.latest rs threadId checkpointNs cp h

end Workgraph
