import Workgraph.Proofs.Checkpoint.Kept
import Workgraph.Proofs.Checkpoint.Links
/-!
# Agreement of the archives

The archive in memory and the archive of rows give the same answers, however calls for different
threads and namespaces are mixed. What both go by is the list of the checkpoints that have been
taken, in the order in which they came.

## Main definitions

- `ArchiveCall`, `ArchiveAnswer`: what an archive can be asked, and what it answers
- `Archive.answers`: the answers to a list of calls
- `Checkpoint.Storable`: what a checkpoint must be for its row to hold all of it
- `ArchiveCall.Admissible`: calls that save such checkpoints, and no identifier in two places
- `Archive.Agree`: contents of the two archives that hold the same checkpoints

## Main statements

- `Archive.Agree.answer`: one call is answered alike and leaves the same checkpoints behind
- `archives_agree`: all calls are answered alike
-/

namespace Workgraph

/-- What an archive can be asked. -/
inductive ArchiveCall where
  | save (cp : Checkpoint)
  | load (threadId checkpointNs : String) (id : Option String)
  | children (threadId checkpointNs parentId : String)
  | list (threadId checkpointNs : String)
  | threads

/-- What an archive answers. -/
inductive ArchiveAnswer where
  | saved (result : Except ArchiveError String)
  | loaded (result : Except ArchiveError (Option Checkpoint))
  | listed (result : Except ArchiveError (List Checkpoint))
  | threads (result : Except ArchiveError (List String))

namespace Archive

variable {τ : Type}

/-- The answer to a call, and the contents of the archive after it. -/
def answer (a : Archive τ) (call : ArchiveCall) (t : τ) : ArchiveAnswer × τ :=
  match call with
  | .save cp => (.saved (a.save cp t).1, (a.save cp t).2)
  | .load threadId checkpointNs id => (.loaded (a.load t threadId checkpointNs id), t)
  | .children threadId checkpointNs parentId =>
    (.listed (a.children t threadId checkpointNs parentId), t)
  | .list threadId checkpointNs => (.listed (a.list t threadId checkpointNs), t)
  | .threads => (.threads (a.threads t), t)

/-- The answers to calls in order, and the contents of the archive after them. -/
def answers (a : Archive τ) : List ArchiveCall → τ → List ArchiveAnswer × τ
  | [], t => ([], t)
  | call :: rest, t =>
    let (first, t) := a.answer call t
    let (more, t) := a.answers rest t
    (first :: more, t)

end Archive

/-- What a checkpoint must be for its row to hold all of it: it can be kept as text, and the texts
of its state and of its record may be read. -/
structure Checkpoint.Storable (cp : Checkpoint) : Prop extends cp.Keepable Number.ReadsBack where
  stateDepth : (PersistedState.ofState cp.state).toJson.depth ≤ maxDepth
  recordDepth : cp.record.toJson.depth ≤ maxDepth

/-- The row of a checkpoint is read as this checkpoint. -/
theorem Row.read_ofCheckpoint {cp : Checkpoint} (h : cp.Storable) :
    (Row.ofCheckpoint cp).read = .ok cp := by
  have hnumbers : ∀ n : Nat, n ≤ maxUnsigned64 → Number.ReadsBack (.int n) := fun _ hn =>
    (Number.integral_nat hn).readsBack
  have hstate := (PersistedState.reads h.keptState).readPersisted
    (PersistedState.toJson_ordered h.keptState hnumbers) h.stateDepth
  have hrecord := (StepRecord.reads h.record h.step).readPersisted
    (StepRecord.toJson_ordered h.record (hnumbers _ h.step)) h.recordDepth
  have hrow : (Row.ofCheckpoint cp).toCheckpoint =
      (readPersisted PersistedState.decoder "state"
        (PersistedState.ofState cp.state).toJson.compact >>= fun state =>
      readPersisted StepRecord.decoder "metadata" cp.record.toJson.compact >>= fun record =>
      PersistedCheckpoint.toCheckpoint ⟨cp.threadId, cp.checkpointNs, cp.id, cp.parentId, state,
        record, cp.createdAt.offsetText⟩) := rfl
  have hread : (Row.ofCheckpoint cp).toCheckpoint = .ok cp := by
    rw [hrow, hstate, hrecord]
    dsimp only [bind, Except.bind]
    exact h.toCheckpoint_ofCheckpoint
  unfold Row.read
  rw [hread]
  rfl

theorem mapM_read_ofCheckpoint {cps : List Checkpoint} (h : ∀ cp ∈ cps, cp.Storable) :
    (cps.map Row.ofCheckpoint).mapM Row.read = .ok cps := by
  induction cps with
  | nil => rfl
  | cons cp rest ih =>
    obtain ⟨hcp, hrest⟩ := List.forall_mem_cons.mp h
    rw [List.map_cons, List.mapM_cons, Row.read_ofCheckpoint hcp, ih hrest]
    rfl

theorem option_mapM_read_ofCheckpoint {cp? : Option Checkpoint} (h : ∀ cp ∈ cp?, cp.Storable) :
    (cp?.map Row.ofCheckpoint).mapM Row.read = .ok cp? := by
  cases cp? with
  | none => rfl
  | some cp =>
    change some <$> (Row.ofCheckpoint cp).read = _
    rw [Row.read_ofCheckpoint (h cp rfl)]
    rfl

/-- The texts in increasing order depend on which texts there are. -/
theorem sortedTexts_congr {ss ss' : List String} (h : ∀ s, s ∈ ss ↔ s ∈ ss') :
    sortedTexts ss = sortedTexts ss' := by
  have hget : ∀ (ss : List String) (key : String),
      (Table.ofList (ss.map fun s => (s, ()))).get? key = if key ∈ ss then some () else none := by
    intro ss key
    induction ss with
    | nil => rfl
    | cons s rest ih =>
      rw [List.map_cons, Table.get?_ofList_cons, ih]
      by_cases hrest : key ∈ rest
      · simp [hrest]
      · simp [hrest]
  have htable :
      Table.ofList (ss.map fun s => (s, ())) = Table.ofList (ss'.map fun s => (s, ())) := by
    refine (Table.sorted_ofList _).ext (Table.sorted_ofList _) fun key => ?_
    rw [hget, hget, if_congr (h key) rfl rfl]
  unfold sortedTexts
  rw [htable]

theorem Chains.mem_threads_push {cs : Chains} {cp : Checkpoint} {threadId : String} :
    threadId ∈ (cs.push cp).map (·.1.1) ↔ threadId ∈ cs.map (·.1.1) ∨ threadId = cp.threadId := by
  induction cs with
  | nil => simp [push]
  | cons entry rest ih =>
    obtain ⟨key, cps⟩ := entry
    unfold push
    split
    · rename_i hkey
      obtain rfl : key = (cp.threadId, cp.checkpointNs) := beq_iff_eq.mp hkey
      simp only [List.map_cons, List.mem_cons]
      exact ⟨.inl, fun h => h.elim id .inl⟩
    · simp only [List.map_cons, List.mem_cons, ih]
      exact or_assoc.symm

/-- The checkpoints that archives hold after a call, in the order in which they were taken. -/
def ArchiveCall.take (taken : List Checkpoint) : ArchiveCall → List Checkpoint
  | .save cp => if taken.any (·.id == cp.id) then taken else taken ++ [cp]
  | _ => taken

/-- Calls save checkpoints whose rows hold all of them, and no identifier in two threads or
namespaces. -/
structure ArchiveCall.Admissible (calls : List ArchiveCall) : Prop where
  storable : ∀ cp, .save cp ∈ calls → cp.Storable
  placed : ∀ cp cp', .save cp ∈ calls → .save cp' ∈ calls → cp'.id = cp.id →
    cp'.threadId = cp.threadId ∧ cp'.checkpointNs = cp.checkpointNs

namespace ArchiveCall

variable {calls : List ArchiveCall} {taken : List Checkpoint}

theorem take_save (taken : List Checkpoint) (cp : Checkpoint) :
    take taken (.save cp) = if taken.any (·.id == cp.id) then taken else taken ++ [cp] := rfl

theorem mem_take {call : ArchiveCall} {cp : Checkpoint} (h : cp ∈ take taken call) :
    cp ∈ taken ∨ call = .save cp := by
  cases call with
  | save cp' =>
    rw [take_save] at h
    split at h
    · exact .inl h
    · obtain h | h := List.mem_append.mp h
      · exact .inl h
      · exact .inr (by rw [List.mem_singleton.mp h])
  | _ => exact .inl h

theorem subset_take (taken : List Checkpoint) (call : ArchiveCall) : taken ⊆ take taken call := by
  cases call with
  | save cp =>
    rw [take_save]
    split
    · exact List.Subset.refl taken
    · exact List.subset_append_left taken [cp]
  | _ => exact List.Subset.refl taken

/-- The identifier of a checkpoint that has been saved is in use. -/
theorem exists_mem_take (taken : List Checkpoint) (cp : Checkpoint) :
    ∃ cp' ∈ take taken (.save cp), cp'.id = cp.id := by
  rw [take_save]
  split
  · rename_i hany
    obtain ⟨other, ho, hid⟩ := List.any_eq_true.mp hany
    exact ⟨other, ho, beq_iff_eq.mp hid⟩
  · exact ⟨cp, by simp, rfl⟩

theorem subset_foldl_take (taken : List Checkpoint) (calls : List ArchiveCall) :
    taken ⊆ calls.foldl take taken := by
  induction calls generalizing taken with
  | nil => exact List.Subset.refl taken
  | cons call rest ih => exact List.Subset.trans (subset_take taken call) (ih _)

/-- The identifiers of all checkpoints that have been saved are in use. -/
theorem exists_mem_foldl_take (taken : List Checkpoint) {cp : Checkpoint} (h : .save cp ∈ calls) :
    ∃ cp' ∈ calls.foldl take taken, cp'.id = cp.id := by
  induction calls generalizing taken with
  | nil => cases h
  | cons call rest ih =>
    obtain rfl | h := List.mem_cons.mp h
    · obtain ⟨cp', hcp', hid⟩ := exists_mem_take taken cp
      exact ⟨cp', subset_foldl_take _ rest hcp', hid⟩
    · exact ih _ h

/-- What is held has been held before or has been saved. -/
theorem mem_foldl_take {cp : Checkpoint} (h : cp ∈ calls.foldl take taken) :
    cp ∈ taken ∨ .save cp ∈ calls := by
  induction calls generalizing taken with
  | nil => exact .inl h
  | cons call rest ih =>
    obtain hcp | hcp := ih h
    · exact (mem_take hcp).imp_right fun heq => by rw [heq]; exact List.mem_cons_self
    · exact .inr (List.mem_cons_of_mem _ hcp)

end ArchiveCall

namespace Archive

open ArchiveCall (take Admissible)

/-- Contents of the archive in memory and of the archive of rows that hold the same checkpoints,
which are listed in the order in which they were taken. -/
structure Agree (held : List Checkpoint) (cs : Chains) (rs : Rows) : Prop where
  rows : rs = held.map Row.ofCheckpoint
  chains : ∀ threadId checkpointNs,
    cs.chain threadId checkpointNs = held.filter (·.isOf threadId checkpointNs)
  threads : ∀ threadId, threadId ∈ cs.map (·.1.1) ↔ threadId ∈ held.map (·.threadId)

namespace Agree

variable {held : List Checkpoint} {cs : Chains} {rs : Rows}

theorem empty : Agree [] [] [] where
  rows := rfl
  chains := fun _ _ => rfl
  threads := fun _ => Iff.rfl

/-- The rows of a thread and a namespace are those of its chain. -/
theorem rows_chain (h : Agree held cs rs) (threadId checkpointNs : String) :
    rs.chain threadId checkpointNs = (cs.chain threadId checkpointNs).map Row.ofCheckpoint := by
  rw [h.chains, h.rows]
  exact List.filter_map

theorem mem_held (h : Agree held cs rs) {threadId checkpointNs : String} {cp : Checkpoint}
    (hcp : cp ∈ cs.chain threadId checkpointNs) : cp ∈ held := by
  rw [h.chains] at hcp
  exact List.mem_of_mem_filter hcp

/-- Both archives take a checkpoint. -/
theorem push (h : Agree held cs rs) (cp : Checkpoint) :
    Agree (held ++ [cp]) (cs.push cp) (rs ++ [.ofCheckpoint cp]) where
  rows := by
    rw [h.rows, List.map_append]
    rfl
  chains := by
    intro threadId checkpointNs
    rw [List.filter_append, ← h.chains]
    by_cases hof : cp.isOf threadId checkpointNs = true
    · obtain ⟨hthread, hns⟩ := Bool.and_eq_true_iff.mp hof
      obtain rfl := beq_iff_eq.mp hthread
      obtain rfl := beq_iff_eq.mp hns
      rw [Chains.chain_push_self, List.filter_singleton, hof]
      rfl
    · have hne : (cp.threadId, cp.checkpointNs) ≠ (threadId, checkpointNs) := by
        intro heq
        obtain ⟨rfl, rfl⟩ := Prod.mk.inj heq
        exact hof (by simp [Checkpoint.isOf])
      rw [Chains.chain_push_of_ne hne, List.filter_singleton, Bool.eq_false_iff.mpr hof]
      exact (List.append_nil _).symm
  threads := by
    intro threadId
    rw [Chains.mem_threads_push, h.threads, List.map_append, List.mem_append, List.map_singleton,
      List.mem_singleton]

/-- An identifier that belongs to one thread and namespace is taken in its chain if it is taken
anywhere. -/
theorem any_id (h : Agree held cs rs) {cp : Checkpoint}
    (hplaced : ∀ cp' ∈ held, cp'.id = cp.id →
      cp'.threadId = cp.threadId ∧ cp'.checkpointNs = cp.checkpointNs) :
    (cs.chain cp.threadId cp.checkpointNs).any (·.id == cp.id) = held.any (·.id == cp.id) ∧
      rs.any (·.id == cp.id) = held.any (·.id == cp.id) := by
  constructor
  · rw [h.chains, Bool.eq_iff_iff, List.any_eq_true, List.any_eq_true]
    constructor
    · rintro ⟨cp', hmem, hid⟩
      exact ⟨cp', List.mem_of_mem_filter hmem, hid⟩
    · rintro ⟨cp', hmem, hid⟩
      obtain ⟨hthread, hns⟩ := hplaced cp' hmem (beq_iff_eq.mp hid)
      refine ⟨cp', List.mem_filter.mpr ⟨hmem, ?_⟩, hid⟩
      simp [Checkpoint.isOf, hthread, hns]
  · rw [h.rows, List.any_map]
    rfl

/-- Both archives take a checkpoint, or both refuse it as a conflict. -/
theorem save (h : Agree held cs rs) {cp : Checkpoint}
    (hplaced : ∀ cp' ∈ held, cp'.id = cp.id →
      cp'.threadId = cp.threadId ∧ cp'.checkpointNs = cp.checkpointNs) :
    (memory.save cp cs).1 = (Archive.rows.save cp rs).1 ∧
      Agree (take held (.save cp)) (memory.save cp cs).2 (Archive.rows.save cp rs).2 := by
  obtain ⟨hchain, hrows⟩ := h.any_id hplaced
  change (Chains.save cp cs).1 = (Rows.save cp rs).1 ∧
    Agree _ (Chains.save cp cs).2 (Rows.save cp rs).2
  rw [ArchiveCall.take_save, Chains.save, Rows.save, hchain, hrows]
  split
  · exact ⟨rfl, h⟩
  · exact ⟨rfl, h.push cp⟩

/-- Both archives refuse a checkpoint whose identifier is in use, and nothing changes. -/
theorem refuse (h : Agree held cs rs) {cp : Checkpoint}
    (hplaced : ∀ cp' ∈ held, cp'.id = cp.id →
      cp'.threadId = cp.threadId ∧ cp'.checkpointNs = cp.checkpointNs)
    (hused : ∃ cp' ∈ held, cp'.id = cp.id) :
    memory.save cp cs = (.error (.conflict cp.id), cs) ∧
      Archive.rows.save cp rs = (.error (.conflict cp.id), rs) := by
  obtain ⟨hchain, hrows⟩ := h.any_id hplaced
  have hany : held.any (·.id == cp.id) = true := by
    obtain ⟨cp', hmem, hid⟩ := hused
    exact List.any_eq_true.mpr ⟨cp', hmem, beq_iff_eq.mpr hid⟩
  change Chains.save cp cs = _ ∧ Rows.save cp rs = _
  rw [Chains.save, Rows.save, hchain, hrows, if_pos hany, if_pos hany]
  exact ⟨rfl, rfl⟩

/-- A call is answered alike by both archives, and they hold the same checkpoints after it. -/
theorem answer (h : Agree held cs rs) (hstorable : ∀ cp ∈ held, cp.Storable) (call : ArchiveCall)
    (hplaced : ∀ cp, call = .save cp → ∀ cp' ∈ held, cp'.id = cp.id →
      cp'.threadId = cp.threadId ∧ cp'.checkpointNs = cp.checkpointNs) :
    (memory.answer call cs).1 = (Archive.rows.answer call rs).1 ∧
      Agree (take held call) (memory.answer call cs).2 (Archive.rows.answer call rs).2 := by
  have hread : ∀ threadId checkpointNs, ∀ cp ∈ cs.chain threadId checkpointNs, cp.Storable :=
    fun _ _ cp hcp => hstorable cp (h.mem_held hcp)
  cases call with
  | save cp =>
    obtain ⟨hresult, hagree⟩ := h.save (hplaced cp rfl)
    exact ⟨congrArg ArchiveAnswer.saved hresult, hagree⟩
  | load threadId checkpointNs id =>
    refine ⟨congrArg ArchiveAnswer.loaded ?_, h⟩
    have hrow : rs.row? threadId checkpointNs id =
        (cs.load threadId checkpointNs id).map Row.ofCheckpoint := by
      unfold Rows.row? Chains.load
      rw [h.rows_chain]
      cases id with
      | none => exact List.getLast?_map
      | some id => exact List.find?_map
    have hmem : ∀ cp ∈ cs.load threadId checkpointNs id, cp.Storable := by
      intro cp hcp
      refine hread threadId checkpointNs cp ?_
      cases id with
      | none => exact List.mem_of_getLast? hcp
      | some id => exact List.mem_of_find?_eq_some hcp
    change Except.ok _ = (rs.row? threadId checkpointNs id).mapM Row.read
    rw [hrow, option_mapM_read_ofCheckpoint hmem]
  | children threadId checkpointNs parentId =>
    refine ⟨congrArg ArchiveAnswer.listed ?_, h⟩
    change Except.ok
        ((cs.chain threadId checkpointNs).filter fun cp => cp.parentId == some parentId) =
      ((rs.chain threadId checkpointNs).filter fun r => r.parentId == some parentId).mapM Row.read
    rw [h.rows_chain, List.filter_map]
    refine (mapM_read_ofCheckpoint fun cp hcp => ?_).symm
    exact hread threadId checkpointNs cp (List.mem_of_mem_filter hcp)
  | list threadId checkpointNs =>
    refine ⟨congrArg ArchiveAnswer.listed ?_, h⟩
    change Except.ok (cs.chain threadId checkpointNs) =
      (rs.chain threadId checkpointNs).mapM Row.read
    rw [h.rows_chain, mapM_read_ofCheckpoint (hread threadId checkpointNs)]
  | threads =>
    refine ⟨congrArg ArchiveAnswer.threads (congrArg Except.ok (sortedTexts_congr fun s => ?_)), h⟩
    rw [h.threads, h.rows, List.map_map]
    exact Iff.rfl

/-- Calls are answered alike by both archives, and they hold the same checkpoints after them. -/
theorem answers {all calls : List ArchiveCall} (hall : Admissible all) (hcalls : calls ⊆ all)
    (hheld : ∀ cp ∈ held, .save cp ∈ all) (h : Agree held cs rs) :
    (memory.answers calls cs).1 = (Archive.rows.answers calls rs).1 ∧
      Agree (calls.foldl take held) (memory.answers calls cs).2
        (Archive.rows.answers calls rs).2 := by
  induction calls generalizing held cs rs with
  | nil => exact ⟨rfl, h⟩
  | cons call rest ih =>
    obtain ⟨hcall, hrest⟩ := List.cons_subset.mp hcalls
    obtain ⟨hfirst, hagree⟩ := h.answer (fun cp hcp => hall.storable cp (hheld cp hcp)) call
      fun cp hsave cp' hcp' => hall.placed cp cp' (hsave ▸ hcall) (hheld cp' hcp')
    have htaken : ∀ cp ∈ take held call, .save cp ∈ all := by
      intro cp hcp
      obtain hcp | rfl := ArchiveCall.mem_take hcp
      · exact hheld cp hcp
      · exact hcall
    obtain ⟨hmore, hafter⟩ := ih hrest htaken hagree
    exact ⟨congrArg₂ List.cons hfirst hmore, hafter⟩

end Agree

end Archive

/-- The archive in memory and the archive of rows give the same answers to all calls. A checkpoint
whose identifier has been saved before is refused by both, which are left as they were. -/
theorem archives_agree {calls : List ArchiveCall} (h : ArchiveCall.Admissible calls) :
    (Archive.memory.answers calls []).1 = (Archive.rows.answers calls []).1 ∧
      ∀ before cp after, calls = before ++ .save cp :: after →
        (∃ cp', .save cp' ∈ before ∧ cp'.id = cp.id) →
        let cs := (Archive.memory.answers before []).2
        let rs := (Archive.rows.answers before []).2
        Archive.memory.save cp cs = (.error (.conflict cp.id), cs) ∧
          Archive.rows.save cp rs = (.error (.conflict cp.id), rs) := by
  refine ⟨(Archive.Agree.empty.answers h (List.Subset.refl calls) (by simp)).1, ?_⟩
  rintro before cp after rfl ⟨cp', hcp', hid⟩
  have hbefore := (Archive.Agree.empty.answers h (List.subset_append_left before _) (by simp)).2
  refine hbefore.refuse (fun other ho => ?_) ?_
  · have hother := (ArchiveCall.mem_foldl_take ho).resolve_left List.not_mem_nil
    exact h.placed cp other (by simp) (List.mem_append_left _ hother)
  · obtain ⟨other, ho, hother⟩ := ArchiveCall.exists_mem_foldl_take [] hcp'
    exact ⟨other, ho, hother.trans hid⟩

theorem fullCheckpoint_storable : fullCheckpoint.Storable where
  toKeepable := fullCheckpoint_keepable fun _ => Number.Integral.readsBack
  stateDepth := by decide +kernel
  recordDepth := by decide +kernel

/-- A checkpoint of another thread that names a checkpoint of the first one as its parent. -/
def strayCheckpoint : Checkpoint :=
  { fullCheckpoint with
    threadId := "elsewhere", checkpointNs := "", id := "5", parentId := some "4" }

theorem strayCheckpoint_storable : strayCheckpoint.Storable :=
  { fullCheckpoint_storable with named := by decide }

/-- Calls for two threads, with a checkpoint that is saved twice. -/
def mixedCalls : List ArchiveCall :=
  [.save fullCheckpoint, .save strayCheckpoint, .save fullCheckpoint, .load "thread" "inner" none,
    .load "elsewhere" "" (some "5"), .children "thread" "inner" "4", .list "elsewhere" "", .threads]

theorem mixedCalls_admissible : ArchiveCall.Admissible mixedCalls := by
  have hsaved : ∀ cp, .save cp ∈ mixedCalls → cp = fullCheckpoint ∨ cp = strayCheckpoint := by
    intro cp h
    simp only [mixedCalls, List.mem_cons, ArchiveCall.save.injEq, reduceCtorEq, List.not_mem_nil,
      or_false] at h
    tauto
  constructor
  · intro cp h
    obtain rfl | rfl := hsaved cp h
    · exact fullCheckpoint_storable
    · exact strayCheckpoint_storable
  · intro cp cp' h h' hid
    obtain rfl | rfl := hsaved cp h <;> obtain rfl | rfl := hsaved cp' h'
    · exact ⟨rfl, rfl⟩
    · exact absurd hid (by decide)
    · exact absurd hid (by decide)
    · exact ⟨rfl, rfl⟩

theorem archives_agree_mixed :
    ArchiveCall.Admissible mixedCalls ∧
      (Archive.memory.answers mixedCalls []).1 = (Archive.rows.answers mixedCalls []).1 ∧
      ∃ cs rs, Archive.memory.save fullCheckpoint cs = (.error (.conflict "4"), cs) ∧
        Archive.rows.save fullCheckpoint rs = (.error (.conflict "4"), rs) := by
  obtain ⟨hanswers, hrefused⟩ := archives_agree mixedCalls_admissible
  refine ⟨mixedCalls_admissible, hanswers, _, _,
    hrefused [.save fullCheckpoint, .save strayCheckpoint] fullCheckpoint _ rfl
      ⟨fullCheckpoint, by simp, rfl⟩⟩

end Workgraph
