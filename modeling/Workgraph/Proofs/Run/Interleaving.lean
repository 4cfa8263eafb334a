import Workgraph.Proofs.Checkpoint.Forks
import Workgraph.Proofs.Run.Lineage
import Workgraph.Run.Engine
/-!
# Resuming while runs move

A thread that is resumed by several callers at once. A resume call looks up the latest checkpoint of
the thread, and goes on later if the thread has no active run by then. What other calls and the
active run do in between may have made the chain longer, and then the call starts a run at a
checkpoint that is not the latest one any more: it is late. The chain forks only where that happens.

## Main definitions

- `Stage.tip?`: the parent of the next checkpoint that a run saves
- `Engine.Lookup`, `Engine.Interleaves`: resume calls on a thread, interleaved with all else

## Main statements

- `Runner.Move.grows`: every move puts checkpoints at the end of the chain
- `Engine.Interleaves.chained`: how far a chain has forked, wherever the calls and runs have come
- `history_forks_late`: a chain forks only where a resume call is late
- `history_forked`: a resume call that is late forks the chain
-/

namespace Workgraph

variable {σ τ : Type}

/-- The parent of the next checkpoint that a run saves: the checkpoint that it is resumed at, or the
one that it stands behind. -/
def Stage.tip? : Stage → Option String
  | .waiting start => start.origin?.map (·.id)
  | .ready c | .running c _ | .accepted c _ => c.parentId
  | .ended _ => none

namespace Runner

open ChainLink

variable {r : Runner σ τ} {links : τ → String → String → List ChainLink} {c : Cursor}
  {record : StepRecord} {w w' : RunWorld σ τ} {t : τ}

/-- The chain of a run, as far as it has been saved. -/
def chainOf (r : Runner σ τ) (links : τ → String → String → List ChainLink) (t : τ) :
    List ChainLink := links t r.threadId r.checkpointNs

/-- What is saved goes to the end of the chain, behind the checkpoint that the run stands behind. -/
theorem Saves.push (hk : r.archive.Keeps links) {id : String} (hs : r.Saves c record w (.ok id) t)
    {chain : List ChainLink} {tip : Option String}
    (h : Grows chain tip (r.chainOf links w.archive) c.parentId) :
    Grows chain tip (r.chainOf links t) (some id) := by
  obtain ⟨rfl, hnew, hlinks⟩ := hk.saved _ _ _ _ hs
  unfold chainOf
  change links t r.threadId r.checkpointNs = _ at hlinks
  rw [hlinks]
  exact h.push hnew

/-- What is refused leaves the chain as it is. -/
theorem Saves.stay (hk : r.archive.Keeps links) {e : ArchiveError}
    (hs : r.Saves c record w (.error e) t) : r.chainOf links t = r.chainOf links w.archive := by
  unfold chainOf
  rw [hk.refused _ _ _ _ hs]

/-- Every move puts checkpoints at the end of the chain, each behind the one that the run stands
behind. -/
theorem Move.grows {stage stage' : Stage} (h : r.Move stage w stage' w')
    (hk : r.archive.Keeps links) :
    Grows (r.chainOf links w.archive) stage.tip? (r.chainOf links w'.archive) stage'.tip? := by
  cases h with
  | begun log hs => exact Saves.push hk hs .stay
  | beginRefused log hs =>
    rw [RunWorld.turn_archive, Saves.stay hk hs]
    exact .stay
  | @resumed _ cp input c log hc =>
    obtain ⟨split, -, rfl⟩ := r.resumedCursor_eq_ok_iff.mp hc
    exact .stay
  | resumeFailed => exact .leave .stay
  | pausedAhead log hf hw hb hp hs => exact .leave (Saves.push hk hs .stay)
  | pauseAheadRefused log hf hw hb hp hs =>
    rw [RunWorld.turn_archive, Saves.stay hk hs]
    exact .leave .stay
  | dispatched => exact .stay
  | accepted => exact .stay
  | stepRefused log ho hs =>
    rw [RunWorld.turn_archive, Saves.stay hk hs]
    exact .leave .stay
  | routeFailed log ho hs => exact .leave (Saves.push hk hs .stay)
  | settled log ho hs => exact Saves.push hk hs .stay
  | pausedBehind log log' ho hs hr hi hs' =>
    exact .leave (Saves.push hk hs' (Saves.push hk hs .stay))
  | pauseBehindRefused log log' ho hs hr hi hs' =>
    rw [RunWorld.turn_archive, Saves.stay hk hs']
    exact .leave (Saves.push hk hs .stay)
  | rested => exact .stay
  | _ => exact .leave .stay

/-- What every save of a run leaves alone, a move of the run leaves alone. -/
theorem Move.leaves {β : Type} {q : τ → β} {stage stage' : Stage} (h : r.Move stage w stage' w')
    (hq : ∀ cp t, cp.threadId = r.threadId → cp.checkpointNs = r.checkpointNs →
      q (r.archive.save cp t).2 = q t) : q w'.archive = q w.archive := by
  have hsaves : ∀ {c : Cursor} {record : StepRecord} {w : RunWorld σ τ}
      {result : Except ArchiveError String} {t : τ}, r.Saves c record w result t →
      q t = q w.archive := by
    intro c record w result t hs
    have hsaved := hq (r.checkpointAt c record w.world) w.archive rfl rfl
    rwa [hs] at hsaved
  cases h with
  | begun log hs => exact hsaves hs
  | beginRefused log hs => exact hsaves hs
  | pausedAhead log hf hw hb hp hs => exact hsaves hs
  | pauseAheadRefused log hf hw hb hp hs => exact hsaves hs
  | stepRefused log ho hs => exact hsaves hs
  | routeFailed log ho hs => exact hsaves hs
  | settled log ho hs => exact hsaves hs
  | pausedBehind log log' ho hs hr hi hs' => exact (hsaves hs').trans (hsaves hs)
  | pauseBehindRefused log log' ho hs hr hi hs' => exact (hsaves hs').trans (hsaves hs)
  | _ => rfl

/-- A run leaves the chains of other threads and namespaces alone. -/
theorem Move.apart {stage stage' : Stage} (h : r.Move stage w stage' w')
    (hk : r.archive.Keeps links) {threadId checkpointNs : String}
    (hne : (r.threadId, r.checkpointNs) ≠ (threadId, checkpointNs)) :
    links w'.archive threadId checkpointNs = links w.archive threadId checkpointNs := by
  refine h.leaves (q := fun t => links t threadId checkpointNs) fun cp t hthread hns => ?_
  exact hk.apart cp t threadId checkpointNs (by rwa [hthread, hns])

end Runner

namespace EngineState

/-- The parent of the next checkpoint that the active run of a thread saves. -/
def tip? (s : EngineState σ τ) (threadId : String) : Option String :=
  (s.active.get? threadId).bind (·.stage.tip?)

/-- A run begins only on a thread that has no active run. -/
theorem spawn_eq_ok {s s' : EngineState σ τ} {threadId : String} {w : Workflow σ}
    {options : ThreadOptions} {start : RunStart} (h : s.spawn threadId w options start = .ok s') :
    s.active.get? threadId = none ∧ s'.archive = s.archive ∧
      s'.active = s.active.insert threadId ⟨options, w, .waiting start, false⟩ := by
  unfold spawn isActive at h
  rw [Table.contains_eq_isSome] at h
  cases ha : s.active.get? threadId with
  | some run =>
    rw [ha] at h
    cases h
  | none =>
    rw [ha] at h
    cases h
    exact ⟨rfl, rfl, rfl⟩

theorem spawn_tip? {s s' : EngineState σ τ} {threadId : String} {w : Workflow σ}
    {options : ThreadOptions} {start : RunStart} (h : s.spawn threadId w options start = .ok s') :
    s.tip? threadId = none ∧ s'.tip? threadId = start.origin?.map (·.id) := by
  obtain ⟨hidle, -, hactive⟩ := spawn_eq_ok h
  unfold tip?
  rw [hidle, hactive, Table.get?_insert_self]
  exact ⟨rfl, rfl⟩

end EngineState

namespace Engine

open ChainLink

variable (e : Engine σ τ) (links : τ → String → String → List ChainLink) (threadId : String)

/-- The chain of the thread in the namespace of the engine. -/
def chain (s : EngineState σ τ) : List ChainLink :=
  links s.archive threadId e.settings.checkpointNs

/-- A resume call that has looked up the latest checkpoint of its thread and has not gone on yet:
the checkpoint, and how many checkpoints the chain had by then. -/
structure Lookup where
  checkpoint : Checkpoint
  seen : Nat

/-- Where an engine can come to on a thread that is resumed by any number of calls, beginning with a
thread of which nothing is known: the resume calls that have looked up the latest checkpoint and not
gone on yet, and the checkpoints at which runs have been resumed too late, that is, when they were
not the latest ones. Between the two parts of a call anything else may go on. -/
inductive Interleaves : EngineState σ τ → List Lookup → List String → Prop
  | idle {s : EngineState σ τ} (ha : s.active.get? threadId = none)
      (hc : e.chain links threadId s = []) : Interleaves s [] []
  | looked {s : EngineState σ τ} {lookups : List Lookup} {late : List String} {cp : Checkpoint}
      (h : Interleaves s lookups late) (hl : e.latest s threadId = .ok cp) :
      Interleaves s (⟨cp, (e.chain links threadId s).length⟩ :: lookups) late
  | resumed {s s' : EngineState σ τ} {before after : List Lookup} {l : Lookup} {late : List String}
      {input : Option Json} (h : Interleaves s (before ++ l :: after) late)
      (hr : continueFrom s threadId l.checkpoint input = .ok s') :
      Interleaves s' (before ++ after) (lateness (e.chain links threadId s) l.checkpoint.id late)
  | refused {s : EngineState σ τ} {before after : List Lookup} {l : Lookup} {late : List String}
      (h : Interleaves s (before ++ l :: after) late) : Interleaves s (before ++ after) late
  | started {s s' : EngineState σ τ} {lookups : List Lookup} {late : List String}
      {graphId : String} {input : RunInput} (h : Interleaves s lookups late)
      (hs : start s graphId input = .ok (threadId, s')) : Interleaves s' lookups late
  | ticked {s : EngineState σ τ} {lookups : List Lookup} {late : List String}
      (h : Interleaves s lookups late) : Interleaves (e.tick threadId s).2 lookups late
  | elsewhere {s s' : EngineState σ τ} {lookups : List Lookup} {late : List String}
      (h : Interleaves s lookups late)
      (ha : (s'.active.get? threadId).map (·.stage) = (s.active.get? threadId).map (·.stage))
      (hc : e.chain links threadId s' = e.chain links threadId s) : Interleaves s' lookups late

variable {e links threadId} {s s' : EngineState σ τ}

/-- A thread without an active run makes no move. -/
theorem tick_idle (ha : s.active.get? threadId = none) : e.tick threadId s = (none, s) := by
  unfold tick
  rw [ha]

/-- A run that has ended is cleared away. -/
theorem tick_ended {run : ActiveRun σ} (ha : s.active.get? threadId = some run) {o : Outcome}
    (ho : run.stage.outcome? = some o) :
    e.tick threadId s = (some o, { s with active := s.active.erase threadId }) := by
  unfold tick
  rw [ha]
  dsimp only
  rw [Stage.eq_ended_of_outcome? ho]

/-- A run that has not ended makes a move. -/
theorem tick_active {run : ActiveRun σ} (ha : s.active.get? threadId = some run)
    (ho : run.stage.outcome? = none) :
    let p := (e.runner threadId run.workflow run.options).advance run.stage
      (s.runWorld threadId run.cancelled)
    e.tick threadId s = (none, { s.withRunWorld threadId p.2 with
      active := s.active.insert threadId
        { run with stage := p.1, cancelled := p.2.world.cancelled } }) := by
  unfold tick
  rw [ha]
  obtain ⟨options, w, stage, cancelled⟩ := run
  cases stage with
  | ended o => cases ho
  | _ => rfl

/-- What a move of a thread does: nothing if the thread has no active run, and clear the run away if
it has ended; otherwise the run makes a move. -/
theorem tick_cases (e : Engine σ τ) (threadId : String) (s : EngineState σ τ) :
    (s.active.get? threadId = none ∧ (e.tick threadId s).2 = s) ∨
    ((∃ run o, s.active.get? threadId = some run ∧ run.stage = .ended o) ∧
      (e.tick threadId s).2 = { s with active := s.active.erase threadId }) ∨
    ∃ run stage w, s.active.get? threadId = some run ∧
      (e.runner threadId run.workflow run.options).Move run.stage
        (s.runWorld threadId run.cancelled) stage w ∧
      (e.tick threadId s).2 = { s.withRunWorld threadId w with
        active := s.active.insert threadId
          { run with stage := stage, cancelled := w.world.cancelled } } := by
  cases ha : s.active.get? threadId with
  | none => exact .inl ⟨rfl, congrArg Prod.snd (tick_idle ha)⟩
  | some run =>
    cases ho : run.stage.outcome? with
    | some o =>
      exact .inr (.inl ⟨⟨run, o, rfl, Stage.eq_ended_of_outcome? ho⟩,
        congrArg Prod.snd (tick_ended ha ho)⟩)
    | none =>
      exact .inr (.inr ⟨run, _, _, rfl, Runner.advance_move _ _ _,
        congrArg Prod.snd (tick_active ha ho)⟩)

/-- A move of the active run of a thread puts checkpoints at the end of its chain. -/
theorem tick_grows (hk : e.archive.Keeps links) (s : EngineState σ τ) :
    Grows (e.chain links threadId s) (s.tip? threadId)
      (e.chain links threadId (e.tick threadId s).2) ((e.tick threadId s).2.tip? threadId) := by
  unfold chain EngineState.tip?
  obtain ⟨-, htick⟩ | ⟨-, htick⟩ | ⟨run, stage, w, ha, hmove, htick⟩ := tick_cases e threadId s
  · rw [htick]
    exact .stay
  · rw [htick, Table.get?_erase_self]
    exact .leave .stay
  · rw [htick, ha, Table.get?_insert_self]
    exact hmove.grows hk

/-- A run that has been resumed begins at the given checkpoint, on a thread that was not busy. -/
theorem continueFrom_tip? {cp : Checkpoint} {input : Option Json}
    (h : continueFrom s threadId cp input = .ok s') :
    s.tip? threadId = none ∧ s'.tip? threadId = some cp.id ∧ s'.archive = s.archive := by
  unfold continueFrom at h
  dsimp only at h
  cases hw : s.workflow cp.record.graphId with
  | error err =>
    rw [hw] at h
    cases h
  | ok w =>
    rw [hw] at h
    obtain ⟨hidle, htip⟩ := EngineState.spawn_tip? h
    exact ⟨hidle, htip, (EngineState.spawn_eq_ok h).2.1⟩

/-- A fresh run begins with nothing behind it, on a thread that was not busy. -/
theorem start_tip? {graphId : String} {input : RunInput}
    (h : start s graphId input = .ok (threadId, s')) :
    s.tip? threadId = none ∧ s'.tip? threadId = none ∧ s'.archive = s.archive := by
  unfold start at h
  cases hw : s.workflow graphId with
  | error err =>
    rw [hw] at h
    cases h
  | ok w =>
    rw [hw] at h
    dsimp only [bind, Except.bind] at h
    split at h
    · cases h
    · rename_i s₁ hspawn
      cases h
      obtain ⟨hidle, htip⟩ := EngineState.spawn_tip? hspawn
      exact ⟨hidle, htip, (EngineState.spawn_eq_ok hspawn).2.1⟩

/-- The checkpoint that is looked up is the latest one of the chain. -/
theorem latest_eq_ok (hk : e.archive.Keeps links) {cp : Checkpoint}
    (h : e.latest s threadId = .ok cp) : latest? (e.chain links threadId s) = some cp.id := by
  unfold latest at h
  split at h
  · cases h
  · cases h
  · rename_i hload
    cases h
    exact hk.latest _ _ _ _ hload

/-- A checkpoint that has been looked up was the latest one of the chain as it was then. -/
def Lookup.Saw (l : Lookup) (chain : List ChainLink) : Prop :=
  ∃ before, before <+: chain ∧ before.length = l.seen ∧ latest? before = some l.checkpoint.id

theorem Lookup.Saw.mem_ids {l : Lookup} {chain : List ChainLink} (h : l.Saw chain) :
    l.checkpoint.id ∈ ids chain := by
  obtain ⟨before, hstart, -, hlatest⟩ := h
  obtain ⟨link, hlink, hid⟩ := Option.map_eq_some_iff.mp hlatest
  rw [← hid]
  exact List.mem_map_of_mem (hstart.subset (List.mem_of_getLast? hlink))

/-- It still is as long as nothing has been saved since. -/
theorem Lookup.Saw.latest {l : Lookup} {chain : List ChainLink} (h : l.Saw chain)
    (hseen : chain.length = l.seen) : latest? chain = some l.checkpoint.id := by
  obtain ⟨before, hstart, hlength, hlatest⟩ := h
  rwa [← hstart.eq_of_length (hlength.trans hseen.symm)]

theorem Lookup.Saw.mono {l : Lookup} {chain chain' : List ChainLink} (h : l.Saw chain)
    (hchain : chain <+: chain') : l.Saw chain' := by
  obtain ⟨before, hstart, hseen⟩ := h
  exact ⟨before, hstart.trans hchain, hseen⟩

/-- Wherever the calls and the runs have come, the chain has forked only where a call was late, and
every call in between its two parts has seen what was the latest checkpoint then. -/
theorem Interleaves.chained (hk : e.archive.Keeps links) {lookups : List Lookup}
    {late : List String} (h : e.Interleaves links threadId s lookups late) :
    Chained (e.chain links threadId s) (s.tip? threadId) late ∧
      ∀ l ∈ lookups, l.Saw (e.chain links threadId s) := by
  induction h with
  | idle ha hc =>
    unfold EngineState.tip?
    rw [ha, hc]
    exact ⟨.nil, by simp⟩
  | looked _ hl ih =>
    refine ⟨ih.1, ?_⟩
    intro l hmem
    obtain rfl | hmem := List.mem_cons.mp hmem
    · exact ⟨_, List.prefix_refl _, rfl, latest_eq_ok hk hl⟩
    · exact ih.2 l hmem
  | @resumed s s' before after l late input _ hr ih =>
    obtain ⟨hidle, htip, harchive⟩ := continueFrom_tip? hr
    have hchain : e.chain links threadId s' = e.chain links threadId s := by
      unfold chain
      rw [harchive]
    rw [hchain, htip]
    rw [hidle] at ih
    refine ⟨ih.1.resume (ih.2 l (by simp)).mem_ids, fun l' hl' => ih.2 l' ?_⟩
    obtain hl' | hl' := List.mem_append.mp hl'
    · exact List.mem_append_left _ hl'
    · exact List.mem_append_right _ (List.mem_cons_of_mem _ hl')
  | refused _ ih =>
    refine ⟨ih.1, fun l' hl' => ih.2 l' ?_⟩
    obtain hl' | hl' := List.mem_append.mp hl'
    · exact List.mem_append_left _ hl'
    · exact List.mem_append_right _ (List.mem_cons_of_mem _ hl')
  | @started s s' _ _ _ _ _ hs ih =>
    obtain ⟨hidle, htip, harchive⟩ := start_tip? hs
    have hchain : e.chain links threadId s' = e.chain links threadId s := by
      unfold chain
      rw [harchive]
    rw [hchain, htip]
    rwa [hidle] at ih
  | @ticked s _ _ _ ih =>
    have hgrows : Grows (e.chain links threadId s) _ (e.chain links threadId _) _ :=
      tick_grows hk s
    exact ⟨ih.1.grown hgrows, fun l hl => (ih.2 l hl).mono hgrows.prefix_of⟩
  | @elsewhere s s' _ _ _ ha hc ih =>
    have htip : s'.tip? threadId = s.tip? threadId := by
      unfold EngineState.tip?
      cases hold : s.active.get? threadId with
      | none =>
        rw [hold] at ha
        rw [Option.map_eq_none_iff.mp ha]
      | some run =>
        rw [hold] at ha
        obtain ⟨run', hrun', hstage⟩ := Option.map_eq_some_iff.mp ha
        rw [hrun', Option.bind_some, Option.bind_some, hstage]
    rwa [hc, htip]

/-! ## What goes on elsewhere -/

/-- A thread does not notice the moves of other threads. -/
theorem Interleaves.tick_other (hk : e.archive.Keeps links) {lookups : List Lookup}
    {late : List String} (h : e.Interleaves links threadId s lookups late) {other : String}
    (hne : threadId ≠ other) : e.Interleaves links threadId (e.tick other s).2 lookups late := by
  obtain ⟨-, htick⟩ | ⟨-, htick⟩ | ⟨run, stage, w, -, hmove, htick⟩ := tick_cases e other s
  · rwa [htick]
  · rw [htick]
    exact h.elsewhere (by rw [Table.get?_erase_of_ne hne]) rfl
  · rw [htick]
    refine h.elsewhere (by rw [Table.get?_insert_of_ne _ hne]) ?_
    exact hmove.apart hk fun heq => hne (Prod.mk.inj heq).1.symm

/-- A thread does not notice the runs that begin on other threads. -/
theorem Interleaves.spawn_other {lookups : List Lookup} {late : List String}
    (h : e.Interleaves links threadId s lookups late) {other : String} (hne : threadId ≠ other)
    {w : Workflow σ} {options : ThreadOptions} {start : RunStart}
    (hs : s.spawn other w options start = .ok s') :
    e.Interleaves links threadId s' lookups late := by
  obtain ⟨-, harchive, hactive⟩ := EngineState.spawn_eq_ok hs
  refine h.elsewhere (by rw [hactive, Table.get?_insert_of_ne _ hne]) ?_
  unfold chain
  rw [harchive]

/-- A thread does not notice when a run is cancelled, even its own. -/
theorem Interleaves.cancel {lookups : List Lookup} {late : List String}
    (h : e.Interleaves links threadId s lookups late) (other : String) :
    e.Interleaves links threadId (s.cancel other).2 lookups late := by
  unfold EngineState.cancel
  cases ha : s.active.get? other with
  | none => exact h
  | some run =>
    refine h.elsewhere ?_ rfl
    by_cases hne : threadId = other
    · subst hne
      rw [Table.get?_insert_self, ha]
      rfl
    · rw [Table.get?_insert_of_ne _ hne]

/-- Moves of the active run of the thread, one after the other. -/
theorem Interleaves.ticks {lookups : List Lookup} {late : List String}
    (h : e.Interleaves links threadId s lookups late) (n : Nat) :
    e.Interleaves links threadId (e.ticks threadId n s).2 lookups late := by
  induction n generalizing s with
  | zero => exact h
  | succ n ih =>
    unfold Engine.ticks
    obtain ⟨o, s', htick⟩ : ∃ o s', e.tick threadId s = (o, s') := ⟨_, _, rfl⟩
    have hmoved := h.ticked
    rw [htick] at hmoved ⊢
    cases o with
    | none => exact ih hmoved
    | some o => exact hmoved

theorem Interleaves.finish {lookups : List Lookup} {late : List String}
    (h : e.Interleaves links threadId s lookups late) :
    e.Interleaves links threadId (e.finish threadId s).2 lookups late := h.ticks _

end Engine

/-- The history of a thread forks only where a resume call is late: every checkpoint has at most one
child, and one more for each run that was resumed at it when it was not the latest one any more. A
call is not late if nothing has been saved on the thread since it looked up the latest
checkpoint. -/
theorem history_forks_late {e : Engine σ τ} {links : τ → String → String → List ChainLink}
    (hk : e.archive.Keeps links) {threadId : String} {s : EngineState σ τ}
    {lookups : List Engine.Lookup} {late : List String}
    (h : e.Interleaves links threadId s lookups late) :
    (∀ id, ChainLink.children (e.chain links threadId s) id ≤ late.count id + 1) ∧
      ∀ l ∈ lookups, (e.chain links threadId s).length = l.seen →
        ChainLink.latest? (e.chain links threadId s) = some l.checkpoint.id := by
  obtain ⟨hchained, hsaw⟩ := h.chained hk
  refine ⟨fun id => ?_, fun l hl => (hsaw l hl).latest⟩
  exact Nat.le_trans (Nat.le_add_right _ _) (hchained.children_le id)

/-! ## Two resume calls at once -/

/-- A result, or else what stands for it where there is none. -/
def okOr {ε α : Type} (absent : α) : Except ε α → α
  | .ok a => a
  | .error _ => absent

theorem eq_ok_okOr {ε α : Type} {x : Except ε α} (absent : α) (h : x.isOk = true) :
    x = .ok (okOr absent x) := by
  cases x with
  | ok a => rfl
  | error e => cases h

/-- An engine that keeps its checkpoints in memory. -/
def forkEngine : Engine Unit Chains := ⟨⟨5, none, ""⟩, .memory⟩

/-- The engine with the workflow of the uneven branches, before anything has been started. -/
def forkIdle : EngineState Unit Chains := (EngineState.start () []).register "uneven" unevenWorkflow

/-- A run that pauses in front of the node `c` is started. -/
def forkStart : String × EngineState Unit Chains :=
  okOr ("", forkIdle) (Engine.start forkIdle "uneven" ⟨.null, .null, some "t", ["c"], []⟩)

/-- The run has paused. -/
def forkPaused : EngineState Unit Chains := (forkEngine.finish "t" forkStart.2).2

/-- The checkpoint of the pause, which two resume calls look up. -/
def forkMark : Checkpoint := okOr unevenMark (forkEngine.latest forkPaused "t")

/-- What the two calls have seen. -/
def forkLookup : Engine.Lookup := ⟨forkMark, 4⟩

/-- A run begins at the checkpoint of the pause. -/
def forkResumed (s : EngineState Unit Chains) : EngineState Unit Chains :=
  okOr s (Engine.continueFrom s "t" forkLookup.checkpoint none)

/-- The first call has gone on, and its run has come to its end. -/
def forkOnce : EngineState Unit Chains := (forkEngine.finish "t" (forkResumed forkPaused)).2

/-- The second call has gone on as well. -/
def forkTwice : EngineState Unit Chains := (forkEngine.finish "t" (forkResumed forkOnce)).2

theorem forkPaused_interleaves :
    forkEngine.Interleaves Chains.links "t" forkPaused [forkLookup, forkLookup] [] := by
  have hstart : Engine.start forkIdle "uneven" ⟨.null, .null, some "t", ["c"], []⟩ =
      .ok forkStart := eq_ok_okOr ("", forkIdle) (by decide +kernel)
  have hthread : forkStart = ("t", forkStart.2) := Prod.ext (by decide +kernel) rfl
  rw [hthread] at hstart
  have hlatest : forkEngine.latest forkPaused "t" = .ok forkMark :=
    eq_ok_okOr unevenMark (by decide +kernel)
  have hlength : (forkEngine.chain Chains.links "t" forkPaused).length = 4 := by decide +kernel
  have hidle : forkEngine.Interleaves Chains.links "t" forkIdle [] [] :=
    .idle (Option.isNone_iff_eq_none.mp (by decide +kernel)) (by decide +kernel)
  have hpaused : forkEngine.Interleaves Chains.links "t" forkPaused [] [] :=
    (hidle.started hstart).finish
  have hlooked := (hpaused.looked hlatest).looked hlatest
  rwa [hlength] at hlooked

theorem continueFrom_forkPaused :
    Engine.continueFrom forkPaused "t" forkLookup.checkpoint none = .ok (forkResumed forkPaused) :=
  eq_ok_okOr forkPaused (by decide +kernel)

theorem continueFrom_forkOnce :
    Engine.continueFrom forkOnce "t" forkLookup.checkpoint none = .ok (forkResumed forkOnce) :=
  eq_ok_okOr forkOnce (by decide +kernel)

theorem forkOnce_interleaves :
    forkEngine.Interleaves Chains.links "t" forkOnce [forkLookup] [] := by
  have hlooked : forkEngine.Interleaves Chains.links "t" forkPaused
      ([] ++ forkLookup :: [forkLookup]) [] := forkPaused_interleaves
  have hlatest : ChainLink.lateness (forkEngine.chain Chains.links "t" forkPaused)
      forkLookup.checkpoint.id [] = [] := by decide +kernel
  have hresumed := hlooked.resumed continueFrom_forkPaused
  rw [hlatest] at hresumed
  exact hresumed.finish

theorem forkTwice_interleaves :
    forkEngine.Interleaves Chains.links "t" forkTwice [] [forkLookup.checkpoint.id] := by
  have hlooked : forkEngine.Interleaves Chains.links "t" forkOnce ([] ++ forkLookup :: []) [] :=
    forkOnce_interleaves
  have hlate : ChainLink.lateness (forkEngine.chain Chains.links "t" forkOnce)
      forkLookup.checkpoint.id [] = [forkLookup.checkpoint.id] := by decide +kernel
  have hresumed := hlooked.resumed continueFrom_forkOnce
  rw [hlate] at hresumed
  exact hresumed.finish

theorem history_forks_late_uneven :
    Archive.memory.Keeps Chains.links ∧
      forkEngine.Interleaves Chains.links "t" forkPaused [forkLookup, forkLookup] [] ∧
      (∀ id, ChainLink.children (forkEngine.chain Chains.links "t" forkPaused) id ≤ 1) ∧
      ChainLink.latest? (forkEngine.chain Chains.links "t" forkPaused) =
        some forkLookup.checkpoint.id := by
  obtain ⟨hchildren, hlatest⟩ :=
    history_forks_late Archive.memory_keeps forkPaused_interleaves
  refine ⟨Archive.memory_keeps, forkPaused_interleaves, hchildren, ?_⟩
  exact hlatest forkLookup (by simp) (by decide +kernel)

/-- A resume call that is late forks the chain: two calls look up the checkpoint of the same pause.
The run of the first one has come to its end when the second one goes on, which begins a run at the
checkpoint of the pause although it is not the latest one any more. In the end this checkpoint has
two children, and the node in front of which the first run had paused has run in both of them. -/
theorem history_forked :
    forkEngine.Interleaves Chains.links "t" forkPaused [forkLookup, forkLookup] [] ∧
      forkEngine.Interleaves Chains.links "t" forkOnce [forkLookup] [] ∧
      ChainLink.latest? (forkEngine.chain Chains.links "t" forkOnce) ≠
        some forkLookup.checkpoint.id ∧
      Engine.continueFrom forkOnce "t" forkLookup.checkpoint none = .ok (forkResumed forkOnce) ∧
      forkEngine.Interleaves Chains.links "t" forkTwice [] [forkLookup.checkpoint.id] ∧
      ChainLink.children (forkEngine.chain Chains.links "t" forkTwice)
        forkLookup.checkpoint.id = 2 ∧
      ((forkTwice.archive.chain "t" "").filter
        (·.parentId == some forkLookup.checkpoint.id)).map (·.record.ranNodes) = [["c"], ["c"]] :=
  ⟨forkPaused_interleaves, forkOnce_interleaves, by decide +kernel, continueFrom_forkOnce,
    forkTwice_interleaves, by decide +kernel, by decide +kernel⟩

end Workgraph
