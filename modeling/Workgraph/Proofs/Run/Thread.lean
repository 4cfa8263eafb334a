import Workgraph.Proofs.Run.Recording
import Workgraph.Proofs.Run.Travel
/-!
# Threads

Runs that follow one another on a thread, each resumed at the last checkpoint of those before. All
of them together travel the way of a single run: the steps on record are steps of one travel, and
the last checkpoint marks the position where the travel has come to.

## Main definitions

- `completedSteps`: what is left of the completed steps on record
- `Workflow.Thread`: how the next run on a thread begins
- `Workflow.OnTrack`: checkpoints that record a travel and mark its end
- `Workflow.Continues`: where a move takes a run

## Main statements

- `Runner.Move.onTrack`: every move stays on track
- `Workflow.Thread.onTrack`: every thread stays on track
-/

namespace Workgraph

variable {σ τ : Type}

/-- What is left of the completed steps on record. -/
def completedSteps (cps : List Checkpoint) : List Footprint :=
  (cps.filter fun cp => cp.record.source = .step).map fun cp => (cp.record.ranNodes, cp.state)

theorem completedSteps_append (cps more : List Checkpoint) :
    completedSteps (cps ++ more) = completedSteps cps ++ completedSteps more := by
  unfold completedSteps
  rw [List.filter_append, List.map_append]

theorem completedSteps_of_step {cp : Checkpoint} (h : cp.record.source = .step) :
    completedSteps [cp] = [(cp.record.ranNodes, cp.state)] := by
  simp [completedSteps, h]

theorem completedSteps_of_ne {cp : Checkpoint} (h : cp.record.source ≠ .step) :
    completedSteps [cp] = [] := by
  simp [completedSteps, h]

namespace Workflow

variable {w : Workflow σ} {f : Behaviour} {origin p : Position} {cps : List Checkpoint}
  {cp : Checkpoint} {target target' : Except RunError Position}

/-- The checkpoints record a travel, and the last one marks where it has come to. -/
structure OnTrack (w : Workflow σ) (f : Behaviour) (origin : Position) (cps : List Checkpoint)
    (target : Except RunError Position) : Prop where
  travels : w.Travels f origin (completedSteps cps) target
  marks : ∀ cp, cps.getLast? = some cp → w.Marks cp target

namespace OnTrack

theorem unique (h : w.OnTrack f origin cps target) (h' : w.OnTrack f origin cps target') :
    target = target' := (h.travels.unique h'.travels rfl).2

/-- A checkpoint that stands for no step leaves the travel where it is. -/
theorem rest (h : w.OnTrack f origin cps target) (hcp : cp.record.source ≠ .step)
    (hm : w.Marks cp target) : w.OnTrack f origin (cps ++ [cp]) target := by
  constructor
  · rw [completedSteps_append, completedSteps_of_ne hcp, List.append_nil]
    exact h.travels
  · intro last hlast
    rw [List.getLast?_concat, Option.some.injEq] at hlast
    rwa [← hlast]

/-- The checkpoint of a step takes the travel one step further. -/
theorem step (h : w.OnTrack f origin cps (.ok p)) (hcp : cp.record.source = .step)
    (hl : w.leap f p = some ((cp.record.ranNodes, cp.state), target)) (hm : w.Marks cp target) :
    w.OnTrack f origin (cps ++ [cp]) target := by
  constructor
  · rw [completedSteps_append, completedSteps_of_step hcp]
    exact .step h.travels hl
  · intro last hlast
    rw [List.getLast?_concat, Option.some.injEq] at hlast
    rwa [← hlast]

/-- A position on track has a value for every channel. -/
theorem store (h : w.OnTrack f origin cps (.ok p)) (hne : cps ≠ []) :
    p.store.schema = w.schema ∧ p.store.Whole := by
  obtain ⟨cp, hcp⟩ := Option.isSome_iff_exists.mp (List.getLast?_isSome.mpr hne)
  exact (h.marks cp hcp).store

end OnTrack

/-- Where a move takes a run that has begun: it stands where it stood, or else the move puts a step
on record, and the run stands behind it. -/
inductive Continues (w : Workflow σ) (before after : List Checkpoint)
    (target : Except RunError Position) : Stage → Prop
  | outside {stage : Stage} (hc : stage.cursor? = none) : Continues w before after target stage
  | kept {stage : Stage} {c : Cursor} (hc : stage.cursor? = some c)
      (hs : completedSteps after = completedSteps before) (ht : target = .ok c.position) :
      Continues w before after target stage
  | stepped {c : Cursor} {outputs : List NodeOutput} {footprint : Footprint}
      (hl : w.land c.position outputs = some (footprint, target))
      (hs : completedSteps after = completedSteps before ++ [footprint]) :
      Continues w before after target (.accepted c outputs)

namespace Continues

variable {before after : List Checkpoint} {c : Cursor}

theorem of_ready (h : w.Continues before after target (.ready c)) :
    completedSteps after = completedSteps before ∧ target = .ok c.position := by
  cases h with
  | outside hc => cases hc
  | kept hc hs ht =>
    cases hc
    exact ⟨hs, ht⟩

theorem of_running {arrivals : Arrivals}
    (h : w.Continues before after target (.running c arrivals)) :
    completedSteps after = completedSteps before ∧ target = .ok c.position := by
  cases h with
  | outside hc => cases hc
  | kept hc hs ht =>
    cases hc
    exact ⟨hs, ht⟩

theorem rest {stage : Stage} (h : w.Continues before after target stage)
    (hcp : cp.record.source ≠ .step) : w.Continues before (after ++ [cp]) target stage := by
  have hsame : completedSteps (after ++ [cp]) = completedSteps after := by
    rw [completedSteps_append, completedSteps_of_ne hcp, List.append_nil]
  cases h with
  | outside hc => exact .outside hc
  | kept hc hs ht => exact .kept hc (hsame.trans hs) ht
  | stepped hl hs => exact .stepped hl (hsame.trans hs)

end Continues

/-- How the next run on a thread begins, and the checkpoints of those before it: the first run
begins afresh, and any other one is resumed without further input at the last checkpoint, wherever
the one before it has stopped. -/
inductive Thread (w : Workflow σ) (input environment : Json) : List Checkpoint → RunStart → Prop
  | first : Thread w input environment [] (.fresh input environment)
  | next {τ : Type} {r : Runner σ τ} {cps : List Checkpoint} {start : RunStart} {stage : Stage}
      {world : RunWorld σ (τ × List Checkpoint)} {cp : Checkpoint} (hr : r.workflow = w)
      (h : Thread w input environment cps start) (hreach : r.Reaches start stage world)
      (hcp : (cps ++ world.saved).getLast? = some cp) :
      Thread w input environment (cps ++ world.saved) (.resume cp none)

end Workflow

/-- Where a run stands on a thread that has come to a position: it begins there, stands in front of
a step or in it, or has ended there. -/
def Stage.StandsAt (input environment : Json) (cps : List Checkpoint)
    (target : Except RunError Position) : Stage → Prop
  | .waiting (.fresh input' environment') =>
    input' = input ∧ environment' = environment ∧ cps = []
  | .waiting (.resume cp more) => more = none ∧ cps.getLast? = some cp
  | .ready c => cps ≠ [] ∧ target = .ok c.position
  | .running c _ | .accepted c _ => cps ≠ [] ∧ target = .ok c.position ∧ c.frontier ≠ []
  | .ended o =>
    (o.status = .completed → ∃ p, target = .ok p ∧ p.frontier = [] ∧ p.store.state = o.state) ∧
      ∀ e, target = .error e → o.failure = some (.ofError e)

/-- A run that has ended anywhere else than at its completion stands where the thread has come to.
-/
theorem Stage.standsAt_stopped {input environment : Json} {cps : List Checkpoint} {p : Position}
    {o : Outcome} (h : o.status ≠ .completed) :
    (Stage.ended o).StandsAt input environment cps (.ok p) :=
  ⟨fun ho => absurd ho h, nofun⟩

namespace Runner

variable {r : Runner σ τ} {f : Behaviour} {origin : Position} {cps : List Checkpoint}
  {c : Cursor} {outputs : List NodeOutput} {store : Store} {cp : Checkpoint}

theorem exists_saved {record : StepRecord} {world : RunWorld σ (τ × List Checkpoint)} {id : String}
    {t : τ × List Checkpoint} (h : r.recording.Saves c record world (.ok id) t) :
    ∃ cp, t.2 = world.saved ++ [cp] ∧ cp.state = c.store.state ∧ cp.record = record :=
  ⟨_, saved_of_saves h, rfl, rfl⟩

/-- The checkpoint of a step marks the position behind it. -/
theorem marks_stepRecord (hstore : c.store.schema = r.workflow.schema ∧ c.store.Whole)
    (hne : c.frontier ≠ [])
    (ho : r.workflow.writeOutputs c.store (c.frontier.zip outputs) = (store, none))
    (hs : cp.state = store.state) {source : CheckpointSource} {i : Option Interrupt}
    (hr : cp.record = { r.stepRecord c outputs with source := source, interrupt := i }) :
    r.workflow.Marks cp (r.workflow.onward store c.frontier
      (handoffsOf (c.frontier.zip outputs)) c.deferred (c.step + 1)) := by
  have hm := Workflow.marks_step
    ((Workflow.writeOutputs_schema ho).trans hstore.1)
    (Workflow.writeOutputs_whole ho hstore.2) hs (by rw [hr]; rfl) (by rw [hr]; exact hne)
  rw [hr] at hm
  exact hm

/-- A step that has been put on record takes the travel to the position behind it. -/
theorem Gave.onTrack (h : r.Gave c outputs) (hf : r.workflow.Behaves f) (hcps : cps ≠ [])
    (hne : c.frontier ≠ []) (ht : r.workflow.OnTrack f origin cps (.ok c.position))
    (ho : r.workflow.writeOutputs c.store (c.frontier.zip outputs) = (store, none))
    (hs : cp.state = store.state) (hr : cp.record = r.stepRecord c outputs)
    (before : List Checkpoint) {target : Except RunError Position}
    (hto : r.workflow.onward store c.frontier (handoffsOf (c.frontier.zip outputs)) c.deferred
      (c.step + 1) = target) :
    r.workflow.OnTrack f origin (cps ++ [cp]) target ∧
      r.workflow.Continues before (before ++ [cp]) target (.accepted c outputs) := by
  have hstep : cp.record.source = .step := by rw [hr]; rfl
  have hland : r.workflow.land c.position outputs =
      some ((cp.record.ranNodes, cp.state), target) := by
    rw [Workflow.land_eq_some_iff, hs, hr, ← hto]
    exact ⟨store, ho, rfl⟩
  constructor
  · refine ht.step hstep ?_ ?_
    · rw [h.leap_eq hf hne, hland]
    · rw [← hto]
      exact marks_stepRecord (ht.store hcps) hne ho hs hr
  · refine .stepped hland ?_
    rw [completedSteps_append, completedSteps_of_step hstep]

section Moves

variable {input environment : Json} {stage stage' : Stage}
  {world world' : RunWorld σ (τ × List Checkpoint)}

/-- Every move stays on track. -/
theorem Move.onTrack (h : r.recording.Move stage world stage' world')
    (hf : r.workflow.Behaves f) (hp : r.recording.Performed stage)
    {target : Except RunError Position}
    (ht : r.workflow.OnTrack f (r.workflow.outset input environment) (cps ++ world.saved) target)
    (hs : stage.StandsAt input environment (cps ++ world.saved) target) :
    ∃ target', r.workflow.OnTrack f (r.workflow.outset input environment) (cps ++ world'.saved)
        target' ∧
      stage'.StandsAt input environment (cps ++ world'.saved) target' ∧
      r.workflow.Continues world.saved world'.saved target' stage := by
  cases h with
  | begun log hsaved =>
    obtain ⟨rfl, rfl, hnil⟩ := hs
    obtain ⟨cp, hcp, hstate, hrecord⟩ := exists_saved hsaved
    rw [hnil] at ht
    cases ht.unique ⟨.start, by simp⟩
    have ht' := ht.rest (by simp [hrecord, StepRecord.blank]) (Workflow.marks_first hstate hrecord)
    rw [RunWorld.saved_turn, hcp, ← List.append_assoc, hnil]
    exact ⟨_, ht', ⟨by simp, rfl⟩, .outside rfl⟩
  | beginRefused log hsaved =>
    obtain ⟨rfl, rfl, hnil⟩ := hs
    rw [hnil] at ht
    cases ht.unique ⟨.start, by simp⟩
    rw [RunWorld.saved_turn, saved_of_refuses hsaved, hnil]
    exact ⟨_, ht, Stage.standsAt_stopped nofun, .outside rfl⟩
  | @resumed _ cp more c log hc =>
    obtain ⟨rfl, hlast⟩ := hs
    -- Nothing is saved here. The last checkpoint is the one that is resumed, and it marks the
    -- target.
    have hresumes := (ht.marks cp hlast).resumes _ r.recording rfl
    rw [hc] at hresumes
    refine ⟨target, ht, ⟨?_, hresumes.symm⟩, .outside rfl⟩
    intro hnil
    rw [show cps ++ world.saved = [] from hnil] at hlast
    cases hlast
  | @resumeFailed _ cp more e log he =>
    obtain ⟨rfl, hlast⟩ := hs
    have hresumes := (ht.marks cp hlast).resumes _ r.recording rfl
    rw [he] at hresumes
    refine ⟨target, ht, ⟨(nomatch ·), ?_⟩, .outside rfl⟩
    rintro e' rfl
    cases hresumes
    rfl
  | @completed _ c log hfrontier =>
    obtain ⟨-, rfl⟩ := hs
    exact ⟨_, ht, ⟨fun _ => ⟨c.position, rfl, hfrontier, rfl⟩, fun _ => (nomatch ·)⟩,
      .kept rfl rfl rfl⟩
  | pausedAhead log hfrontier hw hb hpause hsaved =>
    obtain ⟨hne, rfl⟩ := hs
    obtain ⟨hschema, hwhole⟩ := ht.store hne
    obtain ⟨cp, hcp, hstate, hrecord⟩ := exists_saved hsaved
    have hsource : cp.record.source ≠ .step := by simp [hrecord, pendingRecord]
    have ht' := ht.rest hsource (Workflow.marks_pending hschema hwhole hfrontier hstate
      (by rw [hrecord]; rfl) (by rw [hrecord]; rfl) (by rw [hrecord]; rfl))
    rw [RunWorld.saved_turn, hcp, ← List.append_assoc]
    refine ⟨_, ht', Stage.standsAt_stopped nofun, .kept rfl ?_ rfl⟩
    rw [completedSteps_append, completedSteps_of_ne hsource, List.append_nil]
  | pauseAheadRefused log hfrontier hw hb hpause hsaved =>
    obtain ⟨-, rfl⟩ := hs
    rw [RunWorld.saved_turn, saved_of_refuses hsaved]
    exact ⟨_, ht, Stage.standsAt_stopped nofun, .kept rfl rfl rfl⟩
  | canceled log hfrontier hw =>
    obtain ⟨-, rfl⟩ := hs
    exact ⟨_, ht, Stage.standsAt_stopped nofun, .kept rfl rfl rfl⟩
  | exhausted log hfrontier hw hb =>
    obtain ⟨-, rfl⟩ := hs
    exact ⟨_, ht, Stage.standsAt_stopped nofun, .kept rfl rfl rfl⟩
  | strayNode log hw hb hpause hk hn =>
    obtain ⟨-, rfl⟩ := hs
    exact ⟨_, ht, Stage.standsAt_stopped nofun, .kept rfl rfl rfl⟩
  | dispatched log log' hfrontier hw hb hpause hk ha =>
    obtain ⟨hne, rfl⟩ := hs
    exact ⟨_, ht, ⟨hne, rfl, hfrontier⟩, .kept rfl rfl rfl⟩
  | dropped log hw =>
    obtain ⟨-, rfl, -⟩ := hs
    exact ⟨_, ht, Stage.standsAt_stopped nofun, .kept rfl rfl rfl⟩
  | nodeFailed log hw hb =>
    obtain ⟨-, rfl, -⟩ := hs
    exact ⟨_, ht, Stage.standsAt_stopped nofun, .kept rfl rfl rfl⟩
  | accepted hw hb =>
    obtain ⟨hne, rfl, hfrontier⟩ := hs
    exact ⟨_, ht, ⟨hne, rfl, hfrontier⟩, .kept rfl rfl rfl⟩
  | writeFailed log ho =>
    obtain ⟨-, rfl, -⟩ := hs
    exact ⟨_, ht, Stage.standsAt_stopped nofun, .kept rfl rfl rfl⟩
  | stepRefused log ho hsaved =>
    obtain ⟨-, rfl, -⟩ := hs
    rw [RunWorld.saved_turn, saved_of_refuses hsaved]
    exact ⟨_, ht, Stage.standsAt_stopped nofun, .kept rfl rfl rfl⟩
  | @routeFailed _ c outputs store id t e log ho hsaved hr =>
    obtain ⟨hne, rfl, hfrontier⟩ := hs
    obtain ⟨cp, hcp, hstate, hrecord⟩ := exists_saved hsaved
    -- The step is complete although it leads nowhere, and a resumed run fails in the same way.
    obtain ⟨ht', hto⟩ := Gave.onTrack hp hf hne hfrontier ht ho hstate hrecord world.saved
      (Workflow.onward_error hr _ _)
    rw [RunWorld.saved_turn, hcp, ← List.append_assoc]
    refine ⟨_, ht', ⟨(nomatch ·), ?_⟩, hto⟩
    rintro e' he
    cases he
    rfl
  | @settled _ c outputs store id t routed log ho hsaved hr hi =>
    obtain ⟨hne, rfl, hfrontier⟩ := hs
    obtain ⟨cp, hcp, hstate, hrecord⟩ := exists_saved hsaved
    obtain ⟨ht', hto⟩ := Gave.onTrack hp hf hne hfrontier ht ho hstate hrecord world.saved
      (Workflow.onward_ok hr _ _)
    rw [RunWorld.saved_turn, hcp, ← List.append_assoc]
    exact ⟨_, ht', ⟨by simp, rfl⟩, hto⟩
  | @pausedBehind _ c outputs store id id' t t' routed i log log' ho hsaved hr hi hsaved' =>
    obtain ⟨hne, rfl, hfrontier⟩ := hs
    obtain ⟨cp, hcp, hstate, hrecord⟩ := exists_saved hsaved
    obtain ⟨cp', hcp', hstate', hrecord'⟩ := exists_saved hsaved'
    obtain ⟨ht', hto⟩ := Gave.onTrack hp hf hne hfrontier ht ho hstate hrecord world.saved
      (Workflow.onward_ok hr _ _)
    -- The pause adds a checkpoint of its own, which marks the same position.
    have hsource : cp'.record.source ≠ .step := by simp [hrecord', pausedRecord]
    have hm := marks_stepRecord (ht.store hne) hfrontier ho hstate' hrecord'
    have ht'' := ht'.rest hsource (Workflow.onward_ok hr _ _ ▸ hm)
    rw [RunWorld.saved_turn, hcp', RunWorld.saved_turn, hcp, ← List.append_assoc,
      ← List.append_assoc]
    exact ⟨_, ht'', Stage.standsAt_stopped nofun, hto.rest hsource⟩
  | @pauseBehindRefused _ c outputs store id t t' routed i e log log' ho hsaved hr hi hsaved' =>
    obtain ⟨hne, rfl, hfrontier⟩ := hs
    obtain ⟨cp, hcp, hstate, hrecord⟩ := exists_saved hsaved
    obtain ⟨ht', hto⟩ := Gave.onTrack hp hf hne hfrontier ht ho hstate hrecord world.saved
      (Workflow.onward_ok hr _ _)
    -- The pause is not on record, but the step is.
    rw [RunWorld.saved_turn, saved_of_refuses hsaved', RunWorld.saved_turn, hcp,
      ← List.append_assoc]
    exact ⟨_, ht', Stage.standsAt_stopped nofun, hto⟩
  | rested o => exact ⟨target, ht, hs, .outside rfl⟩

/-- A run that begins on track stays on track, wherever it comes. -/
theorem Reaches.onTrack {start : RunStart} (h : r.Reaches start stage world)
    (hf : r.workflow.Behaves f) {target : Except RunError Position}
    (ht : r.workflow.OnTrack f (r.workflow.outset input environment) cps target)
    (hs : (Stage.waiting start).StandsAt input environment cps target) :
    r.recording.Performed stage ∧ ∃ target', stage.StandsAt input environment (cps ++ world.saved)
        target' ∧
      r.workflow.OnTrack f (r.workflow.outset input environment) (cps ++ world.saved) target' := by
  refine h.induct (motive := fun stage saved => r.recording.Performed stage ∧
    ∃ target', stage.StandsAt input environment (cps ++ saved) target' ∧
      r.workflow.OnTrack f (r.workflow.outset input environment) (cps ++ saved) target') ?_ ?_
  · rw [List.append_nil]
    exact ⟨trivial, target, hs, ht⟩
  · rintro stage world stage' world' ⟨hp, target', hs', ht'⟩ hmove
    obtain ⟨target'', ht'', hs'', -⟩ := hmove.onTrack hf hp ht' hs'
    exact ⟨hmove.performed hp, target'', hs'', ht''⟩

end Moves

end Runner

/-- Every thread stays on track, whatever stops the runs on it. -/
theorem Workflow.Thread.onTrack {w : Workflow σ} {f : Behaviour} (hf : w.Behaves f)
    {input environment : Json} {cps : List Checkpoint} {start : RunStart}
    (h : w.Thread input environment cps start) :
    ∃ target, (Stage.waiting start).StandsAt input environment cps target ∧
      w.OnTrack f (w.outset input environment) cps target := by
  induction h with
  | first => exact ⟨_, ⟨rfl, rfl, rfl⟩, .start, by simp⟩
  | next hr h hreach hcp ih =>
    subst hr
    obtain ⟨target, hs, ht⟩ := ih
    obtain ⟨-, target', -, ht'⟩ := hreach.onTrack hf ht hs
    exact ⟨target', ⟨rfl, hcp⟩, ht'⟩

end Workgraph
