import Workgraph.Proofs.Run.Ending
import Workgraph.Proofs.Run.Steady
import Workgraph.Proofs.Run.Thread
/-!
# Resumption

A run that is resumed at the last checkpoint of its thread goes on exactly where the run before it
stopped. So however often a run is paused, cancelled or cut short, all the runs on its thread
together complete the steps of a single run that nothing stops.

## Main definitions

- `Runner.Unbroken`: circumstances in which nothing stops a run from outside
- `Runner.Spends`: how the steps of an unbroken run use up its budget

## Main statements

- `resumed_where_stopped`: the last checkpoint leads back to where the run stopped, and the steps
  on a thread are those of a run that nothing stops
-/

namespace Workgraph

variable {σ τ : Type}

namespace Runner

/-- Nothing stops a run from outside: it does not pause, every node of a step runs, and whatever is
saved is taken. -/
structure Unbroken (r : Runner σ τ) : Prop where
  before : r.pauseBefore = []
  after : r.pauseAfter = []
  order : ∀ step count, ∀ index < count, index ∈ r.order step count
  takes : ∀ cp t, ∃ id t', r.archive.save cp t = (.ok id, t')

variable {r : Runner σ τ} {f : Behaviour} {c : Cursor}

/-- A run begins afresh, every step uses up one of the budget, and the run ends only if nothing is
left to run, if the budget is used up, or if the next step cannot be taken. -/
def Spends (r : Runner σ τ) (f : Behaviour) (done : Nat) (target : Except RunError Position) :
    Stage → Prop
  | .waiting start => done = 0 ∧ ∃ input environment, start = .fresh input environment
  | .ready c => c.budget + done = r.limit
  | .running c arrivals => c.budget + done + 1 = r.limit ∧
    ∀ index < c.frontier.length, ∃ result, (index, result) ∈ arrivals
  | .accepted c _ => c.budget + done + 1 = r.limit
  | .ended o => ∀ p, target = .ok p → p.frontier = [] ∧ o.status = .completed ∨
    p.frontier ≠ [] ∧ (done = r.limit ∨ r.workflow.leap f p = none)

section Unbroken

variable (hu : r.Unbroken) (hf : r.workflow.Behaves f) (hcalm : ∀ n ∈ r.workflow.nodes, n.Calm)

include hu in
/-- Nothing that is saved is refused. -/
theorem Unbroken.not_refused {record : StepRecord} {world : RunWorld σ (τ × List Checkpoint)}
    {e : ArchiveError} {t : τ × List Checkpoint} :
    ¬ r.recording.Saves c record world (.error e) t := by
  intro h
  obtain ⟨id, contents, hs⟩ := hu.takes (r.checkpointAt c record world.world) world.archive.1
  change r.archive.recording.save (r.checkpointAt c record world.world) world.archive = _ at h
  simp [Archive.recording, hs] at h

include hcalm in
/-- Behind calm nodes a run does not pause of itself. -/
theorem Gave.pauseBehind?_eq_none {outputs : List NodeOutput} (h : r.Gave c outputs)
    (hafter : r.pauseAfter = []) : r.pauseBehind? (c.frontier.zip outputs) c.frontier = none := by
  refine Runner.pauseBehind?_eq_none hafter ?_
  exact h.induct (motive := fun _ out => out.interrupt = none) fun n hn => (hcalm n hn).pauses

include hf in
/-- A step whose nodes all have results but do not pass the barrier cannot be taken. -/
theorem Ran.leap_eq_none {arrivals : Arrivals} (h : r.Ran c arrivals)
    (hall : ∀ index < c.frontier.length, ∃ result, (index, result) ∈ arrivals)
    {failure : String × NodeError} (hb : barrier c.frontier arrivals = .error failure) :
    r.workflow.leap f c.position = none := by
  cases hl : r.workflow.leap f c.position with
  | none => rfl
  | some landing =>
    exfalso
    obtain ⟨-, -, outputs, hout, -⟩ := Workflow.leap_eq_some_iff.mp hl
    have hgood : ∀ p ∈ arrivals, ∃ out, p.2 = .ok out := by
      intro p hp
      obtain ⟨n, hn, execution, before, hrun⟩ := h p hp
      obtain ⟨key, hkey, hnode⟩ := Option.bind_eq_some_iff.mp hn
      obtain ⟨hmem, rfl⟩ := Workflow.node?_eq_some hnode
      obtain ⟨out, -, hok⟩ := exists_of_forall₂ hout (List.mem_of_getElem? hkey)
      rw [hf n hmem] at hrun
      exact ⟨out, hrun.symm.trans hok⟩
    obtain ⟨passed, hpassed⟩ := exists_barrier hall hgood
    cases hb.symm.trans hpassed

/-- How far an unbroken run has come: it is not cancelled, it is on track, and it has used up its
budget on steps that are on record. -/
structure Presses (r : Runner σ τ) (f : Behaviour) (input environment : Json) (stage : Stage)
    (world : RunWorld σ (τ × List Checkpoint)) (target : Except RunError Position) : Prop where
  awake : world.world.cancelled = false
  performed : r.recording.Performed stage
  stands : stage.StandsAt input environment world.saved target
  onTrack : r.workflow.OnTrack f (r.workflow.outset input environment) world.saved target
  spends : r.Spends f (completedSteps world.saved).length target stage

include hcalm in
/-- Calm nodes do not cancel the run that they are in. -/
theorem Move.awake {stage stage' : Stage} {world world' : RunWorld σ (τ × List Checkpoint)}
    (h : r.recording.Move stage world stage' world') (hawake : world.world.cancelled = false) :
    world'.world.cancelled = false := by
  cases h with
  | @dispatched _ c budget arrivals after log log' hfrontier hw hb hpause hk ha =>
    have hworld := runNodes_world (r := r) (motive := fun world => world.cancelled = false)
      (fun _ _ h => h) (fun n hn ctx s world h => ((hcalm n hn).cancels ctx s world).trans h)
      (c.entered budget) world.world.issued (r.order (c.step + 1) c.frontier.length)
      (world.turn c.frontier.length world.archive log).world hawake
    rw [recording_runNodes] at ha
    rw [show r.runNodes _ _ (r.order _ _) _ = _ from ha] at hworld
    exact hworld
  | _ => exact hawake

include hu hf hcalm in
/-- Nothing stops an unbroken run before its work is done or its budget is used up. -/
theorem Move.presses {input environment : Json} {stage stage' : Stage}
    {world world' : RunWorld σ (τ × List Checkpoint)} {target : Except RunError Position}
    (h : r.recording.Move stage world stage' world')
    (hs : r.Presses f input environment stage world target) :
    ∃ target', r.Presses f input environment stage' world' target' := by
  obtain ⟨hawake, hp, hstands, ht, hspent⟩ := hs
  have ht₀ :
      r.workflow.OnTrack f (r.workflow.outset input environment) ([] ++ world.saved) target := ht
  obtain ⟨target', ht', hstands', hcontinues⟩ := h.onTrack hf hp ht₀ hstands
  refine ⟨target', Move.awake hcalm h hawake, h.performed hp, hstands', ht', ?_⟩
  cases h with
  | begun log hsaved =>
    obtain ⟨cp, hcp, -, hrecord⟩ := exists_saved hsaved
    rw [RunWorld.saved_turn, hcp, completedSteps_append,
      completedSteps_of_ne (by simp [hrecord, StepRecord.blank]), List.append_nil, hspent.1]
    rfl
  | beginRefused log hsaved => exact absurd hsaved hu.not_refused
  | resumed log hc =>
    obtain ⟨-, _, _, hfresh⟩ := hspent
    cases hfresh
  | resumeFailed log he =>
    obtain ⟨-, _, _, hfresh⟩ := hspent
    cases hfresh
  | completed log hfrontier =>
    obtain ⟨-, rfl⟩ := hcontinues.of_ready
    rintro p hp
    cases hp
    exact .inl ⟨hfrontier, rfl⟩
  | canceled log hfrontier hw => cases hawake.symm.trans hw
  | @exhausted _ c log hfrontier hw hb =>
    obtain ⟨hsame, rfl⟩ := hcontinues.of_ready
    rintro p hp
    cases hp
    refine .inr ⟨hfrontier, .inl ?_⟩
    change c.budget + _ = r.limit at hspent
    rw [hsame]
    omega
  | @pausedAhead _ c budget key id t log hfrontier hw hb hpause hsaved =>
    rw [Runner.pauseAhead?_eq_none _ (r := r.recording) hu.before] at hpause
    cases hpause
  | @pauseAheadRefused _ c budget key e t log hfrontier hw hb hpause hsaved =>
    rw [Runner.pauseAhead?_eq_none _ (r := r.recording) hu.before] at hpause
    cases hpause
  | strayNode log hw hb hpause hk hn =>
    obtain ⟨-, rfl⟩ := hcontinues.of_ready
    rintro p hp
    cases hp
    refine .inr ⟨List.ne_nil_of_mem hk, .inr ?_⟩
    cases hl : r.workflow.leap f _ with
    | none => rfl
    | some landing =>
      obtain ⟨-, hknown, -⟩ := Workflow.leap_eq_some_iff.mp hl
      cases hn.symm.trans (hknown _ hk)
  | @dispatched _ c budget arrivals after log log' hfrontier hw hb hpause hk ha =>
    have hall := runNodes_all (r := r) (c := c.entered budget) world.world.issued
      (world.turn c.frontier.length world.archive log).world
      (hu.order (c.step + 1) c.frontier.length) hk
    rw [recording_runNodes] at ha
    rw [show r.runNodes _ _ (r.order _ _) _ = _ from ha] at hall
    refine ⟨?_, hall⟩
    change c.budget + _ = r.limit at hspent
    rw [hcontinues.of_ready.1]
    show budget + _ + 1 = r.limit
    omega
  | dropped log hw => cases hawake.symm.trans hw
  | nodeFailed log hw hb =>
    obtain ⟨-, rfl⟩ := hcontinues.of_running
    obtain ⟨-, -, hfrontier⟩ := hstands
    rintro p hp'
    cases hp'
    exact .inr ⟨hfrontier, .inr (Ran.leap_eq_none hf hp hspent.2 hb)⟩
  | accepted hw hb => exact hspent.1
  | @writeFailed _ c outputs store e log ho =>
    obtain ⟨-, -, hfrontier⟩ := hstands
    -- What cannot be written here cannot be written in any other run either.
    have hland : r.workflow.land c.position outputs = none := by
      unfold Workflow.land
      rw [show r.workflow.writeOutputs c.position.store (c.position.frontier.zip outputs) = _
        from ho]
    cases hcontinues with
    | outside hc => cases hc
    | kept hc hsame htarget =>
      cases hc
      rintro p hp'
      cases htarget.symm.trans hp'
      exact .inr ⟨hfrontier, .inr ((Gave.leap_eq hp hf hfrontier).trans hland)⟩
    | stepped hl hsame => cases hland.symm.trans hl
  | stepRefused log ho hsaved => exact absurd hsaved hu.not_refused
  | @routeFailed _ c outputs store id t e log ho hsaved hr =>
    obtain ⟨hne, rfl, hfrontier⟩ := hstands
    obtain ⟨cp, hcp, hstate, hrecord⟩ := exists_saved hsaved
    obtain ⟨ht'', -⟩ := Gave.onTrack hp hf hne hfrontier ht ho hstate hrecord []
      (Workflow.onward_error hr _ _)
    rw [RunWorld.saved_turn, hcp] at ht'
    -- The travel ends in an error, so there is no position that it has come to.
    cases ht'.unique ht''
    rintro p hp'
    cases hp'
  | @settled _ c outputs store id t routed log ho hsaved hr hi =>
    obtain ⟨cp, hcp, hstate, hrecord⟩ := exists_saved hsaved
    rw [RunWorld.saved_turn, hcp, completedSteps_append,
      completedSteps_of_step (by rw [hrecord]; rfl), List.length_append]
    change c.budget + _ + 1 = r.limit at hspent
    show c.budget + (_ + 1) = r.limit
    omega
  | @pausedBehind _ c outputs store id id' t t' routed i log log' ho hsaved hr hi hsaved' =>
    rw [show r.recording.pauseBehind? _ _ = none from
      Gave.pauseBehind?_eq_none hcalm hp hu.after] at hi
    cases hi
  | @pauseBehindRefused _ c outputs store id t t' routed i e log log' ho hsaved hr hi hsaved' =>
    rw [show r.recording.pauseBehind? _ _ = none from
      Gave.pauseBehind?_eq_none hcalm hp hu.after] at hi
    cases hi
  | rested o =>
    cases ht'.unique ht
    exact hspent

include hu hf hcalm in
/-- An unbroken run that begins afresh presses on to its end. -/
theorem Unbroken.presses (input environment : Json) {world : RunWorld σ (τ × List Checkpoint)}
    (hnil : world.saved = []) (hawake : world.world.cancelled = false) (n : Nat) :
    ∃ target, r.Presses f input environment
      (r.recording.moves n (.waiting (.fresh input environment)) world).1
      (r.recording.moves n (.waiting (.fresh input environment)) world).2 target := by
  have hmoves : ∀ {stage world target}, r.Presses f input environment stage world target →
      ∃ target', r.Presses f input environment (r.recording.moves n stage world).1
        (r.recording.moves n stage world).2 target' := by
    intro stage world target hs
    induction n generalizing stage world target with
    | zero => exact ⟨target, hs⟩
    | succ n ih =>
      rw [moves_succ]
      obtain ⟨target', hs'⟩ := Move.presses hu hf hcalm (r.recording.advance_move stage world) hs
      exact ih hs'
  have hstart : r.Presses f input environment (.waiting (.fresh input environment)) world
      (.ok (r.workflow.outset input environment)) := by
    refine ⟨hawake, trivial, ⟨rfl, rfl, hnil⟩, ?_, ?_⟩
    · rw [hnil]
      exact ⟨.start, by simp⟩
    · rw [hnil]
      exact ⟨rfl, _, _, rfl⟩
  exact hmoves hstart

end Unbroken

/-- The way of an unbroken run through the steady form of a workflow: it travels as the workflow
does, until its work is done, its budget is used up, or the next step cannot be taken. -/
theorem Unbroken.travels (hu : r.Unbroken) {w : Workflow σ} (hr : r.workflow = w.steady)
    (hf : w.Behaves f) (input environment : Json) {world : RunWorld σ (τ × List Checkpoint)}
    (hnil : world.saved = []) (hawake : world.world.cancelled = false) :
    let run := r.recording.moves (enoughMoves r.limit) (.waiting (.fresh input environment)) world
    ∃ o target, run.1 = .ended o ∧
      w.Travels f (w.outset input environment) (completedSteps run.2.saved) target ∧
      (o.status = .completed → ∃ p, target = .ok p ∧ p.frontier = [] ∧ p.store.state = o.state) ∧
      ∀ p, target = .ok p → p.frontier = [] ∧ o.status = .completed ∨ p.frontier ≠ [] ∧
        ((completedSteps run.2.saved).length = r.limit ∨ w.leap f p = none) := by
  intro run
  have hf' : r.workflow.Behaves f.unpaused := by
    rw [hr]
    exact w.steady_behaves hf
  have hcalm : ∀ n ∈ r.workflow.nodes, n.Calm := by
    rw [hr]
    exact w.steady_calm
  obtain ⟨o, ho⟩ := exists_moves_ended (r := r.recording) (w := world)
    (Nat.le_refl (r.recording.movesLeft (.waiting (.fresh input environment))))
  obtain ⟨target, hpresses⟩ := hu.presses hf' hcalm input environment hnil hawake
    (enoughMoves r.limit)
  obtain ⟨-, -, hstands, ht, hspent⟩ := hpresses
  rw [show (r.recording.moves (enoughMoves r.limit) _ world).1 = _ from ho] at hstands hspent
  refine ⟨o, target, ho, ?_, hstands.1, ?_⟩
  · have htravels := ht.travels
    rw [hr] at htravels
    exact htravels.of_steady
  · intro p hp
    have hend := hspent p hp
    rwa [hr, w.steady_leap] at hend

end Runner

open Runner

/-- Resumption continues where a run stopped. If the nodes of a workflow depend on nothing but their
key, the step and the state, then at whatever move a run on a thread ends, every runner that resumes
the last checkpoint comes to stand in front of the first step that has not been completed; if there
is no such position because the last step routes to an unknown node, this is what the run failed
with. The completed steps of all runs on the thread are those that a run completes that nothing
stops, and if the last run completes, so does that one. -/
theorem resumed_where_stopped {w : Workflow σ} {f : Behaviour} (hf : w.Behaves f)
    {input environment : Json} {cps : List Checkpoint} {start : RunStart}
    (hthread : w.Thread input environment cps start) {r : Runner σ τ} (hr : r.workflow = w)
    {stage : Stage} {world : RunWorld σ (τ × List Checkpoint)} (h : r.Reaches start stage world) :
    (∀ o world', r.recording.advance stage world = (.ended o, world') → stage.cursor?.isSome →
      ∃ cp target, (cps ++ world'.saved).getLast? = some cp ∧ w.Resumes cp target ∧
        w.Continues world.saved world'.saved target stage ∧
        ∀ e, target = .error e → o.failure = some (.ofError e)) ∧
    (∀ (τ₀ : Type) (r₀ : Runner σ τ₀) (world₀ : RunWorld σ (τ₀ × List Checkpoint)),
      r₀.workflow = w.steady → r₀.Unbroken → world₀.saved = [] → world₀.world.cancelled = false →
      (completedSteps (cps ++ world.saved)).length ≤ r₀.limit →
      let run := r₀.recording.moves (enoughMoves r₀.limit)
        (.waiting (.fresh input environment)) world₀
      completedSteps (cps ++ world.saved) <+: completedSteps run.2.saved ∧
      ∀ o, stage = .ended o → o.status = .completed →
        completedSteps (cps ++ world.saved) = completedSteps run.2.saved ∧
        ∃ o₀, run.1 = .ended o₀ ∧ o₀.status = .completed ∧ o₀.state = o.state) := by
  subst hr
  obtain ⟨target, hs, ht⟩ := hthread.onTrack hf
  obtain ⟨hp, target, hs, ht⟩ := h.onTrack hf ht hs
  constructor
  · intro o world' hadvance hcursor
    have hmove := r.recording.advance_move stage world
    rw [hadvance] at hmove
    obtain ⟨target', ht', hs', hcontinues⟩ := hmove.onTrack hf hp ht hs
    -- A run with a cursor has saved something, or has been resumed from something.
    have hne : cps ++ world.saved ≠ [] := by
      cases stage with
      | waiting start => cases hcursor
      | ready c => exact hs.1
      | running c arrivals => exact hs.1
      | accepted c outputs => exact hs.1
      | ended o => cases hcursor
    obtain ⟨more, hmore, -⟩ := hmove.saved
    have hlast : (cps ++ world'.saved).getLast?.isSome := by
      rw [List.getLast?_isSome, hmore, ← List.append_assoc]
      exact List.append_ne_nil_of_left_ne_nil hne _
    obtain ⟨cp, hcp⟩ := Option.isSome_iff_exists.mp hlast
    exact ⟨cp, target', hcp, (ht'.marks cp hcp).resumes, hcontinues, hs'.2⟩
  · intro τ₀ r₀ world₀ hr₀ hu hnil hawake hlimit run
    obtain ⟨o₀, target₀, ho₀, htravels, hcompleted, hend⟩ :=
      hu.travels hr₀ hf input environment hnil hawake
    -- Both travel from the outset. The unbroken run cannot be behind, for then it could go on.
    have hpre : completedSteps (cps ++ world.saved) <+: completedSteps run.2.saved := by
      obtain hpre | ⟨hlt, p, landing, rfl, hl⟩ := ht.travels.prefix_or_leap htravels
      · exact hpre
      · exfalso
        obtain ⟨hne, -⟩ := Workflow.leap_eq_some_iff.mp hl
        obtain ⟨hnil, -⟩ | ⟨-, hused | hnone⟩ := hend p rfl
        · exact hne hnil
        · omega
        · cases hnone.symm.trans hl
    refine ⟨hpre, ?_⟩
    rintro o rfl ho
    obtain ⟨p, rfl, hidle, hstate⟩ := hs.1 ho
    -- Nor can it be ahead of a run that has completed, for that has nothing left to run.
    have heq : completedSteps (cps ++ world.saved) = completedSteps run.2.saved := by
      obtain hpre' | ⟨-, p', landing, hp', hl⟩ := htravels.prefix_or_leap ht.travels
      · exact hpre.eq_of_length_le hpre'.length_le
      · cases hp'
        exact absurd hidle (Workflow.leap_eq_some_iff.mp hl).1
    refine ⟨heq, o₀, ho₀, ?_⟩
    obtain ⟨-, hsame⟩ := ht.travels.unique htravels (by rw [heq])
    obtain ⟨-, hdone⟩ | ⟨hne, -⟩ := hend p hsame.symm
    · obtain ⟨p', hp', -, hstate'⟩ := hcompleted hdone
      cases hsame.trans hp'
      exact ⟨hdone, hstate'.symm.trans hstate⟩
    · exact absurd hidle hne

/-! ## A run through uneven branches, cut in two -/

/-- The run through the uneven branches, which pauses in front of the end of the long one. -/
def haltingRunner : Runner Unit Chains := { unevenRunner with pauseBefore := ["c"] }

/-- Where the halting run stands in front of its pause, while the join is held back. -/
def unevenHalt : Stage × RunWorld Unit (Chains × List Checkpoint) :=
  haltingRunner.recording.moves 7 (.waiting (.fresh .null .null)) ⟨.start (), ([], [])⟩

/-- Where the halting run has paused. -/
def unevenPause : Stage × RunWorld Unit (Chains × List Checkpoint) :=
  haltingRunner.recording.advance unevenHalt.1 unevenHalt.2

/-- The checkpoint of the pause. -/
def unevenMark : Checkpoint := unevenPause.2.saved.getLast (by decide +kernel)

/-- Where the run that goes on behind the pause comes to. -/
def unevenRest : Stage × RunWorld Unit (Chains × List Checkpoint) :=
  unevenRunner.recording.moves (enoughMoves 5) (.waiting (.resume unevenMark none))
    ⟨unevenPause.2.world, (unevenPause.2.archive.1, [])⟩

/-- The run that nothing stops. -/
def unbrokenRunner : Runner Unit Chains :=
  { unevenRunner with
    workflow := unevenWorkflow.steady
    archive := { Archive.memory with save := fun cp cs => (.ok cp.id, cs.push cp) } }

theorem unevenHalt_reaches :
    haltingRunner.Reaches (.fresh .null .null) unevenHalt.1 unevenHalt.2 :=
  Reaches.moves (.waiting rfl) _

theorem unevenPause_reaches :
    haltingRunner.Reaches (.fresh .null .null) unevenPause.1 unevenPause.2 :=
  unevenHalt_reaches.moved

theorem unevenRest_reaches :
    unevenRunner.Reaches (.resume unevenMark none) unevenRest.1 unevenRest.2 :=
  Reaches.moves (.waiting rfl) _

theorem unevenPause_marked : unevenPause.2.saved.getLast? = some unevenMark :=
  List.getLast?_eq_some_getLast _

theorem unevenRest_completed : unevenRest.1.outcome?.map (·.status) = some .completed := by
  decide +kernel

theorem unbrokenRunner_unbroken : unbrokenRunner.Unbroken where
  before := rfl
  after := rfl
  order := fun _ _ _ hi => List.mem_range.mpr hi
  takes := fun _ _ => ⟨_, _, rfl⟩

theorem unevenWorkflow_behaves : unevenWorkflow.Behaves fun _ _ s => .ok (.write s.input) := by
  intro n hn ctx s world
  rw [(unevenWorkflow_nodes hn).1]
  rfl

theorem uneven_thread :
    unevenWorkflow.Thread .null .null unevenPause.2.saved (.resume unevenMark none) := by
  have hmark : ([] ++ unevenPause.2.saved).getLast? = some unevenMark := by
    rw [List.nil_append]
    exact unevenPause_marked
  have hnext := Workflow.Thread.first.next (r := haltingRunner) rfl unevenPause_reaches hmark
  rwa [List.nil_append] at hnext

theorem resumed_where_stopped_uneven :
    unevenWorkflow.Behaves (fun _ _ s => .ok (.write s.input)) ∧
    unevenWorkflow.Thread .null .null unevenPause.2.saved (.resume unevenMark none) ∧
    unbrokenRunner.Unbroken ∧
    (∃ cp target, unevenPause.2.saved.getLast? = some cp ∧ unevenWorkflow.Resumes cp target ∧
      unevenWorkflow.Continues unevenHalt.2.saved unevenPause.2.saved target unevenHalt.1) ∧
    completedSteps (unevenPause.2.saved ++ unevenRest.2.saved) =
      completedSteps (unbrokenRunner.recording.moves (enoughMoves unbrokenRunner.limit)
        (.waiting (.fresh .null .null)) ⟨.start (), ([], [])⟩).2.saved := by
  refine ⟨unevenWorkflow_behaves, uneven_thread, unbrokenRunner_unbroken, ?_, ?_⟩
  · obtain ⟨hstops, -⟩ := resumed_where_stopped unevenWorkflow_behaves .first
      (r := haltingRunner) rfl unevenHalt_reaches
    have hended : unevenPause.1.outcome?.isSome = true := by decide +kernel
    obtain ⟨o, ho⟩ := Option.isSome_iff_exists.mp hended
    have hcursor : unevenHalt.1.cursor?.isSome = true := by decide +kernel
    have hadvance : haltingRunner.recording.advance unevenHalt.1 unevenHalt.2 =
        (.ended o, unevenPause.2) := by
      rw [← Stage.eq_ended_of_outcome? ho, Prod.eta, unevenPause]
    obtain ⟨cp, target, hcp, hresumes, hcontinues, -⟩ := hstops o unevenPause.2 hadvance hcursor
    rw [List.nil_append] at hcp
    exact ⟨cp, target, hcp, hresumes, hcontinues⟩
  · obtain ⟨-, hsteps⟩ := resumed_where_stopped unevenWorkflow_behaves uneven_thread
      (r := unevenRunner) rfl unevenRest_reaches
    have hlimit : (completedSteps (unevenPause.2.saved ++ unevenRest.2.saved)).length ≤
        unbrokenRunner.limit := by decide +kernel
    obtain ⟨-, hall⟩ := hsteps Chains unbrokenRunner ⟨.start (), ([], [])⟩ rfl
      unbrokenRunner_unbroken rfl rfl hlimit
    obtain ⟨o, ho, hstatus⟩ := Option.map_eq_some_iff.mp unevenRest_completed
    exact (hall o (Stage.eq_ended_of_outcome? ho) hstatus).1

end Workgraph
