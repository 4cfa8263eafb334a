import Workgraph.Proofs.Run.Step
/-!
# What a run announces

The log of a run holds what the run itself reports together with whatever its nodes report while
they run. Nodes run in one kind of move only, and if what they add to the log there is taken back,
what remains are the announcements of the run itself.

## Main definitions

- `Activity.hushed`, `Runner.hushed`: nodes that leave no trace in the log
- `Runner.announced`: the events that the run itself reports in a move
- `RunPart.Reports`: what a part of a run adds to the events
- `Enters`, `Outcome.Closes`: events of a phase, and events that end a run
- `Runner.Voices`: what the run itself reports, by the stages around a move

## Main statements

- `Runner.announced_voices`: what is announced in a move is one of these
- `Runner.announced_sublist`: what is announced is among the events that the move really adds
-/

namespace Workgraph

variable {σ τ α β : Type}

/-! ## Nodes that leave no trace -/

/-- The activity without what it does to the log. -/
def Activity.hushed (a : Activity σ α) : Activity σ α := fun w =>
  let (x, after) := a w
  (x, { after with log := w.log })

/-- The node that does the same but leaves no trace in the log. -/
def WorkNode.hushed (n : WorkNode σ) : WorkNode σ :=
  { n with run := fun ctx s => (n.run ctx s).hushed }

/-- The workflow whose nodes do the same but leave no trace in the log. -/
def Workflow.hushed (w : Workflow σ) : Workflow σ := { w with nodes := w.nodes.map .hushed }

@[simp] theorem Workflow.hushed_node? (w : Workflow σ) (key : String) :
    w.hushed.node? key = (w.node? key).map .hushed := List.find?_map ..

@[simp] theorem Workflow.hushed_contains (w : Workflow σ) (key : String) :
    w.hushed.contains key = w.contains key := by
  unfold contains
  rw [hushed_node?, Option.isSome_map]

/-- A node that does not look into the log and only adds to it. -/
def WorkNode.Adds (n : WorkNode σ) : Prop :=
  ∀ ctx s world log, ∃ more, n.run ctx s { world with log := log } =
    ((n.run ctx s world).1, { (n.run ctx s world).2 with log := more ++ log })

/-- A node that runs is announced in the log, in front of whatever it adds. -/
theorem Runner.runNode_eq (n : WorkNode σ) {ctx : NodeContext} (hctx : ctx.silent = false)
    (s : Snapshot) (world : World σ) :
    runNode n ctx s world = n.run ctx s { world with
      log := .reported (.node ⟨ctx.nodeKey, ctx.step, .started, none, world.clock⟩) ::
        world.log } := by
  unfold runNode NodeContext.report
  rw [hctx]
  rfl

/-- Behind a node that only adds to the log, worlds that differed in the log do so again. -/
theorem WorkNode.Adds.after {n : WorkNode σ} (h : n.Adds) {ctx : NodeContext}
    (hctx : ctx.silent = false) (s : Snapshot) (world : World σ) (log : EventLog) :
    ∃ (after : World σ) (more : EventLog) (e : Event),
      (Runner.runNode n ctx s world).2 = { after with log := more ++ .reported e :: world.log } ∧
      (Runner.runNode n.hushed ctx s { world with log := log }).2 =
        { after with log := .reported e :: log } := by
  rw [Runner.runNode_eq n hctx, Runner.runNode_eq n.hushed hctx]
  obtain ⟨e, he⟩ : ∃ e : Event, e = .node ⟨ctx.nodeKey, ctx.step, .started, none, world.clock⟩ :=
    ⟨_, rfl⟩
  obtain ⟨more, hmore⟩ := h ctx s { world with log := .reported e :: world.log }
    (.reported e :: world.log)
  obtain ⟨more', hmore'⟩ := h ctx s { world with log := .reported e :: world.log }
    (.reported e :: log)
  refine ⟨(n.run ctx s { world with log := .reported e :: world.log }).2, more, e, ?_, ?_⟩
  · rw [← he]
    exact congrArg Prod.snd hmore
  · rw [← he]
    exact congrArg (fun p => { p.2 with log := .reported e :: log }) hmore'

namespace Runner

/-- The runner whose nodes leave no trace in the log. -/
def hushed (r : Runner σ τ) : Runner σ τ := { r with workflow := r.workflow.hushed }

/-- One move in which nobody but the run itself adds to the log. -/
def voice (r : Runner σ τ) : Stage → RunPart σ τ Stage
  | .ready c => r.hushed.dispatch c
  | stage => r.advance stage

/-- The events that the run itself reports in a move, without those of its nodes. -/
def announced (r : Runner σ τ) (stage : Stage) (w : RunWorld σ τ) : List Event :=
  (r.voice stage w).2.world.events.drop w.world.events.length

end Runner

/-! ## What is added to the events -/

theorem EventLog.events_append (more log : EventLog) :
    EventLog.events (more ++ log) = log.events ++ more.events := by
  unfold EventLog.events
  rw [List.filterMap_append, List.reverse_append]

theorem EventLog.events_cons (e : Event) (log : EventLog) :
    EventLog.events (.reported e :: log) = log.events ++ [e] :=
  events_append [.reported e] log

@[simp] theorem World.events_report (e : Event) (w : World σ) :
    (Activity.report e w).2.events = w.events ++ [e] := EventLog.events_cons e w.log

/-- What a part of a run adds to the events, and what it comes to along with that. -/
def RunPart.Reports (p : RunPart σ τ α) (P : α → List Event → Prop) : Prop :=
  ∀ w, ∃ es, (p w).2.world.events = w.world.events ++ es ∧ P (p w).1 es

namespace RunPart.Reports

variable {P : α → List Event → Prop} {Q : β → List Event → Prop}

theorem pure {a : α} (h : P a []) : Reports (Pure.pure a : RunPart σ τ α) P :=
  fun _ => ⟨[], (List.append_nil _).symm, h⟩

theorem bind {p : RunPart σ τ α} {f : α → RunPart σ τ β} (hp : Reports p P)
    (hf : ∀ a es, P a es → Reports (f a) fun b es' => Q b (es ++ es')) : Reports (p >>= f) Q := by
  intro w
  obtain ⟨es, hes, ha⟩ := hp w
  obtain ⟨es', hes', hb⟩ := hf _ es ha (p w).2
  refine ⟨es ++ es', ?_, hb⟩
  rw [RunPart.bind_apply, hes', hes, List.append_assoc]

theorem mono {P' : α → List Event → Prop} {p : RunPart σ τ α} (h : Reports p P)
    (hP : ∀ a es, P a es → P' a es) : Reports p P' := by
  intro w
  obtain ⟨es, hes, ha⟩ := h w
  exact ⟨es, hes, hP _ _ ha⟩

/-- An event that is reported is added. -/
theorem report (e : Timestamp → Event) :
    Reports (RunPart.report e : RunPart σ τ Unit) fun _ es => ∃ t, es = [e t] :=
  fun _ => ⟨[_], World.events_report _ _, _, rfl⟩

/-- A part of a run that leaves the log alone adds nothing. -/
theorem silent {p : RunPart σ τ α} (h : ∀ w, (p w).2.world.log = w.world.log) :
    Reports p fun _ es => es = [] := by
  intro w
  refine ⟨[], ?_, rfl⟩
  rw [List.append_nil]
  exact congrArg EventLog.events (h w)

end RunPart.Reports

/-! ## Events of a phase, and events that end a run -/

/-- Events of nodes that enter a phase in a step, by the keys of the nodes. -/
def Enters (step : Nat) (phase : NodePhase) (keys : List String) (es : List Event) : Prop :=
  List.Forall₂ (fun key e => ∃ t, e = .node ⟨key, step, phase, none, t⟩) keys es

/-- Why a run has ended: it says so in front of its last event if it pauses or fails, and in no
other case. -/
def Outcome.Explains (o : Outcome) (reason : List Event) : Prop :=
  match o.status with
  | .interrupted => ∃ i t, o.interrupt = some i ∧
    reason = [.interrupt ⟨o.threadId, o.steps, i, t⟩]
  | .failed => ∃ f t, o.failure = some f ∧ reason = [.error ⟨f.nodeKey, o.steps, f.message, t⟩]
  | .completed => reason = []
  | .canceled => reason = []
  | .pending => False
  | .running => False

/-- The events that end a run: why it has ended, and the change of its status. -/
def Outcome.Closes (o : Outcome) (es : List Event) : Prop :=
  ∃ reason t, es = reason ++ [.run ⟨o.threadId, o.steps, o.status.text, t⟩] ∧ o.Explains reason

/-- The number of the step that a run begins behind. -/
def RunStart.step : RunStart → Nat
  | fresh _ _ => 0
  | resume cp _ => cp.record.step

namespace Runner

open RunPart

variable (r : Runner σ τ)

/-- A run ends behind a step and says so. -/
def EndsAt (step : Nat) (stage : Stage) (es : List Event) : Prop :=
  ∃ o, stage = .ended o ∧ o.threadId = r.threadId ∧ o.steps = step ∧ o.Closes es

/-! ## What the parts of a move announce -/

theorem reportStatus_reports (step : Nat) (status : RunStatus) :
    (r.reportStatus step status).Reports fun _ es =>
      ∃ t, es = [.run ⟨r.threadId, step, status.text, t⟩] :=
  .report _

theorem save_reports (c : Cursor) (record : StepRecord) :
    (r.save c record).Reports fun result es => es = [] ∧
      ∀ c', result = .ok c' → c'.step = c.step := by
  intro w
  obtain ⟨result, t, hs⟩ : ∃ result t, r.Saves c record w result t := ⟨_, _, rfl⟩
  rw [r.save_apply hs]
  refine ⟨[], (List.append_nil _).symm, rfl, ?_⟩
  intro c' hc
  cases result with
  | error e => cases hc
  | ok id =>
    cases hc
    rfl

theorem stop_reports (c : Cursor) (status : RunStatus) (i : Option Interrupt) :
    (r.stop c status i).Reports fun stage es => stage = .ended (r.outcomeAt c status i none) ∧
      ∃ t, es = [.run ⟨r.threadId, c.step, status.text, t⟩] :=
  .bind (r.reportStatus_reports _ _) fun _ _ ⟨t, hes⟩ => .pure ⟨rfl, t, by rw [hes]; rfl⟩

/-- A run that completes or is cancelled says nothing else. -/
theorem stop_endsAt (c : Cursor) {status : RunStatus}
    (h : status = .completed ∨ status = .canceled) :
    (r.stop c status none).Reports (r.EndsAt c.step) := by
  refine (r.stop_reports c status none).mono ?_
  rintro _ _ ⟨rfl, t, rfl⟩
  refine ⟨_, rfl, rfl, rfl, [], t, rfl, ?_⟩
  obtain rfl | rfl := h
  · rfl
  · rfl

/-- A run that fails says why. -/
theorem fail_reports (c : Cursor) (e : RunError) : (r.fail c e).Reports (r.EndsAt c.step) := by
  refine .bind (.report _) ?_
  rintro _ _ ⟨t, rfl⟩
  refine .bind (r.reportStatus_reports _ _) ?_
  rintro _ _ ⟨t', rfl⟩
  exact .pure ⟨_, rfl, rfl, rfl, [_], t', rfl, _, t, rfl, rfl⟩

/-- A run that pauses says where and why. -/
theorem pause_reports (c : Cursor) (record : StepRecord) (i : Interrupt) :
    (r.pause c record i).Reports (r.EndsAt c.step) := by
  refine .bind (r.save_reports _ _) ?_
  rintro (e | c') _ ⟨rfl, hstep⟩
  · exact r.fail_reports c e
  · refine .bind (.report _) ?_
    rintro _ _ ⟨t, rfl⟩
    refine (r.stop_reports c' .interrupted (some i)).mono ?_
    rintro _ _ ⟨rfl, t', rfl⟩
    exact ⟨_, rfl, rfl, hstep c' rfl, [_], t', rfl, i, t, rfl, rfl⟩

/-- A run that begins says so first of all. -/
theorem begin_reports (start : RunStart) :
    (r.begin start).Reports fun stage es => ∃ t rest,
      es = .run ⟨r.threadId, 0, RunStatus.running.text, t⟩ :: rest ∧
      ((∃ c, stage = .ready c ∧ c.step = start.step ∧ rest = []) ∨ r.EndsAt 0 stage rest) := by
  refine .bind (r.reportStatus_reports _ _) ?_
  rintro _ _ ⟨t, rfl⟩
  cases start with
  | fresh input environment =>
    refine .bind (r.save_reports _ _) ?_
    rintro (e | c) _ ⟨rfl, hstep⟩
    · exact (r.fail_reports _ e).mono fun _ es h => ⟨t, es, rfl, .inr h⟩
    · exact .pure ⟨t, [], rfl, .inl ⟨c, rfl, hstep c rfl, rfl⟩⟩
  | resume cp input =>
    dsimp only
    cases hc : r.resumedCursor cp input with
    | ok c =>
      obtain ⟨split, -, rfl⟩ := r.resumedCursor_eq_ok_iff.mp hc
      exact .pure ⟨t, [], rfl, .inl ⟨_, rfl, rfl, rfl⟩⟩
    | error e => exact (r.fail_reports _ e).mono fun _ es h => ⟨t, es, rfl, .inr h⟩

/-- Behind the nodes of a step, a run accepts what they gave back, or ends; a node that failed is
named. -/
theorem gather_reports (c : Cursor) (arrivals : Arrivals) :
    (r.gather c arrivals).Reports fun stage es =>
      (∃ outputs, stage = .accepted c outputs ∧ barrier c.frontier arrivals = .ok outputs ∧
        es = []) ∨
      ∃ keys failed rest, es = failed ++ rest ∧ Enters (c.step + 1) .failed keys failed ∧
        r.EndsAt c.step stage rest := by
  refine .bind (.silent fun _ => rfl) ?_
  rintro cancelled _ rfl
  cases cancelled with
  | true =>
    exact (r.stop_endsAt c (.inr rfl)).mono fun _ es h => .inr ⟨[], [], es, rfl, .nil, h⟩
  | false =>
    rw [if_neg Bool.false_ne_true]
    cases hb : barrier c.frontier arrivals with
    | ok outputs => exact .pure (.inl ⟨outputs, rfl, rfl, rfl⟩)
    | error failure =>
      obtain ⟨key, e⟩ := failure
      refine .bind (.report _) ?_
      rintro _ _ ⟨t, rfl⟩
      exact (r.fail_reports c _).mono fun _ es h =>
        .inr ⟨[key], [_], es, rfl, .cons ⟨t, rfl⟩ .nil, h⟩

/-- Each output that has been written is announced, in order. -/
theorem writeAll_reports (step : Nat) (store : Store) (outputs : List (String × NodeOutput)) :
    (r.writeAll step store outputs).Reports fun result es =>
      result = r.workflow.writeOutputs store outputs ∧
      ∃ keys, Enters step .completed keys es ∧ (result.2 = none → keys = outputs.map (·.1)) := by
  induction outputs generalizing store with
  | nil => exact .pure ⟨rfl, [], .nil, fun _ => rfl⟩
  | cons output rest ih =>
    obtain ⟨key, out⟩ := output
    unfold writeAll Workflow.writeOutputs
    obtain ⟨store', e, hs⟩ : ∃ store' e, r.workflow.writeOutput key out store = (store', e) :=
      ⟨_, _, rfl⟩
    cases e with
    | some e =>
      simp only [hs]
      exact .pure ⟨rfl, [], .nil, fun h => absurd h (by simp)⟩
    | none =>
      simp only [hs]
      refine .bind (.report _) ?_
      rintro _ _ ⟨t, rfl⟩
      refine (ih store').mono ?_
      rintro result es ⟨hresult, keys, hes, hall⟩
      exact ⟨hresult, key :: keys, .cons ⟨t, rfl⟩ hes, fun h => congrArg (key :: ·) (hall h)⟩

/-- Finding the next frontier is not announced, unless the run ends over it. -/
theorem route_reports (c : Cursor) (record : StepRecord) (i : Option Interrupt) :
    (r.route c record i).Reports fun stage es =>
      (∃ c', stage = .ready c' ∧ c'.step = c.step ∧ es = []) ∨ r.EndsAt c.step stage es := by
  unfold route
  cases r.workflow.candidates record.ranNodes record.handoffs c.store.state with
  | error e => exact (r.fail_reports c e).mono fun _ _ => .inr
  | ok routed =>
    cases i with
    | none => exact .pure (.inl ⟨_, rfl, rfl, rfl⟩)
    | some i => exact (r.pause_reports _ record i).mono fun _ _ => .inr

/-- What the nodes of a step gave back is announced as it is written. Behind a step that has been
written as a whole, the run stands a step further on. -/
theorem settle_reports (c : Cursor) (outputs : List NodeOutput) :
    (r.settle c outputs).Reports fun stage es => ∃ keys completed rest,
      es = completed ++ rest ∧ Enters (c.step + 1) .completed keys completed ∧
      (((r.workflow.writeOutputs c.store (c.frontier.zip outputs)).2 = none ∧
          keys = (c.frontier.zip outputs).map (·.1) ∧
          ((∃ c', stage = .ready c' ∧ c'.step = c.step + 1 ∧ rest = []) ∨
            r.EndsAt (c.step + 1) stage rest)) ∨
        ((r.workflow.writeOutputs c.store (c.frontier.zip outputs)).2 ≠ none ∧
          r.EndsAt c.step stage rest)) := by
  refine .bind (r.writeAll_reports _ _ _) ?_
  rintro ⟨store, e⟩ completed ⟨hresult, keys, hcompleted, hall⟩
  rw [← hresult]
  cases e with
  | some e =>
    refine (r.fail_reports _ e).mono fun _ rest h => ?_
    exact ⟨keys, completed, rest, rfl, hcompleted, .inr ⟨by simp, h⟩⟩
  | none =>
    refine .bind (r.save_reports _ _) ?_
    rintro (e | c') _ ⟨rfl, hstep⟩
    · refine (r.fail_reports _ e).mono fun _ rest h => ?_
      exact ⟨keys, completed, rest, rfl, hcompleted, .inl ⟨rfl, hall rfl, .inr h⟩⟩
    · have hstep : c'.step = c.step + 1 := hstep c' rfl
      refine (r.route_reports c' _ _).mono fun _ rest h => ?_
      rw [hstep] at h
      exact ⟨keys, completed, rest, rfl, hcompleted, .inl ⟨rfl, hall rfl, h⟩⟩

/-! ## The nodes of a step -/

/-- The step that begins where a cursor stands: its nodes run between two waits. -/
def stepFrom (c : Cursor) (w : RunWorld σ τ) : Stage × RunWorld σ τ :=
  let (arrivals, world) := r.runNodes c w.world.issued (r.order (c.step + 1) c.frontier.length)
    (w.turn c.frontier.length w.archive (.waited :: w.world.log)).world
  (.running c arrivals, ⟨(Activity.wait world).2, w.archive⟩)

theorem hushed_node?_bind (key : Option String) :
    key.bind r.hushed.workflow.node? = (key.bind r.workflow.node?).map .hushed := by
  cases key with
  | none => rfl
  | some key => exact r.workflow.hushed_node? key

/-- Every node of a step that runs is announced when it begins. -/
theorem hushed_runNodes_enters {c : Cursor}
    (hk : ∀ key ∈ c.frontier, r.workflow.contains key = true) (base : Nat) (order : List Nat)
    (world : World σ) :
    ∃ es, (r.hushed.runNodes c base order world).2.events = world.events ++ es ∧
      Enters (c.step + 1) .started (order.filterMap (c.frontier[·]?)) es := by
  induction order generalizing world with
  | nil => exact ⟨[], (List.append_nil _).symm, .nil⟩
  | cons index rest ih =>
    unfold runNodes
    cases hkey : c.frontier[index]? with
    | none =>
      rw [List.filterMap_cons_none hkey]
      exact ih world
    | some key =>
      obtain ⟨n, hn⟩ := Option.isSome_iff_exists.mp (hk key (List.mem_of_getElem? hkey))
      have hnode : r.hushed.workflow.node? key = some n.hushed := by
        change r.workflow.hushed.node? key = _
        rw [Workflow.hushed_node?, hn]
        rfl
      rw [List.filterMap_cons_some hkey, Option.bind_some, hnode]
      obtain ⟨after, hafter⟩ : ∃ after, runNode n.hushed (r.hushed.contextOf c n.hushed.key
        (base + index)) c.store.state world = after := ⟨_, rfl⟩
      have hstarted : after.2.events = world.events ++
          [.node ⟨key, c.step + 1, .started, none, world.clock⟩] := by
        rw [← (Workflow.node?_eq_some hn).2, ← hafter]
        exact World.events_report _ world
      obtain ⟨es, hes, henters⟩ := ih after.2
      refine ⟨_ :: es, ?_, .cons ⟨world.clock, rfl⟩ henters⟩
      change (r.hushed.runNodes c base rest (runNode n.hushed _ _ world).2).2.events = _
      rw [hafter, hes, hstarted, List.append_assoc]
      rfl

/-- Results come in from places in the order only. -/
theorem runNodes_index {c : Cursor} (base : Nat) (order : List Nat) (world : World σ) :
    ∀ p ∈ (r.runNodes c base order world).1, p.1 ∈ order := by
  induction order generalizing world with
  | nil =>
    intro p hp
    cases hp
  | cons index rest ih =>
    unfold runNodes
    cases hn : c.frontier[index]?.bind r.workflow.node? with
    | none => exact fun p hp => List.mem_cons_of_mem _ (ih world p hp)
    | some n =>
      intro p hp
      obtain rfl | hp := List.mem_cons.mp hp
      · exact List.mem_cons_self
      · exact List.mem_cons_of_mem _ (ih _ p hp)

/-! ## Moves -/

/-- What the run itself reports in a move, by the stages around it. -/
inductive Voices : Stage → Stage → List Event → Prop
  | begun {start : RunStart} {c : Cursor} (t : Timestamp) (hstep : c.step = start.step) :
      Voices (.waiting start) (.ready c) [.run ⟨r.threadId, 0, RunStatus.running.text, t⟩]
  | unprepared {start : RunStart} {stage : Stage} {es : List Event} (t : Timestamp)
      (hend : r.EndsAt 0 stage es) :
      Voices (.waiting start) stage (.run ⟨r.threadId, 0, RunStatus.running.text, t⟩ :: es)
  | entered {c : Cursor} {budget : Nat} {arrivals : Arrivals} {es : List Event}
      (hindex : ∀ p ∈ arrivals, p.1 ∈ r.order (c.step + 1) c.frontier.length)
      (hes : Enters (c.step + 1) .started
        ((r.order (c.step + 1) c.frontier.length).filterMap (c.frontier[·]?)) es) :
      Voices (.ready c) (.running (c.entered budget) arrivals) es
  | stopped {c : Cursor} {stage : Stage} {es : List Event} (hend : r.EndsAt c.step stage es) :
      Voices (.ready c) stage es
  | accepted {c : Cursor} {arrivals : Arrivals} {outputs : List NodeOutput}
      (hb : barrier c.frontier arrivals = .ok outputs) :
      Voices (.running c arrivals) (.accepted c outputs) []
  | rejected {c : Cursor} {arrivals : Arrivals} {stage : Stage} {keys : List String}
      {failed es : List Event} (hfailed : Enters (c.step + 1) .failed keys failed)
      (hend : r.EndsAt c.step stage es) : Voices (.running c arrivals) stage (failed ++ es)
  | settled {c c' : Cursor} {outputs : List NodeOutput} {completed : List Event}
      (ho : (r.workflow.writeOutputs c.store (c.frontier.zip outputs)).2 = none)
      (hcompleted : Enters (c.step + 1) .completed ((c.frontier.zip outputs).map (·.1)) completed)
      (hstep : c'.step = c.step + 1) : Voices (.accepted c outputs) (.ready c') completed
  | closed {c : Cursor} {outputs : List NodeOutput} {stage : Stage} {completed es : List Event}
      (ho : (r.workflow.writeOutputs c.store (c.frontier.zip outputs)).2 = none)
      (hcompleted : Enters (c.step + 1) .completed ((c.frontier.zip outputs).map (·.1)) completed)
      (hend : r.EndsAt (c.step + 1) stage es) : Voices (.accepted c outputs) stage (completed ++ es)
  | torn {c : Cursor} {outputs : List NodeOutput} {stage : Stage} {keys : List String}
      {completed es : List Event}
      (ho : (r.workflow.writeOutputs c.store (c.frontier.zip outputs)).2 ≠ none)
      (hcompleted : Enters (c.step + 1) .completed keys completed)
      (hend : r.EndsAt c.step stage es) : Voices (.accepted c outputs) stage (completed ++ es)
  | rested (o : Outcome) : Voices (.ended o) (.ended o) []

/-- Between two steps, a run ends in the same way whether or not its nodes leave a trace, or else it
begins its next step. -/
theorem dispatch_cases (c : Cursor) (w : RunWorld σ τ) :
    (r.hushed.dispatch c w = r.dispatch c w ∧ ∃ es,
      (r.dispatch c w).2.world.events = w.world.events ++ es ∧
        r.EndsAt c.step (r.dispatch c w).1 es) ∨
    ∃ budget, (∀ key ∈ c.frontier, r.workflow.contains key = true) ∧
      r.dispatch c w = r.stepFrom (c.entered budget) w ∧
      r.hushed.dispatch c w = r.hushed.stepFrom (c.entered budget) w := by
  unfold dispatch
  by_cases hf : c.frontier.isEmpty = true
  · rw [if_pos hf, if_pos hf]
    exact .inl ⟨rfl, r.stop_endsAt c (.inl rfl) w⟩
  · rw [if_neg hf, if_neg hf, RunPart.bind_apply, RunPart.bind_apply]
    obtain ⟨cancelled, hw⟩ : ∃ cancelled, RunPart.perform (τ := τ) Activity.isCancelled w =
      (cancelled, w) := ⟨_, rfl⟩
    rw [hw]
    cases cancelled with
    | true => exact .inl ⟨rfl, r.stop_endsAt c (.inr rfl) w⟩
    | false =>
      dsimp only
      rw [if_neg Bool.false_ne_true, if_neg Bool.false_ne_true]
      cases hb : c.budget with
      | zero => exact .inl ⟨rfl, r.fail_reports c (.stepBudget r.limit) w⟩
      | succ budget =>
        dsimp only
        rw [show r.hushed.pauseAhead? { c with budget := budget } =
          r.pauseAhead? { c with budget := budget } from rfl]
        cases r.pauseAhead? { c with budget := budget } with
        | some key =>
          exact .inl ⟨rfl, r.pause_reports { c with budget := budget }
            { StepRecord.blank r.graphId c.step .pause with
              pending := c.frontier, deferred := c.deferred } (.plain key "interrupt_before") w⟩
        | none =>
          change (r.hushed.runFrontier (c.entered budget) w = r.runFrontier (c.entered budget) w ∧
            ∃ es, (r.runFrontier (c.entered budget) w).2.world.events = w.world.events ++ es ∧
              r.EndsAt c.step (r.runFrontier (c.entered budget) w).1 es) ∨ ∃ budget', _ ∧
            r.runFrontier (c.entered budget) w = _ ∧ r.hushed.runFrontier (c.entered budget) w = _
          unfold runFrontier
          rw [show (fun key => !r.hushed.workflow.contains key) =
              fun key => !r.workflow.contains key from
            funext fun key => congrArg _ (r.workflow.hushed_contains key)]
          cases hfind : (c.entered budget).frontier.find? fun key => !r.workflow.contains key with
          | some key => exact .inl ⟨rfl, r.fail_reports _ (.unknownNode key key) w⟩
          | none =>
            refine .inr ⟨budget, ?_, rfl, rfl⟩
            intro key hkey
            simpa using List.find?_eq_none.mp hfind key hkey

/-- Between two steps, a run announces that it ends, or the nodes of the step that begins. -/
theorem dispatch_voices (c : Cursor) (w : RunWorld σ τ) :
    ∃ es, (r.hushed.dispatch c w).2.world.events = w.world.events ++ es ∧
      r.Voices (.ready c) (r.dispatch c w).1 es := by
  obtain ⟨hsame, es, hes, hend⟩ | ⟨budget, hk, hreal, hhushed⟩ := r.dispatch_cases c w
  · rw [hsame]
    exact ⟨es, hes, .stopped hend⟩
  · rw [hreal, hhushed]
    obtain ⟨es, hes, henters⟩ := r.hushed_runNodes_enters (c := c.entered budget) hk
      w.world.issued (r.order (c.step + 1) c.frontier.length)
      (w.turn c.frontier.length w.archive (.waited :: w.world.log)).world
    exact ⟨es, hes, .entered (r.runNodes_index _ _ _) henters⟩

/-- What is announced in a move is said by the run itself. -/
theorem announced_voices (stage : Stage) (w : RunWorld σ τ) :
    r.Voices stage (r.advance stage w).1 (r.announced stage w) := by
  suffices h : ∃ es, (r.voice stage w).2.world.events = w.world.events ++ es ∧
      r.Voices stage (r.advance stage w).1 es by
    obtain ⟨es, hes, hvoices⟩ := h
    unfold announced
    rwa [hes, List.drop_left]
  cases stage with
  | waiting start =>
    obtain ⟨es, hes, t, rest, rfl, hc⟩ := r.begin_reports start w
    refine ⟨_, hes, ?_⟩
    obtain ⟨c, hstage, hstep, rfl⟩ | hend := hc
    · change r.Voices _ (r.begin start w).1 _
      rw [hstage]
      exact .begun t hstep
    · exact .unprepared t hend
  | ready c => exact r.dispatch_voices c w
  | running c arrivals =>
    obtain ⟨es, hes, ⟨outputs, hstage, hb, rfl⟩ | ⟨keys, failed, rest, rfl, hfailed, hend⟩⟩ :=
      r.gather_reports c arrivals w
    · refine ⟨_, hes, ?_⟩
      change r.Voices _ (r.gather c arrivals w).1 _
      rw [hstage]
      exact .accepted hb
    · exact ⟨_, hes, .rejected hfailed hend⟩
  | accepted c outputs =>
    obtain ⟨es, hes, keys, completed, rest, rfl, hcompleted, ⟨ho, rfl, hc⟩ | ⟨ho, hend⟩⟩ :=
      r.settle_reports c outputs w
    · refine ⟨_, hes, ?_⟩
      obtain ⟨c', hstage, hstep, rfl⟩ | hend := hc
      · change r.Voices _ (r.settle c outputs w).1 _
        rw [hstage, List.append_nil]
        exact .settled ho hcompleted hstep
      · exact .closed ho hcompleted hend
    · exact ⟨_, hes, .torn ho hcompleted hend⟩
  | ended o => exact ⟨[], (List.append_nil _).symm, .rested o⟩

/-! ## The log of a run -/

/-- In front of nodes that only add to the log, a step adds what it announces and, in between, what
they add. -/
theorem runNodes_sublist (hadds : ∀ n ∈ r.workflow.nodes, n.Adds) (c : Cursor) (base : Nat)
    (order : List Nat) (world : World σ) (log : EventLog) :
    ∃ announced added,
      (r.hushed.runNodes c base order { world with log := log }).2.events =
        log.events ++ announced ∧
      (r.runNodes c base order world).2.events = world.events ++ added ∧
      announced.Sublist added := by
  induction order generalizing world log with
  | nil => exact ⟨[], [], (List.append_nil _).symm, (List.append_nil _).symm, .slnil⟩
  | cons index rest ih =>
    unfold runNodes
    rw [hushed_node?_bind]
    cases hn : c.frontier[index]?.bind r.workflow.node? with
    | none => exact ih world log
    | some n =>
      obtain ⟨key, -, hkey⟩ := Option.bind_eq_some_iff.mp hn
      have hn' : n.Adds := hadds n (Workflow.node?_eq_some hkey).1
      have hctx : (r.contextOf c n.key (base + index)).silent = false := rfl
      obtain ⟨after, more, e, hreal, hhushed⟩ := hn'.after hctx c.store.state world log
      obtain ⟨announced, added, hannounced, hadded, hsub⟩ := ih
        { after with log := more ++ .reported e :: world.log } (.reported e :: log)
      refine ⟨e :: announced, e :: (EventLog.events more ++ added), ?_, ?_, ?_⟩
      · change (r.hushed.runNodes c base rest (runNode n.hushed
          (r.contextOf c n.key (base + index)) c.store.state _).2).2.events = _
        rw [hhushed]
        rw [EventLog.events_cons, List.append_assoc] at hannounced
        exact hannounced
      · change (r.runNodes c base rest (runNode n
          (r.contextOf c n.key (base + index)) c.store.state world).2).2.events = _
        rw [hreal, hadded]
        change EventLog.events (more ++ .reported e :: world.log) ++ added = _
        rw [EventLog.events_append, EventLog.events_cons, List.append_assoc, List.append_assoc]
        rfl
      · exact .cons_cons e (hsub.trans (List.sublist_append_right _ _))

/-- What the run itself reports in a move is among the events that the move adds to the log, in the
same order, if its nodes only add to the log. -/
theorem announced_sublist (hadds : ∀ n ∈ r.workflow.nodes, n.Adds) (stage : Stage)
    (w : RunWorld σ τ) : ∃ es, (r.advance stage w).2.world.events = w.world.events ++ es ∧
      (r.announced stage w).Sublist es := by
  have hsame : ∀ es, (r.advance stage w).2.world.events = w.world.events ++ es →
      r.voice stage w = r.advance stage w → (r.announced stage w).Sublist es := by
    intro es hes hvoice
    unfold announced
    rw [hvoice, hes, List.drop_left]
  cases stage with
  | waiting start =>
    obtain ⟨es, hes, -⟩ := r.begin_reports start w
    exact ⟨es, hes, hsame es hes rfl⟩
  | running c arrivals =>
    obtain ⟨es, hes, -⟩ := r.gather_reports c arrivals w
    exact ⟨es, hes, hsame es hes rfl⟩
  | accepted c outputs =>
    obtain ⟨es, hes, -⟩ := r.settle_reports c outputs w
    exact ⟨es, hes, hsame es hes rfl⟩
  | ended o => exact ⟨[], (List.append_nil _).symm, hsame [] (List.append_nil _).symm rfl⟩
  | ready c =>
    obtain ⟨hvoice, es, hes, -⟩ | ⟨budget, -, hreal, hhushed⟩ := r.dispatch_cases c w
    · exact ⟨es, hes, hsame es hes hvoice⟩
    · obtain ⟨announced, added, hannounced, hadded, hsub⟩ := r.runNodes_sublist hadds
        (c.entered budget) w.world.issued (r.order (c.step + 1) c.frontier.length)
        (w.turn c.frontier.length w.archive (.waited :: w.world.log)).world
        (.waited :: w.world.log)
      refine ⟨added, ?_, ?_⟩
      · change (r.dispatch c w).2.world.events = _
        rw [hreal]
        exact hadded
      · unfold Runner.announced
        have hevents : (r.voice (.ready c) w).2.world.events = w.world.events ++ announced := by
          change (r.hushed.dispatch c w).2.world.events = _
          rw [hhushed]
          exact hannounced
        rwa [hevents, List.drop_left]

end Runner

end Workgraph
