import Mathlib.Data.List.Nodup
import Mathlib.Data.List.Perm.Basic
import Workgraph.Event.Sink
import Workgraph.Proofs.Run.Announced
import Workgraph.Proofs.Run.Conservation
/-!
# The stream of events

Everything that a run announces, from its beginning to its end. It opens with the change of status
to running and closes with the change to its final status, in front of which a run that pauses or
fails says why. In between, it is about the nodes of the steps: where a step has been completed,
each node of its frontier has started once and completed once, and they complete in the order of
the frontier behind all that have started and in front of the next step.

## Main definitions

- `Memory.keysAt`: the nodes that entered a phase in a step
- `Memory.Shows`: a step in a stream
- `Runner.Announces`: how far a run can come, with what it has announced
- `Runner.Narrates`, `Runner.Concludes`: the stream of a run, on the way and in the end

## Main statements

- `Runner.Announces.tells`: what is known of the stream, wherever a run comes
- `stream_wellFormed`: the stream of a run from its beginning to its end
-/

namespace Workgraph

variable {σ τ : Type}

/-! ## Steps in a stream -/

namespace Memory

/-- The keys of the nodes that entered a phase in a step. -/
def keysAt (m : Memory) (step : Nat) (phase : NodePhase) : List String :=
  nodeKeys (m.ofStep step) phase

variable {m more : Memory} {step : Nat} {phase : NodePhase}

@[simp] theorem keysAt_append :
    keysAt (m ++ more) step phase = m.keysAt step phase ++ more.keysAt step phase := by
  unfold keysAt ofStep nodeKeys
  rw [List.filter_append, List.filterMap_append]

/-- Events that are about no node of a step show no node there. -/
theorem keysAt_eq_nil (h : ∀ n, .node n ∈ m → n.step ≠ step) : m.keysAt step phase = [] := by
  unfold keysAt ofStep nodeKeys
  rw [List.filterMap_eq_nil_iff]
  intro e he
  obtain ⟨he, hstep⟩ := List.mem_filter.mp he
  cases e with
  | node n => exact absurd (by simpa [Event.step?] using hstep) (h n he)
  | _ => rfl

/-- A step in a stream: every node of its frontier starts once, in some order; behind them, in one
piece, all nodes of the frontier complete in its order; and no node of a later step starts before
that. -/
def Shows (m : Memory) (step : Nat) (frontier : List String) : Prop :=
  ∃ early completed late : Memory, m = early ++ completed ++ late ∧
    (early.keysAt step .started).Perm frontier ∧ late.keysAt step .started = [] ∧
    Enters step .completed frontier completed ∧
    early.keysAt step .completed = [] ∧ late.keysAt step .completed = [] ∧
    ∀ step' > step, early.keysAt step' .started = []

end Memory

namespace Enters

variable {step : Nat} {phase : NodePhase} {keys : List String} {es : List Event}

/-- The events of a phase are about nodes in their step. -/
theorem node (h : Enters step phase keys es) : ∀ e ∈ es, ∃ n, e = .node n ∧ n.step = step := by
  induction h with
  | nil => exact nofun
  | cons he _ ih =>
    intro e hmem
    obtain rfl | hmem := List.mem_cons.mp hmem
    · obtain ⟨t, rfl⟩ := he
      exact ⟨_, rfl, rfl⟩
    · exact ih e hmem

theorem keysAt (h : Enters step phase keys es) : Memory.keysAt es step phase = keys := by
  induction h with
  | nil => rfl
  | cons he _ ih =>
    obtain ⟨t, rfl⟩ := he
    rw [← ih]
    simp [Memory.keysAt, Memory.ofStep, Memory.nodeKeys, Event.step?]

theorem keysAt_of_ne (h : Enters step phase keys es) {phase' : NodePhase} (hne : phase' ≠ phase) :
    Memory.keysAt es step phase' = [] := by
  induction h with
  | nil => rfl
  | cons he _ ih =>
    obtain ⟨t, rfl⟩ := he
    rw [← ih]
    simp [Memory.keysAt, Memory.ofStep, Memory.nodeKeys, Event.step?, hne.symm]

end Enters

/-- The events that end a run are about no node. -/
theorem Outcome.Closes.not_node {o : Outcome} {es : List Event} (h : o.Closes es) (n : NodeEvent) :
    .node n ∉ es := by
  obtain ⟨reason, t, rfl, hreason⟩ := h
  intro hmem
  obtain hmem | hmem := List.mem_append.mp hmem
  · unfold Outcome.Explains at hreason
    split at hreason
    · obtain ⟨i, t, -, rfl⟩ := hreason
      simp at hmem
    · obtain ⟨f, t, -, rfl⟩ := hreason
      simp at hmem
    · simp [hreason] at hmem
    · simp [hreason] at hmem
    · exact hreason
    · exact hreason
  · simp at hmem

namespace Memory.Shows

variable {m more : Memory} {step : Nat} {frontier : List String}

/-- What comes later and is not about a step leaves it as it is. -/
theorem append (h : m.Shows step frontier) (hmore : ∀ n, .node n ∈ more → n.step ≠ step) :
    Shows (m ++ more) step frontier := by
  obtain ⟨early, completed, late, rfl, hperm, hlate, henters, hearly, hlate', hlater⟩ := h
  refine ⟨early, completed, late ++ more, ?_, hperm, ?_, henters, hearly, ?_, hlater⟩
  · rw [List.append_assoc, List.append_assoc]
  · rw [keysAt_append, hlate, keysAt_eq_nil hmore]
    rfl
  · rw [keysAt_append, hlate', keysAt_eq_nil hmore]
    rfl

/-- Every node of the frontier starts once. -/
theorem started (h : m.Shows step frontier) : (m.keysAt step .started).Perm frontier := by
  obtain ⟨early, completed, late, rfl, hperm, hlate, henters, -⟩ := h
  rw [keysAt_append, keysAt_append, hlate, henters.keysAt_of_ne (by decide), List.append_nil,
    List.append_nil]
  exact hperm

/-- The nodes of the frontier complete in its order. -/
theorem completed (h : m.Shows step frontier) : m.keysAt step .completed = frontier := by
  obtain ⟨early, completed, late, rfl, -, -, henters, hearly, hlate, -⟩ := h
  rw [keysAt_append, keysAt_append, hearly, hlate, henters.keysAt, List.append_nil]
  rfl

end Memory.Shows

namespace Runner

variable {r : Runner σ τ} {start : RunStart} {steps : List (Nat × List String)} {m : Memory}

/-! ## What a run announces -/

/-- The step that the move behind a stage completes, with its number and its frontier: everything
that its nodes gave back can be written. -/
def completes (r : Runner σ τ) : Stage → List (Nat × List String)
  | .accepted c outputs =>
    match (r.workflow.writeOutputs c.store (c.frontier.zip outputs)).2 with
    | none => [(c.step + 1, c.frontier)]
    | some _ => []
  | .waiting _ | .ready _ | .running _ _ | .ended _ => []

/-- How far a run can come, with the steps that it has completed and with everything that it has
announced. Between two moves everything but the record may change. -/
inductive Announces (r : Runner σ τ) (start : RunStart) :
    List (Nat × List String) → Memory → Stage → RunWorld σ (τ × List Checkpoint) → Prop
  | waiting {w : RunWorld σ (τ × List Checkpoint)} (hw : w.saved = []) :
      Announces r start [] [] (.waiting start) w
  | moved {steps : List (Nat × List String)} {m : Memory} {stage : Stage}
      {w : RunWorld σ (τ × List Checkpoint)} (h : Announces r start steps m stage w) :
      Announces r start (steps ++ r.completes stage) (m ++ r.recording.announced stage w)
        (r.recording.advance stage w).1 (r.recording.advance stage w).2
  | disturbed {steps : List (Nat × List String)} {m : Memory} {stage : Stage}
      {w w' : RunWorld σ (τ × List Checkpoint)} (h : Announces r start steps m stage w)
      (hw : w'.saved = w.saved) : Announces r start steps m stage w'

/-- A run that announces something comes as far as it would if nobody listened. -/
theorem Announces.reaches {stage : Stage} {w : RunWorld σ (τ × List Checkpoint)}
    (h : r.Announces start steps m stage w) : r.Reaches start stage w := by
  induction h with
  | waiting hw => exact .waiting hw
  | moved _ ih => exact ih.moved
  | disturbed _ hw ih => exact ih.disturbed hw

/-- However far a run comes, it has announced something on the way. -/
theorem Reaches.exists_announces {stage : Stage} {w : RunWorld σ (τ × List Checkpoint)}
    (h : r.Reaches start stage w) : ∃ steps m, r.Announces start steps m stage w := by
  induction h with
  | waiting hw => exact ⟨_, _, .waiting hw⟩
  | moved _ ih =>
    obtain ⟨steps, m, h⟩ := ih
    exact ⟨_, _, h.moved⟩
  | disturbed _ hw ih =>
    obtain ⟨steps, m, h⟩ := ih
    exact ⟨_, _, h.disturbed hw⟩

/-! ## The stream on the way -/

/-- The stream of a run that has begun and has not ended: it opens with the change of status and is
about nodes from then on, and all steps up to the last one are in it, one after the other. -/
structure Narrates (r : Runner σ τ) (start : RunStart) (steps : List (Nat × List String))
    (m : Memory) (last : Nat) : Prop where
  opens : ∃ t body, m = .run ⟨r.threadId, 0, RunStatus.running.text, t⟩ :: body ∧
    ∀ e ∈ body, ∃ n, e = .node n
  numbered : steps.map (·.1) = List.range' (start.step + 1) steps.length
  last_eq : last = start.step + steps.length
  shows : ∀ p ∈ steps, m.Shows p.1 p.2

/-- The stream of a run that has ended. -/
structure Concludes (r : Runner σ τ) (start : RunStart) (steps : List (Nat × List String))
    (m : Memory) (o : Outcome) : Prop where
  stream : ∃ t body reason t', m = .run ⟨r.threadId, 0, RunStatus.running.text, t⟩ :: body ++
      reason ++ [.run ⟨r.threadId, o.steps, o.status.text, t'⟩] ∧
    (∀ e ∈ body, ∃ n, e = .node n) ∧ o.Explains reason
  numbered : steps.map (·.1) = List.range' (start.step + 1) steps.length
  last : o.steps = start.step + steps.length ∨ steps = [] ∧ o.steps = 0
  shows : ∀ p ∈ steps, m.Shows p.1 p.2

/-- No node of a step later than a given one is in a stream. -/
def Until (m : Memory) (last : Nat) : Prop := ∀ n, .node n ∈ m → n.step ≤ last

/-- What is known of the stream at a stage: while the nodes of a step run and until what they gave
back is written, they have started but not completed. -/
def Tells (r : Runner σ τ) (start : RunStart) (steps : List (Nat × List String)) (m : Memory) :
    Stage → Prop
  | .waiting start' => start' = start ∧ steps = [] ∧ m = []
  | .ready c => r.Narrates start steps m c.step ∧ Until m c.step
  | .running c arrivals => r.Narrates start steps m c.step ∧ Until m (c.step + 1) ∧
    m.keysAt (c.step + 1) .completed = [] ∧
    ∃ order : List Nat, order.Nodup ∧ (∀ p ∈ arrivals, p.1 ∈ order) ∧
      m.keysAt (c.step + 1) .started = order.filterMap (c.frontier[·]?)
  | .accepted c outputs => r.Narrates start steps m c.step ∧ Until m (c.step + 1) ∧
    m.keysAt (c.step + 1) .completed = [] ∧ outputs.length = c.frontier.length ∧
    (m.keysAt (c.step + 1) .started).Perm c.frontier
  | .ended o => r.Concludes start steps m o

theorem Until.keysAt_eq_nil {last step : Nat} (h : Until m last) (hlt : last < step)
    (phase : NodePhase) : m.keysAt step phase = [] :=
  Memory.keysAt_eq_nil fun n hn heq => absurd (h n hn) (by omega)

theorem Until.append {last step : Nat} (h : Until m last) (hle : last ≤ step) {phase : NodePhase}
    {keys : List String} {es : List Event} (hes : Enters step phase keys es) :
    Until (m ++ es) step := by
  intro n hn
  obtain hn | hn := List.mem_append.mp hn
  · exact Nat.le_trans (h n hn) hle
  · obtain ⟨n', he, hstep⟩ := hes.node _ hn
    cases he
    exact Nat.le_of_eq hstep

namespace Narrates

variable {last : Nat}

theorem le (h : r.Narrates start steps m last) {p : Nat × List String} (hp : p ∈ steps) :
    p.1 ≤ last := by
  have hmem : p.1 ∈ steps.map (·.1) := List.mem_map_of_mem hp
  rw [h.numbered, List.mem_range'_1] at hmem
  rw [h.last_eq]
  omega

/-- Events about the nodes of the next step leave what has been told as it is. -/
theorem append (h : r.Narrates start steps m last) {phase : NodePhase} {keys : List String}
    {es : List Event} (hes : Enters (last + 1) phase keys es) :
    r.Narrates start steps (m ++ es) last := by
  obtain ⟨t, body, rfl, hbody⟩ := h.opens
  refine ⟨⟨t, body ++ es, rfl, ?_⟩, h.numbered, h.last_eq, fun p hp => ?_⟩
  · intro e he
    obtain he | he := List.mem_append.mp he
    · exact hbody e he
    · obtain ⟨n, rfl, -⟩ := hes.node e he
      exact ⟨n, rfl⟩
  · refine (h.shows p hp).append ?_
    intro n hn
    obtain ⟨n', he, hstep⟩ := hes.node _ hn
    cases he
    have := h.le hp
    omega

/-- A step whose nodes have started and complete now is in the stream from now on. -/
theorem complete (h : r.Narrates start steps m last) (huntil : Until m (last + 1))
    (hnone : m.keysAt (last + 1) .completed = []) {frontier : List String}
    (hperm : (m.keysAt (last + 1) .started).Perm frontier) {es : List Event}
    (hes : Enters (last + 1) .completed frontier es) :
    r.Narrates start (steps ++ [(last + 1, frontier)]) (m ++ es) (last + 1) := by
  have happended := h.append hes
  refine ⟨happended.opens, ?_, ?_, fun p hp => ?_⟩
  · rw [List.map_append, h.numbered, List.length_append, List.length_singleton, List.range'_concat,
      h.last_eq]
    simp
    omega
  · rw [h.last_eq, List.length_append]
    rfl
  · obtain hp | hp := List.mem_append.mp hp
    · exact happended.shows p hp
    · rw [List.mem_singleton] at hp
      subst hp
      refine ⟨m, es, [], (List.append_nil _).symm, hperm, rfl, hes, hnone, rfl, ?_⟩
      exact fun step' hlt => huntil.keysAt_eq_nil hlt .started

/-- The events that end a run close its stream. -/
theorem conclude (h : r.Narrates start steps m last) {step : Nat} {stage : Stage} {es : List Event}
    (hend : r.EndsAt step stage es) (hstep : step = last ∨ steps = [] ∧ step = 0) :
    r.Tells start steps (m ++ es) stage := by
  obtain ⟨o, rfl, hthread, hsteps, hcloses⟩ := hend
  obtain ⟨t, body, hm, hbody⟩ := h.opens
  obtain ⟨reason, t', hes, hreason⟩ := hcloses
  refine ⟨⟨t, body, reason, t', ?_, hbody, hreason⟩, h.numbered, ?_, fun p hp => ?_⟩
  · rw [hm, hes, hthread, List.append_assoc]
  · rw [hsteps, ← h.last_eq]
    exact hstep
  · refine (h.shows p hp).append fun n hn => absurd hn ?_
    exact Outcome.Closes.not_node ⟨reason, t', hes, hreason⟩ n

end Narrates

/-- Behind a barrier that all results have passed, every node of the frontier has run, whatever the
order. -/
theorem perm_of_barrier {frontier : List String} {arrivals : Arrivals} {outputs : List NodeOutput}
    (hb : barrier frontier arrivals = .ok outputs) {order : List Nat} (hone : order.Nodup)
    (hindex : ∀ p ∈ arrivals, p.1 ∈ order) :
    (order.filterMap (frontier[·]?)).Perm frontier := by
  have hall : ∀ index < frontier.length, index ∈ order := by
    intro index hlt
    have hmem : (frontier[index], index) ∈ frontier.zipIdx := by
      rw [List.mem_zipIdx_iff_getElem?]
      exact List.getElem?_eq_getElem hlt
    obtain ⟨out, -, hout⟩ := exists_of_forall₂ (barrier_eq_ok_iff.mp hb) hmem
    exact hindex _ (resultAt_mem hout)
  have hperm : (order.filter (· < frontier.length)).Perm (List.range frontier.length) := by
    rw [List.perm_ext_iff_of_nodup (hone.filter _) List.nodup_range]
    intro index
    rw [List.mem_filter, List.mem_range, decide_eq_true_iff]
    exact ⟨And.right, fun hlt => ⟨hall index hlt, hlt⟩⟩
  have hrange : ∀ keys : List String, (List.range keys.length).filterMap (keys[·]?) = keys := by
    intro keys
    induction keys with
    | nil => rfl
    | cons key rest ih => simpa [List.range_succ_eq_map, List.filterMap_map] using ih
  have hfilter : order.filterMap (frontier[·]?) =
      (order.filter (· < frontier.length)).filterMap (frontier[·]?) := by
    rw [List.filterMap_filter]
    congr 1
    funext index
    by_cases hlt : index < frontier.length
    · simp [hlt]
    · simp [hlt]
  rw [hfilter]
  exact (hperm.filterMap _).trans (.of_eq (hrange frontier))

/-- Every move goes on with the stream. -/
theorem Tells.move {stage : Stage} (h : r.Tells start steps m stage)
    (hone : ∀ step count, (r.order step count).Nodup) (w : RunWorld σ (τ × List Checkpoint)) :
    r.Tells start (steps ++ r.completes stage) (m ++ r.recording.announced stage w)
      (r.recording.advance stage w).1 := by
  have hvoices := r.recording.announced_voices stage w
  generalize (r.recording.advance stage w).1 = stage' at hvoices ⊢
  generalize r.recording.announced stage w = es at hvoices ⊢
  cases hvoices with
  | begun t hstep =>
    obtain ⟨rfl, rfl, rfl⟩ := h
    refine ⟨⟨⟨t, [], rfl, nofun⟩, rfl, hstep, nofun⟩, ?_⟩
    intro n hn
    simp at hn
  | @unprepared start' _ es t hend =>
    obtain ⟨rfl, rfl, rfl⟩ := h
    have hopen : r.Narrates start' [] [.run ⟨r.threadId, 0, RunStatus.running.text, t⟩]
        start'.step := ⟨⟨t, [], rfl, nofun⟩, rfl, rfl, nofun⟩
    exact hopen.conclude hend (.inr ⟨rfl, rfl⟩)
  | @entered c budget arrivals es hindex hes =>
    obtain ⟨hnarrates, huntil⟩ := h
    rw [show r.completes (.ready c) = [] from rfl, List.append_nil]
    refine ⟨hnarrates.append hes, huntil.append (Nat.le_succ _) hes, ?_, _, hone _ _, hindex, ?_⟩
    · change Memory.keysAt (m ++ es) (c.step + 1) .completed = []
      rw [Memory.keysAt_append, huntil.keysAt_eq_nil (Nat.lt_succ_self _),
        hes.keysAt_of_ne (by decide)]
      rfl
    · change Memory.keysAt (m ++ es) (c.step + 1) .started = _
      rw [Memory.keysAt_append, huntil.keysAt_eq_nil (Nat.lt_succ_self _), hes.keysAt]
      rfl
  | @stopped c _ es hend =>
    rw [show r.completes (.ready c) = [] from rfl, List.append_nil]
    exact h.1.conclude hend (.inl rfl)
  | @accepted c arrivals outputs hb =>
    obtain ⟨hnarrates, huntil, hnone, order, hnodup, hindex, hstarted⟩ := h
    rw [show r.completes (.running c arrivals) = [] from rfl, List.append_nil, List.append_nil]
    refine ⟨hnarrates, huntil, hnone, length_of_barrier hb, ?_⟩
    rw [hstarted]
    exact perm_of_barrier hb hnodup hindex
  | @rejected c arrivals _ keys failed es hfailed hend =>
    rw [show r.completes (.running c arrivals) = [] from rfl, List.append_nil, ← List.append_assoc]
    exact (h.1.append hfailed).conclude hend (.inl rfl)
  | @settled c c' outputs completed ho hcompleted hstep =>
    obtain ⟨hnarrates, huntil, hnone, hlength, hperm⟩ := h
    rw [completes, show (r.workflow.writeOutputs _ _).2 = none from ho]
    rw [List.map_fst_zip (by omega)] at hcompleted
    rw [Tells, hstep]
    exact ⟨hnarrates.complete huntil hnone hperm hcompleted,
      huntil.append (Nat.le_refl _) hcompleted⟩
  | @closed c outputs _ completed es ho hcompleted hend =>
    obtain ⟨hnarrates, huntil, hnone, hlength, hperm⟩ := h
    rw [completes, show (r.workflow.writeOutputs _ _).2 = none from ho, ← List.append_assoc]
    rw [List.map_fst_zip (by omega)] at hcompleted
    exact (hnarrates.complete huntil hnone hperm hcompleted).conclude hend (.inl rfl)
  | @torn c outputs _ keys completed es ho hcompleted hend =>
    obtain ⟨e, he⟩ := Option.ne_none_iff_exists'.mp ho
    rw [completes, show (r.workflow.writeOutputs _ _).2 = some e from he, List.append_nil,
      ← List.append_assoc]
    exact (h.1.append hcompleted).conclude hend (.inl rfl)
  | rested o =>
    rw [show r.completes (.ended o) = [] from rfl, List.append_nil, List.append_nil]
    exact h

/-- Wherever a run comes, what it has announced goes with the steps that it has completed. -/
theorem Announces.tells {stage : Stage} {w : RunWorld σ (τ × List Checkpoint)}
    (h : r.Announces start steps m stage w) (hone : ∀ step count, (r.order step count).Nodup) :
    r.Tells start steps m stage := by
  induction h with
  | waiting hw => exact ⟨rfl, rfl, rfl⟩
  | moved _ ih => exact ih.move hone _
  | disturbed _ _ ih => exact ih

/-- In a compiled workflow, no node is twice in the frontier of a step that has been completed. -/
theorem Announces.nodup {ws : Workshop σ} {g : Description} {site : List String}
    (hw : Reflects ws g site r.workflow)
    (hs : ∀ cp input, start = .resume cp input → r.workflow.Records cp.record) {stage : Stage}
    {world : RunWorld σ (τ × List Checkpoint)} (h : r.Announces start steps m stage world) :
    ∀ p ∈ steps, p.2.Nodup := by
  induction h with
  | waiting hw => exact nofun
  | disturbed _ _ ih => exact ih
  | @moved steps m stage world h ih =>
    intro p hp
    obtain hp | hp := List.mem_append.mp hp
    · exact ih p hp
    · cases stage with
      | accepted c outputs =>
        have hplaced : r.workflow.Placed c.frontier c.deferred := (h.reaches.conserves hw hs).1
        unfold completes at hp
        dsimp only at hp
        split at hp
        · rw [List.mem_singleton.mp hp]
          exact hplaced.frontier_nodup
        · cases hp
      | _ => cases hp

end Runner

/-- The stream of a run is well formed. It opens with the change of status to running, in step 0,
and closes with the change to the final status in the last step. In front of that a run that pauses
says where and why, a run that fails says what went wrong, and no other run says anything; all
events in between are about nodes. The steps that the run has completed follow one another up to the
last step. In each of them every node of the frontier starts once and completes once; the nodes
complete in the order of the frontier, behind all that start in this step and in front of all that
start in a later one. -/
theorem stream_wellFormed {ws : Workshop σ} {g : Description} {site : List String}
    {w : Workflow σ} (hc : compile ws g site = .ok w) {r : Runner σ τ} (hr : r.workflow = w)
    (hone : ∀ step count, (r.order step count).Nodup) {start : RunStart} (hs : w.Starts start)
    {steps : List (Nat × List String)} {m : Memory} {o : Outcome}
    {world : RunWorld σ (τ × List Checkpoint)} (h : r.Announces start steps m (.ended o) world) :
    (∃ t body reason t', m = .run ⟨r.threadId, 0, RunStatus.running.text, t⟩ :: body ++
        reason ++ [.run ⟨r.threadId, o.steps, o.status.text, t'⟩] ∧
      (∀ e ∈ body, ∃ n, e = .node n) ∧ o.Explains reason) ∧
    steps.map (·.1) = List.range' (start.step + 1) steps.length ∧
    (o.steps = start.step + steps.length ∨ steps = [] ∧ o.steps = 0) ∧
    ∀ p ∈ steps, m.Shows p.1 p.2 ∧ ∀ key ∈ p.2,
      (m.keysAt p.1 .started).count key = 1 ∧ (m.keysAt p.1 .completed).count key = 1 := by
  subst hr
  have hw := compile_reflects hc
  obtain ⟨hstream, hnumbered, hlast, hshows⟩ := h.tells hone
  refine ⟨hstream, hnumbered, hlast, fun p hp => ⟨hshows p hp, fun key hkey => ?_⟩⟩
  have hcount := List.count_eq_one_of_mem (h.nodup hw (hs.records hw) p hp) hkey
  refine ⟨?_, ?_⟩
  · rw [(hshows p hp).started.count_eq, hcount]
  · rw [(hshows p hp).completed, hcount]

theorem stream_wellFormed_uneven :
    ∃ steps m o, compile inputShop unevenFork [] = .ok unevenWorkflow ∧
      (∀ step count, (unevenRunner.order step count).Nodup) ∧
      unevenWorkflow.Starts (.fresh .null .null) ∧
      unevenRunner.Announces (.fresh .null .null) steps m (.ended o) unevenRun.2 ∧
      o.status = .completed ∧ steps.map (·.1) = [1, 2, 3, 4] ∧ ∀ p ∈ steps, m.Shows p.1 p.2 := by
  obtain ⟨o, ho, hstatus⟩ := Option.map_eq_some_iff.mp unevenRun_completed
  obtain ⟨steps, m, h⟩ := unevenRun_reaches.exists_announces
  rw [Stage.eq_ended_of_outcome? ho] at h
  have hone : ∀ step count, (unevenRunner.order step count).Nodup := fun _ _ => List.nodup_range
  obtain ⟨-, hnumbered, hlast, hshows⟩ := stream_wellFormed compile_unevenFork rfl hone
    (.fresh _ _) h
  have hsteps : o.steps = 4 := by
    have hfour : unevenRun.1.outcome?.map (·.steps) = some 4 := by decide +kernel
    rw [ho] at hfour
    exact Option.some.inj hfour
  have hlength : steps.length = 4 := by
    change o.steps = 0 + steps.length ∨ _ at hlast
    omega
  refine ⟨steps, m, o, compile_unevenFork, hone, .fresh _ _, h, hstatus, ?_, fun p hp =>
    (hshows p hp).1⟩
  rw [hnumbered, hlength]
  rfl

end Workgraph
