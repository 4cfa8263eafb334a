import Workgraph.Proofs.Agent.History
import Workgraph.Proofs.Run.Destinations
import Workgraph.Proofs.Run.Failure
import Workgraph.Proofs.Run.Ownership
/-!
# Transfers

A transfer of control is used up by the step it was asked for in. The step writes the messages of
the transfer once, and behind the step the run goes on at its target. A run that is resumed there
finds the transfer in the record of the step and goes on at the same target, but writes nothing. The
next step has a record of its own, so a node that does not ask again routes as ever.

## Main definitions

- `Workflow.sentOn`: where a run goes on behind a node of a step
- `Workflow.Honours`: routing behind a step that goes by its transfers
- `Workflow.Recalls`: a checkpoint that keeps the nodes and the transfers of its step

## Main statements

- `Workflow.honours`: routing behind a step goes by its transfers, in whatever state
- `Runner.Completes.recalls`: every checkpoint behind a step keeps its transfers, and no others
- `transfers_used_once`: each transfer is written once and decides where the run goes on
-/

namespace Workgraph

variable {σ τ : Type}

namespace Workflow

variable {w : Workflow σ} {step : StepOutputs} {s : Snapshot}

/-! ## Routing behind a step -/

/-- Where a run goes on behind a node of a step: at the target of the transfer that it asked for and
nowhere else, or else where it routes to. -/
def sentOn (w : Workflow σ) (s : Snapshot) (p : String × NodeOutput) : List String :=
  match p.2.handoff with
  | some h => [h.target]
  | none => ((w.node? p.1).map fun n => (n.route s).targets).getD []

/-- Routing behind a step, in a state, that goes by the transfers of the step. -/
structure Honours (w : Workflow σ) (step : StepOutputs) (s : Snapshot) : Prop where
  transferred : ∀ p ∈ step, ∀ h, p.2.handoff = some h →
    w.knownTargets (handoffsOf step) s p.1 = .ok [h.target]
  decided : ∀ p ∈ step, p.2.handoff = none →
    ∃ n, w.node? p.1 = some n ∧ w.targets (handoffsOf step) s p.1 = .ok (n.route s).targets
  routed : ∀ routed, w.candidates (step.map (·.1)) (handoffsOf step) s = .ok routed →
    routed = distinct (step.flatMap (w.sentOn s))

theorem handoffFrom?_eq_none {key : String} (h : key ∉ step.map (·.1)) :
    handoffFrom? (handoffsOf step) key = none := by
  unfold handoffFrom?
  rw [Option.map_eq_none_iff, List.find?_eq_none]
  intro p hp
  obtain ⟨output, houtput, hmap⟩ := List.mem_filterMap.mp hp
  obtain ⟨handoff, -, rfl⟩ := Option.map_eq_some_iff.mp hmap
  have hne : output.1 ≠ key := fun he => h (he ▸ List.mem_map_of_mem houtput)
  simpa using hne

theorem handoffsOf_cons {key : String} {out : NodeOutput} :
    handoffsOf ((key, out) :: step) =
      (out.handoff.map fun h => (key, h)).toList ++ handoffsOf step := by
  unfold handoffsOf
  rw [List.filterMap_cons]
  dsimp only
  cases out.handoff <;> rfl

/-- Where every node runs once, the transfer that is found for a node is the one it asked for. -/
theorem handoffFrom?_handoffsOf (hn : (step.map (·.1)).Nodup) {p : String × NodeOutput}
    (hp : p ∈ step) : handoffFrom? (handoffsOf step) p.1 = p.2.handoff := by
  induction step with
  | nil => cases hp
  | cons first rest ih =>
    obtain ⟨key, out⟩ := first
    rw [List.map_cons, List.nodup_cons] at hn
    obtain ⟨hfirst, hrest⟩ := hn
    rw [handoffsOf_cons]
    obtain rfl | hp := List.mem_cons.mp hp
    · cases hh : out.handoff with
      | none => exact handoffFrom?_eq_none hfirst
      | some h => simp [handoffFrom?]
    · have hmem : p.1 ∈ rest.map (·.1) := List.mem_map_of_mem hp
      have hne : key ≠ p.1 := fun he => hfirst (he ▸ hmem)
      rw [← ih hrest hp]
      cases out.handoff with
      | none => rfl
      | some h => simp [handoffFrom?, hne]

/-- Routing behind a step goes by its transfers, in whatever state. -/
theorem honours (hn : (step.map (·.1)).Nodup)
    (hr : w.Routable (step.map (·.1)) (handoffsOf step)) (s : Snapshot) : w.Honours step s := by
  have htargets : ∀ p ∈ step, w.targets (handoffsOf step) s p.1 = .ok (w.sentOn s p) := by
    intro p hp
    unfold targets sentOn
    rw [handoffFrom?_handoffsOf hn hp]
    cases p.2.handoff with
    | some h => rfl
    | none =>
      obtain ⟨n, hnode⟩ := exists_node_of_mem_keys (hr.ran_known (List.mem_map_of_mem hp))
      rw [hnode]
      rfl
  refine ⟨?_, ?_, ?_⟩
  · intro p hp h hh
    have hsent : w.sentOn s p = [h.target] := by
      unfold sentOn
      rw [hh]
    refine knownTargets_eq_ok_iff.mpr ⟨hsent ▸ htargets p hp, ?_⟩
    have hmem : (p.1, h) ∈ handoffsOf step := List.mem_filterMap.mpr ⟨p, hp, by simp [hh]⟩
    simpa using hr.handoffs_known _ hmem
  · intro p hp hh
    obtain ⟨n, hnode⟩ := exists_node_of_mem_keys (hr.ran_known (List.mem_map_of_mem hp))
    refine ⟨n, hnode, ?_⟩
    have hsent : w.sentOn s p = (n.route s).targets := by
      unfold sentOn
      rw [hh, hnode]
      rfl
    exact hsent ▸ htargets p hp
  · intro routed hrouted
    obtain ⟨tss, htss, rfl⟩ := candidates_eq_ok_iff.mp hrouted
    have hall := mapM_eq_ok_iff.mp htss
    rw [List.forall₂_map_left_iff] at hall
    have hmap : tss = step.map (w.sentOn s) := by
      refine eq_map_of_forall₂ hall fun p hp ts hts => ?_
      have hfound := (knownTargets_eq_ok_iff.mp hts).1
      rw [htargets p hp] at hfound
      exact (Except.ok.inj hfound).symm
    rw [hmap, List.flatMap_def]

/-! ## The record of a step -/

/-- A checkpoint that keeps the nodes of the last step before it and the transfers that they asked
for, if it is behind a step. -/
def Recalls (w : Workflow σ) (done : List StepOutputs) (cp : Checkpoint) : Prop :=
  cp.record.ranNodes ≠ [] → ∃ steps step, done.take cp.record.step = steps ++ [step] ∧
    cp.record.ranNodes = step.map (·.1) ∧ cp.record.handoffs = handoffsOf step ∧
    ∀ s, w.Honours step s

theorem Recalls.append {done : List StepOutputs} {cp : Checkpoint} (h : w.Recalls done cp)
    (hle : cp.record.step ≤ done.length) (more : List StepOutputs) :
    w.Recalls (done ++ more) cp := by
  intro hran
  obtain ⟨steps, step, htake, hrest⟩ := h hran
  refine ⟨steps, step, ?_, hrest⟩
  rwa [List.take_append_of_le_length hle]

end Workflow

namespace Runner

variable {ws : Workshop σ} {g : Description} {site : List String} {r : Runner σ τ}
  {start : RunStart} {before done : List StepOutputs} {stage : Stage} {c : Cursor}
  {outputs : List NodeOutput} {store : Store}

theorem Gave.map_fst (h : r.Gave c outputs) : (c.frontier.zip outputs).map (·.1) = c.frontier :=
  List.map_fst_zip (Nat.le_of_eq h.1.symm)

/-- Behind a step that has been written, routing goes by its transfers. -/
theorem Gave.honours (h : r.Gave c outputs) (hp : r.workflow.Placed c.frontier c.deferred)
    (ho : r.workflow.writeOutputs c.store (c.frontier.zip outputs) = (store, none))
    (s : Snapshot) : r.workflow.Honours (c.frontier.zip outputs) s := by
  refine Workflow.honours ?_ ?_ s
  · rw [h.map_fst]
    exact hp.frontier_nodup
  · rw [h.map_fst]
    exact hp.routable ho

/-- Whatever is saved behind a step keeps its nodes and its transfers. -/
theorem SavesAt.recalls {cp : Checkpoint} (h : r.SavesAt stage cp)
    (hs : r.StandsOn start done stage) (hstands : r.workflow.Stands stage)
    (hp : r.Performed stage) : r.workflow.Recalls (done ++ r.completing stage) cp := by
  -- Both checkpoints of a step say that it is the last one that is complete.
  have hstep : ∀ {c : Cursor} {outputs : List NodeOutput} {store : Store},
      r.workflow.writeOutputs c.store (c.frontier.zip outputs) = (store, none) →
      r.StandsOn start done (.accepted c outputs) → r.workflow.Stands (.accepted c outputs) →
      r.Performed (.accepted c outputs) → cp.record.step = c.step + 1 →
      cp.record.ranNodes = c.frontier →
      cp.record.handoffs = handoffsOf (c.frontier.zip outputs) →
      r.workflow.Recalls (done ++ r.completing (.accepted c outputs)) cp := by
    intro c outputs store ho hs hstands hp hnumber hran hhandoffs _
    refine ⟨done, c.frontier.zip outputs, ?_, ?_, hhandoffs, Gave.honours hp hstands ho⟩
    · rw [completing_written ho, hnumber, hs.2]
      exact List.take_of_length_le (by simp)
    · rw [hran, Gave.map_fst hp]
  cases h with
  | first hstate hr =>
    intro hran
    rw [hr] at hran
    exact absurd rfl hran
  | ahead hstate hr hf =>
    intro hran
    rw [hr] at hran
    exact absurd rfl hran
  | step ho hstate hr =>
    exact hstep ho hs hstands hp (by rw [hr]; rfl) (by rw [hr]; rfl) (by rw [hr]; rfl)
  | behind ho hstate hr =>
    exact hstep ho hs hstands hp (by rw [hr]; rfl) (by rw [hr]; rfl) (by rw [hr]; rfl)

theorem Completes.reaches {world : RunWorld σ (τ × List Checkpoint)}
    (h : r.Completes start before done stage world) : r.Reaches start stage world := by
  induction h with
  | waiting hw => exact .waiting hw
  | moved _ ih => exact ih.moved
  | disturbed _ hw ih => exact ih.disturbed hw

/-- Whatever a run has saved behind a step keeps the nodes of this step and its transfers. -/
theorem Completes.recalls {world : RunWorld σ (τ × List Checkpoint)}
    (hw : Reflects ws g site r.workflow)
    (hrecords : ∀ cp input, start = .resume cp input → r.workflow.Records cp.record)
    (hs : r.StandsOn start before (.waiting start))
    (h : r.Completes start before done stage world) :
    ∀ cp ∈ world.saved, r.workflow.Recalls done cp := by
  induction h with
  | waiting hsaved =>
    rw [hsaved]
    simp
  | @moved done stage world h ih =>
    obtain ⟨hstandsOn, haccounts⟩ := h.accounts hs
    obtain ⟨hstands, -⟩ := h.reaches.conserves hw hrecords
    obtain ⟨hperformed, -⟩ := h.reaches.performed
    obtain ⟨more, hmore, hsaves⟩ := (r.recording.advance_move stage world).saved
    rw [hmore]
    intro cp hcp
    obtain hcp | hcp := List.mem_append.mp hcp
    · exact (ih cp hcp).append (haccounts cp hcp).1 _
    · exact (hsaves cp hcp).recalls hstandsOn hstands hperformed
  | disturbed _ hsaved ih =>
    rw [hsaved]
    exact ih

/-- A run that is resumed has the conversation of its checkpoint. -/
theorem resumedStore_messages (r : Runner σ τ) (cp : Checkpoint) (input : Option Json) :
    (r.resumedStore cp input).state.messages = cp.state.messages := by
  cases input <;> rfl

/-- A run that has something to go on with stands on the steps that are complete. -/
theorem StandsOn.accumulates (h : r.StandsOn start done stage) (hc : stage.cursor? = some c) :
    r.workflow.Accumulates done c.store := by
  cases stage with
  | waiting start => cases hc
  | ready c' =>
    cases hc
    exact h.1
  | running c' arrivals =>
    cases hc
    exact h.1
  | accepted c' outputs =>
    cases hc
    exact h.1
  | ended o => cases hc

/-- Behind a step whose routing goes by its transfers, the run goes on in the state that the step
has left, where its nodes have sent it. -/
theorem ready_of_honours {world : RunWorld σ (τ × List Checkpoint)} {c' : Cursor}
    (hgave : r.Gave c outputs)
    (ho : r.workflow.writeOutputs c.store (c.frontier.zip outputs) = (store, none))
    (hhonours : r.workflow.Honours (c.frontier.zip outputs) store.state)
    (hc' : (r.recording.advance (.accepted c outputs) world).1 = .ready c') :
    c'.store = store ∧ (c'.frontier, c'.deferred) = r.workflow.holdJoins (appendNew
      (distinct ((c.frontier.zip outputs).flatMap (r.workflow.sentOn store.state)))
      c.deferred) := by
  have hmove := r.recording.advance_move (.accepted c outputs) world
  rw [hc'] at hmove
  generalize (r.recording.advance (.accepted c outputs) world).2 = world' at hmove
  cases hmove with
  | settled log ho' hsaved hroute hpause =>
    cases ho.symm.trans ho'
    refine ⟨rfl, ?_⟩
    change r.workflow.candidates c.frontier _ _ = _ at hroute
    nth_rewrite 1 [← hgave.map_fst] at hroute
    obtain rfl := hhonours.routed _ hroute
    rfl

/-- A run that is resumed behind a step whose routing goes by its transfers goes on where the nodes
of the step have sent it. -/
theorem resumedCursor_of_honours {cp : Checkpoint} {input : Option Json} {step : StepOutputs}
    (hidle : cp.record.pending ≠ [] → cp.record.ranNodes = [])
    (hran : cp.record.ranNodes ≠ []) (hkeys : cp.record.ranNodes = step.map (·.1))
    (hhandoffs : cp.record.handoffs = handoffsOf step)
    (hhonours : r.workflow.Honours step (r.resumedStore cp input).state)
    (hc : r.resumedCursor cp input = .ok c) :
    c.store = r.resumedStore cp input ∧ (c.frontier, c.deferred) = r.workflow.holdJoins (appendNew
      (distinct (step.flatMap (r.workflow.sentOn c.store.state))) cp.record.deferred) := by
  obtain ⟨split, hsplit, rfl⟩ := r.resumedCursor_eq_ok_iff.mp hc
  refine ⟨rfl, ?_⟩
  -- A checkpoint behind a step has stopped in front of nothing.
  obtain ⟨hpending, -⟩ | ⟨-, hnone, -⟩ | ⟨-, routed, hroute, rfl⟩ :=
    Workflow.resumeFrontier_cases hsplit
  · exact absurd (hidle hpending) hran
  · exact absurd hnone hran
  · rw [hkeys, hhandoffs] at hroute
    obtain rfl := hhonours.routed _ hroute
    rfl

end Runner

/-- Runs that inherit steps begin as runs of the workflow do. -/
theorem Workflow.Inherits.starts {w : Workflow σ} {start : RunStart} {before : List StepOutputs}
    (h : w.Inherits start before) : w.Starts start := by
  induction h with
  | fresh input environment => exact .fresh input environment
  | resume hr _ hc hcp input ih =>
    refine .resume input ?_
    cases ih with
    | fresh => exact .fresh hr hc.reaches hcp
    | resume _ ho => exact .resumed hr ho hc.reaches hcp

/-- Each transfer is used once. The conversation is what the nodes of all complete steps said, each
of them once, the messages of its transfer directly behind its own. Behind a step, the run goes on
at the target of every transfer and nowhere else for the node that asked for it, and every other
node decides by its route. A checkpoint behind a step, also one of a pause, keeps the transfers of
this very step: whoever resumes it, with or without further input, goes on in the same way and adds
nothing to the conversation. -/
theorem transfers_used_once {ws : Workshop σ} {g : Description} {site : List String}
    {w : Workflow σ} (hc : compile ws g site = .ok w) {r : Runner σ τ} (hr : r.workflow = w)
    {start : RunStart} {before done : List StepOutputs} (hi : w.Inherits start before)
    {stage : Stage} {world : RunWorld σ (τ × List Checkpoint)}
    (h : r.Completes start before done stage world) :
    (∀ c, stage.cursor? = some c → c.store.state.messages = done.flatten.flatMap (·.2.said)) ∧
    (∀ c outputs store, stage = .accepted c outputs →
      w.writeOutputs c.store (c.frontier.zip outputs) = (store, none) →
      store.state.messages =
        c.store.state.messages ++ (c.frontier.zip outputs).flatMap (·.2.said) ∧
      w.Honours (c.frontier.zip outputs) store.state ∧
      ∀ c', (r.recording.advance stage world).1 = .ready c' → c'.store = store ∧
        (c'.frontier, c'.deferred) = w.holdJoins (appendNew
          (distinct ((c.frontier.zip outputs).flatMap (w.sentOn store.state))) c.deferred)) ∧
    ∀ cp ∈ world.saved, cp.record.ranNodes ≠ [] → ∃ steps step,
      done.take cp.record.step = steps ++ [step] ∧ cp.record.ranNodes = step.map (·.1) ∧
      cp.record.handoffs = handoffsOf step ∧
      cp.state.messages = (steps ++ [step]).flatten.flatMap (·.2.said) ∧
      ∀ (τ' : Type) (r' : Runner σ τ') (input : Option Json), r'.workflow = w →
        (r'.resumedStore cp input).state.messages = cp.state.messages ∧
        w.Honours step (r'.resumedStore cp input).state ∧
        ∀ c, r'.resumedCursor cp input = .ok c → c.store = r'.resumedStore cp input ∧
          (c.frontier, c.deferred) = w.holdJoins (appendNew
            (distinct (step.flatMap (w.sentOn c.store.state))) cp.record.deferred) := by
  subst hr
  have hw := compile_reflects hc
  have hrecords := hi.starts.records hw
  obtain ⟨hstandsOn, haccounts⟩ := h.accounts (hi.standsOn rfl)
  obtain ⟨hstands, hrecorded, -⟩ := h.reaches.conserves hw hrecords
  obtain ⟨hperformed, -⟩ := h.reaches.performed
  refine ⟨?_, ?_, ?_⟩
  · intro c hcursor
    exact (hstandsOn.accumulates hcursor).messages_eq
  · rintro c outputs store rfl ho
    have hgave : r.Gave c outputs := hperformed
    have hhonours := hgave.honours hstands ho store.state
    exact ⟨Workflow.writeOutputs_messages ho, hhonours,
      fun c' hc' => Runner.ready_of_honours hgave ho hhonours hc'⟩
  · intro cp hcp hran
    obtain ⟨steps, step, htake, hkeys, hhandoffs, hhonours⟩ :=
      h.recalls hw hrecords (hi.standsOn rfl) cp hcp hran
    obtain ⟨-, store, hacc, hstate⟩ := haccounts cp hcp
    refine ⟨steps, step, htake, hkeys, hhandoffs, ?_, ?_⟩
    · rw [hstate, ← htake]
      exact hacc.messages_eq
    · intro τ' r' input hr'
      rw [← hr'] at hhonours ⊢
      exact ⟨r'.resumedStore_messages cp input, hhonours _, fun c hcursor =>
        Runner.resumedCursor_of_honours (hrecorded cp hcp).idle hran hkeys hhandoffs (hhonours _)
          hcursor⟩

/-! ## A run of two agents that pauses behind a transfer -/

/-- A run of the two agents that pauses behind the first one. -/
def pausingAgents : Runner Unit Chains :=
  { unevenRunner with workflow := agentWorkflow, pauseAfter := ["a"] }

/-- Where the run of the two agents has paused. -/
def agentPause : Stage × RunWorld Unit (Chains × List Checkpoint) :=
  pausingAgents.recording.moves (Runner.enoughMoves 5) (.waiting (.fresh .null .null))
    ⟨.start (), ([], [])⟩

/-- The steps that are complete in front of the pause. -/
def agentSteps : List StepOutputs :=
  pausingAgents.completions (Runner.enoughMoves 5) (.waiting (.fresh .null .null))
    ⟨.start (), ([], [])⟩

/-- The checkpoint of the pause behind the first agent. -/
def agentMark : Checkpoint := agentPause.2.saved.getLast (by decide +kernel)

theorem agentPause_completes :
    pausingAgents.Completes (.fresh .null .null) [] agentSteps agentPause.1 agentPause.2 :=
  Runner.Completes.of_moves rfl _

theorem transfers_used_once_agentPair :
    compile agency agentPair [] = .ok agentWorkflow ∧
      agentWorkflow.Inherits (.fresh .null .null) [] ∧
      pausingAgents.Completes (.fresh .null .null) [] agentSteps agentPause.1 agentPause.2 ∧
      agentMark.record.source = .pause ∧
      let s := (pausingAgents.resumedStore agentMark none).state
      agentWorkflow.knownTargets agentMark.record.handoffs s "a" = .ok ["b"] ∧
        s.messages = agentMark.state.messages ∧
        agentMark.state.messages = (agentSteps.take agentMark.record.step).flatten.flatMap
          (·.2.said) := by
  refine ⟨compile_agentPair, .fresh _ _, agentPause_completes, by decide +kernel, ?_⟩
  obtain ⟨-, -, hmarks⟩ := transfers_used_once compile_agentPair (r := pausingAgents) rfl
    (.fresh _ _) agentPause_completes
  have hran : agentMark.record.ranNodes ≠ [] := by decide +kernel
  obtain ⟨steps, step, htake, -, hhandoffs, hmessages, hresumes⟩ :=
    hmarks agentMark (List.getLast_mem _) hran
  obtain ⟨hsame, hhonours, -⟩ := hresumes Chains pausingAgents none rfl
  -- The only transfer on record is the one of the first agent.
  have hrecord : agentMark.record.handoffs.map (fun p => (p.1, p.2.target)) = [("a", "b")] := by
    decide +kernel
  have hmem : ("a", "b") ∈ (handoffsOf step).map fun p => (p.1, p.2.target) := by
    rw [← hhandoffs, hrecord]
    exact List.mem_singleton_self _
  obtain ⟨⟨key, h⟩, hp, heq⟩ := List.mem_map.mp hmem
  obtain ⟨output, houtput, hh⟩ := List.mem_filterMap.mp hp
  obtain ⟨h', hh', hpair⟩ := Option.map_eq_some_iff.mp hh
  obtain ⟨hkey, rfl⟩ := Prod.mk.inj hpair
  obtain ⟨rfl, htarget⟩ := Prod.mk.inj heq
  have htransferred := hhonours.transferred output houtput h' hh'
  rw [hkey, htarget, ← hhandoffs] at htransferred
  exact ⟨htransferred, hsame, by rw [htake]; exact hmessages⟩

end Workgraph
