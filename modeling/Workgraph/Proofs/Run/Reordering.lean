import Workgraph.Proofs.Checkpoint.Keys
import Workgraph.Proofs.Run.Answers
/-!
# Reordered connections

The order in which the connections of a description are given makes no difference to what becomes of
a run. The order of the frontier follows that of the connections, and with it the order in which
outputs are written. But the nodes of a step write different channels, so that the store is the same
behind the step, and the nodes that run next are the same again.

## Main definitions

- `Cursor.Mirrors`, `Stage.Mirrors`, `Outcome.Mirrors`: what differs in the order of nodes only
- `Runner.Mirrors`: runners of workflows that mirror each other

## Main statements

- `Runner.Mirrors.advance`: the moves of both runners correspond
- `links_order_invisible`: the order of connections makes no difference
-/

namespace Workgraph

variable {σ τ : Type}

/-! ## What corresponds -/

/-- Cursors that differ in the order of their nodes only, and in the checkpoint before them. -/
structure Cursor.Mirrors (w : Workflow σ) (c c' : Cursor) : Prop where
  store_eq : c'.store = c.store
  frontier_perm : c.frontier.Perm c'.frontier
  deferred_perm : c.deferred.Perm c'.deferred
  step_eq : c'.step = c.step
  budget_eq : c'.budget = c.budget
  placed : w.Placed c.frontier c.deferred
  schema_eq : c.store.schema = w.schema

namespace Cursor.Mirrors

variable {w w' : Workflow σ} {c c' : Cursor} (h : c.Mirrors w c')

include h

theorem state_eq : c'.store.state = c.store.state := congrArg Store.state h.store_eq

/-- The nodes that run next are nodes of either workflow. -/
theorem known : ∀ key ∈ c.frontier, w.contains key = true :=
  fun key hkey => Workflow.contains_iff.mpr (h.placed.frontier_known key hkey)

theorem known' (hw : w.Mirrors w') : ∀ key ∈ c'.frontier, w'.contains key = true := by
  intro key hkey
  rw [hw.contains_eq]
  exact h.known key (h.frontier_perm.mem_iff.mpr hkey)

end Cursor.Mirrors

/-- Results in front of the barriers of two steps that pass if all nodes do, in both or in
neither. -/
def Answers.PassAlike (f : Answers) (c c' : Cursor) (arrivals arrivals' : Arrivals) : Prop :=
  Concur (fun outputs outputs' => f.Given c.frontier c.store.state outputs ∧
    f.Given c'.frontier c.store.state outputs')
    (barrier c.frontier arrivals) (barrier c'.frontier arrivals')

/-- Outcomes with the same status, the same state and the same number of steps. -/
structure Outcome.Mirrors (o o' : Outcome) : Prop where
  status_eq : o'.status = o.status
  state_eq : o'.state = o.state
  steps_eq : o'.steps = o.steps

/-- Stages that differ in the order of their nodes only. -/
inductive Stage.Mirrors (w : Workflow σ) (f : Answers) : Stage → Stage → Prop
  | waiting (input environment : Json) :
      Mirrors w f (.waiting (.fresh input environment)) (.waiting (.fresh input environment))
  | ready {c c' : Cursor} (h : c.Mirrors w c') : Mirrors w f (.ready c) (.ready c')
  | running {c c' : Cursor} {arrivals arrivals' : Arrivals} (h : c.Mirrors w c')
      (hb : f.PassAlike c c' arrivals arrivals') :
      Mirrors w f (.running c arrivals) (.running c' arrivals')
  | accepted {c c' : Cursor} {outputs outputs' : List NodeOutput} (h : c.Mirrors w c')
      (hg : f.Given c.frontier c.store.state outputs)
      (hg' : f.Given c'.frontier c.store.state outputs') :
      Mirrors w f (.accepted c outputs) (.accepted c' outputs')
  | ended {o o' : Outcome} (h : o.Mirrors o') : Mirrors w f (.ended o) (.ended o')

/-- The steps that begin have the same nodes. -/
theorem Stage.Mirrors.begun {w : Workflow σ} {f : Answers} {stage stage' : Stage}
    (h : stage.Mirrors w f stage') : List.Forall₂ List.Perm stage.begun stage'.begun := by
  cases h with
  | running h => exact .cons h.frontier_perm .nil
  | _ => exact .nil

/-- Runners of workflows that mirror each other, without pauses. The nodes of a step may run in
different orders. -/
structure Runner.Mirrors (r r' : Runner σ τ) (f : Answers) (V : τ → τ → Prop) : Prop where
  workflow : r.workflow.Mirrors r'.workflow
  functional : r.workflow.Functional f
  entry : r.workflow.Placed r.workflow.entry []
  archive_eq : r'.archive = r.archive
  keyed : r.archive.Keyed V
  threadId_eq : r'.threadId = r.threadId
  checkpointNs_eq : r'.checkpointNs = r.checkpointNs
  limit_eq : r'.limit = r.limit
  before : r.pauseBefore = []
  before' : r'.pauseBefore = []
  after : r.pauseAfter = []
  after' : r'.pauseAfter = []
  order : ∀ step count, (r.order step count).Perm (List.range count)
  order' : ∀ step count, (r'.order step count).Perm (List.range count)

namespace Runner

variable {r r' : Runner σ τ} {f : Answers} {V : τ → τ → Prop}

namespace Mirrors

open RunPart RunWorld.Agree

/-! ## Parts of runs -/

section Endings

variable {w : Workflow σ} {c c' : Cursor} (hstate : c'.store.state = c.store.state)
  (hstep : c'.step = c.step)

include hstate hstep

theorem stop (status : RunStatus) (i : Option Interrupt) :
    Relates (RunWorld.Agree V) (Stage.Mirrors w f) (r.stop c status i) (r'.stop c' status i) :=
  .bind_eq (report _ _) fun _ => .pure (.ended ⟨rfl, hstate, hstep⟩)

theorem fail (e e' : RunError) :
    Relates (RunWorld.Agree V) (Stage.Mirrors w f) (r.fail c e) (r'.fail c' e') :=
  .bind_eq (report _ _) fun _ => .bind_eq (report _ _) fun _ => .pure (.ended ⟨rfl, hstate, hstep⟩)

end Endings

variable (h : r.Mirrors r' f V) {c c' : Cursor}

include h

theorem save (hc : c.Mirrors r.workflow c') (record record' : StepRecord) :
    Relates (RunWorld.Agree V) (Concur (Cursor.Mirrors r.workflow)) (r.save c record)
      (r'.save c' record') := by
  intro w w' hw
  obtain ⟨result, t, hs⟩ : ∃ result t, r.Saves c record w result t := ⟨_, _, rfl⟩
  obtain ⟨result', t', hs'⟩ : ∃ result t, r'.Saves c' record' w' result t := ⟨_, _, rfl⟩
  have hid : (r'.checkpointAt c' record' w'.world).id = (r.checkpointAt c record w.world).id := by
    unfold checkpointAt
    rw [h.threadId_eq, hw.issued]
  obtain ⟨hresult, hcontents⟩ := h.keyed (r.checkpointAt c record w.world)
    (r'.checkpointAt c' record' w'.world) _ _ h.threadId_eq h.checkpointNs_eq hid hw.archive
  have hsaved : r.archive.save (r'.checkpointAt c' record' w'.world) w'.archive =
      (result', t') := by
    rw [← h.archive_eq]
    exact hs'
  rw [show r.archive.save _ _ = _ from hs, hsaved] at hresult hcontents
  rw [r.save_apply hs, r'.save_apply hs']
  refine ⟨?_, hcontents, congrArg (· + 1) hw.issued, hw.awake, hw.awake'⟩
  obtain rfl : result = result' := hresult
  cases result with
  | error e => exact .error _ _
  | ok id =>
    exact .ok ⟨hc.store_eq, hc.frontier_perm, hc.deferred_perm, hc.step_eq, hc.budget_eq, hc.placed,
      hc.schema_eq⟩

theorem begin (input environment : Json) :
    Relates (RunWorld.Agree V) (Stage.Mirrors r.workflow f) (r.begin (.fresh input environment))
      (r'.begin (.fresh input environment)) := by
  have hfresh : r'.freshStore = r.freshStore := congrArg Store.fresh h.workflow.schema_eq
  have hcursor : (r.freshCursor input environment).Mirrors r.workflow
      (r'.freshCursor input environment) := by
    refine ⟨?_, ?_, .refl _, rfl, h.limit_eq, h.entry, rfl⟩
    · exact congrArg (·.withInputs input environment) hfresh
    · rw [show (r'.freshCursor input environment).frontier = r.workflow.entry from
        h.workflow.entry_eq]
      exact .refl _
  refine .bind_eq (report _ _) fun _ => ?_
  refine .bind (h.save hcursor _ _) ?_
  rintro _ _ (hc | ⟨e, e'⟩)
  · exact .pure (.ready hc)
  · have hstate : r'.blankCursor.store.state = r.blankCursor.store.state :=
      congrArg Store.state hfresh
    have hstep : r'.blankCursor.step = r.blankCursor.step := rfl
    exact fail hstate hstep e e'

/-- The nodes of a step give back the same, whatever the order in which they run. -/
theorem runNodes (hc : c.Mirrors r.workflow c') (base : Nat) :
    Relates (RunWorld.Agree V) (f.PassAlike c c')
      (perform (r.runNodes c base (r.order (c.step + 1) c.frontier.length)))
      (perform (r'.runNodes c' base (r'.order (c'.step + 1) c'.frontier.length))) := by
  intro w w' hw
  obtain ⟨hb, hawake, hissued⟩ := h.functional.runNodes c base
    (h.order (c.step + 1) c.frontier.length) hc.known hw.awake
  obtain ⟨hb', hawake', hissued'⟩ := (h.functional.mirrored h.workflow).runNodes c' base
    (h.order' (c'.step + 1) c'.frontier.length) (hc.known' h.workflow) hw.awake'
  refine ⟨?_, hw.archive, hissued.trans (hw.issued.trans hissued'.symm), hawake, hawake'⟩
  show Concur _ (barrier c.frontier (r.runNodes c base (r.order (c.step + 1) _) w.world).1)
    (barrier c'.frontier (r'.runNodes c' base (r'.order (c'.step + 1) _) w'.world).1)
  rw [hb, hb', hc.store_eq]
  exact f.passed_perm c.store.state hc.frontier_perm

theorem runFrontier (hc : c.Mirrors r.workflow c') :
    Relates (RunWorld.Agree V) (Stage.Mirrors r.workflow f) (r.runFrontier c)
      (r'.runFrontier c') := by
  have hnone : (c.frontier.find? fun key => !r.workflow.contains key) = none :=
    List.find?_eq_none.mpr fun key hkey => by simp [hc.known key hkey]
  have hnone' : (c'.frontier.find? fun key => !r'.workflow.contains key) = none :=
    List.find?_eq_none.mpr fun key hkey => by simp [hc.known' h.workflow key hkey]
  have hnodes := h.runNodes hc
  unfold Runner.runFrontier
  rw [hnone, hnone']
  rw [← hc.frontier_perm.length_eq] at hnodes ⊢
  refine .bind_eq (reserve _) fun base => .bind_eq wait fun _ => ?_
  exact .bind (hnodes base) fun _ _ hb => .bind_eq wait fun _ => .pure (.running hc hb)

theorem dispatch (hc : c.Mirrors r.workflow c') :
    Relates (RunWorld.Agree V) (Stage.Mirrors r.workflow f) (r.dispatch c) (r'.dispatch c') := by
  unfold Runner.dispatch
  rw [← hc.frontier_perm.isEmpty_eq]
  split
  · exact stop hc.state_eq hc.step_eq _ _
  · refine .bind_eq isCancelled fun cancelled => ?_
    cases cancelled with
    | true => exact stop hc.state_eq hc.step_eq _ _
    | false =>
      rw [if_neg Bool.false_ne_true, if_neg Bool.false_ne_true, hc.budget_eq]
      cases c.budget with
      | zero => exact fail hc.state_eq hc.step_eq _ _
      | succ budget =>
        dsimp only
        rw [r.pauseAhead?_eq_none _ h.before, r'.pauseAhead?_eq_none _ h.before']
        exact h.runFrontier ⟨hc.store_eq, hc.frontier_perm, hc.deferred_perm, hc.step_eq, rfl,
          hc.placed, hc.schema_eq⟩

omit h in
theorem gather (hc : c.Mirrors r.workflow c') {arrivals arrivals' : Arrivals}
    (hb : f.PassAlike c c' arrivals arrivals') :
    Relates (RunWorld.Agree V) (Stage.Mirrors r.workflow f) (r.gather c arrivals)
      (r'.gather c' arrivals') := by
  unfold Runner.gather
  refine .bind_eq isCancelled fun cancelled => ?_
  cases cancelled with
  | true => exact stop hc.state_eq hc.step_eq _ _
  | false =>
    rw [if_neg Bool.false_ne_true, if_neg Bool.false_ne_true]
    unfold Answers.PassAlike at hb
    generalize barrier c.frontier arrivals = passed at hb
    generalize barrier c'.frontier arrivals' = passed' at hb
    cases hb with
    | ok hg => exact .pure (.accepted hc hg.1 hg.2)
    | error e e' => exact .bind_eq (report _ _) fun _ => fail hc.state_eq hc.step_eq _ _

section Settling

variable {outputs outputs' : List NodeOutput}

/-- The nodes of a step write the same, in another order at most. -/
theorem writeAll (hc : c.Mirrors r.workflow c') (hg : f.Given c.frontier c.store.state outputs)
    (hg' : f.Given c'.frontier c.store.state outputs') (step step' : Nat) :
    Relates (RunWorld.Agree V)
      (fun written written' => ∃ store, store.schema = r.workflow.schema ∧
        written = (store, none) ∧ written' = (store, none))
      (r.writeAll step c.store (c.frontier.zip outputs))
      (r'.writeAll step' c'.store (c'.frontier.zip outputs')) := by
  have hperm := hg.zip_perm hg' hc.frontier_perm
  have hseparate := h.functional.separate hc.placed.frontier_nodup hc.placed.frontier_known hg
  obtain ⟨store, hs⟩ := h.functional.exists_writeOutputs hc.placed.frontier_known hg
    hseparate.writes hc.schema_eq
  have hs' := hseparate.writeOutputs_perm hperm hs
  rw [← h.workflow.writeOutputs_eq (hseparate.perm hperm).writes] at hs'
  intro w w' hw
  obtain ⟨log, hlog⟩ := r.writeAll_apply step c.store (c.frontier.zip outputs) w
  obtain ⟨log', hlog'⟩ := r'.writeAll_apply step' c'.store (c'.frontier.zip outputs') w'
  rw [hlog, hlog', hs, hc.store_eq, hs']
  exact ⟨⟨store, (Workflow.writeOutputs_schema hs).trans hc.schema_eq, rfl, rfl⟩, hw.archive,
    hw.issued, hw.awake, hw.awake'⟩

theorem route (hc : c.Mirrors r.workflow c') {record record' : StepRecord}
    (hran : record.ranNodes.Perm record'.ranNodes) (hrecord : record.handoffs = [])
    (hrecord' : record'.handoffs = []) :
    Relates (RunWorld.Agree V) (Stage.Mirrors r.workflow f) (r.route c record none)
      (r'.route c' record' none) := by
  have hcandidates := h.workflow.candidates_perm hran c.store.state
  unfold Runner.route
  rw [hrecord, hrecord', hc.store_eq]
  generalize hr : r.workflow.candidates record.ranNodes [] c.store.state = found at hcandidates
  generalize r'.workflow.candidates record'.ranNodes [] c.store.state = found' at hcandidates
  cases hcandidates with
  | error e e' => exact fail hc.state_eq hc.step_eq _ _
  | @ok routed routed' hperm =>
    have hnext := perm_appendNew hperm hc.deferred_perm (Workflow.candidates_nodup hr)
    obtain ⟨hready, hheld⟩ := h.workflow.holdJoins_perm hnext
    have hplaced := Workflow.placed_routed hr fun key hkey => hc.placed.deferred_known hkey
    dsimp only
    generalize r.workflow.holdJoins (appendNew routed c.deferred) = split at hready hheld hplaced
    generalize r'.workflow.holdJoins (appendNew routed' c'.deferred) = split' at hready hheld
    exact .pure (.ready ⟨rfl, hready, hheld, hc.step_eq, hc.budget_eq, hplaced, hc.schema_eq⟩)

theorem settle (hc : c.Mirrors r.workflow c') (hg : f.Given c.frontier c.store.state outputs)
    (hg' : f.Given c'.frontier c.store.state outputs') :
    Relates (RunWorld.Agree V) (Stage.Mirrors r.workflow f) (r.settle c outputs)
      (r'.settle c' outputs') := by
  have hseparate := h.functional.separate hc.placed.frontier_nodup hc.placed.frontier_known hg
  have hseparate' := hseparate.perm (hg.zip_perm hg' hc.frontier_perm)
  unfold Runner.settle
  refine .bind (h.writeAll hc hg hg' _ _) ?_
  rintro _ _ ⟨store, hschema, rfl, rfl⟩
  have hstepped : (c.stepped store).Mirrors r.workflow (c'.stepped store) :=
    ⟨rfl, hc.frontier_perm, hc.deferred_perm, congrArg (· + 1) hc.step_eq, hc.budget_eq, hc.placed,
      hschema⟩
  refine .bind (h.save hstepped _ _) ?_
  rintro _ _ (hsaved | ⟨e, e'⟩)
  · dsimp only
    rw [pauseBehind?_eq_none h.after hseparate.interrupt_eq_none,
      pauseBehind?_eq_none h.after' hseparate'.interrupt_eq_none]
    exact h.route hsaved hc.frontier_perm (handoffsOf_eq_nil hseparate.handoff_eq_none)
      (handoffsOf_eq_nil hseparate'.handoff_eq_none)
  · exact fail hstepped.state_eq hstepped.step_eq e e'

end Settling

theorem advance {stage stage' : Stage} (hs : stage.Mirrors r.workflow f stage') :
    Relates (RunWorld.Agree V) (Stage.Mirrors r.workflow f) (r.advance stage)
      (r'.advance stage') := by
  cases hs with
  | waiting input environment => exact h.begin input environment
  | ready hc => exact h.dispatch hc
  | running hc hb => exact gather hc hb
  | accepted hc hg hg' => exact h.settle hc hg hg'
  | ended ho => exact .pure (.ended ho)

/-- However many moves both make, they come to stages that correspond, and the steps that have begun
on the way have the same nodes. -/
theorem moves (n : Nat) {stage stage' : Stage} (hs : stage.Mirrors r.workflow f stage')
    {w w' : RunWorld σ τ} (hw : w.Agree V w') :
    (r.moves n stage w).1.Mirrors r.workflow f (r'.moves n stage' w').1 ∧
      List.Forall₂ List.Perm (r.frontiers n stage w) (r'.frontiers n stage' w') := by
  induction n generalizing stage stage' w w' with
  | zero => exact ⟨hs, .nil⟩
  | succ n ih =>
    obtain ⟨hs', hw'⟩ := h.advance hs w w' hw
    obtain ⟨hmoves, hfrontiers⟩ := ih hs' hw'
    rw [moves_succ, moves_succ]
    unfold frontiers
    exact ⟨hmoves, List.rel_append hs'.begun hfrontiers⟩

end Mirrors

end Runner

/-- The order in which the connections of a description are given makes no difference, if there are
no agents and the services of the host are functions of their arguments. Either order is fit to run
or neither is. Fresh runs of both workflows with the same input and the same environment, without
pauses and with nobody to cancel them, end with the same status in the same state after the same
number of steps, and each step has the same nodes. -/
theorem links_order_invisible {ws : Workshop σ} {g g' : Description} (hg : g.Reordered g')
    (hstandard : ∀ n ∈ g.nodes, ws.makers.resolve n.typeKey = standardMakers.resolve n.typeKey)
    (hagents : ∀ n ∈ g.nodes, n.kind ≠ .agent) (hservices : ws.services.Functional)
    (site : List String) :
    (compile ws g site).isOk = (compile ws g' site).isOk ∧
    ∀ w', compile ws g' site = .ok w' → ∀ (r : Runner σ τ) (graphId : String)
      (order : Nat → Nat → List Nat) (V : τ → τ → Prop), compile ws g site = .ok r.workflow →
      r.pauseBefore = [] → r.pauseAfter = [] → r.archive.Keyed V →
      (∀ step count, (r.order step count).Perm (List.range count)) →
      (∀ step count, (order step count).Perm (List.range count)) →
      let r' := { r with graphId := graphId, workflow := w', order := order }
      ∀ (input environment : Json) (world world' : RunWorld σ τ), world.Agree V world' →
        let start : RunStart := .fresh input environment
        ∃ o o', (r.run start world).1 = some o ∧ (r'.run start world').1 = some o' ∧
          o'.status = o.status ∧ o'.steps = o.steps ∧ o'.state = o.state ∧
          List.Forall₂ List.Perm
            (r.frontiers (Runner.enoughMoves r.limit) (.waiting start) world)
            (r'.frontiers (Runner.enoughMoves r.limit) (.waiting start) world') := by
  have hcompiled := compile_mirrors hg hstandard hagents site
  refine ⟨hcompiled.isOk_eq, ?_⟩
  intro w' hw' r graphId order V hw hbefore hafter hkeyed horder horder' r' input environment
    world world' hworld start
  rw [hw, hw'] at hcompiled
  cases hcompiled with
  | ok hmirrors =>
    have : Nonempty σ := ⟨world.world.host⟩
    obtain ⟨f, hf⟩ := compile_functional hstandard hagents hservices hw
    have hreflects := compile_reflects hw
    have hrunners : r.Mirrors r' f V :=
      ⟨hmirrors, hf, .of_frontier hreflects.entry_nodup hreflects.entry_known, rfl, hkeyed, rfl,
        rfl, rfl, hbefore, hbefore, hafter, hafter, horder, horder'⟩
    obtain ⟨hstages, hfrontiers⟩ := hrunners.moves (Runner.enoughMoves r.limit)
      (.waiting input environment) hworld
    obtain ⟨o, ho, hrun⟩ := Runner.run_ends (r := r) start world
    obtain ⟨o', ho', hrun'⟩ := Runner.run_ends (r := r') start world'
    rw [ho, show (r'.moves (Runner.enoughMoves r.limit) _ world').1 = _ from ho'] at hstages
    cases hstages with
    | ended houtcomes =>
      exact ⟨o, o', hrun, hrun', houtcomes.status_eq, houtcomes.steps_eq, houtcomes.state_eq,
        hfrontiers⟩

/-! ## The uneven branches the other way round -/

/-- The uneven branches with their connections in the opposite order. -/
def contraryFork : Description := { unevenFork with links := unevenFork.links.reverse }

/-- The workflow of the connections in the opposite order. -/
def contraryWorkflow : Workflow Unit :=
  match compile inputShop contraryFork [] with
  | .ok w => w
  | .error _ => ⟨[], [], []⟩

theorem compile_contraryFork : compile inputShop contraryFork [] = .ok contraryWorkflow :=
  eq_ok_of_isOk ⟨[], [], []⟩ (by decide +kernel)

/-- A run through the branches with their connections in the opposite order. -/
def contraryRunner : Runner Unit Chains :=
  { unevenRunner with graphId := "contrary", workflow := contraryWorkflow, order := backwardOrder }

theorem links_order_invisible_uneven :
    let world : RunWorld Unit Chains := ⟨.start (), []⟩
    let start : RunStart := .fresh .null .null
    unevenFork.Reordered contraryFork ∧
      (∀ n ∈ unevenFork.nodes,
        inputShop.makers.resolve n.typeKey = standardMakers.resolve n.typeKey) ∧
      (∀ n ∈ unevenFork.nodes, n.kind ≠ .agent) ∧ inputShop.services.Functional ∧
      compile inputShop unevenFork [] = .ok unevenWorkflow ∧
      compile inputShop contraryFork [] = .ok contraryWorkflow ∧
      Archive.memory.Keyed (fun cs cs' => cs.ids = cs'.ids) ∧
      world.Agree (fun cs cs' => cs.ids = cs'.ids) world ∧
      (∃ o o', (unevenRunner.run start world).1 = some o ∧
        (contraryRunner.run start world).1 = some o' ∧ o'.status = o.status ∧
        o'.steps = o.steps ∧ o'.state = o.state) ∧
      unevenRunner.frontiers 17 (.waiting start) world = [["s"], ["a", "b"], ["c"], ["j"]] ∧
      contraryRunner.frontiers 17 (.waiting start) world = [["s"], ["b", "a"], ["c"], ["j"]] := by
  intro world start
  have hg : unevenFork.Reordered contraryFork :=
    ⟨rfl, rfl, unevenFork.links.reverse_perm.symm⟩
  have hstandard : ∀ n ∈ unevenFork.nodes,
      inputShop.makers.resolve n.typeKey = standardMakers.resolve n.typeKey := by
    intro n hn
    obtain ⟨key, -, rfl⟩ := List.mem_map.mp hn
    rfl
  have hagents : ∀ n ∈ unevenFork.nodes, n.kind ≠ .agent := by
    intro n hn
    obtain ⟨key, -, rfl⟩ := List.mem_map.mp hn
    exact nofun
  have hservices : inputShop.services.Functional := ⟨nofun, nofun, nofun⟩
  have hforward : ∀ step count, (unevenRunner.order step count).Perm (List.range count) :=
    fun _ _ => .refl _
  have hbackward : ∀ step count, (backwardOrder step count).Perm (List.range count) :=
    fun _ count => (List.range count).reverse_perm
  have hworld : world.Agree (fun cs cs' => cs.ids = cs'.ids) world := ⟨rfl, rfl, rfl, rfl⟩
  obtain ⟨o, o', ho, ho', hstatus, hsteps, hstate, -⟩ :=
    (links_order_invisible hg hstandard hagents hservices []).2 contraryWorkflow
      compile_contraryFork unevenRunner "contrary" backwardOrder _ compile_unevenFork rfl rfl
      Archive.memory_keyed hforward hbackward .null .null world world hworld
  refine ⟨hg, hstandard, hagents, hservices, compile_unevenFork, compile_contraryFork,
    Archive.memory_keyed, hworld, ⟨o, o', ho, ho', hstatus, hsteps, hstate⟩, ?_, ?_⟩
  · decide +kernel
  · decide +kernel

end Workgraph
