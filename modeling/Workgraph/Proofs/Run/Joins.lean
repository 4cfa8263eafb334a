import Workgraph.Proofs.Checkpoint.Fresh
import Workgraph.Proofs.Run.Ending
import Workgraph.Proofs.Run.Levels
import Workgraph.Proofs.Run.Recording
import Workgraph.Proofs.Run.Step
import Workgraph.Proofs.Run.Writing
/-!
# Joins in acyclic workflows

In a workflow without cycles every node runs at most once, and a join runs behind all of its inputs
that run at all. Where the nodes cause no trouble of their own, such a run completes, in no more
steps than there are nodes.

## Main definitions

- `WorkNode.Quiet`: nodes that cause no trouble
- `Workflow.Marches`, `Runner.Thrives`: where a run through an acyclic workflow stands

## Main statements

- `joins_run_once_and_last`: the steps of a run through an acyclic workflow
-/

namespace Workgraph

open Relation

variable {σ τ : Type}

/-- A node is quiet if it always gives something back, asks for no transfer and no pause, and
neither cancels the run nor takes back numbers that have been drawn. -/
structure WorkNode.Quiet (n : WorkNode σ) : Prop where
  answers : ∀ ctx s world, ∃ out, (n.run ctx s world).1 = .ok out ∧ out.handoff = none ∧
    out.interrupt = none
  goes_on : ∀ ctx s world, world.cancelled = false → (n.run ctx s world).2.cancelled = false
  issued_le : ∀ ctx s world, world.issued ≤ (n.run ctx s world).2.issued

/-! ## Quiet steps -/

namespace Workflow

variable {ws : Workshop σ} {g : Description} {site : List String} {w : Workflow σ}

/-- No node chooses where a run continues, other than along its plain edges. -/
def Unguided (w : Workflow σ) : Prop := ∀ n ∈ w.nodes, n.navigator = none

theorem targets_of_node? {key : String} {n : WorkNode σ} (h : w.node? key = some n)
    (s : Snapshot) : w.targets [] s key = .ok (n.route s).targets := by
  unfold targets
  rw [h]
  rfl

section Routed

variable {ran routed : List String} {s : Snapshot}

/-- Without transfers, a step leads to successors only. -/
theorem leads_of_candidates (hw : Reflects ws g site w) (hbare : g.BareTargets)
    (hchooses : ∀ n ∈ w.nodes, n.ChoosesEdges g) (h : w.candidates ran [] s = .ok routed) :
    ∀ t ∈ routed, ∃ x ∈ ran, w.Leads x t := by
  intro t ht
  obtain ⟨x, hx, ts, hts, ht⟩ := (mem_candidates h).mp ht
  cases hn : w.node? x with
  | none =>
    unfold targets at hts
    rw [hn] at hts
    cases hts
  | some n =>
    rw [targets_of_node? hn] at hts
    cases hts
    have hmem := (node?_eq_some hn).1
    exact ⟨x, hx, n, hn, hw.route_subset hbare hmem (hchooses n hmem) s ht⟩

/-- Without transfers, a step leads somewhere if its nodes are known. -/
theorem exists_candidates (hw : Reflects ws g site w) (hbare : g.BareTargets)
    (hchooses : ∀ n ∈ w.nodes, n.ChoosesEdges g) (hran : ∀ key ∈ ran, key ∈ w.keys) :
    ∃ routed, w.candidates ran [] s = .ok routed := by
  have hall : ∀ key ∈ ran, ∃ ts, w.knownTargets [] s key = .ok ts := by
    intro key hk
    obtain ⟨n, hn⟩ := exists_node_of_mem_keys (hran key hk)
    have hmem := (node?_eq_some hn).1
    refine ⟨_, knownTargets_eq_ok_iff.mpr ⟨targets_of_node? hn s, ?_⟩⟩
    intro t ht
    exact hw.successors_known hmem (hw.route_subset hbare hmem (hchooses n hmem) s ht)
  obtain ⟨tss, htss⟩ := exists_forall₂ hall
  exact ⟨_, candidates_eq_ok_iff.mpr ⟨tss, mapM_eq_ok_iff.mpr htss, rfl⟩⟩

/-- Without transfers and navigators, a step leads exactly along the plain edges. -/
theorem mem_candidates_iff_follows (hplain : w.Unguided) (hran : ∀ key ∈ ran, key ∈ w.keys)
    (h : w.candidates ran [] s = .ok routed) {t : String} :
    t ∈ routed ↔ ∃ x ∈ ran, w.Follows x t := by
  rw [mem_candidates h]
  constructor
  · rintro ⟨x, hx, ts, hts, ht⟩
    obtain ⟨n, hn⟩ := exists_node_of_mem_keys (hran x hx)
    rw [targets_of_node? hn] at hts
    cases hts
    unfold WorkNode.route at ht
    rw [hplain n (node?_eq_some hn).1] at ht
    dsimp only at ht
    rw [Route.targets_ofTargets] at ht
    exact ⟨x, hx, n, hn, ht⟩
  · rintro ⟨x, hx, n, hn, ht⟩
    refine ⟨x, hx, _, targets_of_node? hn s, ?_⟩
    unfold WorkNode.route
    rw [hplain n (node?_eq_some hn).1]
    dsimp only
    rwa [Route.targets_ofTargets]

end Routed

end Workflow

namespace Runner

variable {ws : Workshop σ} {g : Description} {site : List String} {r : Runner σ τ}

/-- Quiet nodes give back neither transfers nor pauses. -/
theorem Gave.quiet {c : Cursor} {outputs : List NodeOutput} (h : r.Gave c outputs)
    (hquiet : ∀ n ∈ r.workflow.nodes, n.Quiet) :
    ∀ p ∈ c.frontier.zip outputs, p.2.handoff = none ∧ p.2.interrupt = none := by
  refine h.induct (motive := fun _ out => out.handoff = none ∧ out.interrupt = none) ?_
  intro n hn ctx s world out hout
  obtain ⟨out', hout', hhandoff, hinterrupt⟩ := (hquiet n hn).answers ctx s world
  cases hout.symm.trans hout'
  exact ⟨hhandoff, hinterrupt⟩

theorem Gave.handoffsOf_eq_nil {c : Cursor} {outputs : List NodeOutput} (h : r.Gave c outputs)
    (hquiet : ∀ n ∈ r.workflow.nodes, n.Quiet) : handoffsOf (c.frontier.zip outputs) = [] :=
  Workgraph.handoffsOf_eq_nil fun p hp => (h.quiet hquiet p hp).1

end Runner

/-! ## The march through an acyclic workflow -/

namespace Workflow

/-- Where a run stands behind some steps, in front of a frontier and the joins that wait. -/
structure AtLevel (w : Workflow σ) (past : List (List String)) (frontier deferred : List String) :
    Prop where
  orderly : w.Orderly past
  ahead : w.Ahead past.flatten frontier deferred
  spread : w.Unguided → w.Spread past.flatten frontier deferred

/-- How a stage of a run goes with the steps begun so far. -/
def Marches (w : Workflow σ) (fs : List (List String)) : Stage → Prop
  | .waiting (.fresh _ _) => fs = []
  | .waiting (.resume _ _) => False
  | .ready c => w.AtLevel fs c.frontier c.deferred
  | .running c _ => c.frontier ≠ [] ∧
    ∃ past, fs = past ++ [c.frontier] ∧ w.AtLevel past c.frontier c.deferred
  | .accepted c _ => c.frontier ≠ [] ∧
    ∃ past, fs = past ++ [c.frontier] ∧ w.AtLevel past c.frontier c.deferred
  | .ended o => w.Orderly fs ∧ (o.status = .completed → w.Unguided → w.Spread fs.flatten [] [])

theorem Marches.orderly {w : Workflow σ} {fs : List (List String)} {stage : Stage}
    (h : w.Marches fs stage) : w.Orderly fs := by
  cases stage with
  | waiting start =>
    cases start with
    | fresh input environment =>
      rw [show fs = [] from h]
      exact .nil
    | resume cp input => exact h.elim
  | ready c => exact AtLevel.orderly h
  | running c arrivals =>
    obtain ⟨hne, past, rfl, hpast⟩ := h
    exact hpast.orderly.snoc hpast.ahead hne
  | accepted c outputs =>
    obtain ⟨hne, past, rfl, hpast⟩ := h
    exact hpast.orderly.snoc hpast.ahead hne
  | ended o => exact h.1

end Workflow

namespace Runner

variable {ws : Workshop σ} {g : Description} {site : List String} {r : Runner σ τ}

section March

variable (hw : Reflects ws g site r.workflow) (hbare : g.BareTargets) (hac : r.workflow.Acyclic)
  (hentry : ∀ a, ∀ b ∈ r.workflow.entry, ¬ r.workflow.Leads a b)
  (hchooses : ∀ n ∈ r.workflow.nodes, n.ChoosesEdges g)
  (hquiet : ∀ n ∈ r.workflow.nodes, n.Quiet)

include hw hbare hac hchooses hquiet in
/-- A step leads from one level to the next. -/
theorem Gave.next_level {past : List (List String)} {c : Cursor} {outputs : List NodeOutput}
    {s : Snapshot} {routed : List String} (h : r.Gave c outputs)
    (hpast : r.workflow.AtLevel past c.frontier c.deferred) (hne : c.frontier ≠ [])
    (hr : r.workflow.candidates c.frontier (handoffsOf (c.frontier.zip outputs)) s = .ok routed) :
    r.workflow.AtLevel (past ++ [c.frontier])
      (r.workflow.holdJoins (appendNew routed c.deferred)).1
      (r.workflow.holdJoins (appendNew routed c.deferred)).2 := by
  rw [h.handoffsOf_eq_nil hquiet] at hr
  have hflat : (past ++ [c.frontier]).flatten = past.flatten ++ c.frontier := by simp
  have hknown := hpast.ahead.placed.frontier_known
  refine ⟨hpast.orderly.snoc hpast.ahead hne, ?_, ?_⟩
  · rw [hflat]
    exact hpast.ahead.step hw hac (Workflow.candidates_nodup hr) (Workflow.candidates_known hr)
      (Workflow.leads_of_candidates hw hbare hchooses hr)
  · intro hplain
    rw [hflat]
    exact (hpast.spread hplain).step fun t =>
      Workflow.mem_candidates_iff_follows hplain hknown hr

include hw hbare hac hentry hchooses hquiet in
/-- Every move keeps to the march. -/
theorem Move.marches {fs : List (List String)} {stage stage' : Stage} {world world' : RunWorld σ τ}
    (h : r.Move stage world stage' world') (hp : r.Performed stage)
    (hm : r.workflow.Marches fs stage) : r.workflow.Marches (fs ++ stage'.begun) stage' := by
  have horderly := hm.orderly
  cases h with
  | begun log hs =>
    rw [show fs = [] from hm]
    exact ⟨.nil, .of_entry hw hentry, fun _ => .of_entry⟩
  | resumed log hc => exact hm.elim
  | completed log hf =>
    refine ⟨by simpa [Stage.begun] using horderly, ?_⟩
    intro _ hplain
    have hspread := Workflow.AtLevel.spread hm hplain
    have hd := (Workflow.AtLevel.ahead hm).placed.runs hf
    rw [hf, hd] at hspread
    simpa [Stage.begun] using hspread
  | dispatched log log' hf => exact ⟨hf, fs, rfl, hm⟩
  | accepted hworld hb =>
    obtain ⟨hne, past, rfl, hpast⟩ := hm
    exact ⟨hne, past, by simp [Stage.begun], hpast⟩
  | settled log ho hs hr hi =>
    obtain ⟨hne, past, rfl, hpast⟩ := hm
    have hlevel := Gave.next_level hw hbare hac hchooses hquiet hp hpast hne hr
    simp only [Stage.begun, List.append_nil]
    exact hlevel
  | rested => simpa [Stage.begun] using hm
  | _ =>
    refine ⟨by simpa [Stage.begun] using horderly, ?_⟩
    intro hstatus
    simp [failedAt, outcomeAt] at hstatus

end March

/-! ## Nothing stops a quiet run -/

/-- A run that nothing has stopped: it is not cancelled, its next identifier is fresh, and it has
begun as many steps as its budget has lost; the results of a step are all there. -/
def Thrives (r : Runner σ τ) (fresh : Nat → τ → Prop) (fs : List (List String)) :
    Stage → RunWorld σ τ → Prop
  | .waiting _, world => world.world.cancelled = false ∧ fresh world.world.issued world.archive
  | .ready c, world => world.world.cancelled = false ∧ fresh world.world.issued world.archive ∧
    c.budget + fs.length = r.limit ∧ c.store.schema = r.workflow.schema
  | .running c arrivals, world =>
    world.world.cancelled = false ∧ fresh world.world.issued world.archive ∧
      c.budget + fs.length = r.limit ∧ c.store.schema = r.workflow.schema ∧
      ∀ index < c.frontier.length, ∃ result, (index, result) ∈ arrivals
  | .accepted c _, world =>
    world.world.cancelled = false ∧ fresh world.world.issued world.archive ∧
      c.budget + fs.length = r.limit ∧ c.store.schema = r.workflow.schema
  | .ended o, _ => o.status = .completed

section Thrive

variable {fresh : Nat → τ → Prop}
  (htakes : r.archive.Takes r.threadId r.checkpointNs fresh)

include htakes in
/-- Whatever is saved under a fresh identifier is taken. -/
theorem Saves.taken {c : Cursor} {record : StepRecord} {world : RunWorld σ τ}
    {result : Except ArchiveError String} {t : τ} (h : r.Saves c record world result t)
    (hf : fresh world.world.issued world.archive) :
    (∃ id, result = .ok id) ∧ fresh (world.world.issued + 1) t := by
  obtain ⟨id, t', hs, hf'⟩ := htakes.save (r.checkpointAt c record world.world) hf rfl rfl rfl
  cases h.symm.trans hs
  exact ⟨⟨id, rfl⟩, hf'⟩

variable (hw : Reflects ws g site r.workflow) (hbare : g.BareTargets)
  (hchooses : ∀ n ∈ r.workflow.nodes, n.ChoosesEdges g)
  (hquiet : ∀ n ∈ r.workflow.nodes, n.Quiet)
  (hwrites : ∀ n ∈ r.workflow.nodes, ∀ ctx s world out,
    (n.run ctx s world).1 = .ok out → r.workflow.Writable n.key out)
  (hbefore : r.pauseBefore = []) (hafter : r.pauseAfter = [])
  (hlimit : r.workflow.nodes.length ≤ r.limit)
  (horder : ∀ step count, ∀ index < count, index ∈ r.order step count)

include hwrites in
/-- What the nodes of a step gave back can be written. -/
theorem Gave.writable {c : Cursor} {outputs : List NodeOutput} (h : r.Gave c outputs) :
    ∀ p ∈ c.frontier.zip outputs, r.workflow.Writable p.1 p.2 :=
  h.induct (motive := r.workflow.Writable) hwrites

include hquiet in
/-- Quiet nodes do not fail. -/
theorem Ran.good {c : Cursor} {arrivals : Arrivals} (h : r.Ran c arrivals) :
    ∀ p ∈ arrivals, ∃ out, p.2 = .ok out := by
  intro p hp
  obtain ⟨n, hn, execution, before, hrun⟩ := h p hp
  obtain ⟨key, -, hkey⟩ := Option.bind_eq_some_iff.mp hn
  obtain ⟨out, hout, -⟩ := (hquiet n (Workflow.node?_eq_some hkey).1).answers
    (r.contextOf c n.key execution) c.store.state before
  exact ⟨out, hrun.symm.trans hout⟩

include htakes hw hbare hchooses hquiet hwrites hbefore hafter hlimit horder in
/-- Nothing stops a quiet run before it is complete. -/
theorem Move.thrives {fs : List (List String)} {stage stage' : Stage} {world world' : RunWorld σ τ}
    (h : r.Move stage world stage' world') (hp : r.Performed stage)
    (hm : r.workflow.Marches fs stage) (ht : r.Thrives fresh fs stage world) :
    r.Thrives fresh (fs ++ stage'.begun) stage' world' := by
  cases h with
  | begun log hs =>
    obtain ⟨hcancelled, hfresh⟩ := ht
    obtain ⟨-, hfresh'⟩ := hs.taken htakes hfresh
    rw [show fs = [] from hm]
    exact ⟨hcancelled, hfresh', rfl, rfl⟩
  | beginRefused log hs =>
    obtain ⟨⟨id, hid⟩, -⟩ := hs.taken htakes ht.2
    cases hid
  | resumed log hc => exact hm.elim
  | resumeFailed log he => exact hm.elim
  | completed log hf => rfl
  | canceled log hf hcancelled =>
    rw [ht.1] at hcancelled
    cases hcancelled
  | @exhausted _ c log hf hcancelled hb =>
    obtain ⟨-, -, hbudget, -⟩ := ht
    -- A further step would be one more than there are nodes, but the budget allows for all of them.
    have hsteps := ((Workflow.AtLevel.orderly hm).snoc (Workflow.AtLevel.ahead hm) hf).length_le
    rw [List.length_append, List.length_singleton] at hsteps
    omega
  | pausedAhead log hf hcancelled hb hpause =>
    rw [pauseAhead?_eq_none _ hbefore] at hpause
    cases hpause
  | pauseAheadRefused log hf hcancelled hb hpause =>
    rw [pauseAhead?_eq_none _ hbefore] at hpause
    cases hpause
  | strayNode log hcancelled hb hpause hk hn =>
    have hknown := Workflow.contains_iff.mpr
      ((Workflow.AtLevel.ahead hm).placed.frontier_known _ hk)
    rw [hknown] at hn
    cases hn
  | @dispatched _ c budget arrivals after log log' hf hcancelled hb hpause hk ha =>
    obtain ⟨-, hfresh, hbudget, hschema⟩ := ht
    -- The nodes leave the run uncancelled and draw identifiers upwards only.
    have hafter := r.runNodes_world (motive := fun w => w.cancelled = false ∧
        world.world.issued ≤ w.issued) (fun _ _ h => h)
      (fun n hn ctx s w h => ⟨(hquiet n hn).goes_on ctx s w h.1,
        h.2.trans ((hquiet n hn).issued_le ctx s w)⟩)
      (c.entered budget) world.world.issued (r.order (c.step + 1) c.frontier.length)
      (world.turn c.frontier.length world.archive log).world
      ⟨hcancelled, Nat.le_add_right _ _⟩
    have hall := runNodes_all (c := c.entered budget) world.world.issued
      (world.turn c.frontier.length world.archive log).world
      (horder (c.step + 1) c.frontier.length) hk
    change ∀ index < c.frontier.length, _ at hall
    rw [ha] at hafter hall
    refine ⟨hafter.1, htakes.mono hafter.2 hfresh, ?_, hschema, hall⟩
    show budget + (fs ++ [c.frontier]).length = r.limit
    rw [List.length_append, List.length_singleton]
    omega
  | dropped log hcancelled =>
    rw [ht.1] at hcancelled
    cases hcancelled
  | nodeFailed log hcancelled hb =>
    obtain ⟨-, -, -, -, hall⟩ := ht
    obtain ⟨outputs, hok⟩ := exists_barrier hall (Ran.good hquiet hp)
    cases hb.symm.trans hok
  | accepted hcancelled hb =>
    obtain ⟨-, hfresh, hbudget, hschema, -⟩ := ht
    simp only [Stage.begun, List.append_nil]
    exact ⟨hcancelled, hfresh, hbudget, hschema⟩
  | writeFailed log ho =>
    obtain ⟨-, -, -, hschema⟩ := ht
    obtain ⟨store, hok⟩ := Workflow.exists_writeOutputs (Gave.writable hwrites hp) hschema
    cases ho.symm.trans hok
  | stepRefused log ho hs =>
    obtain ⟨⟨id, hid⟩, -⟩ := hs.taken htakes ht.2.1
    cases hid
  | routeFailed log ho hs hr =>
    obtain ⟨-, past, -, hpast⟩ := hm
    rw [Gave.handoffsOf_eq_nil hp hquiet] at hr
    obtain ⟨routed, hok⟩ := Workflow.exists_candidates hw hbare hchooses
      hpast.ahead.placed.frontier_known
    cases hr.symm.trans hok
  | settled log ho hs hr hi =>
    obtain ⟨hcancelled, hfresh, hbudget, hschema⟩ := ht
    obtain ⟨-, hfresh'⟩ := hs.taken htakes hfresh
    simp only [Stage.begun, List.append_nil]
    exact ⟨hcancelled, hfresh', hbudget, (Workflow.writeOutputs_schema ho).trans hschema⟩
  | pausedBehind log log' ho hs hr hi =>
    rw [pauseBehind?_eq_none hafter fun p hp' => (Gave.quiet hp hquiet p hp').2] at hi
    cases hi
  | pauseBehindRefused log log' ho hs hr hi =>
    rw [pauseBehind?_eq_none hafter fun p hp' => (Gave.quiet hp hquiet p hp').2] at hi
    cases hi
  | rested => exact ht

end Thrive

end Runner

/-- Through a workflow without cycles, whose entry nothing leads to and whose nodes are quiet, every
node runs at most once, and a join runs in a later step than all of its inputs that run at all. If
the nodes write to channels of the workflow only, the run completes in no more steps than there are
nodes; and if no node has a navigator, exactly those nodes run that the plain edges lead to from the
entry. -/
theorem joins_run_once_and_last {ws : Workshop σ} {g : Description} {site : List String}
    {w : Workflow σ} (hc : compile ws g site = .ok w) (hbare : g.BareTargets) (hac : w.Acyclic)
    (hentry : ∀ a, ∀ b ∈ w.entry, ¬ w.Leads a b) (hchooses : ∀ n ∈ w.nodes, n.ChoosesEdges g)
    (hquiet : ∀ n ∈ w.nodes, n.Quiet) {r : Runner σ τ} (hr : r.workflow = w)
    (hbefore : r.pauseBefore = []) (hafter : r.pauseAfter = [])
    (hlimit : w.nodes.length ≤ r.limit)
    (horder : ∀ step count, ∀ index < count, index ∈ r.order step count)
    {fresh : Nat → τ → Prop} (htakes : r.archive.Takes r.threadId r.checkpointNs fresh)
    (input environment : Json) (world : RunWorld σ τ) (hcancelled : world.world.cancelled = false)
    (hfresh : fresh world.world.issued world.archive) :
    let start := .fresh input environment
    let fs := r.frontiers (Runner.enoughMoves r.limit) (.waiting start) world
    fs.flatten.Nodup ∧
    (∀ (i k : Nat) f f' key a n, fs[i]? = some f → fs[k]? = some f' → key ∈ f →
      w.node? key = some n → 1 < n.inputs.length → a ∈ n.inputs → a ∈ f' → k < i) ∧
    ((∀ n ∈ w.nodes, ∀ ctx s world out,
        (n.run ctx s world).1 = .ok out → w.Writable n.key out) →
      (∃ o, (r.run start world).1 = some o ∧ o.status = .completed) ∧
      fs.length ≤ w.nodes.length ∧
      (w.Unguided → ∀ key, key ∈ fs.flatten ↔ ∃ e ∈ w.entry, ReflTransGen w.Follows e key)) := by
  subst hr
  intro start fs
  have hw := compile_reflects hc
  -- The march does not depend on what is written, so it holds of failing runs as well.
  have hmarch : ∀ n, r.Performed (r.moves n (.waiting start) world).1 ∧
      r.workflow.Marches ([] ++ r.frontiers n (.waiting start) world)
        (r.moves n (.waiting start) world).1 := fun n =>
    Runner.moves_induct (motive := fun fs stage _ => r.Performed stage ∧
        r.workflow.Marches fs stage)
      (fun h hmove => ⟨hmove.performed h.1,
        hmove.marches hw hbare hac hentry hchooses hquiet h.1 h.2⟩) n ⟨trivial, rfl⟩
  obtain ⟨-, hmarches⟩ := hmarch (Runner.enoughMoves r.limit)
  have horderly : r.workflow.Orderly fs := hmarches.orderly
  refine ⟨horderly.nodup_flatten, ?_, ?_⟩
  · intro i k f f' key a n hi hk hkey hn _ hin ha
    have hleads := hw.leads_of_mem_inputs hn hin
    exact horderly.lt_of_leads hi hk hkey ha (.single hleads) (hac.ne hleads)
  · intro hwrites
    obtain ⟨o, hended, hrun⟩ := r.run_ends start world
    have hstart : (r.Performed (.waiting start) ∧ r.workflow.Marches [] (.waiting start)) ∧
        r.Thrives fresh [] (.waiting start) world := ⟨⟨trivial, rfl⟩, hcancelled, hfresh⟩
    have hthrives := Runner.moves_induct (motive := fun fs stage world => (r.Performed stage ∧
        r.workflow.Marches fs stage) ∧ r.Thrives fresh fs stage world)
      (fun h hmove => ⟨⟨hmove.performed h.1.1,
          hmove.marches hw hbare hac hentry hchooses hquiet h.1.1 h.1.2⟩,
        hmove.thrives htakes hw hbare hchooses hquiet hwrites hbefore hafter hlimit horder
          h.1.1 h.1.2 h.2⟩)
      (Runner.enoughMoves r.limit) hstart
    rw [hended] at hthrives hmarches
    have hstatus : o.status = .completed := hthrives.2
    refine ⟨⟨o, hrun, hstatus⟩, horderly.length_le, ?_⟩
    intro hplain key
    exact (hmarches.2 hstatus hplain).mem_iff

/-! ## Uneven branches, and nodes without a channel -/

/-- A node that does nothing but write is quiet. -/
theorem WorkNode.quiet_of_write {n : WorkNode σ} {f : Snapshot → Json}
    (h : n.run = fun _ s => pure (.ok (.write (f s)))) : n.Quiet := by
  constructor
  · intro ctx s world
    rw [h]
    exact ⟨_, rfl, rfl, rfl⟩
  · intro ctx s world hcancelled
    rw [h]
    exact hcancelled
  · intro ctx s world
    rw [h]
    exact Nat.le_refl _

theorem unevenFork_bareTargets : unevenFork.BareTargets := by
  have hall : unevenFork.links.all (fun l => l.targetKey == l.target) = true := by decide +kernel
  intro l hl _
  simpa using List.all_eq_true.mp hall l hl

theorem unevenWorkflow_acyclic : unevenWorkflow.Acyclic := by
  let rank : String → Nat := fun key => (["s", "a", "b", "c", "j"].idxOf key)
  have hall :
      unevenFork.links.all (fun l => decide (rank l.sourceKey < rank l.targetKey)) = true := by
    decide +kernel
  refine Workflow.acyclic_of_rank rank fun a b hab => ?_
  obtain ⟨l, hl, -, rfl, rfl⟩ := (compile_reflects compile_unevenFork).exists_link_of_leads hab
  simpa using List.all_eq_true.mp hall l hl

theorem unevenWorkflow_entry_first :
    ∀ a, ∀ b ∈ unevenWorkflow.entry, ¬ unevenWorkflow.Leads a b := by
  have hall :
      unevenFork.links.all (fun l => !unevenWorkflow.entry.contains l.targetKey) = true := by
    decide +kernel
  intro a b hb hab
  obtain ⟨l, hl, -, -, rfl⟩ := (compile_reflects compile_unevenFork).exists_link_of_leads hab
  have := List.all_eq_true.mp hall l hl
  simp [hb] at this

theorem unevenWorkflow_writable : ∀ n ∈ unevenWorkflow.nodes, ∀ ctx s world out,
    (n.run ctx s world).1 = .ok out → unevenWorkflow.Writable n.key out := by
  have hall : unevenWorkflow.nodes.all
      (fun n => unevenWorkflow.schema.contains (unevenWorkflow.channelOf n.key)) = true := by
    decide +kernel
  intro n hn ctx s world out hrun
  rw [(unevenWorkflow_nodes hn).1] at hrun
  cases hrun
  exact ⟨fun _ _ _ => List.all_eq_true.mp hall n hn, nofun⟩

theorem joins_run_once_and_last_uneven :
    let fs := unevenRunner.frontiers (Runner.enoughMoves 5) (.waiting (.fresh .null .null))
      ⟨.start (), []⟩
    compile inputShop unevenFork [] = .ok unevenWorkflow ∧ unevenFork.BareTargets ∧
      unevenWorkflow.Acyclic ∧ (∀ a, ∀ b ∈ unevenWorkflow.entry, ¬ unevenWorkflow.Leads a b) ∧
      (∀ n ∈ unevenWorkflow.nodes, n.ChoosesEdges unevenFork) ∧
      (∀ n ∈ unevenWorkflow.nodes, n.Quiet) ∧ fs.flatten.Nodup ∧
      (∃ o, (unevenRunner.run (.fresh .null .null) ⟨.start (), []⟩).1 = some o ∧
        o.status = .completed) ∧
      fs.length ≤ unevenWorkflow.nodes.length ∧
      ∀ key, key ∈ fs.flatten ↔
        ∃ e ∈ unevenWorkflow.entry, ReflTransGen unevenWorkflow.Follows e key := by
  have hplain : unevenWorkflow.Unguided := fun n hn => (unevenWorkflow_nodes hn).2
  have hchooses : ∀ n ∈ unevenWorkflow.nodes, n.ChoosesEdges unevenFork :=
    fun n hn => .inl (hplain n hn)
  have hquiet : ∀ n ∈ unevenWorkflow.nodes, n.Quiet :=
    fun n hn => WorkNode.quiet_of_write (unevenWorkflow_nodes hn).1
  have hlimit : unevenWorkflow.nodes.length ≤ 5 := by decide +kernel
  obtain ⟨hnodup, -, hrest⟩ := joins_run_once_and_last compile_unevenFork unevenFork_bareTargets
    unevenWorkflow_acyclic unevenWorkflow_entry_first hchooses hquiet (r := unevenRunner) rfl rfl
    rfl hlimit (fun _ _ _ hi => List.mem_range.mpr hi) (Archive.memory_takes "t" "") .null .null
    ⟨.start (), []⟩ rfl nofun
  obtain ⟨hcompleted, hlength, hspread⟩ := hrest unevenWorkflow_writable
  exact ⟨compile_unevenFork, unevenFork_bareTargets, unevenWorkflow_acyclic,
    unevenWorkflow_entry_first, hchooses, hquiet, hnodup, hcompleted, hlength, hspread hplain⟩

/-- A workshop that makes nodes that write although they own no channel. -/
def muteShop : Workshop Unit where
  makers := [(.make .workflow (some "mute") none, fun _ =>
    .ok ⟨fun _ _ => pure (.ok (.write (.obj [("n", .nat 1)]))), none, none, []⟩)]
  services := .none
  middleware := []
  patience := 0

/-- Two nodes that write although they own no channel. -/
def mutePair : Description where
  nodes := ["s", "a"].map fun key => ⟨key, .workflow, some "mute", none, none, .null⟩
  links := [.edge "s" "a"]
  entry := some "s"

/-- The workflow of the two nodes. -/
def muteWorkflow : Workflow Unit :=
  match compile muteShop mutePair [] with
  | .ok w => w
  | .error _ => ⟨[], [], []⟩

theorem compile_mutePair : compile muteShop mutePair [] = .ok muteWorkflow :=
  eq_ok_of_isOk ⟨[], [], []⟩ (by decide +kernel)

theorem muteWorkflow_nodes {n : WorkNode Unit} (hn : n ∈ muteWorkflow.nodes) :
    n.run = (fun _ _ => pure (.ok (.write (.obj [("n", .nat 1)])))) ∧ n.navigator = none := by
  obtain ⟨spec, hspec, -, plan, hplan, rfl⟩ := (compile_reflects compile_mutePair).planned n hn
  obtain ⟨key, -, rfl⟩ := List.mem_map.mp hspec
  have hmade : muteShop.build mutePair [] ⟨key, .workflow, some "mute", none, none, .null⟩ =
      .ok ⟨fun _ _ => pure (.ok (.write (.obj [("n", .nat 1)]))), none, none, []⟩ := rfl
  cases hmade.symm.trans hplan
  exact ⟨rfl, rfl⟩

theorem muteWorkflow_leads {a b : String} (h : muteWorkflow.Leads a b) : a = "s" ∧ b = "a" := by
  have hall : mutePair.links.all (fun l => l.sourceKey == "s" && l.targetKey == "a") = true := by
    decide +kernel
  obtain ⟨l, hl, -, rfl, rfl⟩ := (compile_reflects compile_mutePair).exists_link_of_leads h
  simpa using List.all_eq_true.mp hall l hl

/-- A node that writes to a channel that the workflow does not have stops the run. -/
theorem not_completed_without_channel :
    let r : Runner Unit Chains := { unevenRunner with workflow := muteWorkflow }
    compile muteShop mutePair [] = .ok muteWorkflow ∧ mutePair.BareTargets ∧
      muteWorkflow.Acyclic ∧ (∀ a, ∀ b ∈ muteWorkflow.entry, ¬ muteWorkflow.Leads a b) ∧
      (∀ n ∈ muteWorkflow.nodes, n.ChoosesEdges mutePair) ∧
      (∀ n ∈ muteWorkflow.nodes, n.Quiet) ∧ r.pauseBefore = [] ∧ r.pauseAfter = [] ∧
      muteWorkflow.nodes.length ≤ r.limit ∧
      ¬ ∃ o, (r.run (.fresh .null .null) ⟨.start (), []⟩).1 = some o ∧ o.status = .completed := by
  intro r
  refine ⟨compile_mutePair, ?_, ?_, ?_, ?_, ?_, rfl, rfl, ?_, ?_⟩
  · have hall : mutePair.links.all (fun l => l.targetKey == l.target) = true := by decide +kernel
    intro l hl _
    simpa using List.all_eq_true.mp hall l hl
  · refine Workflow.acyclic_of_rank (fun key => if key = "s" then 0 else 1) fun a b hab => ?_
    obtain ⟨rfl, rfl⟩ := muteWorkflow_leads hab
    decide
  · have hentry : muteWorkflow.entry = ["s"] := by decide +kernel
    intro a b hb hab
    obtain ⟨-, rfl⟩ := muteWorkflow_leads hab
    simp [hentry] at hb
  · exact fun n hn => .inl (muteWorkflow_nodes hn).2
  · exact fun n hn => WorkNode.quiet_of_write (muteWorkflow_nodes hn).1
  · decide +kernel
  · rintro ⟨o, ho, hstatus⟩
    have hfailed :
        (r.run (.fresh .null .null) ⟨.start (), []⟩).1.map (·.status) = some .failed := by
      decide +kernel
    rw [ho, Option.map_some, hstatus] at hfailed
    cases hfailed

end Workgraph
