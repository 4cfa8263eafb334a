import Mathlib.Data.List.Forall2
import Workgraph.Proofs.Run.Move
import Workgraph.Proofs.Run.Routing
/-!
# Steps

What the nodes of a step give back, from the moment they run until it is written. Each result comes
from the node at its place in the frontier, which has seen the state in front of the step, whatever
the order in which the nodes ran.

## Main definitions

- `Runner.Ran`, `Runner.Gave`: results that come from the nodes of a step, before and behind the
  barrier
- `Runner.Performed`: what is known of the results at a stage of a run

## Main statements

- `Runner.Move.performed`: every move keeps what is known of the results
- `barrier_eq_ok_iff`: what passes the barrier
-/

namespace Workgraph

variable {σ τ : Type}

/-! ## The barrier -/

theorem resultAt_mem {arrivals : Arrivals} {index : Nat} {out : NodeOutput}
    (h : resultAt arrivals index = .ok out) : (index, .ok out) ∈ arrivals := by
  unfold resultAt at h
  cases hf : arrivals.find? (·.1 == index) with
  | none =>
    rw [hf] at h
    cases h
  | some found =>
    rw [hf] at h
    have hi : found.1 = index := by simpa using List.find?_some hf
    have hr : found.2 = .ok out := h
    rw [← hi, ← hr]
    exact List.mem_of_find?_eq_some hf

/-- A node whose result came in has one of its results at its place. -/
theorem resultAt_of_mem {arrivals : Arrivals} {index : Nat} {result : Except NodeError NodeOutput}
    (h : (index, result) ∈ arrivals) :
    ∃ result', (index, result') ∈ arrivals ∧ resultAt arrivals index = result' := by
  unfold resultAt
  cases hf : arrivals.find? (·.1 == index) with
  | none =>
    have := List.find?_eq_none.mp hf _ h
    simp at this
  | some found =>
    have hi : found.1 = index := by simpa using List.find?_some hf
    refine ⟨found.2, ?_, rfl⟩
    rw [← hi]
    exact List.mem_of_find?_eq_some hf

/-- What passes the barrier are the results, all of them good, in the order of the frontier. -/
theorem barrier_eq_ok_iff {frontier : List String} {arrivals : Arrivals}
    {outputs : List NodeOutput} :
    barrier frontier arrivals = .ok outputs ↔
      List.Forall₂ (fun p out => resultAt arrivals p.2 = .ok out) frontier.zipIdx outputs := by
  unfold barrier
  rw [mapM_eq_ok_iff]
  have hiff : ∀ (p : String × Nat) (out : NodeOutput),
      (resultAt arrivals p.2).mapError (fun e => (p.1, e)) = .ok out ↔
        resultAt arrivals p.2 = .ok out := by
    intro p out
    cases resultAt arrivals p.2 with
    | ok out' => simp [Except.mapError]
    | error e => simp [Except.mapError]
  constructor
  · intro h
    exact h.imp fun p out => (hiff p out).mp
  · intro h
    exact h.imp fun p out => (hiff p out).mpr

theorem length_of_barrier {frontier : List String} {arrivals : Arrivals}
    {outputs : List NodeOutput} (h : barrier frontier arrivals = .ok outputs) :
    outputs.length = frontier.length := by
  have := (barrier_eq_ok_iff.mp h).length_eq
  simpa using this.symm

/-- Each output behind the barrier stands beside the node at whose place it came in. -/
theorem mem_zip_of_barrier {frontier : List String} {arrivals : Arrivals}
    {outputs : List NodeOutput} (h : barrier frontier arrivals = .ok outputs) {key : String}
    {out : NodeOutput} (hm : (key, out) ∈ frontier.zip outputs) :
    ∃ index, frontier[index]? = some key ∧ resultAt arrivals index = .ok out := by
  obtain ⟨index, hlt, hget⟩ := List.mem_iff_getElem.mp hm
  rw [List.getElem_zip, Prod.mk.injEq] at hget
  rw [List.length_zip] at hlt
  have hf : index < frontier.length := by omega
  refine ⟨index, by rw [List.getElem?_eq_getElem hf, hget.1], ?_⟩
  have hr := (List.forall₂_iff_get.mp (barrier_eq_ok_iff.mp h)).2 index (by simpa using hf)
    (by omega)
  simpa [hget.2] using hr

/-- Where every node of a frontier has a result and all results are good, all pass the barrier. -/
theorem exists_barrier {frontier : List String} {arrivals : Arrivals}
    (hall : ∀ index < frontier.length, ∃ result, (index, result) ∈ arrivals)
    (hgood : ∀ p ∈ arrivals, ∃ out, p.2 = .ok out) :
    ∃ outputs, barrier frontier arrivals = .ok outputs := by
  have hres : ∀ p ∈ frontier.zipIdx, ∃ out, resultAt arrivals p.2 = .ok out := by
    intro p hp
    obtain ⟨result, hr⟩ := hall p.2 (List.snd_lt_of_mem_zipIdx hp)
    -- The first result at a place may be another one, but all of them are good.
    obtain ⟨result', hr', hat⟩ := resultAt_of_mem hr
    obtain ⟨out, hout⟩ := hgood _ hr'
    exact ⟨out, hat.trans hout⟩
  obtain ⟨outputs, h⟩ := exists_forall₂ hres
  exact ⟨outputs, barrier_eq_ok_iff.mpr h⟩

/-- Nodes that hand off to nobody leave no transfers. -/
theorem handoffsOf_eq_nil {outputs : List (String × NodeOutput)}
    (h : ∀ p ∈ outputs, p.2.handoff = none) : handoffsOf outputs = [] := by
  unfold handoffsOf
  rw [List.filterMap_eq_nil_iff]
  intro p hp
  simp [h p hp]

/-! ## The nodes of a step -/

namespace Runner

variable {r : Runner σ τ}

/-- A result that comes from a node at a place in the frontier. -/
def GivenBy (r : Runner σ τ) (c : Cursor) (n : WorkNode σ)
    (result : Except NodeError NodeOutput) : Prop :=
  ∃ execution before, (n.run (r.contextOf c n.key execution) c.store.state before).1 = result

/-- Results that came in from the nodes of a step. -/
def Ran (r : Runner σ τ) (c : Cursor) (arrivals : Arrivals) : Prop :=
  ∀ p ∈ arrivals, ∃ n, c.frontier[p.1]?.bind r.workflow.node? = some n ∧ r.GivenBy c n p.2

/-- Outputs that the nodes of a step gave back, in the order of the frontier. -/
def Gave (r : Runner σ τ) (c : Cursor) (outputs : List NodeOutput) : Prop :=
  outputs.length = c.frontier.length ∧ ∀ p ∈ c.frontier.zip outputs,
    ∃ n, r.workflow.node? p.1 = some n ∧ r.GivenBy c n (.ok p.2)

theorem runNode_apply (n : WorkNode σ) (ctx : NodeContext) (s : Snapshot) (world : World σ) :
    ∃ log, runNode n ctx s world = n.run ctx s { world with log := log } := by
  unfold runNode NodeContext.report
  cases ctx.silent with
  | true => exact ⟨world.log, rfl⟩
  | false => exact ⟨_, rfl⟩

theorem runNodes_ran (c : Cursor) (base : Nat) (order : List Nat) (world : World σ) :
    r.Ran c (r.runNodes c base order world).1 := by
  induction order generalizing world with
  | nil =>
    intro p hp
    cases hp
  | cons index rest ih =>
    unfold runNodes
    cases hn : c.frontier[index]?.bind r.workflow.node? with
    | none => exact ih world
    | some n =>
      obtain ⟨log, hrun⟩ := runNode_apply n (r.contextOf c n.key (base + index)) c.store.state world
      intro p hp
      obtain rfl | hp := List.mem_cons.mp hp
      · exact ⟨n, hn, base + index, _, (congrArg Prod.fst hrun).symm⟩
      · exact ih _ p hp

/-- Every node of the frontier that is in the order has a result. -/
theorem runNodes_complete {c : Cursor} (base : Nat) {order : List Nat} (world : World σ)
    {index : Nat} (hi : index ∈ order) {n : WorkNode σ}
    (hn : c.frontier[index]?.bind r.workflow.node? = some n) :
    ∃ result, (index, result) ∈ (r.runNodes c base order world).1 := by
  induction order generalizing world with
  | nil => cases hi
  | cons other rest ih =>
    unfold runNodes
    -- A later place has its result behind those that come in before it, if any.
    obtain rfl | hi := List.mem_cons.mp hi
    · rw [hn]
      exact ⟨_, List.mem_cons_self⟩
    · cases hother : c.frontier[other]?.bind r.workflow.node? with
      | none => exact ih world hi
      | some m =>
        obtain ⟨result, hr⟩ := ih
          (runNode m (r.contextOf c m.key (base + other)) c.store.state world).2 hi
        exact ⟨result, List.mem_cons_of_mem _ hr⟩

/-- All nodes of a frontier have results if all of them are known and in the order. -/
theorem runNodes_all {c : Cursor} (base : Nat) {order : List Nat} (world : World σ)
    (horder : ∀ index < c.frontier.length, index ∈ order)
    (hk : ∀ key ∈ c.frontier, r.workflow.contains key = true) :
    ∀ index < c.frontier.length, ∃ result, (index, result) ∈ (r.runNodes c base order world).1 := by
  intro index hi
  obtain ⟨n, hn⟩ := Option.isSome_iff_exists.mp (hk _ (List.getElem_mem hi))
  refine runNodes_complete base world (horder index hi) (n := n) ?_
  rw [List.getElem?_eq_getElem hi]
  exact hn

/-- What no node and no event changes is not changed by a step. -/
theorem runNodes_world {motive : World σ → Prop}
    (hlog : ∀ world log, motive world → motive { world with log := log })
    (hrun : ∀ n ∈ r.workflow.nodes, ∀ ctx s world, motive world → motive (n.run ctx s world).2)
    (c : Cursor) (base : Nat) (order : List Nat) (world : World σ) (h : motive world) :
    motive (r.runNodes c base order world).2 := by
  induction order generalizing world with
  | nil => exact h
  | cons index rest ih =>
    unfold runNodes
    cases hn : c.frontier[index]?.bind r.workflow.node? with
    | none => exact ih world h
    | some n =>
      obtain ⟨log, hlogged⟩ := runNode_apply n (r.contextOf c n.key (base + index)) c.store.state
        world
      obtain ⟨key, -, hkey⟩ := Option.bind_eq_some_iff.mp hn
      have hstep :
          motive (runNode n (r.contextOf c n.key (base + index)) c.store.state world).2 := by
        rw [hlogged]
        exact hrun n (Workflow.node?_eq_some hkey).1 _ _ _ (hlog world log h)
      exact ih _ hstep

theorem Ran.gave {c : Cursor} {arrivals : Arrivals} {outputs : List NodeOutput}
    (h : r.Ran c arrivals) (hb : barrier c.frontier arrivals = .ok outputs) :
    r.Gave c outputs := by
  refine ⟨length_of_barrier hb, ?_⟩
  rintro ⟨key, out⟩ hp
  obtain ⟨index, hkey, hres⟩ := mem_zip_of_barrier hb hp
  obtain ⟨n, hn, hgiven⟩ := h _ (resultAt_mem hres)
  rw [hkey] at hn
  exact ⟨n, hn, hgiven⟩

/-- What holds of whatever the nodes of a workflow give back holds of the outputs of a step. -/
theorem Gave.induct {motive : String → NodeOutput → Prop} {c : Cursor} {outputs : List NodeOutput}
    (h : r.Gave c outputs) (hrun : ∀ n ∈ r.workflow.nodes, ∀ ctx s world out,
      (n.run ctx s world).1 = .ok out → motive n.key out) :
    ∀ p ∈ c.frontier.zip outputs, motive p.1 p.2 := by
  intro p hp
  obtain ⟨n, hn, execution, before, hout⟩ := h.2 p hp
  obtain ⟨hmem, hkey⟩ := Workflow.node?_eq_some hn
  rw [← hkey]
  exact hrun n hmem _ _ _ _ hout

/-- What is known of the results at a stage of a run. -/
def Performed (r : Runner σ τ) : Stage → Prop
  | .running c arrivals => r.Ran c arrivals
  | .accepted c outputs => r.Gave c outputs
  | _ => True

/-- Every move keeps what is known of the results. -/
theorem Move.performed {stage stage' : Stage} {world world' : RunWorld σ τ}
    (h : r.Move stage world stage' world') (hs : r.Performed stage) : r.Performed stage' := by
  cases h with
  | @dispatched _ c budget arrivals after log log' hf hw hb hp hk ha =>
    have hran := runNodes_ran (r := r) (c.entered budget) world.world.issued
      (r.order (c.step + 1) c.frontier.length)
      (world.turn c.frontier.length world.archive log).world
    rw [ha] at hran
    exact hran
  | accepted hw hb => exact Ran.gave hs hb
  | rested => exact hs
  | _ => trivial

/-! ## Runs without pauses -/

theorem pauseAhead?_eq_none (c : Cursor) (hbefore : r.pauseBefore = []) :
    r.pauseAhead? c = none := by
  unfold pauseAhead?
  rw [hbefore]
  simp

theorem pauseBehind?_eq_none {outputs : List (String × NodeOutput)} {ran : List String}
    (hafter : r.pauseAfter = []) (h : ∀ p ∈ outputs, p.2.interrupt = none) :
    r.pauseBehind? outputs ran = none := by
  have hnil : interruptsOf outputs = [] := List.filterMap_eq_nil_iff.mpr h
  unfold pauseBehind?
  rw [hnil, hafter]
  simp

end Runner

end Workgraph
