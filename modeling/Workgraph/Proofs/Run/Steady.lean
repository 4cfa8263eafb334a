import Workgraph.Proofs.Run.Travel
/-!
# Steady workflows

A workflow whose nodes do the same as those of another, except that they neither ask for a pause nor
cancel the run. Its steps are the same, since a pause that a node asks for has no part in what is
written or where the run continues.

## Main definitions

- `WorkNode.steady`, `Workflow.steady`: a node and a workflow that do not stop the run
- `WorkNode.Calm`: nodes that do not stop the run

## Main statements

- `Workflow.steady_leap`: a steady workflow takes the same steps
-/

namespace Workgraph

variable {σ : Type}

/-- The output without the pause that it asks for. -/
def NodeOutput.unpaused (out : NodeOutput) : NodeOutput := { out with interrupt := none }

/-- The behaviour without the pauses that nodes ask for. -/
def Behaviour.unpaused (f : Behaviour) : Behaviour := fun key step s =>
  (f key step s).map NodeOutput.unpaused

/-- The node that does the same but does not stop the run. -/
def WorkNode.steady (n : WorkNode σ) : WorkNode σ :=
  { n with
    run := fun ctx s world =>
      let (result, after) := n.run ctx s world
      (result.map NodeOutput.unpaused, { after with cancelled := world.cancelled }) }

/-- A node that neither cancels the run nor asks for a pause. -/
structure WorkNode.Calm (n : WorkNode σ) : Prop where
  cancels : ∀ ctx s world, (n.run ctx s world).2.cancelled = world.cancelled
  pauses : ∀ ctx s world out, (n.run ctx s world).1 = .ok out → out.interrupt = none

theorem WorkNode.steady_calm (n : WorkNode σ) : n.steady.Calm where
  cancels := fun _ _ _ => rfl
  pauses := by
    intro ctx s world out h
    change (n.run ctx s world).1.map NodeOutput.unpaused = .ok out at h
    cases hrun : (n.run ctx s world).1 with
    | error e =>
      rw [hrun] at h
      cases h
    | ok out' =>
      rw [hrun] at h
      cases h
      rfl

/-- The workflow whose nodes do the same but do not stop the run. -/
def Workflow.steady (w : Workflow σ) : Workflow σ := { w with nodes := w.nodes.map .steady }

theorem mapM_map_ok {ε α β γ : Type} (g : α → Except ε β) (h : β → γ) (as : List α) :
    as.mapM (fun a => (g a).map h) = (as.mapM g).map (List.map h) := by
  induction as with
  | nil => rfl
  | cons a rest ih =>
    rw [List.mapM_cons, List.mapM_cons, ih]
    cases g a with
    | error e => rfl
    | ok b =>
      cases rest.mapM g with
      | error e => rfl
      | ok more => rfl

theorem handoffsOf_unpaused (frontier : List String) (outputs : List NodeOutput) :
    handoffsOf (frontier.zip (outputs.map .unpaused)) = handoffsOf (frontier.zip outputs) := by
  unfold handoffsOf
  rw [List.zip_map_right, List.filterMap_map]
  rfl

namespace Workflow

variable (w : Workflow σ)

theorem steady_behaves {f : Behaviour} (hf : w.Behaves f) : w.steady.Behaves f.unpaused := by
  intro n hn ctx s world
  obtain ⟨m, hm, rfl⟩ := List.mem_map.mp hn
  show (m.run ctx s world).1.map NodeOutput.unpaused = _
  rw [hf m hm]
  rfl

theorem steady_calm : ∀ n ∈ w.steady.nodes, n.Calm := by
  intro n hn
  obtain ⟨m, -, rfl⟩ := List.mem_map.mp hn
  exact m.steady_calm

@[simp] theorem steady_node? (key : String) :
    w.steady.node? key = (w.node? key).map .steady := List.find?_map ..

@[simp] theorem steady_contains (key : String) : w.steady.contains key = w.contains key := by
  unfold contains
  rw [steady_node?, Option.isSome_map]

@[simp] theorem steady_channelOf (key : String) : w.steady.channelOf key = w.channelOf key := by
  unfold channelOf
  rw [steady_node?]
  cases w.node? key with
  | none => rfl
  | some n => rfl

@[simp] theorem steady_allowsHandoff (key target : String) :
    w.steady.allowsHandoff key target = w.allowsHandoff key target := by
  unfold allowsHandoff
  rw [steady_node?, steady_contains]
  cases w.node? key with
  | none => rfl
  | some n => rfl

theorem steady_writeOutput (key : String) (out : NodeOutput) (store : Store) :
    w.steady.writeOutput key out.unpaused store = w.writeOutput key out store := by
  unfold writeOutput writeUpdate
  simp only [steady_channelOf, steady_allowsHandoff]
  rfl

theorem steady_writeOutputs (store : Store) (frontier : List String) (outputs : List NodeOutput) :
    w.steady.writeOutputs store (frontier.zip (outputs.map .unpaused)) =
      w.writeOutputs store (frontier.zip outputs) := by
  induction outputs generalizing store frontier with
  | nil => simp [writeOutputs]
  | cons out rest ih =>
    cases frontier with
    | nil => rfl
    | cons key frontier =>
      rw [List.map_cons, List.zip_cons_cons, List.zip_cons_cons]
      unfold writeOutputs
      rw [steady_writeOutput]
      obtain ⟨store', e, ho⟩ : ∃ store' e, w.writeOutput key out store = (store', e) := ⟨_, _, rfl⟩
      rw [ho]
      cases e with
      | none => exact ih store' frontier
      | some e => rfl

theorem steady_candidates (ran : List String) (handoffs : List (String × Handoff)) (s : Snapshot) :
    w.steady.candidates ran handoffs s = w.candidates ran handoffs s := by
  have htargets : w.steady.targets handoffs s = w.targets handoffs s := by
    funext key
    unfold targets
    rw [steady_node?]
    cases handoffFrom? handoffs key with
    | some h => rfl
    | none =>
      cases w.node? key with
      | none => rfl
      | some n => rfl
  have hknown : w.steady.knownTargets handoffs s = w.knownTargets handoffs s := by
    funext key
    unfold knownTargets
    simp only [htargets, steady_contains]
  unfold candidates
  rw [hknown]

theorem steady_spread (avoided : String) (steps : Nat) (keys : List String) :
    w.steady.spread avoided steps keys = w.spread avoided steps keys := by
  have hsucc : w.steady.successorsAvoiding avoided = w.successorsAvoiding avoided := by
    funext key
    unfold successorsAvoiding
    rw [steady_node?]
    cases w.node? key with
    | none => rfl
    | some n => rfl
  induction steps generalizing keys with
  | zero => rfl
  | succ steps ih =>
    unfold spread
    rw [hsucc, ih]

theorem steady_holdJoins (candidates : List String) :
    w.steady.holdJoins candidates = w.holdJoins candidates := by
  -- A search depends on the number of nodes only, and that is the same.
  have hreach : ∀ avoided,
      w.steady.reachable avoided candidates = w.reachable avoided candidates := by
    intro avoided
    unfold reachable
    rw [steady_spread]
    show w.spread avoided (w.nodes.map WorkNode.steady).length _ = _
    rw [List.length_map]
  have hheld : w.steady.isHeld candidates = w.isHeld candidates := by
    funext key
    unfold isHeld
    rw [steady_node?]
    cases w.node? key with
    | none => rfl
    | some n =>
      show (n.steady.isJoin && w.steady.awaitsInput n.steady candidates) = _
      unfold awaitsInput
      rw [hreach]
      rfl
  unfold holdJoins
  rw [hheld]

theorem steady_land (p : Position) (outputs : List NodeOutput) :
    w.steady.land p (outputs.map .unpaused) = w.land p outputs := by
  unfold land onward
  simp only [steady_writeOutputs, handoffsOf_unpaused, steady_candidates, steady_holdJoins]

/-- A steady workflow takes the same steps. -/
theorem steady_leap (f : Behaviour) (p : Position) :
    w.steady.leap f.unpaused p = w.leap f p := by
  have hcontains : w.steady.contains = w.contains := funext w.steady_contains
  unfold leap Behaviour.unpaused
  rw [hcontains, mapM_map_ok]
  cases p.frontier.mapM fun key => f key (p.step + 1) p.store.state with
  | error e => rfl
  | ok outputs =>
    dsimp only [Except.map]
    rw [steady_land]

/-- A steady workflow travels the same way. -/
theorem Travels.of_steady {f : Behaviour} {origin : Position} {prints : List Footprint}
    {target : Except RunError Position} (h : w.steady.Travels f.unpaused origin prints target) :
    w.Travels f origin prints target := by
  induction h with
  | start => exact .start
  | step h hl ih => exact .step ih ((w.steady_leap f _).symm.trans hl)

end Workflow

end Workgraph
