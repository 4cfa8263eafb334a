import Workgraph.Proofs.Node.Reordering
import Workgraph.Proofs.Workflow.Neighbours
/-!
# Compiling reordered connections

Two descriptions that differ in the order of their connections only are both compiled, or neither
is. Their workflows have the same nodes in the same order, which do the same and lead to the same
targets, in another order at most.

## Main definitions

- `WorkNode.Mirrors`, `Workflow.Mirrors`: what differs in the order of targets and neighbours only

## Main statements

- `compile_mirrors`: the workflows of reordered connections
-/

namespace Workgraph

variable {σ : Type}

/-! ## Drafts -/

/-- Nodes that do the same and differ in the order of their targets and neighbours only. -/
structure WorkNode.Mirrors (n n' : WorkNode σ) : Prop where
  key_eq : n'.key = n.key
  run_eq : n'.run = n.run
  channel_eq : n'.channel = n.channel
  route_perm : ∀ s, (n.route s).targets.Perm (n'.route s).targets
  successors_perm : n.successors.Perm n'.successors
  inputs_perm : n.inputs.Perm n'.inputs

/-- Drafts that differ in the order of targets and neighbours only, and in their findings. -/
structure Draft.Mirrors (d d' : Draft σ) : Prop where
  nodes : List.Forall₂ WorkNode.Mirrors d.nodes d'.nodes
  schema_eq : d'.schema = d.schema
  unfit_eq : d'.report.hasErrors = d.report.hasErrors

theorem any_key_eq {ns ns' : List (WorkNode σ)} (h : List.Forall₂ WorkNode.Mirrors ns ns')
    (key : String) : (ns'.any fun n => n.key == key) = ns.any fun n => n.key == key := by
  induction h with
  | nil => rfl
  | cons hn _ ih => rw [List.any_cons, List.any_cons, hn.key_eq, ih]

theorem map_key_eq {ns ns' : List (WorkNode σ)} (h : List.Forall₂ WorkNode.Mirrors ns ns') :
    ns'.map (·.key) = ns.map (·.key) := by
  induction h with
  | nil => rfl
  | cons hn _ ih => rw [List.map_cons, List.map_cons, hn.key_eq, ih]

namespace Description.Reordered

variable {g g' : Description} (h : g.Reordered g')

include h

theorem successorsOf_perm (key : String) : (successorsOf g key).Perm (successorsOf g' key) :=
  perm_distinct ((h.outgoing_perm key .edge).map _)

theorem inputsOf_perm (key : String) : (inputsOf g key).Perm (inputsOf g' key) := by
  unfold inputsOf
  simp only [h.node?_eq]
  exact perm_distinct (((h.incoming_perm key .edge).map _).filter _)

theorem workNode_mirrors (n : NodeSpec) {plan plan' : NodePlan σ} (hplan : plan.Mirrors plan') :
    (Draft.workNode g n plan).Mirrors (Draft.workNode g' n plan') where
  key_eq := rfl
  run_eq := hplan.run_eq
  channel_eq := congrArg (Option.map Channel.name) hplan.channel_eq
  successors_perm := h.successorsOf_perm n.key
  inputs_perm := h.inputsOf_perm n.key
  route_perm := by
    intro s
    have hnavigators := hplan.navigators
    unfold WorkNode.route Draft.workNode
    dsimp only
    cases hp : plan.navigator with
    | none =>
      cases hp' : plan'.navigator with
      | none =>
        dsimp only
        rw [Route.targets_ofTargets, Route.targets_ofTargets]
        exact h.edgeTargets_perm n.key
      | some navigator' =>
        rw [hp, hp'] at hnavigators
        cases hnavigators
    | some navigator =>
      cases hp' : plan'.navigator with
      | none =>
        rw [hp, hp'] at hnavigators
        cases hnavigators
      | some navigator' =>
        rw [hp, hp'] at hnavigators
        cases hnavigators with
        | some hchoose => exact hchoose s

theorem strayEdges_hasErrors {ns ns' : List (WorkNode σ)}
    (hns : List.Forall₂ WorkNode.Mirrors ns ns') :
    (strayEdges g' ns').hasErrors = (strayEdges g ns).hasErrors := by
  have hperm : (strayEdges g ns).Perm (strayEdges g' ns') := by
    unfold strayEdges
    simp only [h.node?_eq, any_key_eq hns]
    exact (h.links_perm.filter _).filterMap _
  exact hperm.symm.any_eq

/-- The nodes to begin with are the same, in the same order. -/
theorem resolveEntry_eq {ns ns' : List (WorkNode σ)} (hns : List.Forall₂ WorkNode.Mirrors ns ns')
    (unfit : Bool) : resolveEntry g' ns' unfit = resolveEntry g ns unfit := by
  unfold resolveEntry startKeys rootKeys
  simp only [h.entry_eq, h.nodes_eq, any_key_eq hns, map_key_eq hns, h.links_perm.any_eq]

end Description.Reordered

section Compile

variable {ws : Workshop σ} {g g' : Description} (h : g.Reordered g')
  (hstandard : ∀ n ∈ g.nodes, ws.makers.resolve n.typeKey = standardMakers.resolve n.typeKey)
  (hagents : ∀ n ∈ g.nodes, n.kind ≠ .agent) (site : List String)

include h hstandard hagents

theorem add_mirrors {d d' : Draft σ} (hd : d.Mirrors d') {n : NodeSpec} (hn : n ∈ g.nodes) :
    (d.add ws g site n).Mirrors (d'.add ws g' site n) := by
  have hnote : ∀ i i' : Issue, i.isError = true → i'.isError = true →
      (d.note i).Mirrors (d'.note i') := by
    intro i i' hi hi'
    refine ⟨hd.nodes, hd.schema_eq, ?_⟩
    unfold Draft.note
    rw [Report.hasErrors_append, Report.hasErrors_append]
    simp [Report.hasErrors, hi, hi']
  have hplans : Concur NodePlan.Mirrors (ws.build g site n) (ws.build g' site n) := by
    unfold Workshop.build
    rw [h.nodes_eq]
    exact planAt_mirrors h hstandard hagents _ site hn
  have hcontains : d'.contains n.key = d.contains n.key := any_key_eq hd.nodes n.key
  unfold Draft.add
  rw [hcontains]
  split
  · exact hd
  · generalize ws.build g site n = made at hplans
    generalize ws.build g' site n = made' at hplans
    cases hplans with
    | error e e' => exact hnote _ _ rfl rfl
    | @ok plan plan' hplan =>
      dsimp only
      rw [hd.schema_eq, hplan.channel_eq]
      cases Draft.registerChannel d.schema plan.channel with
      | error e => exact hnote _ _ rfl rfl
      | ok schema =>
        exact ⟨List.rel_append hd.nodes (.cons (h.workNode_mirrors n hplan) .nil), rfl, hd.unfit_eq⟩

theorem foldl_add_mirrors {ns : List NodeSpec} (hns : ns ⊆ g.nodes) {d d' : Draft σ}
    (hd : d.Mirrors d') :
    (ns.foldl (fun d n => d.add ws g site n) d).Mirrors
      (ns.foldl (fun d n => d.add ws g' site n) d') := by
  induction ns generalizing d d' with
  | nil => exact hd
  | cons n rest ih =>
    have hn := hns List.mem_cons_self
    exact ih (fun m hm => hns (List.mem_cons_of_mem _ hm))
      (add_mirrors h hstandard hagents site hd hn)

theorem draftOf_mirrors : (draftOf ws g site).Mirrors (draftOf ws g' site) := by
  unfold draftOf
  rw [h.nodes_eq]
  exact foldl_add_mirrors h hstandard hagents site (fun n hn => (List.mem_filter.mp hn).1)
    ⟨.nil, rfl, h.checkStructure_hasErrors⟩

end Compile

/-- Workflows whose nodes differ in the order of their targets and neighbours only. -/
structure Workflow.Mirrors (w w' : Workflow σ) : Prop where
  nodes : List.Forall₂ WorkNode.Mirrors w.nodes w'.nodes
  schema_eq : w'.schema = w.schema
  entry_eq : w'.entry = w.entry

/-- Of two descriptions that differ in the order of their connections, both are compiled or neither
is, if they have standard nodes and no agents. -/
theorem compile_mirrors {ws : Workshop σ} {g g' : Description} (h : g.Reordered g')
    (hstandard : ∀ n ∈ g.nodes, ws.makers.resolve n.typeKey = standardMakers.resolve n.typeKey)
    (hagents : ∀ n ∈ g.nodes, n.kind ≠ .agent) (site : List String) :
    Concur Workflow.Mirrors (compile ws g site) (compile ws g' site) := by
  have hd := draftOf_mirrors h hstandard hagents site
  have hunfit : Report.hasErrors ((draftOf ws g' site).report ++
      strayEdges g' (draftOf ws g' site).nodes) = Report.hasErrors ((draftOf ws g site).report ++
      strayEdges g (draftOf ws g site).nodes) := by
    rw [Report.hasErrors_append, Report.hasErrors_append, hd.unfit_eq,
      h.strayEdges_hasErrors hd.nodes]
  unfold compile entryAndReport
  dsimp only
  rw [hunfit, h.resolveEntry_eq hd.nodes]
  generalize resolveEntry g (draftOf ws g site).nodes _ = resolved
  have hall : Report.hasErrors ((draftOf ws g' site).report ++
      strayEdges g' (draftOf ws g' site).nodes ++ resolved.2) =
      Report.hasErrors ((draftOf ws g site).report ++
        strayEdges g (draftOf ws g site).nodes ++ resolved.2) := by
    rw [Report.hasErrors_append, hunfit, Report.hasErrors_append _ resolved.2]
  rw [hall]
  split
  · exact .error _ _
  · exact .ok ⟨hd.nodes, hd.schema_eq, rfl⟩

end Workgraph
