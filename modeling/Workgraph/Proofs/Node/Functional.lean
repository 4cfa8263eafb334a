import Workgraph.Proofs.Node.Made
import Workgraph.Proofs.Node.Silent
/-!
# Functional nodes

If the services of a host are functions of their arguments, then what a standard node gives back is
a function of the state, agents aside: neither the circumstances of the step nor the rest of the
world make a difference.

## Main definitions

- `Activity.Returns`: activities with a fixed result
- `Services.Functional`: services that are functions of their arguments
- `Node.Functional`: nodes whose result depends on the state alone

## Main statements

- `BuildContext.Makes.functional`: standard nodes that are not agents are functional
- `planAt_functional`: so they are in a description, however deep they are nested
-/

namespace Workgraph

variable {σ α β : Type}

namespace Activity

/-- As long as the run is not cancelled, the result is fixed; the run is not cancelled on the way,
and no identifiers are drawn. What happens to the host, to the log and to the time may depend on
anything. -/
def Returns (x : Activity σ α) (a : α) : Prop :=
  ∀ world : World σ, world.cancelled = false →
    (x world).1 = a ∧ (x world).2.cancelled = false ∧ (x world).2.issued = world.issued

theorem Returns.pure (a : α) : Returns (Pure.pure a : Activity σ α) a :=
  fun _ hawake => ⟨rfl, hawake, rfl⟩

theorem Returns.bind {x : Activity σ α} {f : α → Activity σ β} {a : α} {b : β} (hx : x.Returns a)
    (hf : (f a).Returns b) : (x >>= f).Returns b := by
  intro world hawake
  obtain ⟨hresult, hawake', hissued⟩ := hx world hawake
  change (f (x world).1 (x world).2).1 = b ∧ (f (x world).1 (x world).2).2.cancelled = false ∧
    (f (x world).1 (x world).2).2.issued = world.issued
  rw [hresult, ← hissued]
  exact hf _ hawake'

theorem isCancelled_returns : Returns (isCancelled : Activity σ Bool) false :=
  fun _ hawake => ⟨hawake, hawake, rfl⟩

end Activity

theorem NodeContext.report_returns (ctx : NodeContext) (e : Timestamp → Event) :
    (ctx.report e : Activity σ Unit).Returns () := by
  unfold NodeContext.report
  cases ctx.silent with
  | true => exact .pure ()
  | false => exact fun _ hawake => ⟨rfl, hawake, rfl⟩

theorem NodeContext.say_returns (ctx : NodeContext) (message : String) :
    (ctx.say message : Activity σ Unit).Returns () := ctx.report_returns _

open Activity

/-- The result of a node depends on the state alone. -/
def Node.Functional (run : Node σ) : Prop := ∀ s, ∃ result, ∀ ctx, (run ctx s).Returns result

/-- The services for documents are functions of their arguments. -/
structure Services.Functional (services : Services σ) : Prop where
  sources : ∀ name source, services.sources.get? name = some source →
    ∀ config input, ∃ result, (source config input).Returns result
  splitters : ∀ name split, services.splitters.get? name = some split →
    ∀ documents config, ∃ result, (split documents config).Returns result
  transformers : ∀ name transform, services.transformers.get? name = some transform →
    ∀ documents config, ∃ result, (transform documents config).Returns result

/-! ## The nodes -/

theorem startNode_functional : Node.Functional (startNode : Node σ) :=
  fun _ => ⟨_, fun _ => .pure _⟩

theorem triggerNode_functional (names : List String) :
    Node.Functional (triggerNode names : Node σ) :=
  fun _ => ⟨_, fun _ => .pure _⟩

theorem aggregationNode_functional (a : Aggregation) :
    Node.Functional (aggregationNode a : Node σ) :=
  fun _ => ⟨_, fun _ => .pure _⟩

theorem branchNode_functional (key : String) (cases : List Case) :
    Node.Functional (branchNode key cases : Node σ) :=
  fun _ => ⟨_, fun ctx => .bind (ctx.say_returns _) (.pure _)⟩

theorem listQueryNode_functional (q : ListQuery) :
    Node.Functional (listQueryNode q : Node σ) := by
  intro s
  unfold listQueryNode
  cases (s.resolve? q.input).bind Json.asItems? with
  | some items => exact ⟨_, fun _ => .pure _⟩
  | none => exact ⟨_, fun ctx => .bind (ctx.say_returns _) (.pure _)⟩

theorem DocumentStage.process_returns {services : Services σ} (hservices : services.Functional)
    {stage : DocumentStage σ} (hstage : stage.OfferedBy services) (config input : Json) :
    ∃ result, (stage.process config input).Returns result := by
  have hchange : ∀ f : DocumentMap σ, (∀ documents config, ∃ result,
      (f documents config).Returns result) →
      ∃ result, ((DocumentStage.change f).process config input).Returns result := by
    intro f hf
    unfold process
    dsimp only
    cases documentsOf input with
    | error e => exact ⟨_, .pure _⟩
    | ok documents =>
      obtain ⟨result, hresult⟩ := hf documents config
      exact ⟨_, .bind hresult (.pure _)⟩
  cases hstage with
  | @source name source h =>
    obtain ⟨result, hresult⟩ := hservices.sources name source h config input
    exact ⟨_, .bind hresult (.pure _)⟩
  | @splitter name split h => exact hchange split (hservices.splitters name split h)
  | @transformer name transform h =>
    exact hchange transform (hservices.transformers name transform h)

theorem stageNode_functional {services : Services σ} (hservices : services.Functional)
    {stage : DocumentStage σ} (hstage : stage.OfferedBy services) (provider : String)
    (setup : StageSetup) : Node.Functional (stageNode stage provider setup) := by
  intro s
  obtain ⟨result, hresult⟩ := DocumentStage.process_returns hservices hstage setup.config
    ((setup.input.bind s.resolve?).getD .null)
  obtain e | e | documents := result
  · exact ⟨_, fun _ => .bind hresult (.pure _)⟩
  · exact ⟨_, fun _ => .bind hresult (.pure _)⟩
  · exact ⟨_, fun ctx => .bind hresult (.bind (ctx.say_returns _) (.pure _))⟩

namespace Iteration

variable (it : Iteration) {child : Child σ} (hchild : Node.Functional child.run)

include hchild

theorem runElement_returns (s : Snapshot) (index : Nat) (item : Json) :
    ∃ result, ∀ ctx, (it.runElement child ctx s index item).Returns result := by
  obtain ⟨result, hresult⟩ := hchild (it.elementState s index item)
  exact ⟨_, fun ctx => .bind isCancelled_returns
    (.bind (hresult (elementContext ctx child.key index)) (.pure _))⟩

theorem arrivals_returns (s : Snapshot) (items : List Json) (order : List Nat) :
    ∃ results, ∀ ctx, (it.arrivals child ctx s items order).Returns results := by
  induction order with
  | nil => exact ⟨[], fun _ => .pure _⟩
  | cons index rest ih =>
    obtain ⟨more, hmore⟩ := ih
    unfold arrivals
    cases items[index]? with
    | none => exact ⟨more, hmore⟩
    | some item =>
      obtain ⟨result, hresult⟩ := it.runElement_returns hchild s index item
      exact ⟨_, fun ctx => .bind (hresult ctx) (.bind (hmore ctx) (.pure _))⟩

/-- An iterating node is functional if the node that it runs is. -/
theorem node_functional : Node.Functional (it.node child) := by
  intro s
  unfold Iteration.node
  cases (s.resolve? it.input).bind Json.asItems? with
  | none => exact ⟨_, fun ctx => .bind (ctx.say_returns _) (.pure _)⟩
  | some items =>
    obtain ⟨results, hresults⟩ := it.arrivals_returns hchild s items
      (List.range items.length)
    cases hcollect : collect it.errorMode 0 (arranged items.length results) with
    | ok outputs =>
      refine ⟨.ok (.write (report outputs)), fun ctx => .bind (hresults ctx) ?_⟩
      rw [hcollect]
      exact .pure _
    | error e =>
      cases e with
      | cancelled =>
        refine ⟨.error .cancelled, fun ctx => .bind (hresults ctx) ?_⟩
        rw [hcollect]
        exact .pure _
      | failed message =>
        refine ⟨.ok (.failure message), fun ctx => .bind (hresults ctx) ?_⟩
        rw [hcollect]
        exact .bind (ctx.say_returns message) (.pure _)

end Iteration

/-- A standard node that is not an agent is functional if the services of the host are, and the node
that it runs if it iterates. -/
theorem BuildContext.Makes.functional {ctx : BuildContext σ} {plan : NodePlan σ}
    (h : ctx.Makes plan) (hservices : ctx.services.Functional)
    (hchild : ∀ child childPlan, Iteration.onlyChild ctx = .ok child →
      ctx.planOf child = .ok childPlan → Node.Functional childPlan.run) :
    Node.Functional plan.run := by
  cases h with
  | start => exact startNode_functional
  | trigger names => exact triggerNode_functional names
  | branch cases => exact branchNode_functional _ cases
  | listQuery q => exact listQueryNode_functional q
  | aggregation a => exact aggregationNode_functional a
  | iteration it honly hplan => exact it.node_functional (hchild _ _ honly hplan)
  | stage provider setup hoffered => exact stageNode_functional hservices hoffered provider setup

/-- The node that an iterating node runs is one of the description. -/
theorem Iteration.onlyChild_mem {ctx : BuildContext σ} {child : NodeSpec}
    (h : Iteration.onlyChild ctx = .ok child) : child ∈ ctx.graph.nodes := by
  unfold onlyChild at h
  dsimp only at h
  split at h
  · rename_i found hfound
    have hmem : found ∈ (ctx.graph.outgoing ctx.node.key .agent).filterMap fun l =>
        ctx.graph.node? l.targetKey := hfound ▸ List.mem_singleton_self found
    split at h
    · cases h
    · split at h
      · cases h
        obtain ⟨l, -, hnode⟩ := List.mem_filterMap.mp hmem
        exact List.mem_of_find?_eq_some hnode
      · cases h
  · cases h
  · cases h

/-- In a description without agents, standard nodes are functional and silent, however deep they are
nested. -/
theorem planAt_functional {ws : Workshop σ} {g : Description}
    (hstandard : ∀ n ∈ g.nodes, ws.makers.resolve n.typeKey = standardMakers.resolve n.typeKey)
    (hagents : ∀ n ∈ g.nodes, n.kind ≠ .agent) (hservices : ws.services.Functional) {depth : Nat}
    {site : List String} {n : NodeSpec} (hn : n ∈ g.nodes) {plan : NodePlan σ}
    (h : ws.planAt g depth site n = .ok plan) :
    Node.Functional plan.run ∧ Node.Silent plan.run := by
  induction depth generalizing site n plan with
  | zero => cases h
  | succ depth ih =>
    obtain ⟨_, maker, hdepth, hmaker, h⟩ := Workshop.exists_maker_planAt h
    cases hdepth
    rw [hstandard n hn] at hmaker
    obtain ⟨hkind, -⟩ | hmakes := standardMakers_made hmaker h
    · exact absurd hkind (hagents n hn)
    · refine ⟨hmakes.functional hservices ?_, hmakes.silent⟩
      intro child childPlan honly hplan
      exact (ih (Iteration.onlyChild_mem honly) hplan).1

end Workgraph
