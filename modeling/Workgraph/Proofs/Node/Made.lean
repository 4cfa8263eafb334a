import Workgraph.Node.Standard
import Workgraph.Proofs.Run.Routing
/-!
# What the standard makers make

A node that the standard makers have made is an agent with what stands around it, or it is one of
the other kinds. In either case it owns the channel named after its key.

## Main definitions

- `Agent.MadeFrom`, `Agent.planIn`: the agent that is made for a node, and its plan
- `PlainMaker`, `BuildContext.Makes`: the makers of the other nodes, and the plans that they make

## Main statements

- `exists_agent`: what the maker of agents makes
- `standardMakers_made`: what the standard makers make
-/

namespace Workgraph

variable {σ α β : Type}

theorem exists_of_bind_eq_ok {ε : Type} {x : Except ε α} {f : α → Except ε β} {b : β}
    (h : x >>= f = .ok b) : ∃ a, x = .ok a ∧ f a = .ok b := by
  cases x with
  | error e => cases h
  | ok a => exact ⟨a, rfl, h⟩

theorem eq_ok_of_mapError {ε ε' : Type} {x : Except ε α} {f : ε → ε'} {a : α}
    (h : x.mapError f = .ok a) : x = .ok a := by
  cases x with
  | error e => cases h
  | ok a' => exact congrArg Except.ok (Except.ok.inj h)

theorem exists_of_map_eq_ok {ε : Type} {x : Except ε α} {f : α → β} {b : β} (h : x.map f = .ok b) :
    ∃ a, x = .ok a ∧ f a = b := by
  cases x with
  | error e => cases h
  | ok a => exact ⟨a, rfl, Except.ok.inj h⟩

theorem eq_error_of_map {ε : Type} {x : Except ε α} {f : α → β} {e : ε} (h : x.map f = .error e) :
    x = .error e := by
  cases x with
  | error e' => exact congrArg Except.error (Except.error.inj h)
  | ok a => cases h

theorem Services.lookup_eq_ok {services : Table α} {kind name : String} {a : α}
    (h : Services.lookup services kind name = .ok a) : services.get? name = some a := by
  unfold lookup at h
  split at h
  · rename_i a' hget
    cases h
    exact hget
  · cases h

/-- What is known under a key is registered under a key of the same kind. -/
theorem Registry.mem_of_resolve {r : Registry α} {key : TypeKey} {a : α}
    (h : r.resolve key = .ok a) : ∃ k, (k, a) ∈ r ∧ k.kind = key.kind := by
  have hget : ∀ {k}, r.get? k = some a → (k, a) ∈ r := by
    intro k hk
    obtain ⟨entry, hentry, rfl⟩ := Option.map_eq_some_iff.mp hk
    have hkey : entry.1 = k := by simpa using List.find?_some hentry
    rw [← hkey]
    exact List.mem_of_find?_eq_some hentry
  unfold resolve at h
  cases hfound : (r.get? key).or (key.generic?.bind r.get?) with
  | none =>
    rw [hfound] at h
    cases h
  | some a' =>
    rw [hfound] at h
    cases h
    -- It is known under its own key, or else under the one without its provider.
    obtain hk | ⟨-, hk⟩ := Option.or_eq_some_iff.mp hfound
    · exact ⟨key, hget hk, rfl⟩
    · obtain ⟨k, hgeneric, hk⟩ := Option.bind_eq_some_iff.mp hk
      obtain ⟨provider, -, rfl⟩ := Option.map_eq_some_iff.mp hgeneric
      exact ⟨_, hget hk, rfl⟩

/-- The plan of a node comes from the maker that is registered for it, which may ask for the plans
of nodes that are nested less deep. -/
theorem Workshop.exists_maker_planAt {ws : Workshop σ} {g : Description} {depth : Nat}
    {site : List String} {n : NodeSpec} {plan : NodePlan σ}
    (h : ws.planAt g depth site n = .ok plan) :
    ∃ rest maker, depth = rest + 1 ∧ ws.makers.resolve n.typeKey = .ok maker ∧
      maker ⟨n, g, ws.services, ws.middleware, site ++ [n.key], ws.patience,
        ws.planAt g rest (site ++ [n.key])⟩ = .ok plan := by
  cases depth with
  | zero => cases h
  | succ rest =>
    obtain ⟨maker, hmaker, h⟩ := exists_of_bind_eq_ok h
    exact ⟨rest, maker, rfl, hmaker, h⟩

theorem Workshop.exists_maker {ws : Workshop σ} {g : Description} {site : List String}
    {n : NodeSpec} {plan : NodePlan σ} (h : ws.build g site n = .ok plan) :
    ∃ maker ctx, ws.makers.resolve n.typeKey = .ok maker ∧ maker ctx = .ok plan ∧
      ctx.node = n ∧ ctx.graph = g ∧ ctx.services = ws.services ∧
      ctx.middleware = ws.middleware := by
  obtain ⟨_, maker, -, hmaker, h⟩ := exists_maker_planAt h
  exact ⟨maker, _, hmaker, h, rfl, rfl, rfl, rfl⟩

/-! ## Agents -/

/-- A made agent has the model of the host, the layers attached to it, and the transfers, the tools
of its toolsets and those of its layers for its tools. -/
structure Agent.MadeFrom (a : Agent σ) (ctx : BuildContext σ) : Prop where
  model : ctx.services.model = some a.model
  chain : a.chain = instantiate ctx.middleware ctx.site (attachments ctx.graph ctx.node)
  tools : ∃ tools, toolsetTools ctx = .ok tools ∧
    a.tools = (transferTools ctx.graph ctx.node.key).map TransferTool.toTool ++ tools ++
      a.chain.tools
  supervisor : a.supervisor = returnsTo? ctx.graph ctx.node.key

/-- The plan of an agent: it may hand off to the agents that it has transfers for, and to its
supervisor. -/
def Agent.planIn (a : Agent σ) (ctx : BuildContext σ) : NodePlan σ where
  run := a.node ctx.patience
  channel := some (.shallowMerge (channelName ctx.node.key))
  navigator := some (.ofErrors ctx.graph ctx.node.key)
  handoffTargets := appendNew ((transferTools ctx.graph ctx.node.key).map (·.agentKey))
    (a.supervisor.toList.map (·.key))

section Making

variable {ctx : BuildContext σ} {plan : NodePlan σ}

theorem exists_agent (h : agentMaker ctx = .ok plan) :
    ∃ a : Agent σ, a.MadeFrom ctx ∧ plan = a.planIn ctx := by
  obtain ⟨setup, -, h⟩ := exists_of_bind_eq_ok h
  dsimp only at h
  split at h
  · rename_i model hmodel
    obtain ⟨tools, htools, h⟩ := exists_of_bind_eq_ok h
    split at h
    · cases h
    · cases h
      exact ⟨_, ⟨hmodel, rfl, ⟨tools, htools, rfl⟩, rfl⟩, rfl⟩
  · cases h

/-- The tools of a toolset are those that its provider makes. -/
theorem toolsOf_eq_ok {toolset : NodeSpec} {tools : List (Tool σ)}
    (h : toolsOf ctx toolset = .ok tools) :
    ∃ provider make, toolset.provider = some provider ∧
      ctx.services.toolsets.get? provider = some make ∧ make toolset.entity = .ok tools := by
  unfold toolsOf at h
  cases hprovider : toolset.provider with
  | none =>
    rw [hprovider] at h
    cases h
  | some provider =>
    rw [hprovider] at h
    obtain ⟨make, hmake, h⟩ := exists_of_bind_eq_ok h
    have hget := Services.lookup_eq_ok (eq_ok_of_mapError hmake)
    exact ⟨provider, make, rfl, hget, eq_ok_of_mapError h⟩

/-- Each tool of the toolsets of an agent comes from one of the toolsets it is connected to. -/
theorem exists_toolset {tools : List (Tool σ)} (h : toolsetTools ctx = .ok tools) {t : Tool σ}
    (ht : t ∈ tools) :
    ∃ l ∈ ctx.graph.links, l.kind = .toolset ∧ ∃ toolset group,
      ctx.graph.node? l.targetKey = some toolset ∧ toolsOf ctx toolset = .ok group ∧ t ∈ group := by
  obtain ⟨groups, hgroups, h⟩ := exists_of_bind_eq_ok h
  cases h
  obtain ⟨group, hgroup, ht⟩ := List.mem_flatten.mp ht
  obtain ⟨toolset, hmem, hmade⟩ := exists_of_forall₂ (mapM_eq_ok_iff.mp hgroups).flip hgroup
  obtain ⟨l, hl, hnode⟩ := List.mem_filterMap.mp hmem
  have hl : l ∈ ctx.graph.links ∧ l.kind = .toolset ∧ l.sourceKey = ctx.node.key := by
    simpa [Description.outgoing] using hl
  exact ⟨l, hl.1, hl.2.1, toolset, group, hnode, hmade, ht⟩

/-! ## Other nodes -/

/-- A stage with one of the services of a host. -/
inductive DocumentStage.OfferedBy (services : Services σ) : DocumentStage σ → Prop
  | source {name : String} {source : DocumentSource σ}
      (h : services.sources.get? name = some source) : OfferedBy services (.load source)
  | splitter {name : String} {split : DocumentMap σ}
      (h : services.splitters.get? name = some split) : OfferedBy services (.change split)
  | transformer {name : String} {transform : DocumentMap σ}
      (h : services.transformers.get? name = some transform) :
      OfferedBy services (.change transform)

variable (ctx) in
/-- The plans that the standard makers make for nodes other than agents. -/
inductive BuildContext.Makes : NodePlan σ → Prop
  | start : Makes (.writing startNode (.shallowMerge (channelName ctx.node.key)))
  | trigger (names : List String) :
      Makes (.writing (triggerNode names) (.shallowMerge (channelName ctx.node.key)))
  | branch (cases : List Case) :
      Makes (.routing (branchNode ctx.node.key cases) (.shallowMerge (channelName ctx.node.key))
        (.ofPorts ctx.graph ctx.node.key routerField))
  | listQuery (q : ListQuery) :
      Makes (.routing (listQueryNode q) (.shallowMerge (channelName ctx.node.key))
        (.ofErrors ctx.graph ctx.node.key))
  | aggregation (a : Aggregation) :
      Makes (.writing (aggregationNode a) (.overwrite (channelName ctx.node.key)))
  | iteration (it : Iteration) {child : NodeSpec} {childPlan : NodePlan σ}
      (honly : Iteration.onlyChild ctx = .ok child) (hplan : ctx.planOf child = .ok childPlan) :
      Makes (.routing (it.node ⟨child.key, childPlan.run, childPlan.channel⟩)
        (.overwrite (channelName ctx.node.key)) (.ofErrors ctx.graph ctx.node.key))
  | stage {stage : DocumentStage σ} (provider : String) (setup : StageSetup)
      (hoffered : stage.OfferedBy ctx.services) :
      Makes (.routing (stageNode stage provider setup) (.shallowMerge (channelName ctx.node.key))
        (.ofErrors ctx.graph ctx.node.key))

theorem branchMaker_made (h : branchMaker ctx = .ok plan) : ctx.Makes plan := by
  obtain ⟨cases, -, h⟩ := exists_of_bind_eq_ok h
  dsimp only at h
  split at h
  · cases h
  · cases h
    exact .branch cases

theorem triggerMaker_made (h : triggerMaker ctx = .ok plan) : ctx.Makes plan := by
  obtain ⟨names, -, h⟩ := exists_of_bind_eq_ok h
  dsimp only at h
  split at h
  · cases h
  · cases h
    exact .trigger names

theorem exists_aggregation (h : aggregationMaker ctx = .ok plan) :
    ∃ a, ctx.configuration Aggregation.decoder ⟨[], []⟩ = .ok a ∧ a.flaw? = none ∧
      plan = .writing (aggregationNode a) (.overwrite (channelName ctx.node.key)) := by
  obtain ⟨a, ha, h⟩ := exists_of_bind_eq_ok h
  dsimp only at h
  cases hflaw : a.flaw? with
  | some flaw =>
    rw [hflaw] at h
    cases h
  | none =>
    rw [hflaw] at h
    cases h
    exact ⟨a, ha, hflaw, rfl⟩

theorem aggregationMaker_made (h : aggregationMaker ctx = .ok plan) : ctx.Makes plan := by
  obtain ⟨a, -, -, rfl⟩ := exists_aggregation h
  exact .aggregation a

theorem exists_listQuery (h : listQueryMaker ctx = .ok plan) :
    ∃ q, plan = .routing (listQueryNode q) (.shallowMerge (channelName ctx.node.key))
      (.ofErrors ctx.graph ctx.node.key) := by
  obtain ⟨q, -, h⟩ := exists_of_bind_eq_ok h
  dsimp only at h
  split at h
  · cases h
  · cases h
    exact ⟨q, rfl⟩

theorem listQueryMaker_made (h : listQueryMaker ctx = .ok plan) : ctx.Makes plan := by
  obtain ⟨q, rfl⟩ := exists_listQuery h
  exact .listQuery q

theorem exists_iteration (h : iterationMaker ctx = .ok plan) :
    ∃ (it : Iteration) (child : NodeSpec) (childPlan : NodePlan σ),
      Iteration.onlyChild ctx = .ok child ∧
      ctx.planOf child = .ok childPlan ∧
      plan = .routing (it.node ⟨child.key, childPlan.run, childPlan.channel⟩)
        (.overwrite (channelName ctx.node.key)) (.ofErrors ctx.graph ctx.node.key) := by
  obtain ⟨it, -, h⟩ := exists_of_bind_eq_ok h
  dsimp only at h
  split at h
  · cases h
  · obtain ⟨child, honly, h⟩ := exists_of_bind_eq_ok h
    obtain ⟨childPlan, hplan, h⟩ := exists_of_bind_eq_ok h
    cases h
    exact ⟨it, child, childPlan, honly, hplan, rfl⟩

theorem iterationMaker_made (h : iterationMaker ctx = .ok plan) : ctx.Makes plan := by
  obtain ⟨it, child, childPlan, honly, hplan, rfl⟩ := exists_iteration h
  exact .iteration it honly hplan

section Stages

variable {stageOf : Services σ → String → Except ProviderError (DocumentStage σ)}
  {needsInput : Option String}

theorem exists_stage (h : stageMaker stageOf needsInput ctx = .ok plan) :
    ∃ provider stage setup, stageOf ctx.services provider = .ok stage ∧
      plan = .routing (stageNode stage provider setup) (.shallowMerge (channelName ctx.node.key))
        (.ofErrors ctx.graph ctx.node.key) := by
  obtain ⟨provider, -, h⟩ := exists_of_bind_eq_ok h
  obtain ⟨stage, hstage, h⟩ := exists_of_bind_eq_ok h
  obtain ⟨setup, -, h⟩ := exists_of_bind_eq_ok h
  dsimp only at h
  split at h
  · cases h
  · cases h
    exact ⟨provider, stage, setup, eq_ok_of_mapError hstage, rfl⟩

theorem stageMaker_made
    (hoffers : ∀ name stage, stageOf ctx.services name = .ok stage → stage.OfferedBy ctx.services)
    (h : stageMaker stageOf needsInput ctx = .ok plan) : ctx.Makes plan := by
  obtain ⟨provider, stage, setup, hstage, rfl⟩ := exists_stage h
  exact .stage provider setup (hoffers provider stage hstage)

end Stages

theorem sourceMaker_made (h : sourceMaker ctx = .ok plan) : ctx.Makes plan := by
  refine stageMaker_made ?_ h
  intro name stage hstage
  obtain ⟨source, hsource, rfl⟩ := exists_of_map_eq_ok hstage
  exact .source (Services.lookup_eq_ok hsource)

theorem splitterMaker_made (h : splitterMaker ctx = .ok plan) : ctx.Makes plan := by
  refine stageMaker_made ?_ h
  intro name stage hstage
  obtain ⟨split, hsplit, rfl⟩ := exists_of_map_eq_ok hstage
  exact .splitter (Services.lookup_eq_ok hsplit)

theorem transformerMaker_made (h : transformerMaker ctx = .ok plan) : ctx.Makes plan := by
  refine stageMaker_made ?_ h
  intro name stage hstage
  obtain ⟨transform, htransform, rfl⟩ := exists_of_map_eq_ok hstage
  exact .transformer (Services.lookup_eq_ok htransform)

/-- The standard makers of nodes other than agents. -/
inductive PlainMaker : Maker σ → Prop
  | start : PlainMaker startMaker
  | trigger : PlainMaker triggerMaker
  | branch : PlainMaker branchMaker
  | listQuery : PlainMaker listQueryMaker
  | aggregation : PlainMaker aggregationMaker
  | iteration : PlainMaker iterationMaker
  | source : PlainMaker sourceMaker
  | splitter : PlainMaker splitterMaker
  | transformer : PlainMaker transformerMaker

theorem standardMakers_cases {key : TypeKey} {maker : Maker σ}
    (hm : standardMakers.resolve key = .ok maker) :
    (key.kind = .agent ∧ maker = agentMaker) ∨ PlainMaker maker := by
  obtain ⟨k, hk, hkind⟩ := Registry.mem_of_resolve hm
  unfold standardMakers at hk
  simp only [List.mem_cons, List.not_mem_nil, or_false, Prod.mk.injEq] at hk
  obtain ⟨rfl, rfl⟩ | ⟨-, rfl⟩ | ⟨-, rfl⟩ | ⟨-, rfl⟩ | ⟨-, rfl⟩ | ⟨-, rfl⟩ | ⟨-, rfl⟩ | ⟨-, rfl⟩ |
    ⟨-, rfl⟩ | ⟨-, rfl⟩ := hk
  · exact .inl ⟨hkind.symm, rfl⟩
  · exact .inr .start
  · exact .inr .trigger
  · exact .inr .branch
  · exact .inr .listQuery
  · exact .inr .aggregation
  · exact .inr .iteration
  · exact .inr .source
  · exact .inr .splitter
  · exact .inr .transformer

/-- What a standard maker makes is an agent or a node of another kind. -/
theorem standardMakers_made {key : TypeKey} {maker : Maker σ}
    (hm : standardMakers.resolve key = .ok maker) (h : maker ctx = .ok plan) :
    (key.kind = .agent ∧ ∃ a : Agent σ, a.MadeFrom ctx ∧ plan = a.planIn ctx) ∨ ctx.Makes plan := by
  obtain ⟨hkind, rfl⟩ | hplain := standardMakers_cases hm
  · exact .inl ⟨hkind, exists_agent h⟩
  · refine .inr ?_
    cases hplain with
    | start =>
      cases h
      exact .start
    | trigger => exact triggerMaker_made h
    | branch => exact branchMaker_made h
    | listQuery => exact listQueryMaker_made h
    | aggregation => exact aggregationMaker_made h
    | iteration => exact iterationMaker_made h
    | source => exact sourceMaker_made h
    | splitter => exact splitterMaker_made h
    | transformer => exact transformerMaker_made h

/-- A made node owns the channel named after its key. -/
theorem BuildContext.Makes.channel_eq (h : ctx.Makes plan) :
    ∃ c, plan.channel = some c ∧ c.name = channelName ctx.node.key := by
  cases h <;> exact ⟨_, rfl, rfl⟩

/-- A made node other than an agent hands off to nobody. -/
theorem BuildContext.Makes.handoffTargets_eq (h : ctx.Makes plan) : plan.handoffTargets = [] := by
  cases h <;> rfl

end Making

end Workgraph
