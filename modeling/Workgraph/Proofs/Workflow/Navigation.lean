import Workgraph.Proofs.State.Fields
import Workgraph.Proofs.Workflow.Channels
import Workgraph.Proofs.Workflow.Neighbours
/-!
# Navigation

How a run goes on behind a node that has written its update. A node that chooses by errors or by
ports looks into the channel that its update went to, and finds there what the update says, whatever
the channel held before.

## Main definitions

- `WorkNode.MadeBy`: the node that a plan makes

## Main statements

- `compile_madeBy`: the plan of a node comes from the maker that is registered for its type
- `WorkNode.MadeBy.exists_writeUpdate_text?`: a text of an update is found in the channel of the
  node
- `Navigator.choose_ofErrors`: a node with an error leaves through its port for failures
- `Navigator.choose_ofPorts`: a node leaves through the port that its channel names
-/

namespace Workgraph

variable {σ : Type} {ws : Workshop σ} {g : Description} {site : List String} {w : Workflow σ}
  {n : WorkNode σ}

/-- A node is made by a plan, and the channel of the plan is registered. -/
structure WorkNode.MadeBy (n : WorkNode σ) (w : Workflow σ) (plan : NodePlan σ) : Prop where
  run_eq : n.run = plan.run
  navigator_eq : n.navigator = plan.navigator
  channel_eq : n.channel = plan.channel.map (·.name)
  registered : ∀ c, plan.channel = some c → w.schema.get? c.name = some c

/-- Each executable node of a description becomes a node of its workflow. -/
theorem compile_exists_node (h : compile ws g site = .ok w) {spec : NodeSpec}
    (hspec : spec ∈ g.nodes) (hexecutable : spec.isExecutable = true) :
    ∃ n ∈ w.nodes, n.key = spec.key ∧ g.node? n.key = some spec := by
  have hreflects := compile_reflects h
  have hmem : spec.key ∈ w.keys := by
    rw [hreflects.keys_eq]
    exact List.mem_map_of_mem (List.mem_filter.mpr ⟨hspec, hexecutable⟩)
  obtain ⟨n, hnode⟩ := Workflow.exists_node_of_mem_keys hmem
  obtain ⟨hn, hkey⟩ := Workflow.node?_eq_some hnode
  exact ⟨n, hn, hkey, hkey ▸ hreflects.sound.node?_eq hspec⟩

/-- The plan of a node of a workflow comes from the maker that is registered for the type of the
node. -/
theorem compile_madeBy (h : compile ws g site = .ok w) (hn : n ∈ w.nodes) {spec : NodeSpec}
    (hspec : g.node? n.key = some spec) {maker : Maker σ}
    (hmaker : ws.makers.resolve spec.typeKey = .ok maker) :
    ∃ ctx plan, maker ctx = .ok plan ∧ ctx.node = spec ∧ ctx.node.key = n.key ∧ ctx.graph = g ∧
      n.MadeBy w plan := by
  obtain ⟨spec', hspec', plan, hplan, rfl, hchannel⟩ := compile_registers h hn
  have hsame : spec' = spec :=
    Option.some.inj (((compile_reflects h).sound.node?_eq hspec').symm.trans hspec)
  subst hsame
  obtain ⟨maker', ctx, hmaker', hmade, hnode, hgraph, -⟩ := Workshop.exists_maker hplan
  cases hmaker.symm.trans hmaker'
  exact ⟨ctx, plan, hmade, hnode, congrArg _ hnode, hgraph, rfl, rfl, rfl, hchannel⟩

/-- A text in a field of the update of a node, or null in its place, is found in the channel of the
node after the update has been written, if the channel starts from the empty object. -/
theorem WorkNode.MadeBy.exists_writeUpdate_text? {plan : NodePlan σ} (h : n.MadeBy w plan)
    (hreflects : Reflects ws g site w) (hn : n ∈ w.nodes) {c : Channel}
    (hc : plan.channel = some c) (hname : c.name = channelName n.key)
    (hdefault : c.default = .obj [])
    {out : NodeOutput} {fields : Table Json} (hupdate : out.update = some (.obj fields))
    (hsorted : fields.Sorted) {name : String} {o : Option String}
    (ho : fields.get? name = some (.text? o)) {store : Store} (hstore : store.schema = w.schema) :
    ∃ store', w.writeUpdate n.key out store = .ok store' ∧ ∃ v,
      store'.state.channel? (channelName n.key) = some v ∧ v.field? name = some (.text? o) := by
  have hnone : c.default.field? name = none := by
    rw [hdefault]
    rfl
  have hregistered : store.schema.get? (channelName n.key) = some c := by
    rw [hstore, ← hname]
    exact h.registered c hc
  have hchannel : n.channel = some (channelName n.key) := by
    rw [h.channel_eq, hc, Option.map_some, hname]
  obtain ⟨next, store', happly, hfound⟩ := Store.exists_apply_text? hregistered hsorted ho hnone
  refine ⟨store', ?_, hfound⟩
  unfold Workflow.writeUpdate
  rw [hupdate, hreflects.channelOf_eq hn hchannel]
  change (store.apply (channelName n.key) (.obj fields)).map (·.2) = .ok store'
  rw [happly]
  rfl

theorem WorkNode.route_eq {navigator : Navigator} (h : n.navigator = some navigator)
    (s : Snapshot) : n.route s = navigator.choose s := by
  rw [route, h]

namespace Navigator

variable {key : String} {s : Snapshot} {v : Json}

/-- With an error in its channel, a node leaves through its port for failures, and without one
through its plain edges. -/
theorem choose_ofErrors (hv : s.channel? (channelName key) = some v) {o : Option String}
    (ho : v.field? Channel.errorField = some (.text? o)) (hempty : o ≠ some "") :
    (ofErrors g key).choose s =
      .ofTargets (g.edgeTargets (if o.isSome then failPort key else key)) := by
  have hreports : reportsError v = o.isSome := by
    unfold reportsError
    rw [ho]
    cases o with
    | none => rfl
    | some message =>
      have hne : ¬ message = "" := fun he => hempty (congrArg some he)
      have hsame : (Json.str message == Json.str "") = (message == "") := rfl
      simp [Json.text?, Json.isNull, hsame, hne]
  unfold ofErrors choose
  dsimp only
  rw [hv, Option.any_some, hreports]
  cases o.isSome <;> rfl

theorem mem_portsOf {port : String} :
    port ∈ portsOf g key ↔
      ∃ l ∈ g.links, l.sourceKey = key ∧ l.sourcePort?.isSome = true ∧ l.source = port := by
  simp [portsOf, and_assoc]

/-- No edge leaves a port that is not among those of its node. -/
theorem edgeTargets_eq_nil (hbare : nodeKeyOf key = key) {port : String}
    (h : portOf key port ∉ portsOf g key) : g.edgeTargets (portOf key port) = [] := by
  refine List.eq_nil_iff_forall_not_mem.mpr fun target ht => h ?_
  obtain ⟨l, hl, -, hsource, -⟩ := mem_edgeTargets.mp ht
  have hsplit := splitPort_portOf port hbare
  refine mem_portsOf.mpr ⟨l, hl, ?_, ?_, hsource⟩
  · rw [Link.sourceKey, hsource, nodeKeyOf, hsplit]
  · rw [Link.sourcePort?, hsource, hsplit]
    rfl

/-- A node leaves through the port that its channel names, and nowhere if nothing leaves this
port. -/
theorem choose_ofPorts (hbare : nodeKeyOf key = key) (hv : s.channel? (channelName key) = some v)
    {field port : String} (hfield : v.field? field = some (.str (portOf key port))) :
    (ofPorts g key field).choose s = .ofTargets (g.edgeTargets (portOf key port)) := by
  have hselected : selectedPort? v field = some (portOf key port) := by
    rw [selectedPort?, hfield]
    rfl
  unfold ofPorts choose
  dsimp only
  have hfirst : ((portsOf g key).map fun p => (p, g.edgeTargets p)).find?
      (·.1 == portOf key port) =
      ((portsOf g key).find? (· == portOf key port)).map fun p => (p, g.edgeTargets p) :=
    List.find?_map
  rw [hv, Option.bind_some, hselected, Option.bind_some, hfirst]
  cases hfind : (portsOf g key).find? (· == portOf key port) with
  | some found =>
    have hfound : found = portOf key port := by simpa using List.find?_some hfind
    rw [Option.map_some, hfound]
  | none =>
    have hport : portOf key port ∉ portsOf g key := fun hmem =>
      List.find?_eq_none.mp hfind _ hmem (beq_self_eq_true _)
    rw [edgeTargets_eq_nil hbare hport]
    rfl

end Navigator

end Workgraph
