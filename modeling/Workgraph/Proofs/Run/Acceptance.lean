import Workgraph.Proofs.Agent.History
import Workgraph.Proofs.Agent.Permission
import Workgraph.Proofs.Run.Destinations
import Workgraph.Proofs.Run.Ownership
/-!
# Acceptance

What the standard nodes give back can always be written. Each of them has registered the channel
that it writes, only agents hand off, and an agent hands off only to agents that it was connected to
when it was made. So no run fails because of a channel or a transfer.

## Main definitions

- `Workshop.KeepsControl`: hosts whose tools and layers do not hand off by themselves
- `RunFailure.Refuses`: failures because of a channel or a transfer

## Main statements

- `Reflects.handoff_mem`: where the nodes of a workflow hand off
- `Reflects.writable`: what standard nodes give back can be written
- `outputs_accepted`: no run fails because of a channel or a transfer
-/

namespace Workgraph

variable {σ τ : Type}

/-- The tools and the layers of a description do not hand off by themselves: no tool of a toolset or
of a layer does, and no layer makes up a transfer. -/
structure Workshop.KeepsControl (ws : Workshop σ) (g : Description) : Prop where
  toolsets : ∀ l ∈ g.links, l.kind = .toolset → ∀ toolset provider make tools,
    g.node? l.targetKey = some toolset → toolset.provider = some provider →
    ws.services.toolsets.get? provider = some make → make toolset.entity = .ok tools →
    ∀ t ∈ tools, t.KeepsControl
  layers : ∀ n ∈ g.nodes, ∀ site, ∀ m ∈ instantiate ws.middleware site (attachments g n),
    (∀ t ∈ m.tools, t.KeepsControl) ∧ m.PassesOn

/-! ## Agents -/

namespace Agent.MadeFrom

variable {a : Agent σ} {ctx : BuildContext σ}

theorem mem_handoffTargets {target : String} :
    target ∈ (a.planIn ctx).handoffTargets ↔
      (∃ c ∈ ctx.graph.collaborators ctx.node.key, c.key = target) ∨
        ∃ s, a.supervisor = some s ∧ s.key = target := by
  unfold planIn
  simp [transferTools, transferTool]

/-- An agent may hand off to agents of the description only. -/
theorem exists_target (h : a.MadeFrom ctx) {target : String}
    (ht : target ∈ (a.planIn ctx).handoffTargets) :
    ∃ n ∈ ctx.graph.nodes, n.kind = .agent ∧ n.key = target := by
  obtain ⟨c, hc, rfl⟩ | ⟨s, hs, rfl⟩ := mem_handoffTargets.mp ht
  · obtain ⟨hc, hkind⟩ := List.mem_filter.mp hc
    obtain ⟨l, -, hnode⟩ := List.mem_filterMap.mp hc
    exact ⟨c, List.mem_of_find?_eq_some hnode, by simpa using hkind, rfl⟩
  · rw [h.supervisor] at hs
    unfold returnsTo? at hs
    split at hs
    · cases hs
    · obtain ⟨n, hn, rfl⟩ := Option.map_eq_some_iff.mp hs
      have hkind := List.find?_some hn
      obtain ⟨key, -, hnode⟩ := List.mem_filterMap.mp (List.mem_of_find?_eq_some hn)
      exact ⟨n, List.mem_of_find?_eq_some hnode, by simpa using hkind, rfl⟩

/-- The tools and returns of an agent lead to the nodes that it may hand off to. -/
theorem sends (h : a.MadeFrom ctx)
    (htools : ∀ tools, toolsetTools ctx = .ok tools → ∀ t ∈ tools, t.KeepsControl)
    (hlayers : ∀ m ∈ a.chain, (∀ t ∈ m.tools, t.KeepsControl) ∧ m.PassesOn) :
    a.Sends (· ∈ (a.planIn ctx).handoffTargets) where
  layers := fun m hm => (hlayers m hm).2
  supervisor := fun s hs => mem_handoffTargets.mpr (.inr ⟨s, hs, rfl⟩)
  tools := by
    intro t ht
    obtain ⟨tools, hmade, hall⟩ := h.tools
    rw [hall, List.mem_append, List.mem_append] at ht
    obtain (ht | ht) | ht := ht
    · obtain ⟨transfer, htransfer, rfl⟩ := List.mem_map.mp ht
      obtain ⟨c, hc, rfl⟩ := List.mem_map.mp htransfer
      exact TransferTool.toTool_sends (mem_handoffTargets.mpr (.inl ⟨c, hc, rfl⟩))
    · exact (htools tools hmade t ht).sends
    · obtain ⟨m, hm, ht⟩ := List.mem_flatMap.mp ht
      exact ((hlayers m hm).1 t ht).sends

end Agent.MadeFrom

/-! ## The nodes of a workflow -/

namespace Reflects

variable {ws : Workshop σ} {g : Description} {site : List String} {w : Workflow σ}
  {n : WorkNode σ}

theorem agent_mem_keys (h : Reflects ws g site w) {spec : NodeSpec} (hs : spec ∈ g.nodes)
    (hkind : spec.kind = .agent) : spec.key ∈ w.keys := by
  rw [h.keys_eq]
  refine List.mem_map_of_mem (List.mem_filter.mpr ⟨hs, ?_⟩)
  unfold NodeSpec.isExecutable
  rw [hkind]

variable
  (hstandard : ∀ n ∈ g.nodes, ws.makers.resolve n.typeKey = standardMakers.resolve n.typeKey)

include hstandard

/-- A standard node may hand off to nodes of the workflow only. -/
theorem handoffTargets_known (h : Reflects ws g site w) (hn : n ∈ w.nodes) :
    n.handoffTargets ⊆ w.keys := by
  obtain ⟨spec, hspec, -, plan, hplan, rfl⟩ := h.planned n hn
  obtain ⟨maker, build, hmaker, hmade, rfl, rfl, -⟩ := Workshop.exists_maker hplan
  rw [hstandard build.node hspec] at hmaker
  show plan.handoffTargets ⊆ w.keys
  obtain ⟨-, a, ha, rfl⟩ | hother := standardMakers_made hmaker hmade
  · intro target htarget
    obtain ⟨other, hother, hkind, rfl⟩ := ha.exists_target htarget
    exact h.agent_mem_keys hother hkind
  · rw [hother.handoffTargets_eq]
    exact List.nil_subset _

/-- A standard node hands off only to nodes that it may hand off to. -/
theorem handoff_mem (h : Reflects ws g site w) (hkeep : ws.KeepsControl g) (hn : n ∈ w.nodes)
    (ctx : NodeContext) (s : Snapshot) :
    (n.run ctx s).Gives fun result => ∀ out, result = .ok out →
      ∀ handoff, out.handoff = some handoff → handoff.target ∈ n.handoffTargets := by
  obtain ⟨spec, hspec, -, plan, hplan, rfl⟩ := h.planned n hn
  obtain ⟨maker, build, hmaker, hmade, rfl, rfl, hservices, hmiddleware⟩ :=
    Workshop.exists_maker hplan
  rw [hstandard build.node hspec] at hmaker
  obtain ⟨-, a, ha, rfl⟩ | hother := standardMakers_made hmaker hmade
  · refine (ha.sends ?_ ?_).node_gives build.patience ctx s
    · intro tools htools t ht
      obtain ⟨l, hl, hkind, toolset, group, hnode, hgroup, ht⟩ := exists_toolset htools ht
      obtain ⟨provider, make, hprovider, hget, hmake⟩ := toolsOf_eq_ok hgroup
      rw [hservices] at hget
      exact hkeep.toolsets l hl hkind toolset provider make group hnode hprovider hget hmake t ht
    · rw [ha.chain, hmiddleware]
      exact hkeep.layers build.node hspec build.site
  · refine (hother.silent ctx s).mono ?_
    intro result hwrites out hout
    obtain ⟨u, rfl⟩ := hwrites out hout
    exact nofun

/-- What a standard node gives back can be written. -/
theorem writable (h : Reflects ws g site w) (howns : w.OwnsChannels) (hkeep : ws.KeepsControl g)
    (hn : n ∈ w.nodes) (ctx : NodeContext) (s : Snapshot) :
    (n.run ctx s).Gives fun result => ∀ out, result = .ok out → w.Writable n.key out := by
  have hnode := h.node?_eq hn
  have hchannel := h.channel_eq hstandard hn
  refine (h.handoff_mem hstandard hkeep hn ctx s).mono ?_
  intro result htargets out hout
  constructor
  · intro u hu hnull
    unfold Workflow.channelOf
    rw [hnode, Option.bind_some, hchannel]
    exact howns.contains_iff.mpr ⟨n, hn, hchannel⟩
  · intro handoff hhandoff
    have htarget := htargets out hout handoff hhandoff
    unfold Workflow.allowsHandoff WorkNode.canHandOffTo
    rw [hnode]
    simp only [Option.any_some, Bool.and_eq_true, List.contains_eq_mem, decide_eq_true_eq]
    exact ⟨htarget, Workflow.contains_iff.mpr (h.handoffTargets_known hstandard hn htarget)⟩

end Reflects

/-! ## Runs -/

/-- A failure because of a channel or a transfer. -/
def RunFailure.Refuses (f : RunFailure) : Prop :=
  (∃ key e, f = .ofError (.channel key e)) ∨ ∃ key target, f = .ofError (.invalidHandoff key target)

/-- The reports of other errors are not of this kind. -/
theorem RunFailure.not_refuses_ofError {e : RunError}
    (hchannel : ∀ key reason, e ≠ .channel key reason)
    (hhandoff : ∀ key target, e ≠ .invalidHandoff key target) :
    ¬ (RunFailure.ofError e).Refuses := by
  rintro (⟨key, reason, h⟩ | ⟨key, target, h⟩)
  · obtain ⟨hnode, hlead⟩ := RunFailure.lead_eq h rfl
    cases e with
    | channel key' reason' => exact hchannel key' reason' rfl
    | node => simp [RunError.lead] at hlead
    | invalidHandoff => simp [RunError.lead] at hlead
    | unknownNode => simp [RunError.lead] at hlead
    | _ => cases hnode
  · obtain ⟨hnode, hlead⟩ := RunFailure.lead_eq h rfl
    cases e with
    | invalidHandoff key' target' => exact hhandoff key' target' rfl
    | node => simp [RunError.lead] at hlead
    | channel => simp [RunError.lead] at hlead
    | unknownNode => simp [RunError.lead] at hlead
    | _ => cases hnode

namespace Runner

variable {r : Runner σ τ} {stage stage' : Stage}

theorem resumedCursor_error {cp : Checkpoint} {input : Option Json} {e : RunError}
    (h : r.resumedCursor cp input = .error e) :
    ∃ target source, e = .unknownNode target source := by
  unfold resumedCursor at h
  dsimp only at h
  cases hf : r.workflow.resumeFrontier (r.resumedStore cp input).state cp.record with
  | ok split =>
    rw [hf] at h
    cases h
  | error e' =>
    rw [hf] at h
    cases h
    exact Workflow.resumeFrontier_error hf

/-- A run that has ended has not failed because of a channel or a transfer. -/
def Accepts : Stage → Prop
  | .ended o => ∀ f, o.failure = some f → ¬ f.Refuses
  | _ => True

theorem accepts_failedAt (c : Cursor) {e : RunError}
    (hchannel : ∀ key reason, e ≠ .channel key reason)
    (hhandoff : ∀ key target, e ≠ .invalidHandoff key target) :
    Accepts (.ended (r.failedAt c e)) := by
  rintro f hf
  cases hf
  exact RunFailure.not_refuses_ofError hchannel hhandoff

/-- No move fails because of a channel or a transfer if all that nodes give back can be written. -/
theorem Move.accepts {world world' : RunWorld σ τ}
    (hw : ∀ n ∈ r.workflow.nodes, ∀ ctx s world out, (n.run ctx s world).1 = .ok out →
      r.workflow.Writable n.key out)
    (h : r.Move stage world stage' world') (hp : r.Performed stage)
    (hs : ∀ c, stage.cursor? = some c → c.store.schema = r.workflow.schema) (ha : Accepts stage) :
    Accepts stage' := by
  cases h with
  | beginRefused => exact accepts_failedAt _ nofun nofun
  | @resumeFailed _ cp input e log he =>
    obtain ⟨target, source, rfl⟩ := resumedCursor_error he
    exact accepts_failedAt _ nofun nofun
  | exhausted => exact accepts_failedAt _ nofun nofun
  | pauseAheadRefused => exact accepts_failedAt _ nofun nofun
  | strayNode => exact accepts_failedAt _ nofun nofun
  | nodeFailed => exact accepts_failedAt _ nofun nofun
  | @writeFailed _ c outputs store e log ho =>
    exfalso
    have hall := Gave.induct hp hw
    obtain ⟨store', hstore⟩ := Workflow.exists_writeOutputs hall (hs c rfl)
    cases ho.symm.trans hstore
  | stepRefused => exact accepts_failedAt _ nofun nofun
  | routeFailed log ho hsaved hr =>
    obtain ⟨target, source, rfl⟩ := Workflow.candidates_error hr
    exact accepts_failedAt _ nofun nofun
  | pauseBehindRefused => exact accepts_failedAt _ nofun nofun
  | rested => exact ha
  | completed => exact nofun
  | canceled => exact nofun
  | pausedAhead => exact nofun
  | dropped => exact nofun
  | pausedBehind => exact nofun
  | _ => trivial

/-- Wherever a run comes, it has not failed because of a channel or a transfer if all that its nodes
give back can be written. -/
theorem Reaches.accepts {start : RunStart} {world : RunWorld σ (τ × List Checkpoint)}
    (hw : ∀ n ∈ r.workflow.nodes, ∀ ctx s world out, (n.run ctx s world).1 = .ok out →
      r.workflow.Writable n.key out)
    (h : r.Reaches start stage world) : Accepts stage := by
  refine (h.induct (motive := fun stage _ => r.recording.Performed stage ∧
    (∀ c, stage.cursor? = some c → c.store.schema = r.workflow.schema) ∧ Accepts stage)
    ⟨trivial, nofun, trivial⟩ ?_).2.2
  rintro stage world stage' world' ⟨hp, hs, ha⟩ hmove
  exact ⟨hmove.performed hp, Move.schema_eq (r := r.recording) hmove hs,
    Move.accepts (r := r.recording) hw hmove hp hs ha⟩

end Runner

/-- What the nodes of a workflow of standard nodes give back is always accepted, if the tools and
layers of its description do not hand off by themselves. An update goes to the channel that the node
has registered. A transfer goes to a node that the node may hand off to and that is part of the
workflow. So no run fails because of a channel or a transfer, whatever models, tools and other
services do, and however the run is begun, paused and resumed. -/
theorem outputs_accepted {ws : Workshop σ} {g : Description} {site : List String} {w : Workflow σ}
    (hc : compile ws g site = .ok w)
    (hstandard : ∀ n ∈ g.nodes, ws.makers.resolve n.typeKey = standardMakers.resolve n.typeKey)
    (hkeep : ws.KeepsControl g) :
    (∀ n ∈ w.nodes, ∀ ctx s world out, (n.run ctx s world).1 = .ok out →
      (out.Updates → n.channel = some (w.channelOf n.key) ∧
        w.schema.contains (w.channelOf n.key) = true) ∧
      ∀ handoff, out.handoff = some handoff →
        handoff.target ∈ n.handoffTargets ∧ handoff.target ∈ w.keys) ∧
    ∀ (τ : Type) (r : Runner σ τ) (start : RunStart) (o : Outcome)
      (world : RunWorld σ (τ × List Checkpoint)), r.workflow = w →
      r.Reaches start (.ended o) world → ∀ key,
        (∀ e, o.failure ≠ some (.ofError (.channel key e))) ∧
        ∀ target, o.failure ≠ some (.ofError (.invalidHandoff key target)) := by
  have hw := compile_reflects hc
  have howns := compile_ownsChannels hc
  constructor
  · intro n hn ctx s world out hout
    have hwritable := hw.writable hstandard howns hkeep hn ctx s world out hout
    constructor
    · rintro ⟨u, hu, hnull⟩
      refine ⟨?_, hwritable.1 u hu hnull⟩
      unfold Workflow.channelOf
      rw [hw.node?_eq hn, Option.bind_some, hw.channel_eq hstandard hn]
      rfl
    · intro handoff hhandoff
      have htarget := hw.handoff_mem hstandard hkeep hn ctx s world out hout handoff hhandoff
      exact ⟨htarget, hw.handoffTargets_known hstandard hn htarget⟩
  · rintro τ r start o world rfl hreach key
    have haccepts : Runner.Accepts (.ended o) := hreach.accepts fun n hn ctx s world out hout =>
      hw.writable hstandard howns hkeep hn ctx s world out hout
    constructor
    · intro e he
      exact haccepts _ he (.inl ⟨key, e, rfl⟩)
    · intro target htarget
      exact haccepts _ htarget (.inr ⟨key, target, rfl⟩)

/-! ## Two agents with tools -/

/-- A tool that finds nothing. -/
def searchTool : Tool Unit where
  spec := ⟨"search", "", noParameters⟩
  invoke := fun _ _ => pure (.ok (.content "nothing found"))

/-- A workshop with standard nodes, one model, one toolset, and a layer that changes nothing. -/
def outfitter : Workshop Unit where
  makers := standardMakers
  services := { Services.none with
    model := some hastyModel
    toolsets := [("web", fun _ => .ok [searchTool])] }
  middleware := [("log", fun _ _ => .ok (.passing "log"))]
  patience := 100

/-- An agent with tools and a layer that hands off to another agent, which returns to it. -/
def equippedPair : Description where
  nodes := [.plain "a" .agent, .plain "b" .agent, ⟨"t", .toolset, none, some "web", none, .null⟩,
    ⟨"m", .workflow, some "middleware", some "log", none, .null⟩]
  links := [⟨"a", "b", .agent⟩, ⟨"a", "t", .toolset⟩, ⟨"a", "m", .workflow⟩]
  entry := some "a"

/-- The workflow of the two agents. -/
def equippedWorkflow : Workflow Unit :=
  match compile outfitter equippedPair [] with
  | .ok w => w
  | .error _ => ⟨[], [], []⟩

theorem compile_equippedPair : compile outfitter equippedPair [] = .ok equippedWorkflow :=
  eq_ok_of_isOk ⟨[], [], []⟩ (by decide +kernel)

theorem searchTool_keepsControl : searchTool.KeepsControl :=
  fun _ _ _ _ h => nomatch h

theorem outfitter_keepsControl : outfitter.KeepsControl equippedPair where
  toolsets := by
    intro l _ _ toolset provider make tools _ _ hget hmake t ht
    obtain ⟨entry, hentry, rfl⟩ := Option.map_eq_some_iff.mp hget
    obtain rfl := List.mem_singleton.mp (List.mem_of_find?_eq_some hentry)
    cases hmake
    obtain rfl := List.mem_singleton.mp ht
    exact searchTool_keepsControl
  layers := by
    intro n _ site m hm
    obtain ⟨attachment, -, hmade⟩ := List.mem_filterMap.mp hm
    obtain ⟨provider, -, hmade⟩ := Option.bind_eq_some_iff.mp hmade
    obtain ⟨factory, hget, hmade⟩ := Option.bind_eq_some_iff.mp hmade
    obtain ⟨entry, hentry, rfl⟩ := Option.map_eq_some_iff.mp hget
    obtain rfl := List.mem_singleton.mp (List.mem_of_find?_eq_some hentry)
    cases hmade
    exact ⟨fun t ht => (nomatch ht), Middleware.passing_passesOn "log"⟩

/-- The run of the two agents. -/
def equippedRun : Stage × RunWorld Unit (Chains × List Checkpoint) :=
  ({ unevenRunner with workflow := equippedWorkflow } : Runner Unit Chains).recording.moves
    (Runner.enoughMoves 5) (.waiting (.fresh .null .null)) ⟨.start (), ([], [])⟩

theorem outputs_accepted_equipped :
    compile outfitter equippedPair [] = .ok equippedWorkflow ∧
      (∀ n ∈ equippedPair.nodes,
        outfitter.makers.resolve n.typeKey = standardMakers.resolve n.typeKey) ∧
      outfitter.KeepsControl equippedPair ∧
      (∃ cp ∈ equippedRun.2.saved, cp.record.handoffs ≠ []) ∧
      ∃ o, equippedRun.1 = .ended o ∧ o.status = .completed ∧
        ∀ key, (∀ e, o.failure ≠ some (.ofError (.channel key e))) ∧
          ∀ target, o.failure ≠ some (.ofError (.invalidHandoff key target)) := by
  have hhandoff : equippedRun.2.saved.any (fun cp => !cp.record.handoffs.isEmpty) = true := by
    decide +kernel
  have hstatus : equippedRun.1.outcome?.map (·.status) = some .completed := by decide +kernel
  obtain ⟨cp, hcp, hrecord⟩ := List.any_eq_true.mp hhandoff
  obtain ⟨o, ho, hcompleted⟩ := Option.map_eq_some_iff.mp hstatus
  have hended := Stage.eq_ended_of_outcome? ho
  have hreach : ({ unevenRunner with workflow := equippedWorkflow } : Runner Unit Chains).Reaches
      (.fresh .null .null) equippedRun.1 equippedRun.2 := Runner.Reaches.moves (.waiting rfl) _
  rw [hended] at hreach
  refine ⟨compile_equippedPair, fun _ _ => rfl, outfitter_keepsControl,
    ⟨cp, hcp, by simpa using hrecord⟩, o, hended, hcompleted, ?_⟩
  exact (outputs_accepted compile_equippedPair (fun _ _ => rfl) outfitter_keepsControl).2 Chains _
    _ o _ rfl hreach

end Workgraph
