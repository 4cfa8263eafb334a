import Workgraph.Proofs.Run.Conservation
import Workgraph.Proofs.Run.Failure
/-!
# Destinations

Where the nodes of a compiled workflow lead if they follow the edges of the description. Such a
destination names a node of the workflow, possibly with a port. Only a bare one is a node itself, so
a run never leads to an unknown node if the edges have bare targets, and it does where an edge names
the port that it enters.

## Main definitions

- `WorkNode.FollowsEdges`: nodes that follow edges of the description
- `Workflow.Routes`: workflows whose nodes lead to each other only
- `Workflow.Routable`: what can be routed from

## Main statements

- `Reflects.mem_keys_of_route`: what the destinations of a node are
- `Workflow.exists_candidates_of_routes`: routing from known nodes succeeds
- `destinations_known`: no run leads to an unknown node if the edges have bare targets
- `unknown_behind_port`: an edge that names a port leads to an unknown node
-/

namespace Workgraph

variable {σ τ : Type}

/-! ## The destinations of a node -/

/-- A node follows edges of the description: its own plain ones, or those of some node for success
or failure, or those from a port of some node that a channel names. -/
def WorkNode.FollowsEdges (g : Description) (n : WorkNode σ) : Prop :=
  n.navigator = none ∨ (∃ key, n.navigator = some (.ofErrors g key)) ∨
    ∃ key field, n.navigator = some (.ofPorts g key field)

namespace Reflects

variable {ws : Workshop σ} {g : Description} {site : List String} {w : Workflow σ} {n : WorkNode σ}

/-- A destination is the target of an edge, as the edge spells it. -/
theorem exists_link_of_route (h : Reflects ws g site w) (hn : n ∈ w.nodes)
    (hf : n.FollowsEdges g) {s : Snapshot} {t : String} (ht : t ∈ (n.route s).targets) :
    ∃ l ∈ g.links, l.kind = .edge ∧ l.target = t := by
  have hedge : ∀ endpoint, t ∈ g.edgeTargets endpoint →
      ∃ l ∈ g.links, l.kind = .edge ∧ l.target = t := by
    intro endpoint hmem
    obtain ⟨l, hl, he, -, hlt⟩ := mem_edgeTargets.mp hmem
    exact ⟨l, hl, he, hlt⟩
  unfold WorkNode.route at ht
  obtain hf | ⟨key, hf⟩ | ⟨key, field, hf⟩ := hf
  · rw [hf] at ht
    dsimp only at ht
    rw [Route.targets_ofTargets, h.edges_eq hn] at ht
    exact hedge _ ht
  · rw [hf] at ht
    simp only [Navigator.ofErrors, Navigator.choose, Route.targets_ofTargets] at ht
    split at ht
    · exact hedge _ ht
    · exact hedge _ ht
  · rw [hf] at ht
    simp only [Navigator.ofPorts, Navigator.choose] at ht
    split at ht
    · rename_i port targets hfind
      rw [Route.targets_ofTargets] at ht
      obtain ⟨selected, -, hfind⟩ := Option.bind_eq_some_iff.mp hfind
      obtain ⟨p, -, he⟩ := List.mem_map.mp (List.mem_of_find?_eq_some hfind)
      obtain ⟨rfl, rfl⟩ := Prod.mk.inj he
      exact hedge _ ht
    · cases ht

/-- A destination names a node, and it is one exactly if it names no port. -/
theorem mem_keys_of_route (h : Reflects ws g site w) (hn : n ∈ w.nodes) (hf : n.FollowsEdges g)
    {s : Snapshot} {t : String} (ht : t ∈ (n.route s).targets) :
    nodeKeyOf t ∈ w.keys ∧ (t ∈ w.keys ↔ nodeKeyOf t = t) := by
  obtain ⟨l, hl, he, rfl⟩ := h.exists_link_of_route hn hf ht
  have hnamed : nodeKeyOf l.target ∈ w.keys := h.edge_known l hl he
  refine ⟨hnamed, fun hk => ?_, fun hbare => hbare ▸ hnamed⟩
  obtain ⟨m, hm⟩ := Workflow.exists_node_of_mem_keys hk
  obtain ⟨hmem, hkey⟩ := Workflow.node?_eq_some hm
  rw [← hkey]
  exact h.key_bare hmem

end Reflects

/-! ## Errors apart -/

/-- The letter with which the message of an error at a node goes on behind the key of the node. -/
def RunError.lead : RunError → Char
  | node _ _ _ => 'f'
  | channel _ _ => 'w'
  | invalidHandoff _ _ => 'h'
  | unknownNode _ _ => 'r'
  | _ => ' '

theorem RunError.message_of_nodeKey? {e : RunError} {key : String} (h : e.nodeKey? = some key) :
    ∃ rest, e.message = "node '" ++ key ++ "' " ++ String.singleton e.lead ++ rest := by
  have hgoes : ∀ {phrase more : String} {c : Char}, phrase = "' " ++ String.singleton c ++ more →
      ∀ rest, ∃ rest', "node '" ++ key ++ phrase ++ rest =
        "node '" ++ key ++ "' " ++ String.singleton c ++ rest' := by
    rintro phrase more c rfl rest
    exact ⟨more ++ rest, by simp only [String.append_assoc]⟩
  cases e with
  | node nodeKey channel reason =>
    cases h
    exact hgoes (show "' failed: " = "' " ++ String.singleton 'f' ++ "ailed: " by decide +kernel)
      reason.message
  | channel nodeKey reason =>
    cases h
    exact hgoes (show "' wrote to an unknown channel: " =
      "' " ++ String.singleton 'w' ++ "rote to an unknown channel: " by decide +kernel)
      reason.message
  | invalidHandoff nodeKey target =>
    cases h
    obtain ⟨rest, hrest⟩ := hgoes (show "' handed off to '" =
      "' " ++ String.singleton 'h' ++ "anded off to '" by decide +kernel)
      (target ++ "', which it is not connected to")
    exact ⟨rest, by rw [← String.append_assoc] at hrest; exact hrest⟩
  | unknownNode nodeKey source =>
    cases h
    obtain ⟨rest, hrest⟩ := hgoes (show "' routed to unknown node '" =
      "' " ++ String.singleton 'r' ++ "outed to unknown node '" by decide +kernel) (nodeKey ++ "'")
    exact ⟨rest, by rw [← String.append_assoc] at hrest; exact hrest⟩
  | _ => cases h

/-- Errors at a node with one report go on with one letter, so they are of one kind. -/
theorem RunFailure.lead_eq {e e' : RunError} {key : String} (h : RunFailure.ofError e = .ofError e')
    (hkey : e'.nodeKey? = some key) : e.nodeKey? = some key ∧ e.lead = e'.lead := by
  have hnode : e.nodeKey? = some key := (congrArg RunFailure.nodeKey h).trans hkey
  obtain ⟨rest, hmessage⟩ := RunError.message_of_nodeKey? hnode
  obtain ⟨rest', hmessage'⟩ := RunError.message_of_nodeKey? hkey
  have hsame : e.message = e'.message := congrArg RunFailure.message h
  rw [hmessage, hmessage', ← String.toList_inj] at hsame
  simp only [String.toList_append, List.append_assoc, List.append_cancel_left_eq,
    String.toList_singleton, List.singleton_append, List.cons.injEq] at hsame
  exact ⟨hnode, hsame.1⟩

/-- The report of an unknown node is that of no other error. -/
theorem RunFailure.ofError_ne_unknownNode {e : RunError}
    (he : ∀ key source, e ≠ .unknownNode key source) (key source : String) :
    RunFailure.ofError e ≠ .ofError (.unknownNode key source) := by
  intro h
  obtain ⟨hnode, hlead⟩ := RunFailure.lead_eq h rfl
  cases e with
  | unknownNode key' source' => exact he key' source' rfl
  | node => simp [RunError.lead] at hlead
  | channel => simp [RunError.lead] at hlead
  | invalidHandoff => simp [RunError.lead] at hlead
  | _ => cases hnode

/-! ## Routing from known nodes -/

namespace Workflow

variable {w : Workflow σ} {record : StepRecord}

/-- The nodes of a workflow lead to each other only. -/
def Routes (w : Workflow σ) : Prop := ∀ n ∈ w.nodes, ∀ s, (n.route s).targets ⊆ w.keys

/-- What can be routed from: the nodes that ran and the targets of transfers are known. -/
structure Routable (w : Workflow σ) (ran : List String) (handoffs : List (String × Handoff)) :
    Prop where
  ran_known : ran ⊆ w.keys
  handoffs_known : ∀ p ∈ handoffs, p.2.target ∈ w.keys

/-- Routing from known nodes succeeds. -/
theorem exists_candidates_of_routes (hw : w.Routes) {ran : List String}
    {handoffs : List (String × Handoff)} (h : w.Routable ran handoffs) (s : Snapshot) :
    ∃ routed, w.candidates ran handoffs s = .ok routed := by
  have hknown : ∀ key ∈ ran, ∃ ts, w.knownTargets handoffs s key = .ok ts := by
    intro key hk
    cases hfrom : handoffFrom? handoffs key with
    | some handoff =>
      obtain ⟨p, hp, rfl⟩ := Option.map_eq_some_iff.mp hfrom
      refine ⟨[p.2.target], knownTargets_eq_ok_iff.mpr ⟨by simp [targets, hfrom], ?_⟩⟩
      simpa using h.handoffs_known p (List.mem_of_find?_eq_some hp)
    | none =>
      obtain ⟨n, hn⟩ := exists_node_of_mem_keys (h.ran_known hk)
      refine ⟨(n.route s).targets, knownTargets_eq_ok_iff.mpr ⟨by simp [targets, hfrom, hn], ?_⟩⟩
      exact fun t ht => hw n (node?_eq_some hn).1 s ht
  obtain ⟨tss, htss⟩ := exists_forall₂ hknown
  exact ⟨_, candidates_eq_ok_iff.mpr ⟨tss, mapM_eq_ok_iff.mpr htss, rfl⟩⟩

/-- Transfers that have been written lead to known nodes. -/
theorem handoffs_known {store store' : Store} {outputs : List (String × NodeOutput)}
    (h : w.writeOutputs store outputs = (store', none)) :
    ∀ p ∈ handoffsOf outputs, p.2.target ∈ w.keys := by
  intro p hp
  obtain ⟨output, houtput, hmap⟩ := List.mem_filterMap.mp hp
  obtain ⟨handoff, hhandoff, rfl⟩ := Option.map_eq_some_iff.mp hmap
  obtain ⟨before, after, ho⟩ := exists_writeOutput_of_mem h houtput
  have hallowed := (writeOutput_cases ho).2 handoff hhandoff
  exact contains_iff.mp (Bool.and_eq_true_iff.mp hallowed).2

/-- A step that has been written can be routed from. -/
theorem Placed.routable {frontier deferred : List String} {store store' : Store}
    {outputs : List NodeOutput} (h : w.Placed frontier deferred)
    (ho : w.writeOutputs store (frontier.zip outputs) = (store', none)) :
    w.Routable frontier (handoffsOf (frontier.zip outputs)) :=
  ⟨h.frontier_known, handoffs_known ho⟩

/-- Behind a record that can be routed from, a run finds the nodes to go on with. -/
theorem exists_resumeFrontier (hw : w.Routes) (h : w.Routable record.ranNodes record.handoffs)
    (s : Snapshot) : ∃ split, w.resumeFrontier s record = .ok split := by
  obtain ⟨routed, hrouted⟩ := exists_candidates_of_routes hw h s
  unfold resumeFrontier
  rw [hrouted]
  split
  · exact ⟨_, rfl⟩
  · split
    · exact ⟨_, rfl⟩
    · exact ⟨_, rfl⟩

end Workflow

/-! ## Runs -/

namespace Runner

variable {ws : Workshop σ} {g : Description} {site : List String} {r : Runner σ τ}
  {stage stage' : Stage}

/-- What is known of routing at a stage: a checkpoint that is resumed can be routed from, and a run
that has ended has not met an unknown node. -/
def Knows (r : Runner σ τ) : Stage → Prop
  | .waiting start => ∀ cp input, start = .resume cp input →
    r.workflow.Routable cp.record.ranNodes cp.record.handoffs
  | .ended o => ∀ key source, o.failure ≠ some (.ofError (.unknownNode key source))
  | _ => True

/-- A run that fails for another reason has not met an unknown node. -/
theorem knows_failedAt (c : Cursor) {e : RunError}
    (he : ∀ key source, e ≠ .unknownNode key source) :
    r.Knows (.ended (r.failedAt c e)) :=
  fun key source h => RunFailure.ofError_ne_unknownNode he key source (Option.some.inj h)

/-- No move meets an unknown node if all nodes lead to each other only. -/
theorem Move.knows {world world' : RunWorld σ τ} (hw : r.workflow.Routes)
    (h : r.Move stage world stage' world') (hs : r.workflow.Stands stage) (hk : r.Knows stage) :
    r.Knows stage' := by
  cases h with
  | beginRefused => exact knows_failedAt _ nofun
  | @resumeFailed _ cp input e log he =>
    exfalso
    obtain ⟨split, hsplit⟩ := Workflow.exists_resumeFrontier hw (hk cp input rfl)
      (r.resumedStore cp input).state
    cases he.symm.trans (r.resumedCursor_eq_ok_iff.mpr ⟨split, hsplit, rfl⟩)
  | exhausted => exact knows_failedAt _ nofun
  | pauseAheadRefused => exact knows_failedAt _ nofun
  | strayNode log hawake hb hp hkey hn =>
    exfalso
    have hknown := Workflow.contains_iff.mpr (hs.frontier_known _ hkey)
    rw [hn] at hknown
    cases hknown
  | nodeFailed => exact knows_failedAt _ nofun
  | @writeFailed _ c outputs store e log ho =>
    refine knows_failedAt _ ?_
    obtain ⟨key, reason, rfl⟩ | ⟨key, target, rfl⟩ := Workflow.writeOutputs_error ho
    · exact nofun
    · exact nofun
  | stepRefused => exact knows_failedAt _ nofun
  | @routeFailed _ c outputs store id t e log ho hsaved hr =>
    exfalso
    obtain ⟨routed, hrouted⟩ := Workflow.exists_candidates_of_routes hw
      (Workflow.Placed.routable hs ho) store.state
    cases hr.symm.trans hrouted
  | pauseBehindRefused => exact knows_failedAt _ nofun
  | rested => exact hk
  | completed => exact nofun
  | canceled => exact nofun
  | pausedAhead => exact nofun
  | dropped => exact nofun
  | pausedBehind => exact nofun
  | _ => trivial

/-- Whatever is saved can be routed from. -/
theorem SavesAt.routable {cp : Checkpoint} (h : r.SavesAt stage cp) (hs : r.workflow.Stands stage) :
    r.workflow.Routable cp.record.ranNodes cp.record.handoffs := by
  cases h with
  | first hstate hr =>
    rw [hr]
    exact ⟨List.nil_subset _, by simp [StepRecord.blank]⟩
  | ahead hstate hr hf =>
    rw [hr]
    exact ⟨List.nil_subset _, by simp [pendingRecord]⟩
  | step ho hstate hr =>
    rw [hr]
    exact Workflow.Placed.routable hs ho
  | behind ho hstate hr =>
    rw [hr]
    exact Workflow.Placed.routable hs ho

/-- What a run puts on record can be routed from. -/
theorem Reaches.routable {start : RunStart} {world : RunWorld σ (τ × List Checkpoint)}
    (hw : Reflects ws g site r.workflow)
    (hs : ∀ cp input, start = .resume cp input → r.workflow.Records cp.record)
    (h : r.Reaches start stage world) :
    ∀ cp ∈ world.saved, r.workflow.Routable cp.record.ranNodes cp.record.handoffs := by
  refine (h.induct (motive := fun stage cps => r.workflow.Stands stage ∧
    ∀ cp ∈ cps, r.workflow.Routable cp.record.ranNodes cp.record.handoffs) ⟨hs, by simp⟩ ?_).2
  rintro stage w stage' w' ⟨hstands, hrecorded⟩ hmove
  refine ⟨Move.stands (r := r.recording) hw hmove hstands, ?_⟩
  obtain ⟨more, hmore, hsaves⟩ := hmove.saved
  rw [hmore]
  intro cp hcp
  obtain hcp | hcp := List.mem_append.mp hcp
  · exact hrecorded cp hcp
  · exact (hsaves cp hcp).routable hstands

/-- Wherever a run comes whose nodes lead to each other only, it has not met an unknown node. -/
theorem Reaches.knows {start : RunStart} {world : RunWorld σ (τ × List Checkpoint)}
    (hw : Reflects ws g site r.workflow) (hroutes : r.workflow.Routes)
    (hs : r.workflow.Stands (.waiting start)) (hk : r.Knows (.waiting start))
    (h : r.Reaches start stage world) : r.Knows stage := by
  refine (h.induct (motive := fun stage _ => r.workflow.Stands stage ∧ r.Knows stage)
    ⟨hs, hk⟩ ?_).2
  rintro stage w stage' w' ⟨hstands, hknows⟩ hmove
  exact ⟨Move.stands (r := r.recording) hw hmove hstands,
    Move.knows (r := r.recording) hroutes hmove hstands hknows⟩

end Runner

/-- Whatever runs of a workflow write can be routed from. -/
theorem Workflow.Wrote.routable {ws : Workshop σ} {g : Description} {site : List String}
    {w : Workflow σ} (hw : Reflects ws g site w) {cp : Checkpoint} (h : w.Wrote cp) :
    w.Routable cp.record.ranNodes cp.record.handoffs := by
  refine (h.induct (motive := fun cp => w.Records cp.record ∧
    w.Routable cp.record.ranNodes cp.record.handoffs) ?_).2
  rintro τ r start stage world rfl hs hreach cp hcp
  have hrecords := fun cp input he => (hs cp input he).1
  exact ⟨(hreach.conserves hw hrecords).2.1 cp hcp, hreach.routable hw hrecords cp hcp⟩

/-- The destinations of the nodes of a compiled workflow are known, if its nodes follow edges of the
description. Every destination names a node, and it is one exactly if it names no port. So if the
edges have bare targets, every destination is a node, and no run ever fails at an unknown one,
whether it begins afresh or is resumed. -/
theorem destinations_known {ws : Workshop σ} {g : Description} {site : List String}
    {w : Workflow σ} (hc : compile ws g site = .ok w) (hf : ∀ n ∈ w.nodes, n.FollowsEdges g) :
    (∀ n ∈ w.nodes, ∀ s, ∀ t ∈ (n.route s).targets,
      nodeKeyOf t ∈ w.keys ∧ (t ∈ w.keys ↔ nodeKeyOf t = t)) ∧
    (g.BareTargets →
      (∀ n ∈ w.nodes, ∀ s, ∀ t ∈ (n.route s).targets, t ∈ w.keys) ∧
      ∀ (τ : Type) (r : Runner σ τ) (start : RunStart) (o : Outcome)
        (world : RunWorld σ (τ × List Checkpoint)), r.workflow = w → w.Starts start →
        r.Reaches start (.ended o) world →
        ∀ key source, o.failure ≠ some (.ofError (.unknownNode key source))) := by
  have hw := compile_reflects hc
  have hnamed : ∀ n ∈ w.nodes, ∀ s, ∀ t ∈ (n.route s).targets,
      nodeKeyOf t ∈ w.keys ∧ (t ∈ w.keys ↔ nodeKeyOf t = t) :=
    fun n hn s t ht => hw.mem_keys_of_route hn (hf n hn) ht
  refine ⟨hnamed, fun hbare => ?_⟩
  have hroutes : w.Routes := by
    intro n hn s t ht
    obtain ⟨l, hl, he, rfl⟩ := hw.exists_link_of_route hn (hf n hn) ht
    exact (hnamed n hn s l.target ht).2.mpr (hbare l hl he)
  refine ⟨fun n hn s t ht => hroutes n hn s ht, ?_⟩
  rintro τ r start o world rfl hs hreach
  refine hreach.knows hw hroutes (hs.records hw) ?_
  rintro cp input rfl
  cases hs with
  | resume _ hcp => exact hcp.routable hw

theorem destinations_known_uneven :
    compile inputShop unevenFork [] = .ok unevenWorkflow ∧
      (∀ n ∈ unevenWorkflow.nodes, n.FollowsEdges unevenFork) ∧ unevenFork.BareTargets ∧
      unevenWorkflow.Starts (.resume unevenMark none) ∧
      unevenRunner.Reaches (.resume unevenMark none) unevenRest.1 unevenRest.2 ∧
      (∀ n ∈ unevenWorkflow.nodes, ∀ s, ∀ t ∈ (n.route s).targets, t ∈ unevenWorkflow.keys) ∧
      ∃ o, unevenRest.1 = .ended o ∧
        ∀ key source, o.failure ≠ some (.ofError (.unknownNode key source)) := by
  have hfollows : ∀ n ∈ unevenWorkflow.nodes, n.FollowsEdges unevenFork :=
    fun n hn => .inl (unevenWorkflow_nodes hn).2
  have hwrote : unevenWorkflow.Wrote unevenMark :=
    .fresh (r := haltingRunner) rfl unevenPause_reaches (List.getLast_mem _)
  refine ⟨compile_unevenFork, hfollows, unevenFork_bareTargets, .resume none hwrote,
    unevenRest_reaches, ?_⟩
  obtain ⟨-, hbare⟩ := destinations_known compile_unevenFork hfollows
  obtain ⟨hknown, hruns⟩ := hbare unevenFork_bareTargets
  obtain ⟨o, ho, -⟩ := Option.map_eq_some_iff.mp unevenRest_completed
  have hended := Stage.eq_ended_of_outcome? ho
  have hreach := unevenRest_reaches
  rw [hended] at hreach
  exact ⟨hknown, o, hended, hruns Chains unevenRunner _ o _ rfl (.resume none hwrote) hreach⟩

/-! ## An edge that names a port -/

/-- Two nodes, with an edge that names the port at which it enters the second one. -/
def portedPair : Description where
  nodes := ["s", "a"].map fun key => ⟨key, .workflow, some "start", none, none, .null⟩
  links := [.edge "s" "a/in"]
  entry := some "s"

/-- The workflow of the two nodes. -/
def portedWorkflow : Workflow Unit :=
  match compile inputShop portedPair [] with
  | .ok w => w
  | .error _ => ⟨[], [], []⟩

theorem compile_portedPair : compile inputShop portedPair [] = .ok portedWorkflow :=
  eq_ok_of_isOk ⟨[], [], []⟩ (by decide +kernel)

/-- An edge that names a port leads to an unknown node, and so does a run that follows it. -/
theorem unknown_behind_port :
    let r : Runner Unit Chains := { unevenRunner with workflow := portedWorkflow }
    compile inputShop portedPair [] = .ok portedWorkflow ∧
      (∀ n ∈ portedWorkflow.nodes, n.navigator = none) ∧
      (∃ n ∈ portedWorkflow.nodes, ∀ s, ∃ t ∈ (n.route s).targets, t ∉ portedWorkflow.keys) ∧
      ∃ o, (r.run (.fresh .null .null) ⟨.start (), []⟩).1 = some o ∧ o.status = .failed ∧
        o.failure = some (.ofError (.unknownNode "a/in" "s")) := by
  intro r
  have hplain : portedWorkflow.nodes.all (·.navigator.isNone) = true := by decide +kernel
  have hnavigator : ∀ n ∈ portedWorkflow.nodes, n.navigator = none := by
    intro n hn
    simpa using List.all_eq_true.mp hplain n hn
  refine ⟨compile_portedPair, hnavigator, ?_, ?_⟩
  · have hstray : portedWorkflow.nodes.any
        (fun n => n.edges.any fun t => !portedWorkflow.keys.contains t) = true := by decide +kernel
    obtain ⟨n, hn, hedges⟩ := List.any_eq_true.mp hstray
    obtain ⟨t, ht, hkeys⟩ := List.any_eq_true.mp hedges
    refine ⟨n, hn, fun s => ⟨t, ?_, by simpa using hkeys⟩⟩
    unfold WorkNode.route
    rw [hnavigator n hn]
    dsimp only
    rw [Route.targets_ofTargets]
    exact ht
  · have hfailed : (r.run (.fresh .null .null) ⟨.start (), []⟩).1.map
        (fun o => (o.status, o.failure)) =
        some (.failed, some (.ofError (.unknownNode "a/in" "s"))) := by decide +kernel
    obtain ⟨o, ho, hreport⟩ := Option.map_eq_some_iff.mp hfailed
    obtain ⟨hstatus, hfailure⟩ := Prod.mk.inj hreport
    exact ⟨o, ho, hstatus, hfailure⟩

end Workgraph
