import Workgraph.Proofs.Workflow.Compiled
import Workgraph.Run.Frontier
/-!
# Neighbours

The successors and inputs of the nodes of a workflow agree with each other and with the edges of the
description, and a node that chooses among its own edges only ever leads to its successors.

## Main definitions

- `Workflow.Leads`: the relation of nodes to their successors
- `WorkNode.ChoosesEdges`: nodes that choose by plain edges, by errors or by ports

## Main statements

- `Reflects.mem_inputs`, `Reflects.leads_of_mem_inputs`: the inputs of a node are those that lead to
  it
- `Reflects.route_subset`: where a node leads that chooses among its edges
-/

namespace Workgraph

variable {σ : Type}

namespace Workflow

/-- One node leads to another if an edge from any of its ports does. -/
def Leads (w : Workflow σ) (a b : String) : Prop := ∃ n, w.node? a = some n ∧ b ∈ n.successors

theorem node?_eq_some {w : Workflow σ} {key : String} {n : WorkNode σ}
    (h : w.node? key = some n) : n ∈ w.nodes ∧ n.key = key :=
  ⟨List.mem_of_find?_eq_some h, by simpa using List.find?_some h⟩

theorem contains_iff {w : Workflow σ} {key : String} : w.contains key = true ↔ key ∈ w.keys := by
  simp [contains, node?, keys]

theorem exists_node_of_mem_keys {w : Workflow σ} {key : String} (h : key ∈ w.keys) :
    ∃ n, w.node? key = some n :=
  Option.isSome_iff_exists.mp (contains_iff.mpr h)

theorem mem_keys_of_node? {w : Workflow σ} {key : String} {n : WorkNode σ}
    (h : w.node? key = some n) : key ∈ w.keys :=
  contains_iff.mp (Option.isSome_iff_exists.mpr ⟨n, h⟩)

end Workflow

/-- A node chooses among its edges if it follows the plain ones, or those for success or failure, or
those from a port that its channel names. -/
def WorkNode.ChoosesEdges (g : Description) (n : WorkNode σ) : Prop :=
  n.navigator = none ∨ n.navigator = some (.ofErrors g n.key) ∨
    ∃ field, n.navigator = some (.ofPorts g n.key field)

/-- Edges have bare targets if none of them names a port of the node that it enters. -/
def Description.BareTargets (g : Description) : Prop :=
  ∀ l ∈ g.links, l.kind = .edge → l.targetKey = l.target

theorem mem_successorsOf {g : Description} {key target : String} :
    target ∈ successorsOf g key ↔
      ∃ l ∈ g.links, l.kind = .edge ∧ l.sourceKey = key ∧ l.targetKey = target := by
  simp [successorsOf, Description.outgoing, and_assoc]

theorem mem_edgeTargets {g : Description} {endpoint target : String} :
    target ∈ g.edgeTargets endpoint ↔
      ∃ l ∈ g.links, l.kind = .edge ∧ l.source = endpoint ∧ l.target = target := by
  simp [Description.edgeTargets, and_assoc]

/-- The edges from an endpoint lead where links say so. -/
theorem mem_edgeTargets_iff_edge {g : Description} {endpoint target : String} :
    target ∈ g.edgeTargets endpoint ↔ .edge endpoint target ∈ g.links := by
  rw [mem_edgeTargets]
  constructor
  · rintro ⟨⟨source, target, kind⟩, hl, rfl, rfl, rfl⟩
    exact hl
  · exact fun hl => ⟨_, hl, rfl, rfl, rfl⟩

/-- Edges from a port of a node lead to its successors. -/
theorem edgeTargets_subset_successorsOf {g : Description} {endpoint key : String}
    (hbare : g.BareTargets) (hk : nodeKeyOf endpoint = key) :
    g.edgeTargets endpoint ⊆ successorsOf g key := by
  intro target ht
  obtain ⟨l, hl, he, hs, rfl⟩ := mem_edgeTargets.mp ht
  refine mem_successorsOf.mpr ⟨l, hl, he, ?_, hbare l hl he⟩
  rw [Link.sourceKey, hs, hk]

theorem Route.targets_ofTargets (ts : List String) : (Route.ofTargets ts).targets = ts := by
  cases ts <;> rfl

namespace Reflects

variable {ws : Workshop σ} {g : Description} {site : List String} {w : Workflow σ}
  {n : WorkNode σ}

theorem keys_nodup (h : Reflects ws g site w) : w.keys.Nodup := by
  rw [h.keys_eq]
  exact h.sound.keys_nodup.sublist (List.filter_sublist.map _)

theorem node?_eq (h : Reflects ws g site w) (hn : n ∈ w.nodes) : w.node? n.key = some n := by
  obtain ⟨m, hm⟩ := Workflow.exists_node_of_mem_keys (List.mem_map_of_mem hn)
  obtain ⟨hmem, hkey⟩ := Workflow.node?_eq_some hm
  have heq : m = n := List.inj_on_of_nodup_map h.keys_nodup hmem hn hkey
  rw [hm, heq]

theorem edges_eq (h : Reflects ws g site w) (hn : n ∈ w.nodes) :
    n.edges = g.edgeTargets n.key := by
  obtain ⟨spec, -, -, plan, -, rfl⟩ := h.planned n hn
  rfl

theorem successors_eq (h : Reflects ws g site w) (hn : n ∈ w.nodes) :
    n.successors = successorsOf g n.key := by
  obtain ⟨spec, -, -, plan, -, rfl⟩ := h.planned n hn
  rfl

theorem inputs_eq (h : Reflects ws g site w) (hn : n ∈ w.nodes) :
    n.inputs = inputsOf g n.key := by
  obtain ⟨spec, -, -, plan, -, rfl⟩ := h.planned n hn
  rfl

/-- The keys of nodes that run name no port: any other node would be connected to nothing. -/
theorem key_bare (h : Reflects ws g site w) (hn : n ∈ w.nodes) : nodeKeyOf n.key = n.key := by
  obtain ⟨spec, hs, hexec, plan, -, rfl⟩ := h.planned n hn
  have ha : spec.isAnnotation = false := by
    unfold NodeSpec.isExecutable at hexec
    unfold NodeSpec.isAnnotation at hexec ⊢
    cases hk : spec.kind <;> simp_all
  -- A link touches it, and what a link names without its port has no port of its own.
  obtain ⟨l, -, ht⟩ := h.sound.touched spec hs ha
  have ht : l.sourceKey = spec.key ∨ l.targetKey = spec.key := by simpa [Link.touches] using ht
  show nodeKeyOf spec.key = spec.key
  obtain ht | ht := ht
  · rw [← ht]
    exact nodeKeyOf_nodeKeyOf l.source
  · rw [← ht]
    exact nodeKeyOf_nodeKeyOf l.target

theorem successors_known (h : Reflects ws g site w) (hn : n ∈ w.nodes) : n.successors ⊆ w.keys := by
  intro key hk
  rw [h.successors_eq hn] at hk
  obtain ⟨l, hl, he, -, rfl⟩ := mem_successorsOf.mp hk
  exact h.edge_known l hl he

/-- Every successor is at the end of an edge. -/
theorem exists_link_of_leads (h : Reflects ws g site w) {a b : String} (hab : w.Leads a b) :
    ∃ l ∈ g.links, l.kind = .edge ∧ l.sourceKey = a ∧ l.targetKey = b := by
  obtain ⟨n, hn, hb⟩ := hab
  obtain ⟨hmem, rfl⟩ := Workflow.node?_eq_some hn
  rw [h.successors_eq hmem] at hb
  exact mem_successorsOf.mp hb

theorem leads_known (h : Reflects ws g site w) {a b : String} (hab : w.Leads a b) :
    b ∈ w.keys := by
  obtain ⟨n, hn, hb⟩ := hab
  exact h.successors_known (Workflow.node?_eq_some hn).1 hb

/-- A node that leads to another one is among its inputs. -/
theorem mem_inputs (h : Reflects ws g site w) {a b : String} {m : WorkNode σ}
    (hab : w.Leads a b) (hm : w.node? b = some m) (hne : a ≠ b) : a ∈ m.inputs := by
  obtain ⟨n, hn, hb⟩ := hab
  obtain ⟨hnmem, rfl⟩ := Workflow.node?_eq_some hn
  obtain ⟨hmmem, rfl⟩ := Workflow.node?_eq_some hm
  rw [h.successors_eq hnmem] at hb
  obtain ⟨l, hl, he, hs, ht⟩ := mem_successorsOf.mp hb
  obtain ⟨spec, hspec, hexec, plan, -, rfl⟩ := h.planned n hnmem
  change spec.key ≠ m.key at hne
  rw [h.inputs_eq hmmem]
  unfold inputsOf
  rw [mem_distinct, List.mem_filter, List.mem_map]
  refine ⟨⟨l, ?_, hs⟩, ?_⟩
  · simp [Description.incoming, hl, he, ht]
  · change (spec.key != m.key && (g.node? spec.key).any (·.isExecutable)) = true
    rw [h.sound.node?_eq hspec]
    simpa [hexec] using hne

/-- The inputs of a node lead to it. -/
theorem leads_of_mem_inputs (h : Reflects ws g site w) {a b : String} {m : WorkNode σ}
    (hm : w.node? b = some m) (ha : a ∈ m.inputs) : w.Leads a b := by
  obtain ⟨hmmem, rfl⟩ := Workflow.node?_eq_some hm
  rw [h.inputs_eq hmmem] at ha
  unfold inputsOf at ha
  rw [mem_distinct, List.mem_filter, List.mem_map] at ha
  obtain ⟨⟨l, hl, hs⟩, hsource⟩ := ha
  obtain ⟨-, hexec⟩ := Bool.and_eq_true_iff.mp hsource
  obtain ⟨spec, hspec, hexec⟩ := (Option.any_eq_true _ _).mp hexec
  have hspecmem := List.mem_of_find?_eq_some hspec
  have hkey : spec.key = a := by simpa using List.find?_some hspec
  have hmem : a ∈ w.keys := by
    rw [h.keys_eq, ← hkey]
    exact List.mem_map_of_mem (List.mem_filter.mpr ⟨hspecmem, hexec⟩)
  obtain ⟨n, hn⟩ := Workflow.exists_node_of_mem_keys hmem
  refine ⟨n, hn, ?_⟩
  rw [h.successors_eq (Workflow.node?_eq_some hn).1, (Workflow.node?_eq_some hn).2]
  have hl : l ∈ g.links ∧ l.kind = .edge ∧ l.targetKey = m.key := by
    simpa [Description.incoming] using hl
  exact mem_successorsOf.mpr ⟨l, hl.1, hl.2.1, hs, hl.2.2⟩

/-- A node that chooses among its edges only leads to its successors. -/
theorem route_subset (h : Reflects ws g site w) (hbare : g.BareTargets) (hn : n ∈ w.nodes)
    (hc : n.ChoosesEdges g) (s : Snapshot) : (n.route s).targets ⊆ n.successors := by
  have hkey := h.key_bare hn
  rw [h.successors_eq hn]
  have hplain := edgeTargets_subset_successorsOf hbare hkey
  unfold WorkNode.route
  obtain hc | hc | ⟨field, hc⟩ := hc
  · rw [hc]
    dsimp only
    rw [Route.targets_ofTargets, h.edges_eq hn]
    exact hplain
  · rw [hc]
    simp only [Navigator.ofErrors, Navigator.choose, Route.targets_ofTargets]
    split
    · exact edgeTargets_subset_successorsOf hbare (nodeKeyOf_portOf "fail" hkey)
    · exact hplain
  · rw [hc]
    simp only [Navigator.ofPorts, Navigator.choose]
    split
    · rename_i port targets hfind
      -- The ports of a node are sources of its own edges.
      rw [Route.targets_ofTargets]
      obtain ⟨selected, -, hfind⟩ := Option.bind_eq_some_iff.mp hfind
      obtain ⟨p, hp, he⟩ := List.mem_map.mp (List.mem_of_find?_eq_some hfind)
      obtain ⟨rfl, rfl⟩ := Prod.mk.inj he
      simp only [Navigator.portsOf, mem_distinct, List.mem_map, List.mem_filter] at hp
      obtain ⟨l, ⟨-, hl⟩, rfl⟩ := hp
      refine edgeTargets_subset_successorsOf hbare ?_
      exact beq_iff_eq.mp (Bool.and_eq_true_iff.mp hl).1
    · exact List.nil_subset _

end Reflects

end Workgraph
