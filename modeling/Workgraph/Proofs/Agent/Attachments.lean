import Workgraph.Agent.Middleware
import Workgraph.Proofs.Graph.Distinct
/-!
# The order of attached middleware

The layers of an agent are the middleware nodes that its connections lead to, each of them once,
whatever the connections and the stated order repeat. Those that the order names come first, as they
are first named; the others follow, as they are first connected. Items of the order that are no
texts or name nothing that is attached make no difference, and neither does an order that is no
list.

## Main definitions

- `Description.Attaches`: a connection attaches a middleware node to an agent
- `Named`, `nameRank`: what the stated order names, and where it does so first
- `linkRank`: where an agent is first connected to a node
- `LayerBefore`: which of two attached nodes is the outer layer

## Main statements

- `map_key_attachedNodes`, `mem_attachedNodes`: the attached nodes, in the order of the connections
- `attachments_ordered`: the layers are the attached nodes in the order of layers
-/

namespace Workgraph

/-- A connection attaches a middleware node to an agent. -/
def Description.Attaches (g : Description) (agent : NodeSpec) (l : Link) (n : NodeSpec) : Prop :=
  l.kind = .workflow ∧ l.sourceKey = agent.key ∧ g.node? l.targetKey = some n ∧
    n.isMiddleware = true

/-- What an agent states its order by, texts or not. -/
def orderItems (agent : NodeSpec) : List Json :=
  match agent.entity.select? "options.middlewares.order" with
  | some (.arr items) => items
  | _ => []

/-- The stated order names a key. -/
def Named (agent : NodeSpec) (key : String) : Prop := .str key ∈ orderItems agent

/-- The place in the stated order at which a key is first named. -/
def nameRank (agent : NodeSpec) (key : String) : Nat :=
  (orderItems agent).findIdx fun v => v.asText? == some key

/-- The place among the connections at which an agent is first connected to a node. -/
def linkRank (g : Description) (agent : NodeSpec) (key : String) : Nat :=
  g.links.findIdx fun l => l.kind == .workflow && l.sourceKey == agent.key && l.targetKey == key

/-- Which of two attached nodes is the outer layer: the one named earlier, the one that is named at
all, or, if neither is, the one connected earlier. -/
inductive LayerBefore (g : Description) (agent : NodeSpec) (a b : String) : Prop where
  | named (ha : Named agent a) (hb : Named agent b) (h : nameRank agent a < nameRank agent b)
  | first (ha : Named agent a) (hb : ¬Named agent b)
  | linked (ha : ¬Named agent a) (hb : ¬Named agent b) (h : linkRank g agent a < linkRank g agent b)

variable {g : Description} {agent n : NodeSpec} {l : Link} {key : String}

theorem statedOrder_eq (agent : NodeSpec) :
    statedOrder agent = (orderItems agent).filterMap Json.asText? := by
  unfold statedOrder orderItems
  cases agent.entity.select? "options.middlewares.order" with
  | none => rfl
  | some v => cases v <;> rfl

theorem mem_statedOrder : key ∈ statedOrder agent ↔ Named agent key := by
  rw [statedOrder_eq, List.mem_filterMap]
  constructor
  · rintro ⟨v, hv, htext⟩
    cases v with
    | str s =>
      cases htext
      exact hv
    | _ => cases htext
  · exact fun h => ⟨.str key, h, rfl⟩

/-! ## The attached nodes -/

/-- What is found by a key has this key. -/
theorem NodeSpec.key_of_find? {ns : List NodeSpec} (h : ns.find? (·.key == key) = some n) :
    n.key = key := by
  simpa using List.find?_some h

/-- An attached node is the one that its key names. -/
theorem Description.Attaches.node?_eq (h : g.Attaches agent l n) : g.node? n.key = some n := by
  obtain ⟨-, -, hn, -⟩ := h
  rw [NodeSpec.key_of_find? hn, hn]

/-- Attached nodes with the same key are the same node. -/
theorem Description.Attaches.unique {l' : Link} {n' : NodeSpec} (h : g.Attaches agent l n)
    (h' : g.Attaches agent l' n') (hkey : n.key = n'.key) : n = n' := by
  have heq := h'.node?_eq
  rw [← hkey, h.node?_eq] at heq
  exact Option.some.inj heq

/-- The node that a connection attaches to an agent, if it attaches one. -/
def attached? (g : Description) (agent : NodeSpec) (l : Link) : Option NodeSpec :=
  if l.kind == .workflow && l.sourceKey == agent.key then
    (g.node? l.targetKey).filter (·.isMiddleware)
  else none

theorem attached?_eq_some_iff : attached? g agent l = some n ↔ g.Attaches agent l n := by
  unfold attached? Description.Attaches
  by_cases h : (l.kind == .workflow && l.sourceKey == agent.key) = true
  · obtain ⟨hkind, hsource⟩ := Bool.and_eq_true_iff.mp h
    rw [if_pos h, Option.filter_eq_some_iff]
    simp [eq_of_beq hkind, eq_of_beq hsource]
  · rw [if_neg h]
    simp only [Bool.and_eq_true, beq_iff_eq, not_and] at h
    simp only [reduceCtorEq, false_iff, not_and]
    exact fun hkind hsource => absurd hsource (h hkind)

/-- A node is put behind those that have been collected, unless one of them has its key. -/
def collectNew (collected : List NodeSpec) (n : NodeSpec) : List NodeSpec :=
  if collected.any (·.key == n.key) then collected else collected ++ [n]

/-- The connections are gone through one after the other. -/
theorem attachedNodes_eq (g : Description) (agent : NodeSpec) :
    attachedNodes g agent = (g.links.filterMap (attached? g agent)).foldl collectNew [] := by
  unfold attachedNodes Description.outgoing attached?
  dsimp only
  rw [List.filter_filterMap, List.filterMap_filter]
  rfl

/-- Nodes are collected like their keys. -/
theorem map_key_foldl (collected ns : List NodeSpec) :
    (ns.foldl collectNew collected).map (·.key) =
      appendNew (collected.map (·.key)) (ns.map (·.key)) := by
  unfold appendNew
  induction ns generalizing collected with
  | nil => rfl
  | cons n rest ih =>
    have hany : collected.any (·.key == n.key) = (collected.map (·.key)).contains n.key := by
      rw [List.contains_eq_any_beq, List.any_map]
      simp only [Function.comp_def, BEq.comm]
    rw [List.map_cons, List.foldl_cons, List.foldl_cons, ih, collectNew, hany]
    split <;> simp

theorem mem_of_mem_foldl {collected ns : List NodeSpec} (h : n ∈ ns.foldl collectNew collected) :
    n ∈ collected ∨ n ∈ ns := by
  induction ns generalizing collected with
  | nil => exact .inl h
  | cons first rest ih =>
    obtain h | h := ih h
    · unfold collectNew at h
      split at h
      · exact .inl h
      · refine (List.mem_append.mp h).imp_right fun hfirst => ?_
        rw [List.mem_singleton.mp hfirst]
        exact List.mem_cons_self
    · exact .inr (List.mem_cons_of_mem _ h)

/-- The keys of the attached nodes in the order of their first connections. -/
theorem map_key_attachedNodes (g : Description) (agent : NodeSpec) :
    (attachedNodes g agent).map (·.key) =
      distinct (g.links.filterMap fun l => (attached? g agent l).map (·.key)) := by
  rw [attachedNodes_eq, map_key_foldl, List.map_filterMap]
  rfl

theorem mem_attachedNodes : n ∈ attachedNodes g agent ↔ ∃ l ∈ g.links, g.Attaches agent l n := by
  have hmem : ∀ {n}, n ∈ attachedNodes g agent → ∃ l ∈ g.links, g.Attaches agent l n := by
    intro n h
    rw [attachedNodes_eq] at h
    have h := (mem_of_mem_foldl h).resolve_left List.not_mem_nil
    rw [List.mem_filterMap] at h
    simpa only [attached?_eq_some_iff] using h
  refine ⟨hmem, fun ⟨l, hl, h⟩ => ?_⟩
  -- A node with this key is there, and it can be no other.
  have hkey : n.key ∈ (attachedNodes g agent).map (·.key) := by
    rw [map_key_attachedNodes, mem_distinct, List.mem_filterMap]
    exact ⟨l, hl, by rw [attached?_eq_some_iff.mpr h, Option.map_some]⟩
  obtain ⟨n', hn', hsame⟩ := List.mem_map.mp hkey
  obtain ⟨l', -, h'⟩ := hmem hn'
  rwa [← h'.unique h hsame]

theorem linkRank_eq (h : ∃ l, g.Attaches agent l n) : linkRank g agent n.key =
    g.links.findIdx fun l => (attached? g agent l).map (·.key) == some n.key := by
  obtain ⟨l₀, h⟩ := h
  unfold linkRank
  congr 1
  funext l
  rw [Bool.eq_iff_iff]
  simp only [Bool.and_eq_true, beq_iff_eq, Option.map_eq_some_iff, attached?_eq_some_iff]
  constructor
  · rintro ⟨⟨hkind, hsource⟩, htarget⟩
    exact ⟨n, ⟨hkind, hsource, htarget ▸ h.node?_eq, h.2.2.2⟩, rfl⟩
  · rintro ⟨n', ⟨hkind, hsource, hn', -⟩, hkey⟩
    exact ⟨⟨hkind, hsource⟩, (NodeSpec.key_of_find? hn').symm.trans hkey⟩

/-- The attached nodes stand in the order of their first connections. -/
theorem pairwise_attachedNodes (g : Description) (agent : NodeSpec) :
    (attachedNodes g agent).Pairwise fun a b =>
      linkRank g agent a.key < linkRank g agent b.key := by
  have h := pairwise_distinct_filterMap (fun l => (attached? g agent l).map (·.key)) g.links
  rw [← map_key_attachedNodes, List.pairwise_map] at h
  refine h.imp_of_mem fun {a b} ha hb hlt => ?_
  obtain ⟨la, -, ha⟩ := mem_attachedNodes.mp ha
  obtain ⟨lb, -, hb⟩ := mem_attachedNodes.mp hb
  rwa [linkRank_eq ⟨la, ha⟩, linkRank_eq ⟨lb, hb⟩]

/-! ## The layers -/

/-- The attached nodes that the stated order names, as they are first named. -/
def namedNodes (g : Description) (agent : NodeSpec) : List NodeSpec :=
  (distinct (statedOrder agent)).filterMap fun key => (attachedNodes g agent).find? (·.key == key)

/-- The attached nodes that the stated order does not name, as they are first connected. -/
def unnamedNodes (g : Description) (agent : NodeSpec) : List NodeSpec :=
  (attachedNodes g agent).filter fun n => !(namedNodes g agent).any (·.key == n.key)

theorem attachments_eq (g : Description) (agent : NodeSpec) :
    attachments g agent = (namedNodes g agent ++ unnamedNodes g agent).map .ofNode := rfl

theorem mem_namedNodes :
    n ∈ namedNodes g agent ↔ n ∈ attachedNodes g agent ∧ Named agent n.key := by
  unfold namedNodes
  rw [List.mem_filterMap]
  constructor
  · rintro ⟨key, hkey, hfind⟩
    have hn : n.key = key := NodeSpec.key_of_find? hfind
    rw [mem_distinct, mem_statedOrder] at hkey
    exact ⟨List.mem_of_find?_eq_some hfind, hn ▸ hkey⟩
  · rintro ⟨hmem, hnamed⟩
    refine ⟨n.key, mem_distinct.mpr (mem_statedOrder.mpr hnamed), ?_⟩
    have hsome : ((attachedNodes g agent).find? (·.key == n.key)).isSome = true :=
      List.find?_isSome.mpr ⟨n, hmem, beq_self_eq_true _⟩
    obtain ⟨n', hn'⟩ := Option.isSome_iff_exists.mp hsome
    obtain ⟨l, -, h⟩ := mem_attachedNodes.mp hmem
    obtain ⟨l', -, h'⟩ := mem_attachedNodes.mp (List.mem_of_find?_eq_some hn')
    rw [hn', h'.unique h (NodeSpec.key_of_find? hn')]

theorem mem_unnamedNodes :
    n ∈ unnamedNodes g agent ↔ n ∈ attachedNodes g agent ∧ ¬Named agent n.key := by
  unfold unnamedNodes
  rw [List.mem_filter]
  refine and_congr_right fun hmem => ?_
  rw [Bool.not_eq_true', ← Bool.not_eq_true, List.any_eq_true]
  refine not_congr ⟨?_, fun h => ⟨n, mem_namedNodes.mpr ⟨hmem, h⟩, beq_self_eq_true _⟩⟩
  rintro ⟨n', hn', hkey⟩
  exact eq_of_beq hkey ▸ (mem_namedNodes.mp hn').2

/-- The named nodes stand in the order in which they are first named. -/
theorem pairwise_namedNodes (g : Description) (agent : NodeSpec) :
    (namedNodes g agent).Pairwise fun a b => nameRank agent a.key < nameRank agent b.key := by
  have horder := pairwise_distinct_filterMap Json.asText? (orderItems agent)
  rw [← statedOrder_eq] at horder
  unfold namedNodes
  rw [List.pairwise_filterMap]
  refine horder.imp fun {key key'} hlt n hn n' hn' => ?_
  rwa [NodeSpec.key_of_find? hn, NodeSpec.key_of_find? hn']

/-- The layers of an agent are the middleware nodes that its connections lead to, each of them once
and nothing else. Those that the stated order names come first, in the order in which they are first
named; the others follow in the order of their first connections. -/
theorem attachments_ordered (g : Description) (agent : NodeSpec) :
    (∀ a, a ∈ attachments g agent ↔ ∃ l ∈ g.links, ∃ n, g.Attaches agent l n ∧ a = .ofNode n) ∧
      ((attachments g agent).map (·.key)).Nodup ∧
      (attachments g agent).Pairwise fun a b => LayerBefore g agent a.key b.key := by
  have hordered : (namedNodes g agent ++ unnamedNodes g agent).Pairwise fun a b =>
      LayerBefore g agent a.key b.key := by
    refine List.pairwise_append.mpr ⟨?_, ?_, ?_⟩
    · refine (pairwise_namedNodes g agent).imp_of_mem fun ha hb hlt => ?_
      exact .named (mem_namedNodes.mp ha).2 (mem_namedNodes.mp hb).2 hlt
    · refine ((pairwise_attachedNodes g agent).filter _).imp_of_mem fun ha hb hlt => ?_
      exact .linked (mem_unnamedNodes.mp ha).2 (mem_unnamedNodes.mp hb).2 hlt
    · exact fun a ha b hb => .first (mem_namedNodes.mp ha).2 (mem_unnamedNodes.mp hb).2
  rw [attachments_eq]
  refine ⟨fun a => ?_, ?_, List.pairwise_map.mpr hordered⟩
  · have hmem : ∀ n, n ∈ namedNodes g agent ++ unnamedNodes g agent ↔
        ∃ l ∈ g.links, g.Attaches agent l n := by
      intro n
      rw [List.mem_append, mem_namedNodes, mem_unnamedNodes, ← and_or_left, ← mem_attachedNodes]
      exact and_iff_left (em _)
    rw [List.mem_map]
    constructor
    · rintro ⟨n, hn, rfl⟩
      obtain ⟨l, hl, h⟩ := (hmem n).mp hn
      exact ⟨l, hl, n, h, rfl⟩
    · rintro ⟨l, hl, n, h, rfl⟩
      exact ⟨n, (hmem n).mpr ⟨l, hl, h⟩, rfl⟩
  · rw [List.map_map]
    refine List.pairwise_map.mpr (hordered.imp fun {a b} hbefore heq => ?_)
    -- No node is a layer before itself.
    have heq : a.key = b.key := heq
    rw [heq] at hbefore
    cases hbefore with
    | named _ _ h => exact absurd h (Nat.lt_irrefl _)
    | first ha hb => exact hb ha
    | linked _ _ h => exact absurd h (Nat.lt_irrefl _)

end Workgraph
