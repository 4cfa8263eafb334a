import Mathlib.Data.List.Pairwise
import Workgraph.Proofs.Node.Made
import Workgraph.Proofs.Workflow.Compiled
/-!
# The channels of a workflow

Compiling registers the channel of every node that has one, and refuses a name that is taken. So the
channels of a workflow are those of its nodes, and each of them belongs to one node.

## Main definitions

- `Workflow.OwnsChannels`: the channels of a workflow are those of its nodes, each of one node
- `Draft.Registered`: the channels of the plans of a draft are registered

## Main statements

- `compile_ownsChannels`: compiling gives such a workflow
- `compile_registers`: the channel of a plan is registered as the plan declares it
- `Workflow.OwnsChannels.contains_iff`: which channels are registered
- `Workflow.OwnsChannels.eq_of_channel`: no two nodes have the same channel
- `Reflects.channel_eq`: a standard node has the channel that is named after its key
-/

namespace Workgraph

variable {σ : Type}

namespace Schema

theorem contains_iff {s : Schema} {name : String} : s.contains name = true ↔ name ∈ s.names := by
  unfold contains get? names
  rw [List.isSome_find?, List.any_eq_true, List.mem_map]
  simp

/-- A channel is registered behind the others, under a name that none of them has. -/
theorem register_eq_ok_iff {s s' : Schema} {c : Channel} :
    s.register c = .ok s' ↔ c.name ∉ s.names ∧ s' = s ++ [c] := by
  unfold register
  by_cases h : s.contains c.name = true
  · rw [if_pos h]
    have hmem := contains_iff.mp h
    exact ⟨(nomatch ·), fun hs => absurd hmem hs.1⟩
  · rw [if_neg h]
    have hmem : c.name ∉ s.names := fun hm => h (contains_iff.mpr hm)
    constructor
    · intro hs
      exact ⟨hmem, (Except.ok.inj hs).symm⟩
    · rintro ⟨-, rfl⟩
      rfl

end Schema

/-- The channels of a workflow are those of its nodes, each of one node. -/
structure Workflow.OwnsChannels (w : Workflow σ) : Prop where
  names_eq : w.schema.names = w.nodes.filterMap (·.channel)
  names_nodup : w.schema.names.Nodup

namespace Draft

variable {ws : Workshop σ} {g : Description} {site : List String}

/-- The channel of a plan is registered behind the others, if the plan has one. -/
theorem registerChannel_names {schema schema' : Schema} {c : Option Channel}
    (h : registerChannel schema c = .ok schema') :
    schema'.names = schema.names ++ (c.map (·.name)).toList ∧
      (schema.names.Nodup → schema'.names.Nodup) := by
  cases c with
  | none =>
    cases h
    exact ⟨by simp, id⟩
  | some c =>
    obtain ⟨hfresh, rfl⟩ := Schema.register_eq_ok_iff.mp h
    have hnames : Schema.names (schema ++ [c]) = schema.names ++ [c.name] := by
      simp [Schema.names]
    refine ⟨hnames, fun hn => ?_⟩
    rw [hnames, List.nodup_append]
    refine ⟨hn, List.nodup_singleton _, ?_⟩
    intro name hname other hother heq
    rw [List.mem_singleton] at hother
    exact hfresh (hother ▸ heq ▸ hname)

/-- However many nodes are compiled, the channels are those of the nodes, each of one node. -/
theorem foldl_add_names {ns : List NodeSpec} {d : Draft σ}
    (hd : d.schema.names = d.nodes.filterMap (·.channel)) (hn : d.schema.names.Nodup) :
    let d' := ns.foldl (fun d n => d.add ws g site n) d
    d'.schema.names = d'.nodes.filterMap (·.channel) ∧ d'.schema.names.Nodup := by
  induction ns generalizing d with
  | nil => exact ⟨hd, hn⟩
  | cons n rest ih =>
    obtain ⟨-, ha⟩ | ⟨-, i, -, ha⟩ | ⟨-, plan, schema, -, hr, ha⟩ := add_cases ws g site d n
    · exact ih (d := d.add ws g site n) (by rw [ha]; exact hd) (by rw [ha]; exact hn)
    · exact ih (d := d.add ws g site n) (by rw [ha]; exact hd) (by rw [ha]; exact hn)
    · obtain ⟨hnames, hnodup⟩ := registerChannel_names hr
      refine ih (d := d.add ws g site n) ?_ (by rw [ha]; exact hnodup hn)
      rw [ha, hnames, hd, List.filterMap_append]
      cases hc : plan.channel <;> simp [workNode, hc]

theorem mem_of_registerChannel {schema schema' : Schema} {c : Option Channel}
    (h : registerChannel schema c = .ok schema') :
    schema ⊆ schema' ∧ ∀ c', c = some c' → c' ∈ schema' := by
  cases c with
  | none =>
    cases h
    exact ⟨List.Subset.refl _, nofun⟩
  | some c =>
    obtain ⟨-, rfl⟩ := Schema.register_eq_ok_iff.mp h
    refine ⟨List.subset_append_left _ _, ?_⟩
    rintro _ ⟨⟩
    exact List.mem_append_right _ (List.mem_singleton.mpr rfl)

variable (ws g site) in
/-- Every node of a draft comes from a plan whose channel, if it has one, is registered. -/
def Registered (d : Draft σ) : Prop :=
  ∀ m ∈ d.nodes, ∃ spec ∈ g.nodes, ∃ plan, ws.build g site spec = .ok plan ∧
    m = workNode g spec plan ∧ ∀ c, plan.channel = some c → c ∈ d.schema

/-- However many nodes are compiled, the channels of all plans are registered. -/
theorem Registered.foldl_add {ns : List NodeSpec} {d : Draft σ} (hns : ns ⊆ g.nodes)
    (hd : Registered ws g site d) :
    Registered ws g site (ns.foldl (fun d n => d.add ws g site n) d) := by
  induction ns generalizing d with
  | nil => exact hd
  | cons n rest ih =>
    obtain ⟨hn, hrest⟩ := List.cons_subset.mp hns
    obtain ⟨-, ha⟩ | ⟨-, i, -, ha⟩ | ⟨-, plan, schema, hplan, hr, ha⟩ := add_cases ws g site d n
    · exact ih (d := d.add ws g site n) hrest (by rw [ha]; exact hd)
    · exact ih (d := d.add ws g site n) hrest (by rw [ha]; exact hd)
    · refine ih (d := d.add ws g site n) hrest ?_
      rw [ha]
      obtain ⟨hkept, hadded⟩ := mem_of_registerChannel hr
      intro m hm
      obtain hm | hm := List.mem_append.mp hm
      · obtain ⟨spec, hspec, plan', hbuilt, heq, hchannel⟩ := hd m hm
        exact ⟨spec, hspec, plan', hbuilt, heq, fun c hc => hkept (hchannel c hc)⟩
      · exact ⟨n, hn, plan, hplan, List.mem_singleton.mp hm, hadded⟩

end Draft

/-- Compiling gives a workflow whose channels are those of its nodes, each of one node. -/
theorem compile_ownsChannels {ws : Workshop σ} {g : Description} {site : List String}
    {w : Workflow σ} (h : compile ws g site = .ok w) : w.OwnsChannels := by
  unfold compile at h
  dsimp only at h
  split at h
  · cases h
  · injection h with hw
    subst hw
    have hdraft : (⟨[], [], checkStructure g⟩ : Draft σ).schema.names = [] := rfl
    obtain ⟨hnames, hnodup⟩ := Draft.foldl_add_names hdraft List.nodup_nil
    exact ⟨hnames, hnodup⟩

/-- A channel is found under its name, if no other has this name. -/
theorem Schema.get?_eq_of_mem {s : Schema} (h : s.names.Nodup) {c : Channel} (hc : c ∈ s) :
    s.get? c.name = some c := by
  have hmem : c.name ∈ s.names := List.mem_map_of_mem hc
  obtain ⟨c', hc'⟩ := Option.isSome_iff_exists.mp (contains_iff.mpr hmem)
  have hname : c'.name = c.name := by simpa using List.find?_some hc'
  rw [hc', List.inj_on_of_nodup_map h (List.mem_of_find?_eq_some hc') hc hname]

/-- The channel of the plan that a node is made from is registered as the plan declares it. -/
theorem compile_registers {ws : Workshop σ} {g : Description} {site : List String}
    {w : Workflow σ} (h : compile ws g site = .ok w) {n : WorkNode σ} (hn : n ∈ w.nodes) :
    ∃ spec ∈ g.nodes, ∃ plan, ws.build g site spec = .ok plan ∧
      n = Draft.workNode g spec plan ∧
      ∀ c, plan.channel = some c → w.schema.get? c.name = some c := by
  have hnodup := (compile_ownsChannels h).names_nodup
  unfold compile at h
  dsimp only at h
  split at h
  · cases h
  · injection h with hw
    subst hw
    have hregistered : Draft.Registered ws g site (draftOf ws g site) :=
      Draft.Registered.foldl_add List.filter_sublist.subset fun m hm => absurd hm List.not_mem_nil
    obtain ⟨spec, hspec, plan, hbuilt, heq, hchannel⟩ := hregistered n hn
    exact ⟨spec, hspec, plan, hbuilt, heq, fun c hc =>
      Schema.get?_eq_of_mem hnodup (hchannel c hc)⟩

namespace Workflow.OwnsChannels

variable {w : Workflow σ}

/-- The channels that are registered are those of the nodes. -/
theorem contains_iff (h : w.OwnsChannels) {name : String} :
    w.schema.contains name = true ↔ ∃ n ∈ w.nodes, n.channel = some name := by
  rw [Schema.contains_iff, h.names_eq, List.mem_filterMap]

/-- No two nodes have the same channel. -/
theorem eq_of_channel (h : w.OwnsChannels) {n m : WorkNode σ} (hn : n ∈ w.nodes)
    (hm : m ∈ w.nodes) {name : String} (hnc : n.channel = some name)
    (hmc : m.channel = some name) : n = m := by
  by_contra hne
  have hnodup := h.names_nodup
  rw [h.names_eq, List.Nodup, List.pairwise_filterMap] at hnodup
  have hsymm : Std.Symm fun a b : WorkNode σ =>
      ∀ x ∈ a.channel, ∀ y ∈ b.channel, x ≠ y :=
    ⟨fun a b hab x hx y hy => (hab y hy x hx).symm⟩
  exact hnodup.forall hn hm hne name hnc name hmc rfl

end Workflow.OwnsChannels

/-- A standard node has the channel that is named after its key. -/
theorem Reflects.channel_eq {ws : Workshop σ} {g : Description} {site : List String}
    {w : Workflow σ} {n : WorkNode σ}
    (hstandard : ∀ n ∈ g.nodes, ws.makers.resolve n.typeKey = standardMakers.resolve n.typeKey)
    (h : Reflects ws g site w) (hn : n ∈ w.nodes) : n.channel = some (channelName n.key) := by
  obtain ⟨spec, hspec, -, plan, hplan, rfl⟩ := h.planned n hn
  obtain ⟨maker, build, hmaker, hmade, rfl, -⟩ := Workshop.exists_maker hplan
  rw [hstandard build.node hspec] at hmaker
  show plan.channel.map (·.name) = some (channelName build.node.key)
  obtain ⟨-, a, -, rfl⟩ | hother := standardMakers_made hmaker hmade
  · rfl
  · obtain ⟨c, hc, hname⟩ := hother.channel_eq
    rw [hc, Option.map_some, hname]

/-- A node writes the channel that is named after its key, if that is the channel that it has. -/
theorem Reflects.channelOf_eq {ws : Workshop σ} {g : Description} {site : List String}
    {w : Workflow σ} {n : WorkNode σ} (h : Reflects ws g site w) (hn : n ∈ w.nodes)
    (hchannel : n.channel = some (channelName n.key)) :
    w.channelOf n.key = channelName n.key := by
  unfold Workflow.channelOf
  rw [h.node?_eq hn, Option.bind_some, hchannel, Option.getD_some]

end Workgraph
