import Workgraph.Proofs.Node.Functional
import Workgraph.Proofs.Workflow.Channels
import Workgraph.Run.Machine
/-!
# Functional workflows

If the services of a host are functions of their arguments, then a workflow of standard nodes that
are not agents is functional: what a node gives back is determined by its key and by the state, and
it is a write to a channel that no other node writes.

## Main definitions

- `Answers`: what nodes give back, by key and state
- `Workflow.Functional`: workflows whose nodes give back what is determined

## Main statements

- `compile_functional`: workflows of standard nodes that are not agents are functional
-/

namespace Workgraph

variable {σ : Type}

/-- What nodes give back, by key and state. -/
abbrev Answers := String → Snapshot → Except NodeError NodeOutput

/-- What a node gives back is determined by its key and by the state. It is a write and nothing
else, to a channel that is registered and that no other node writes. -/
structure Workflow.Functional (w : Workflow σ) (f : Answers) : Prop where
  returns : ∀ n ∈ w.nodes, ∀ ctx s, (n.run ctx s).Returns (f n.key s)
  writes : ∀ n ∈ w.nodes, ∀ s out, f n.key s = .ok out → ∃ u, out = .write u
  registered : ∀ n ∈ w.nodes, w.schema.contains (w.channelOf n.key) = true
  owned : ∀ n ∈ w.nodes, ∀ m ∈ w.nodes, w.channelOf n.key = w.channelOf m.key → n.key = m.key

/-- A workflow of standard nodes that are not agents is functional, if the services of the host are
functions of their arguments. -/
theorem compile_functional [Nonempty σ] {ws : Workshop σ} {g : Description} {site : List String}
    {w : Workflow σ}
    (hstandard : ∀ n ∈ g.nodes, ws.makers.resolve n.typeKey = standardMakers.resolve n.typeKey)
    (hagents : ∀ n ∈ g.nodes, n.kind ≠ .agent) (hservices : ws.services.Functional)
    (h : compile ws g site = .ok w) : ∃ f, w.Functional f := by
  have hreflects := compile_reflects h
  have howns := compile_ownsChannels h
  have hnodes : ∀ n ∈ w.nodes, Node.Functional n.run ∧ Node.Silent n.run := by
    intro n hn
    obtain ⟨spec, hspec, -, plan, hplan, rfl⟩ := hreflects.planned n hn
    exact planAt_functional hstandard hagents hservices hspec hplan
  have hchannel := fun n (hn : n ∈ w.nodes) => hreflects.channel_eq hstandard hn
  have hchannelOf := fun n (hn : n ∈ w.nodes) => hreflects.channelOf_eq hn (hchannel n hn)
  -- There is one node of each key, so that its results can be told by the key.
  have hresult : ∀ key s, ∃ result, ∀ n ∈ w.nodes, n.key = key →
      ∀ ctx, (n.run ctx s).Returns result := by
    intro key s
    cases hnode : w.node? key with
    | none =>
      refine ⟨.error .cancelled, fun n hn hkey => ?_⟩
      rw [← hkey, hreflects.node?_eq hn] at hnode
      cases hnode
    | some m =>
      obtain ⟨hm, -⟩ := Workflow.node?_eq_some hnode
      obtain ⟨result, hreturns⟩ := (hnodes m hm).1 s
      refine ⟨result, fun n hn hkey => ?_⟩
      rw [← hkey, hreflects.node?_eq hn] at hnode
      cases hnode
      exact hreturns
  choose f hf using hresult
  refine ⟨f, ⟨fun n hn ctx s => hf n.key s n hn rfl ctx, ?_, ?_, ?_⟩⟩
  · intro n hn s out hout
    -- Some world in which nobody has cancelled the run shows what the node gives back.
    obtain ⟨host⟩ := ‹Nonempty σ›
    obtain ⟨hreturned, -⟩ := hf n.key s n hn rfl (.detached n.key) (.start host) rfl
    exact (hnodes n hn).2 (.detached n.key) s (.start host) out (hreturned.trans hout)
  · intro n hn
    rw [hchannelOf n hn]
    exact howns.contains_iff.mpr ⟨n, hn, hchannel n hn⟩
  · intro n hn m hm heq
    rw [hchannelOf n hn, hchannelOf m hm] at heq
    have hsame : m.channel = some (channelName n.key) := by rw [heq, hchannel m hm]
    rw [howns.eq_of_channel hn hm (hchannel n hn) hsame]

end Workgraph
