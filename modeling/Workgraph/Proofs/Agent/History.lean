import Workgraph.Proofs.Agent.Exchange
import Workgraph.Proofs.Run.States
import Workgraph.Proofs.Workflow.Compiled
/-!
# The shared history

The conversation that the agents of a run share is a transcript at every checkpoint, however control
is passed on and however often the run is paused and resumed. The messages of an agent and those of
its transfer are written one behind the other, so that no other agent comes between a request and
its answers.

## Main statements

- `maintains_transcript`: every node adds a transcript to the conversation
- `requests_answered`: behind every request on record stand its answers
-/

namespace Workgraph

variable {σ : Type}

section Standard

variable {ws : Workshop σ} {g : Description} {site : List String} {w : Workflow σ}
  {aside : Message → Prop}
  (hstandard : ∀ n ∈ g.nodes, ws.makers.resolve n.typeKey = standardMakers.resolve n.typeKey)
  (hattach : ∀ n ∈ g.nodes, n.kind = .agent → attachments g n = [])
  (hkeep : ws.services.KeepControl)

include hstandard hattach hkeep

/-- A standard node adds a transcript to the conversation. -/
theorem node_transcript (hw : Reflects ws g site w) (hreplies : ws.services.Replies aside)
    (hprompts : ∀ text, aside (.user text)) {n : WorkNode σ} (hn : n ∈ w.nodes) (ctx : NodeContext)
    (s : Snapshot) :
    (n.run ctx s).Gives fun result => ∀ out, result = .ok out → Transcript aside out.said := by
  obtain ⟨spec, hspec, -, plan, hplan, rfl⟩ := hw.planned n hn
  obtain ⟨maker, build, hmaker, hmade, hnode, hgraph, hservices, -⟩ :=
    Workshop.exists_maker hplan
  rw [hstandard spec hspec] at hmaker
  obtain ⟨hkind, a, hagent, rfl⟩ | hother := standardMakers_made hmaker hmade
  · have hnil : attachments build.graph build.node = [] := by
      rw [hnode, hgraph]
      exact hattach spec hspec hkind
    rw [← hservices] at hkeep hreplies
    exact (hagent.fit hnil hkeep hreplies hprompts).node_gives build.patience ctx s
  · refine (hother.silent ctx s).mono ?_
    intro result hwrites out hout
    obtain ⟨u, rfl⟩ := hwrites out hout
    exact .nil

/-- Every node adds a transcript to the conversation. -/
theorem maintains_transcript (hw : Reflects ws g site w) (hreplies : ws.services.Replies aside)
    (hprompts : ∀ text, aside (.user text)) :
    w.Maintains fun s => Transcript aside s.messages where
  fresh := fun _ _ => .nil
  restored := fun _ h => h
  merged := fun _ _ h => h
  written := by
    intro n hn ctx s before out hout store store' hwrite hstore
    rw [Workflow.writeOutput_messages hwrite]
    exact hstore.append
      (node_transcript hstandard hattach hkeep hw hreplies hprompts hn ctx s before out hout)

end Standard

/-- Every request for tools is answered. In a workflow of standard nodes whose agents have no
middleware and whose toolsets do not transfer, whatever the model says and however its runs are
begun, cut short and resumed: in the conversation of every checkpoint, an assistant message that
asks for tools is followed at once by one message for each call, in order, with its identifier and
its name. If the model does not itself speak as a tool, these are all the messages of tools that
follow it. -/
theorem requests_answered {ws : Workshop σ} {g : Description} {site : List String} {w : Workflow σ}
    (hc : compile ws g site = .ok w)
    (hstandard : ∀ n ∈ g.nodes, ws.makers.resolve n.typeKey = standardMakers.resolve n.typeKey)
    (hattach : ∀ n ∈ g.nodes, n.kind = .agent → attachments g n = [])
    (hkeep : ws.services.KeepControl) {cp : Checkpoint} (h : w.Wrote cp) :
    ∀ m after, m :: after <:+ cp.state.messages → m.hasToolCalls = true →
      (∃ answers rest, after = answers ++ rest ∧ AnswersAll m.toolCalls answers) ∧
      (ws.services.Replies (fun reply => reply.hasRole Role.tool = false) →
        AnswersAll m.toolCalls (after.takeWhile (·.hasRole Role.tool))) := by
  have hw := compile_reflects hc
  intro m after hsuffix hm
  constructor
  · have hmaintains : w.Maintains fun s => Transcript (fun _ => True) s.messages :=
      maintains_transcript hstandard hattach hkeep hw (fun _ _ _ _ _ _ => trivial)
        (fun _ => trivial)
    obtain ⟨answers, rest, hafter, ha, -⟩ := (hmaintains.wrote h).answered hsuffix hm
    exact ⟨answers, rest, hafter, ha⟩
  · intro hreplies
    -- Only here it matters what else is said.
    have hmaintains := maintains_transcript hstandard hattach hkeep hw hreplies (fun _ => rfl)
    exact (hmaintains.wrote h).answered_exactly (fun _ h => h) hsuffix hm

/-! ## Two agents -/

/-- A model that begins with calls of an unknown tool in front of a transfer and behind it. -/
def hastyModel : Model Unit := fun request => pure <| .ok <|
  if request.messages.isEmpty then
    .calling "" [⟨"1", "search", .null⟩, ⟨"2", "transfer_to_b", .null⟩, ⟨"3", "search", .null⟩]
  else .assistant "done"

/-- A workshop with standard nodes and this model. -/
def agency : Workshop Unit :=
  ⟨standardMakers, { Services.none with model := some hastyModel }, [], 100⟩

/-- An agent that hands off to another one, which returns to it. -/
def agentPair : Description where
  nodes := [.plain "a" .agent, .plain "b" .agent]
  links := [⟨"a", "b", .agent⟩]
  entry := some "a"

/-- The workflow of the two agents. -/
def agentWorkflow : Workflow Unit :=
  match compile agency agentPair [] with
  | .ok w => w
  | .error _ => ⟨[], [], []⟩

theorem compile_agentPair : compile agency agentPair [] = .ok agentWorkflow :=
  eq_ok_of_isOk ⟨[], [], []⟩ (by decide +kernel)

/-- The run of the two agents. -/
def agentRun : Stage × RunWorld Unit (Chains × List Checkpoint) :=
  ({ unevenRunner with workflow := agentWorkflow } : Runner Unit Chains).recording.moves
    (Runner.enoughMoves 5) (.waiting (.fresh .null .null)) ⟨.start (), ([], [])⟩

theorem agentRun_wrote {cp : Checkpoint} (h : cp ∈ agentRun.2.saved) : agentWorkflow.Wrote cp := by
  have hreach : ({ unevenRunner with workflow := agentWorkflow } : Runner Unit Chains).Reaches
      (.fresh .null .null) agentRun.1 agentRun.2 := Runner.Reaches.moves (.waiting rfl) _
  exact .fresh rfl hreach h

theorem requests_answered_agentPair :
    compile agency agentPair [] = .ok agentWorkflow ∧
    (∀ n ∈ agentPair.nodes, n.kind = .agent → attachments agentPair n = []) ∧
    agency.services.KeepControl ∧
    agency.services.Replies (fun reply => reply.hasRole Role.tool = false) ∧
    (∃ cp ∈ agentRun.2.saved, ∃ m ∈ cp.state.messages, m.hasToolCalls = true) ∧
    ∀ cp ∈ agentRun.2.saved, ∀ m after, m :: after <:+ cp.state.messages → m.hasToolCalls = true →
      AnswersAll m.toolCalls (after.takeWhile (·.hasRole Role.tool)) := by
  have hattach : ∀ n ∈ agentPair.nodes, n.kind = .agent → attachments agentPair n = [] := by
    have hall : agentPair.nodes.all (fun n => (attachments agentPair n).isEmpty) = true := by
      decide +kernel
    intro n hn _
    exact List.isEmpty_iff.mp (List.all_eq_true.mp hall n hn)
  have hkeep : agency.services.KeepControl := fun _ _ h => nomatch h
  have hreplies : agency.services.Replies fun reply => reply.hasRole Role.tool = false := by
    intro model hmodel request world reply hreply
    cases hmodel
    unfold hastyModel at hreply
    split at hreply
    · cases hreply
      rfl
    · cases hreply
      rfl
  refine ⟨compile_agentPair, hattach, hkeep, hreplies, ?_, ?_⟩
  · have hany : agentRun.2.saved.any (fun cp => cp.state.messages.any (·.hasToolCalls)) = true := by
      decide +kernel
    obtain ⟨cp, hcp, hm⟩ := List.any_eq_true.mp hany
    exact ⟨cp, hcp, List.any_eq_true.mp hm⟩
  · intro cp hcp m after hsuffix hm
    exact (requests_answered compile_agentPair (fun _ _ => rfl) hattach hkeep (agentRun_wrote hcp) m
      after hsuffix hm).2 hreplies

end Workgraph
