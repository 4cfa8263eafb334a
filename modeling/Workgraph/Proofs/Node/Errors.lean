import Workgraph.Proofs.Agent.Iterations
import Workgraph.Proofs.Node.Elements
import Workgraph.Proofs.Workflow.Navigation
import Workgraph.Proofs.Workflow.WellFormed
/-!
# Errors and where they lead

Agents, the stages of pipelines for documents, list queries and iterations report to the graph that
their work has ended with an error. They leave the error in their channel, and their navigator looks
for it there. What it finds is what the latest run has left: a run that succeeds writes null over an
earlier error, and no error has an empty text, which would be taken for none.

## Main definitions

- `LoopEnd.Explained`: the end of an agent that is no failure without a message
- `Node.Reports`: how a run of such a node ends, told from its work
- `NodeOutput.Tells`: what an output says of how the run has ended
- `ReportingNode`, `ReportingMaker`, `NodePlan.Reporting`: such nodes, their makers and their plans

## Main statements

- `Agent.looped_explained`: an agent does not fail without a message
- `Node.Reports.exists_output`: how a run ends is told by its output
- `ReportingNode.exists_reports`: a run that gives back an output ends in one of these ways
- `errors_routed`: a node is left as its latest run has ended
-/

namespace Workgraph

variable {σ : Type}

open Activity Iteration

/-! ## Messages -/

theorem ProviderError.message_ne_empty (e : ProviderError) : e.message ≠ "" := by
  unfold message
  cases e <;> simp [ToString.toString]

theorem MiddlewareError.message_ne_empty (e : MiddlewareError) : e.message ≠ "" := by
  unfold message
  cases e <;> simp [ToString.toString]

theorem Agent.capMessage_ne_empty (a : Agent σ) : a.capMessage ≠ "" := by
  unfold capMessage
  simp [ToString.toString]

/-- The end of an agent that is no failure, or a failure with a message. -/
def LoopEnd.Explained : LoopEnd → Prop
  | .failed message => message ≠ ""
  | _ => True

def TurnEnd.Explained : TurnEnd → Prop
  | .ended e => e.Explained
  | .again _ => True

namespace Agent

section Turns

variable (a : Agent σ) (system : Option Message) (ctx : NodeContext) (toolCtx : ToolContext)

theorem toolsTurn_explained (s : AgentState) :
    (a.toolsTurn ctx toolCtx s).Gives (·.2.Explained) := by
  refine (a.toolsTurn_leads ctx toolCtx s).mono ?_
  rintro ⟨s', e⟩ ⟨-, rfl | ⟨signal, rfl⟩⟩ <;> trivial

theorem afterReply_explained (s : AgentState) :
    (a.afterReply s).Gives fun result => ∀ e, result.2 = .turn e → e.Explained := by
  unfold afterReply
  refine .after _ ?_
  rintro ⟨s', e | _ | jump⟩
  · refine .pure ?_
    rintro _ ⟨⟩
    exact e.message_ne_empty
  · dsimp only
    split
    · exact .pure nofun
    · refine .pure ?_
      rintro _ ⟨⟩
      trivial
  · refine .pure ?_
    rintro _ ⟨⟩
    trivial

theorem afterCall_explained (s : AgentState) (reply : Except ProviderError Message) :
    (a.afterCall ctx toolCtx s reply).Gives (·.2.Explained) := by
  cases reply with
  | error e => exact .pure e.message_ne_empty
  | ok reply =>
    refine .bind (a.afterReply_explained (s.push reply)) ?_
    rintro ⟨s', e | e⟩ hexplained
    · exact a.toolsTurn_explained ctx toolCtx s'
    · exact .pure (hexplained e rfl)

variable {a system ctx toolCtx} in
theorem Turn.explained {jump : Option Jump} {s : AgentState} {w : World σ}
    {requests : List ModelRequest} {diversions : Nat} {moment : (AgentState × TurnEnd) × World σ}
    (h : a.Turn system ctx toolCtx jump s w requests diversions moment) : moment.1.2.Explained := by
  cases h with
  | cancelled hw => trivial
  | stopped hw hj => trivial
  | tools hw hj ht =>
    subst ht
    exact a.toolsTurn_explained ctx toolCtx s w
  | @refused s' e w' hw hj hb => exact e.message_ne_empty
  | skipped hw hj hb => trivial
  | diverted hw hj hb => trivial
  | exhausted hw hj hb hnext hcap => exact a.capMessage_ne_empty
  | called hw hj hb hnext hcap hr ha =>
    subst ha
    exact a.afterCall_explained ctx toolCtx _ _ _

theorem loop_explained (turns : Nat) (jump : Option Jump) (s : AgentState) :
    (a.loop system ctx toolCtx turns jump s).Gives (·.2.Explained) := by
  induction turns generalizing jump s with
  | zero => exact .pure trivial
  | succ turns ih =>
    have hturn : (a.turn system ctx toolCtx jump s).Gives (·.2.Explained) := fun w => by
      obtain ⟨_, _, h⟩ := a.turn_turn system ctx toolCtx jump s w
      exact h.explained
    unfold loop
    refine .bind hturn ?_
    rintro ⟨s', e | jump'⟩ hexplained
    · exact .pure hexplained
    · exact ih jump' s'

end Turns

/-- An agent does not fail without a message. -/
theorem looped_explained (a : Agent σ) (ctx : NodeContext) (s : Snapshot) (patience : Nat) :
    (a.looped ctx s patience).Gives (·.2.Explained) := by
  unfold looped run
  refine .after _ ?_
  rintro ⟨s', e | jump⟩
  · exact .pure e.message_ne_empty
  · exact a.loop_explained _ ctx _ patience jump s'

end Agent

/-! ## Runs -/

/-- The documents, or whatever else the input of a stage resolves to. -/
def StageSetup.inputIn (setup : StageSetup) (s : Snapshot) : Json :=
  (setup.input.bind s.resolve?).getD .null

/-- The results of the elements of an iteration, in the order of the list. -/
def Iteration.results (it : Iteration) (child : Child σ) (ctx : NodeContext) (s : Snapshot)
    (items : List Json) (w : World σ) : List ElementResult :=
  arranged items.length (it.arrivals child ctx s items (List.range items.length) w).1

/-- An end of an agent that is neither a failure nor forced on it: it has nothing more to do, or it
hands over. -/
inductive LoopEnd.Rests : LoopEnd → Prop
  | done : Rests .done
  | handoff (signal : Handoff) : Rests (.handoff signal)

/-- How a run of a node ends: with an error that it reports to the graph, or with none. It is told
from the work that the node does. A run that fails as a whole ends in neither way. -/
inductive Node.Reports (ctx : NodeContext) (s : Snapshot) (w : World σ) :
    Node σ → Option String → Prop
  | agentFailed {a : Agent σ} {patience : Nat} {s₁ : AgentState} {message : String} {w₁ : World σ}
      (hloop : a.looped ctx s patience w = ((s₁, .failed message), w₁)) :
      Reports ctx s w (a.node patience) (some message)
  | agentRefused {a : Agent σ} {patience : Nat} {s₁ s₂ : AgentState} {e : LoopEnd}
      {refusal : MiddlewareError} {w₁ w₂ : World σ}
      (hloop : a.looped ctx s patience w = ((s₁, e), w₁)) (hrests : e.Rests)
      (hhook : a.chain.afterAgent s₁ w₁ = ((s₂, .error refusal), w₂)) :
      Reports ctx s w (a.node patience) (some refusal.message)
  | agentDone {a : Agent σ} {patience : Nat} {s₁ s₂ : AgentState} {e : LoopEnd}
      {jump : Option Jump} {w₁ w₂ : World σ}
      (hloop : a.looped ctx s patience w = ((s₁, e), w₁)) (hrests : e.Rests)
      (hhook : a.chain.afterAgent s₁ w₁ = ((s₂, .ok jump), w₂)) :
      Reports ctx s w (a.node patience) none
  | stageFailed {stage : DocumentStage σ} {provider : String} {setup : StageSetup}
      {e : ProviderError}
      (hwork : (stage.process setup.config (setup.inputIn s) w).1 = .ok (.error e)) :
      Reports ctx s w (stageNode stage provider setup) (some e.message)
  | stageDone {stage : DocumentStage σ} {provider : String} {setup : StageSetup}
      {documents : List Document}
      (hwork : (stage.process setup.config (setup.inputIn s) w).1 = .ok (.ok documents)) :
      Reports ctx s w (stageNode stage provider setup) none
  | nothingToQuery {q : ListQuery} (hlist : (s.resolve? q.input).bind Json.asItems? = none) :
      Reports ctx s w (listQueryNode q) (some ListQuery.notAList)
  | queried {q : ListQuery} {items : List Json}
      (hlist : (s.resolve? q.input).bind Json.asItems? = some items) :
      Reports ctx s w (listQueryNode q) none
  | nothingToIterate {it : Iteration} {child : Child σ}
      (hlist : (s.resolve? it.input).bind Json.asItems? = none) :
      Reports ctx s w (it.node child) (some Iteration.notAList)
  | elementFailed {it : Iteration} {child : Child σ} {items : List Json} {text : String}
      (hlist : (s.resolve? it.input).bind Json.asItems? = some items)
      (hscanned : Scanned it.errorMode (it.results child ctx s items w) (.error text)) :
      Reports ctx s w (it.node child) (some text)
  | iterated {it : Iteration} {child : Child σ} {items outputs : List Json}
      (hlist : (s.resolve? it.input).bind Json.asItems? = some items)
      (hgoes : Uncancelled (it.results child ctx s items w))
      (hscanned : Scanned it.errorMode (it.results child ctx s items w) (.ok outputs)) :
      Reports ctx s w (it.node child) none

/-! ## Outputs -/

/-- What an output says of how the run has ended: its update tells an error that has a text, or null
in its place, and it is the report of a failure only if there is one. -/
structure NodeOutput.Tells (out : NodeOutput) (verdict : Option String) : Prop where
  update : ∃ fields : Table Json, out.update = some (.obj fields) ∧ fields.Sorted ∧
    fields.get? Channel.errorField = some (.text? verdict)
  nonempty : verdict ≠ some ""
  failure_iff : ∀ message, verdict = some message ↔ out = .failure message

namespace NodeOutput

theorem tells_failure {message : String} (h : message ≠ "") :
    (failure message).Tells (some message) where
  update := ⟨_, rfl, List.pairwise_singleton _ _, rfl⟩
  nonempty := fun hempty => h (Option.some.inj hempty)
  failure_iff := fun _ =>
    ⟨fun heq => congrArg failure (Option.some.inj heq), fun heq => congrArg some (failure_inj heq)⟩

/-- An update that ends with null in the place of an error tells none. -/
theorem tells_none {out : NodeOutput} (entries : List (String × Json))
    (h : out.update = some (.object (entries ++ [(Channel.errorField, .null)]))) :
    out.Tells none := by
  have hfield : (Table.ofList (entries ++ [(Channel.errorField, Json.null)])).get?
      Channel.errorField = some .null := by simp
  refine ⟨⟨_, h, Table.sorted_ofList _, hfield⟩, nofun, fun message => ⟨nofun, ?_⟩⟩
  rintro rfl
  have hfields := Json.obj.inj (Option.some.inj h)
  rw [← hfields] at hfield
  cases hfield

end NodeOutput

namespace Agent

variable {a : Agent σ} {ctx : NodeContext} {s : Snapshot} {patience : Nat} {s₁ s₂ : AgentState}
  {e : LoopEnd} {w w₁ w₂ : World σ}

variable (a ctx) in
/-- What follows the loop of an agent. `inherited` messages were there before. -/
def afterLoop (inherited : Nat) (s : AgentState) :
    LoopEnd → Activity σ (Except NodeError NodeOutput)
  | .failed message => fail ctx message
  | .cancelled => return .error .cancelled
  | .endless => return .error .endless
  | .done => a.conclude ctx inherited none s
  | .handoff signal => a.conclude ctx inherited (some signal) s

theorem node_eq (h : a.looped ctx s patience w = ((s₁, e), w₁)) :
    a.node patience ctx s w = a.afterLoop ctx s.messages.length s₁ e w₁ := by
  unfold node
  change (a.looped ctx s patience >>= _ : Activity σ _) w = _
  rw [Activity.bind_apply, h]
  cases e <;> rfl

theorem node_failed {message : String}
    (h : a.looped ctx s patience w = ((s₁, .failed message), w₁)) :
    (a.node patience ctx s w).1 = .ok (.failure message) := by
  rw [node_eq h]
  exact fail_result ctx message w₁

/-- An agent at rest goes on to the hooks behind it. -/
theorem node_rests (h : a.looped ctx s patience w = ((s₁, e), w₁)) (hrests : e.Rests) :
    ∃ signal, a.node patience ctx s w = a.conclude ctx s.messages.length signal s₁ w₁ := by
  rw [node_eq h]
  cases hrests with
  | done => exact ⟨none, rfl⟩
  | handoff signal => exact ⟨some signal, rfl⟩

/-- An agent that gives back an output has failed, or it has come to rest. -/
theorem failed_or_rests {out : NodeOutput} (h : (a.node patience ctx s w).1 = .ok out) :
    (∃ s₁ message w₁, a.looped ctx s patience w = ((s₁, .failed message), w₁)) ∨
      ∃ s₁ e w₁, a.looped ctx s patience w = ((s₁, e), w₁) ∧ e.Rests := by
  obtain ⟨s₁, e, w₁, hloop⟩ : ∃ s₁ e w₁, a.looped ctx s patience w = ((s₁, e), w₁) :=
    ⟨_, _, _, rfl⟩
  cases e with
  | done => exact .inr ⟨s₁, _, w₁, hloop, .done⟩
  | handoff signal => exact .inr ⟨s₁, _, w₁, hloop, .handoff signal⟩
  | failed message => exact .inl ⟨s₁, message, w₁, hloop⟩
  | cancelled =>
    rw [node_eq hloop] at h
    cases h
  | endless =>
    rw [node_eq hloop] at h
    cases h

theorem conclude_refused {refusal : MiddlewareError} (inherited : Nat) (signal : Option Handoff)
    (h : a.chain.afterAgent s₁ w₁ = ((s₂, .error refusal), w₂)) :
    (a.conclude ctx inherited signal s₁ w₁).1 = .ok (.failure refusal.message) := by
  unfold conclude
  rw [Activity.bind_apply, h]
  exact fail_result ctx _ w₂

variable (ctx) in
theorem conclude_done {jump : Option Jump} (inherited : Nat) (signal : Option Handoff)
    (h : a.chain.afterAgent s₁ w₁ = ((s₂, .ok jump), w₂)) :
    ∃ out, (a.conclude ctx inherited signal s₁ w₁).1 = .ok out ∧
      out.update = some (report (lastText s₂.messages)) ∧
      out.messages = some (s₂.messages.drop inherited) := by
  unfold conclude
  rw [Activity.bind_apply, h]
  cases signal with
  | some signal => exact ⟨_, rfl, rfl, rfl⟩
  | none => exact ⟨_, rfl, rfl, rfl⟩

end Agent

section Runs

variable {ctx : NodeContext} {s : Snapshot} {w : World σ}

theorem stageNode_eq (stage : DocumentStage σ) (provider : String) (setup : StageSetup) :
    (stageNode stage provider setup ctx s w).1 =
      match (stage.process setup.config (setup.inputIn s) w).1 with
      | .error e => .error e
      | .ok (.error e) => .ok (.failure e.message)
      | .ok (.ok documents) => .ok (.write (documentReport documents)) := by
  unfold stageNode
  change ((stage.process setup.config (setup.inputIn s) >>= _ : Activity σ _) w).1 = _
  rw [Activity.bind_apply]
  obtain e | e | documents := (stage.process setup.config (setup.inputIn s) w).1 <;> rfl

theorem listQueryNode_eq (q : ListQuery) : (listQueryNode q ctx s w).1 =
    match (s.resolve? q.input).bind Json.asItems? with
    | some items => .ok (.write (ListQuery.report (q.apply items)))
    | none => .ok (.failure ListQuery.notAList) := by
  unfold listQueryNode
  cases (s.resolve? q.input).bind Json.asItems? <;> rfl

theorem Iteration.node_eq (it : Iteration) (child : Child σ) :
    (it.node child ctx s w).1 = match (s.resolve? it.input).bind Json.asItems? with
    | some items =>
      match collect it.errorMode 0 (it.results child ctx s items w) with
      | .ok outputs => .ok (.write (report outputs))
      | .error .cancelled => .error .cancelled
      | .error (.failed message) => .ok (.failure message)
    | none => .ok (.failure notAList) := by
  unfold node
  cases (s.resolve? it.input).bind Json.asItems? with
  | none => rfl
  | some items =>
    dsimp only
    rw [runInOrder_eq, Activity.bind_apply]
    unfold concluded results
    obtain (_ | message) | outputs := collect it.errorMode 0
      (arranged items.length (it.arrivals child ctx s items (List.range items.length) w).1) <;> rfl

end Runs

section Reports

variable {ctx : NodeContext} {s : Snapshot} {w : World σ} {run : Node σ} {verdict : Option String}

/-- How a run ends is told by its output. -/
theorem Node.Reports.exists_output (h : Node.Reports ctx s w run verdict) :
    ∃ out, (run ctx s w).1 = .ok out ∧ out.Tells verdict := by
  cases h with
  | @agentFailed a patience s₁ message w₁ hloop =>
    have hexplained := a.looped_explained ctx s patience w
    rw [hloop] at hexplained
    exact ⟨_, Agent.node_failed hloop, NodeOutput.tells_failure hexplained⟩
  | @agentRefused _ _ _ _ _ refusal _ _ hloop hrests hhook =>
    obtain ⟨signal, hnode⟩ := Agent.node_rests hloop hrests
    rw [hnode]
    exact ⟨_, Agent.conclude_refused _ signal hhook,
      NodeOutput.tells_failure refusal.message_ne_empty⟩
  | agentDone hloop hrests hhook =>
    obtain ⟨signal, hnode⟩ := Agent.node_rests hloop hrests
    obtain ⟨out, hout, hupdate, -⟩ := Agent.conclude_done _ _ signal hhook
    exact ⟨out, hnode ▸ hout, NodeOutput.tells_none [("output", _)] hupdate⟩
  | @stageFailed stage provider setup e hwork =>
    rw [stageNode_eq, hwork]
    exact ⟨_, rfl, NodeOutput.tells_failure e.message_ne_empty⟩
  | @stageDone stage provider setup documents hwork =>
    rw [stageNode_eq, hwork]
    exact ⟨_, rfl, NodeOutput.tells_none [("documents", _)] rfl⟩
  | nothingToQuery hlist =>
    rw [listQueryNode_eq, hlist]
    exact ⟨_, rfl, NodeOutput.tells_failure (by decide)⟩
  | queried hlist =>
    rw [listQueryNode_eq, hlist]
    exact ⟨_, rfl, NodeOutput.tells_none
      [("result", _), ("first_record", _), ("last_record", _)] rfl⟩
  | nothingToIterate hlist =>
    rw [Iteration.node_eq, hlist]
    exact ⟨_, rfl, NodeOutput.tells_failure (by decide)⟩
  | elementFailed hlist hscanned =>
    rw [Iteration.node_eq, hlist]
    dsimp only
    rw [collect_eq_failed_iff.mpr hscanned]
    obtain ⟨-, values, message, rest, -, rfl⟩ := hscanned
    exact ⟨_, rfl, NodeOutput.tells_failure (by simp [ToString.toString])⟩
  | iterated hlist hgoes hscanned =>
    rw [Iteration.node_eq, hlist]
    dsimp only
    rw [collect_eq_ok_iff.mpr ⟨hgoes, hscanned⟩]
    exact ⟨_, rfl, NodeOutput.tells_none [("output", _), ("output_str", _)] rfl⟩

/-- Nodes that report to the graph that their work has ended with an error: agents, the stages of
pipelines for documents, list queries and iterations. -/
inductive ReportingNode : Node σ → Prop
  | agent (a : Agent σ) (patience : Nat) : ReportingNode (a.node patience)
  | stage (stage : DocumentStage σ) (provider : String) (setup : StageSetup) :
      ReportingNode (stageNode stage provider setup)
  | listQuery (q : ListQuery) : ReportingNode (listQueryNode q)
  | iteration (it : Iteration) (child : Child σ) : ReportingNode (it.node child)

/-- A run that gives back an output ends in one of these ways. -/
theorem ReportingNode.exists_reports (h : ReportingNode run) {out : NodeOutput}
    (hout : (run ctx s w).1 = .ok out) : ∃ verdict, Node.Reports ctx s w run verdict := by
  cases h with
  | agent a patience =>
    obtain ⟨s₁, message, w₁, hloop⟩ | ⟨s₁, e, w₁, hloop, hrests⟩ := Agent.failed_or_rests hout
    · exact ⟨_, .agentFailed hloop⟩
    · -- An agent at rest ends as the hooks behind it do.
      obtain ⟨s₂, hooked, w₂, hhook⟩ : ∃ s₂ hooked w₂,
          a.chain.afterAgent s₁ w₁ = ((s₂, hooked), w₂) := ⟨_, _, _, rfl⟩
      cases hooked with
      | error refusal => exact ⟨_, .agentRefused hloop hrests hhook⟩
      | ok jump => exact ⟨_, .agentDone hloop hrests hhook⟩
  | stage stage provider setup =>
    rw [stageNode_eq] at hout
    cases hwork : (stage.process setup.config (setup.inputIn s) w).1 with
    | error e =>
      rw [hwork] at hout
      cases hout
    | ok result =>
      cases result with
      | error e => exact ⟨_, .stageFailed hwork⟩
      | ok documents => exact ⟨_, .stageDone hwork⟩
  | listQuery q =>
    cases hlist : (s.resolve? q.input).bind Json.asItems? with
    | none => exact ⟨_, .nothingToQuery hlist⟩
    | some items => exact ⟨_, .queried hlist⟩
  | iteration it child =>
    cases hlist : (s.resolve? it.input).bind Json.asItems? with
    | none => exact ⟨_, .nothingToIterate hlist⟩
    | some items =>
      rw [Iteration.node_eq, hlist] at hout
      dsimp only at hout
      cases hcollect : collect it.errorMode 0 (it.results child ctx s items w) with
      | ok outputs =>
        obtain ⟨hgoes, hscanned⟩ := collect_eq_ok_iff.mp hcollect
        exact ⟨_, .iterated hlist hgoes hscanned⟩
      | error e =>
        cases e with
        | cancelled =>
          rw [hcollect] at hout
          cases hout
        | failed text => exact ⟨_, .elementFailed hlist (collect_eq_failed_iff.mp hcollect)⟩

end Reports

/-- The makers of nodes that report to the graph that their work has ended with an error. -/
inductive ReportingMaker : Maker σ → Prop
  | agent : ReportingMaker agentMaker
  | source : ReportingMaker sourceMaker
  | splitter : ReportingMaker splitterMaker
  | transformer : ReportingMaker transformerMaker
  | listQuery : ReportingMaker listQueryMaker
  | iteration : ReportingMaker iterationMaker

/-- The plan of a node that reports errors: the node owns a channel that starts from the empty
object, and its navigator looks there for errors. -/
structure NodePlan.Reporting (plan : NodePlan σ) (ctx : BuildContext σ) : Prop where
  node : ReportingNode plan.run
  navigator : plan.navigator = some (.ofErrors ctx.graph ctx.node.key)
  channel : ∃ c, plan.channel = some c ∧ c.name = channelName ctx.node.key ∧ c.default = .obj []

theorem stageMaker_reporting {ctx : BuildContext σ} {plan : NodePlan σ}
    {stageOf : Services σ → String → Except ProviderError (DocumentStage σ)}
    {needsInput : Option String} (h : stageMaker stageOf needsInput ctx = .ok plan) :
    plan.Reporting ctx := by
  obtain ⟨provider, stage, setup, -, rfl⟩ := exists_stage h
  exact ⟨.stage stage provider setup, rfl, _, rfl, rfl, rfl⟩

theorem ReportingMaker.reporting {maker : Maker σ} (h : ReportingMaker maker) {ctx : BuildContext σ}
    {plan : NodePlan σ} (hplan : maker ctx = .ok plan) : plan.Reporting ctx := by
  cases h with
  | agent =>
    obtain ⟨a, -, rfl⟩ := exists_agent hplan
    exact ⟨.agent a _, rfl, _, rfl, rfl, rfl⟩
  | source => exact stageMaker_reporting hplan
  | splitter => exact stageMaker_reporting hplan
  | transformer => exact stageMaker_reporting hplan
  | listQuery =>
    obtain ⟨q, rfl⟩ := exists_listQuery hplan
    exact ⟨.listQuery q, rfl, _, rfl, rfl, rfl⟩
  | iteration =>
    obtain ⟨it, child, childPlan, -, -, rfl⟩ := exists_iteration hplan
    exact ⟨.iteration it _, rfl, _, rfl, rfl, rfl⟩

/-! ## Routing -/

/-- A node that reports errors is left as its latest run has ended, whatever its channel held
before: by its edges for failures if the run has reported an error, and by its plain edges if it has
reported none. -/
theorem errors_routed {ws : Workshop σ} {g : Description} {site : List String} {w : Workflow σ}
    {n : WorkNode σ} (h : compile ws g site = .ok w) (hn : n ∈ w.nodes) {spec : NodeSpec}
    (hspec : g.node? n.key = some spec) {maker : Maker σ}
    (hmaker : ws.makers.resolve spec.typeKey = .ok maker) (hreporting : ReportingMaker maker) :
    ∀ ctx s world (store : Store), store.schema = w.schema →
      (∀ out, (n.run ctx s world).1 = .ok out →
        ∃ verdict, Node.Reports ctx s world n.run verdict) ∧
      ∀ verdict, Node.Reports ctx s world n.run verdict → ∃ out store',
        (n.run ctx s world).1 = .ok out ∧
        (∀ message, verdict = some message ↔ out = .failure message) ∧
        w.writeUpdate n.key out store = .ok store' ∧
        n.route store'.state =
          .ofTargets (g.edgeTargets (if verdict.isSome then failPort n.key else n.key)) ∧
        ∀ target, target ∈ (n.route store'.state).targets ↔
          .edge (if verdict.isSome then failPort n.key else n.key) target ∈ g.links := by
  obtain ⟨build, plan, hplan, rfl, hkey, rfl, hmade⟩ := compile_madeBy h hn hspec hmaker
  obtain ⟨hnode, hnavigator, c, hc, hname, hdefault⟩ := hreporting.reporting hplan
  rw [hkey] at hnavigator hname
  rw [hmade.run_eq]
  intro ctx s world store hstore
  refine ⟨fun out hout => hnode.exists_reports hout, fun verdict hverdict => ?_⟩
  obtain ⟨out, hout, ⟨fields, hupdate, hsorted, hfield⟩, hnonempty, hfailure⟩ :=
    hverdict.exists_output
  obtain ⟨store', hwritten, v, hv, hv'⟩ := hmade.exists_writeUpdate_text? (compile_reflects h) hn hc
    hname hdefault hupdate hsorted hfield hstore
  have hroute : n.route store'.state =
      .ofTargets (build.graph.edgeTargets (if verdict.isSome then failPort n.key else n.key)) := by
    rw [n.route_eq (hmade.navigator_eq.trans hnavigator)]
    exact Navigator.choose_ofErrors hv hv' hnonempty
  refine ⟨out, store', hout, hfailure, hwritten, hroute, fun target => ?_⟩
  rw [hroute, Route.targets_ofTargets]
  exact mem_edgeTargets_iff_edge

def guardedSpec : NodeSpec :=
  ⟨"k", .workflow, some "list-operator", none, none, .obj [("input", .str "input.list")]⟩

/-- A query of a list, with edges for failures among its plain ones. -/
def guardedQuery : Description where
  nodes := guardedSpec :: ["x", "y", "z"].map fun key =>
    ⟨key, .workflow, some "start", none, none, .null⟩
  links := [.edge "k" "x", .edge "k/fail" "y", .edge "k" "z", ⟨"k/fail", "z", .agent⟩]
  entry := some "k"

theorem run_guardedQuery {w : Workflow Unit} {n : WorkNode Unit}
    (h : compile standardShop guardedQuery [] = .ok w) (hn : n ∈ w.nodes)
    (hspec : guardedQuery.node? n.key = some guardedSpec) :
    n.run = listQueryNode ⟨"input.list", none, none, none, none⟩ := by
  have hmaker : standardShop.makers.resolve guardedSpec.typeKey = .ok listQueryMaker := rfl
  obtain ⟨build, plan, hplan, hnode, -, -, hmade⟩ := compile_madeBy h hn hspec hmaker
  obtain ⟨node, graph, services, middleware, site, patience, planOf⟩ := build
  cases hnode
  cases hplan
  exact hmade.run_eq

/-- The channel of a query holds an error from before. There is a list now, and the query goes on by
its plain edges; then there is none, and it goes on by the edge for failures. -/
theorem errors_routed_query :
    ∃ w n, compile standardShop guardedQuery [] = .ok w ∧ n ∈ w.nodes ∧
      guardedQuery.node? n.key = some guardedSpec ∧
      standardShop.makers.resolve guardedSpec.typeKey = .ok listQueryMaker ∧
      ReportingMaker (σ := Unit) listQueryMaker ∧
      let listed : Snapshot :=
        { Snapshot.empty with input := .obj [("list", .arr [.nat 1])] }
      let stale : Store := ⟨w.schema, { Snapshot.empty with
        channels := [("k_channel", .obj [("error", .str "not now")])] }⟩
      (∃ out store', (n.run (.detached "k") listed (.start ())).1 = .ok out ∧
        w.writeUpdate n.key out stale = .ok store' ∧ n.route store'.state = .next ["x", "z"]) ∧
      ∃ out store', (n.run (.detached "k") .empty (.start ())).1 = .ok out ∧
        w.writeUpdate n.key out stale = .ok store' ∧ n.route store'.state = .next ["y"] := by
  obtain ⟨w, h⟩ : ∃ w, compile standardShop guardedQuery [] = .ok w :=
    ⟨_, eq_ok_of_isOk ⟨[], [], []⟩ (by decide +kernel)⟩
  have hmem : guardedSpec ∈ guardedQuery.nodes := List.mem_cons_self
  obtain ⟨n, hn, hkey, hspec⟩ := compile_exists_node h hmem rfl
  have hmaker : standardShop.makers.resolve guardedSpec.typeKey = .ok listQueryMaker := rfl
  have hrouted := errors_routed h hn hspec hmaker .listQuery (.detached "k")
  have hrun := run_guardedQuery h hn hspec
  refine ⟨w, n, h, hn, hspec, hmaker, .listQuery, ?_⟩
  intro listed stale
  constructor
  · have hreports : Node.Reports (.detached "k") listed (.start ()) n.run none := by
      rw [hrun]
      exact .queried rfl
    obtain ⟨out, store', hout, -, hwritten, hroute, -⟩ := (hrouted listed _ stale rfl).2 _ hreports
    rw [hkey] at hroute
    exact ⟨out, store', hout, hwritten, hroute⟩
  · have hreports : Node.Reports (.detached "k") .empty (.start ()) n.run
        (some ListQuery.notAList) := by
      rw [hrun]
      exact .nothingToQuery rfl
    obtain ⟨out, store', hout, -, hwritten, hroute, -⟩ := (hrouted .empty _ stale rfl).2 _ hreports
    rw [hkey] at hroute
    exact ⟨out, store', hout, hwritten, hroute⟩

end Workgraph
