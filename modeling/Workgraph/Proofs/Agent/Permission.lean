import Workgraph.Proofs.Node.Silent
/-!
# Where agents hand off

An agent hands off where one of its tools does, or back to its supervisor. The layers around it see
every call, but as long as they only pass on the transfers of the tools that they wrap, they add no
destination.

## Main definitions

- `ToolRun.Sends`, `Tool.Sends`: the destinations of a tool
- `Middleware.PassesOn`: layers that make up no transfers
- `Agent.Sends`: the destinations of an agent

## Main statements

- `Chain.callTool_sends`: layers that make up no transfers add no destination
- `Agent.Sends.node_gives`: where an agent hands off
-/

namespace Workgraph

variable {σ : Type} {allowed : String → Prop}

open Activity

/-! ## Tools and layers -/

/-- The transfers of a tool, as layers pass it on, go to allowed nodes. -/
def ToolRun.Sends (run : ToolRun σ) (allowed : String → Prop) : Prop :=
  ∀ call, (run call).Gives fun result =>
    ∀ signal, result = .ok (.handoff signal) → allowed signal.target

/-- The transfers of a tool go to allowed nodes. -/
def Tool.Sends (t : Tool σ) (allowed : String → Prop) : Prop :=
  ∀ ctx, ToolRun.Sends (fun call => t.invoke call ctx) allowed

/-- A tool that hands off to nobody. -/
def Tool.KeepsControl (t : Tool σ) : Prop := t.Sends fun _ => False

theorem Tool.KeepsControl.sends {t : Tool σ} (h : t.KeepsControl) : t.Sends allowed :=
  fun ctx call world signal hsignal => (h ctx call world signal hsignal).elim

theorem TransferTool.toTool_sends {t : TransferTool} (h : allowed t.agentKey) :
    (t.toTool : Tool σ).Sends allowed := by
  intro ctx call world signal hsignal
  cases hsignal
  exact h

/-- A layer makes up no transfers if each that it gives has been given, to the same node, by the
tool that it wraps. -/
def Middleware.PassesOn (m : Middleware σ) : Prop :=
  ∀ name ctx inner call world signal,
    (m.wrapTool name ctx inner call world).1 = .ok (.handoff signal) →
    ∃ call' world' signal', (inner call' world').1 = .ok (.handoff signal') ∧
      signal'.target = signal.target

theorem Middleware.PassesOn.sends {m : Middleware σ} (h : m.PassesOn) (name : String)
    (ctx : ToolContext) {inner : ToolRun σ} (hinner : inner.Sends allowed) :
    (m.wrapTool name ctx inner).Sends allowed := by
  intro call world signal hsignal
  obtain ⟨call', world', signal', hgiven, htarget⟩ := h name ctx inner call world signal hsignal
  rw [← htarget]
  exact hinner call' world' signal' hgiven

theorem Middleware.passing_passesOn (name : String) :
    (Middleware.passing name : Middleware σ).PassesOn :=
  fun _ _ _ call world signal h => ⟨call, world, signal, h, rfl⟩

/-- Layers that make up no transfers add no destination. -/
theorem Chain.callTool_sends {c : Chain σ} (hc : ∀ m ∈ c, m.PassesOn) {t : Tool σ}
    (ht : t.Sends allowed) (ctx : ToolContext) : ToolRun.Sends (c.callTool t ctx) allowed := by
  induction c with
  | nil => exact ht ctx
  | cons m rest ih =>
    have hrest := ih fun m hm => hc m (List.mem_cons_of_mem _ hm)
    exact (hc m List.mem_cons_self).sends t.name ctx hrest

/-! ## The loop -/

/-- If the loop ends with a transfer, it goes to an allowed node. -/
def LoopEnd.Sends (allowed : String → Prop) : LoopEnd → Prop
  | .handoff signal => allowed signal.target
  | _ => True

/-- If a turn ends with a transfer, it goes to an allowed node. -/
def TurnEnd.Sends (allowed : String → Prop) : TurnEnd → Prop
  | .ended e => e.Sends allowed
  | .again _ => True

/-- If a call of the model ends the turn with a transfer, it goes to an allowed node. -/
def ModelTurnEnd.Sends (allowed : String → Prop) : ModelTurnEnd → Prop
  | .tools => True
  | .turn e => e.Sends allowed

namespace Agent

/-- The transfers of an agent go to allowed nodes: those of its tools, and its returns. -/
structure Sends (a : Agent σ) (allowed : String → Prop) : Prop where
  layers : ∀ m ∈ a.chain, m.PassesOn
  tools : ∀ t ∈ a.tools, t.Sends allowed
  supervisor : ∀ s, a.supervisor = some s → allowed s.key

namespace Sends

variable {a : Agent σ} (h : a.Sends allowed) (system : Option Message) (ctx : NodeContext)
  (toolCtx : ToolContext) (s : AgentState)

include h

theorem runCall_gives (call : ToolCall) :
    (a.runCall ctx toolCtx call).Gives fun out =>
      ∀ signal, out = .handoff signal → allowed signal.target := by
  unfold runCall
  refine .after _ fun _ => ?_
  cases ht : a.tool? call.name with
  | none => exact .after _ fun _ => .pure nofun
  | some tool =>
    have htool := h.tools tool (List.mem_of_find?_eq_some ht)
    refine .bind (Chain.callTool_sends h.layers htool toolCtx call) ?_
    rintro (e | out) hout
    · exact .after _ fun _ => .pure nofun
    · refine .after _ fun _ => .pure ?_
      rintro signal rfl
      exact hout signal rfl

theorem runCalls_gives (calls : List ToolCall) :
    (a.runCalls ctx toolCtx calls).Gives fun result =>
      ∀ signal, result.2 = some signal → allowed signal.target := by
  induction calls with
  | nil => exact .pure nofun
  | cons call rest ih =>
    unfold runCalls
    refine .bind (h.runCall_gives ctx toolCtx call) ?_
    rintro (text | signal) hout
    · refine .bind ih ?_
      rintro ⟨answers, signal⟩ hrest
      exact .pure hrest
    · refine .pure ?_
      -- The notices for the calls that are skipped leave the destination as it is.
      rintro other hother
      cases hother
      exact hout signal rfl

theorem toolsTurn_gives :
    (a.toolsTurn ctx toolCtx s).Gives fun result => result.2.Sends allowed := by
  unfold toolsTurn
  refine .bind (h.runCalls_gives ctx toolCtx _) ?_
  rintro ⟨answers, signal⟩ hsignal
  cases signal with
  | none => exact .pure trivial
  | some signal => exact .pure (hsignal signal rfl)

omit h in
theorem afterReply_gives : (a.afterReply s).Gives fun result => result.2.Sends allowed := by
  refine .after _ ?_
  rintro ⟨s, e | _ | jump⟩
  · exact .pure trivial
  · dsimp only
    split
    · exact .pure trivial
    · exact .pure trivial
  · exact .pure trivial

omit h in
/-- A call of the model transfers to nobody, whatever the hooks around it do. -/
theorem modelTurn_gives :
    (a.modelTurn system s).Gives fun result => result.2.Sends allowed := by
  refine .after _ ?_
  rintro ⟨s, e | _ | _ | _ | _⟩
  · exact .pure trivial
  · refine .after _ ?_
    rintro ⟨s, e | _⟩
    · exact .pure trivial
    · exact afterReply_gives s
  · refine .after _ ?_
    rintro ⟨s, e | _⟩
    · exact .pure trivial
    · exact afterReply_gives s
  · exact .pure trivial
  · exact .pure trivial

theorem turn_gives (jump : Option Jump) :
    (a.turn system ctx toolCtx jump s).Gives fun result => result.2.Sends allowed := by
  have hmodel : (a.turn system ctx toolCtx none s).Gives fun result => result.2.Sends allowed := by
    refine .after _ fun cancelled => ?_
    cases cancelled with
    | true => exact .pure trivial
    | false =>
      have hcalled : (a.modelTurn system s).Gives fun result => result.2.Sends allowed :=
        modelTurn_gives system s
      refine .bind hcalled ?_
      rintro ⟨s, _ | e⟩ hturn
      · exact h.toolsTurn_gives ctx toolCtx s
      · exact .pure hturn
  cases jump with
  | none => exact hmodel
  | some jump =>
    cases jump with
    | model => exact hmodel
    | tools =>
      refine .after _ fun cancelled => ?_
      cases cancelled with
      | true => exact .pure trivial
      | false => exact h.toolsTurn_gives ctx toolCtx s
    | stop =>
      refine .after _ fun cancelled => ?_
      cases cancelled with
      | true => exact .pure trivial
      | false => exact .pure trivial

theorem loop_gives (turns : Nat) (jump : Option Jump) :
    (a.loop system ctx toolCtx turns jump s).Gives fun result => result.2.Sends allowed := by
  induction turns generalizing jump s with
  | zero => exact .pure trivial
  | succ turns ih =>
    unfold loop
    refine .bind (h.turn_gives system ctx toolCtx s jump) ?_
    rintro ⟨s, e | jump⟩ hturn
    · exact .pure hturn
    · exact ih s jump

theorem run_gives (patience : Nat) :
    (a.run patience system ctx toolCtx s).Gives fun result => result.2.Sends allowed := by
  refine .after _ ?_
  rintro ⟨s, e | jump⟩
  · exact .pure trivial
  · exact h.loop_gives system ctx toolCtx s patience jump

theorem returnSignal_gives :
    a.returnSignal.Gives fun signal =>
      ∀ handoff, signal = some handoff → allowed handoff.target := by
  unfold returnSignal
  cases hs : a.supervisor with
  | none => exact .pure nofun
  | some supervisor =>
    refine .after _ fun callId => .pure ?_
    rintro handoff hhandoff
    cases hhandoff
    exact h.supervisor supervisor hs

theorem conclude_gives (inherited : Nat) {signal : Option Handoff}
    (hsignal : ∀ handoff, signal = some handoff → allowed handoff.target) :
    (a.conclude ctx inherited signal s).Gives fun result => ∀ out, result = .ok out →
      ∀ handoff, out.handoff = some handoff → allowed handoff.target := by
  refine .after _ ?_
  rintro ⟨s, e | jump⟩
  · refine .after _ fun _ => .pure ?_
    rintro out hout
    cases hout
    exact nofun
  · cases signal with
    | some signal =>
      refine .pure ?_
      rintro out hout
      cases hout
      exact hsignal
    | none =>
      refine .bind h.returnSignal_gives fun returned hreturned => .pure ?_
      rintro out hout
      cases hout
      exact hreturned

/-- An agent hands off to allowed nodes only, whatever its model says and its hooks do. -/
theorem node_gives (patience : Nat) (ctx : NodeContext) (s : Snapshot) :
    (a.node patience ctx s).Gives fun result => ∀ out, result = .ok out →
      ∀ handoff, out.handoff = some handoff → allowed handoff.target := by
  unfold node
  refine .bind (h.run_gives _ ctx _ _ patience) ?_
  rintro ⟨state, e⟩ hend
  cases e with
  | done => exact h.conclude_gives ctx state s.messages.length nofun
  | handoff signal =>
    refine h.conclude_gives ctx state s.messages.length ?_
    rintro handoff hhandoff
    cases hhandoff
    exact hend
  | failed message =>
    refine .after _ fun _ => .pure ?_
    rintro out hout
    cases hout
    exact nofun
  | cancelled => exact .pure nofun
  | endless => exact .pure nofun

end Sends

end Agent

end Workgraph
