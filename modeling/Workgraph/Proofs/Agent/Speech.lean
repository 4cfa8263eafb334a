import Workgraph.Proofs.Node.Errors
/-!
# What an agent says last

An agent writes to its channel what was said last in its conversation. Whatever its layers do, this
is what it has said itself, if it has said anything. But its conversation begins with the history,
and an agent that says nothing, because it hands over at once or is left without a reply, writes
what somebody else has said there.

## Main definitions

- `Message.speaks`, `LastSaid`: messages in which a model says something, and the last of them
- `AgentState.GoesOn`: a conversation with messages added at its end
- `Chain.Adds`: layers that only add to the conversation
- `Agent.replies`, `Agent.repliesOf`: the replies of the model in the turns and the run of an agent

## Main statements

- `lastText_eq_iff`: what an agent looks for is what was said last
- `Agent.loop_goesOn`: what is heard of an agent are the replies of its model
- `own_words_last`: what an agent writes is what it has said last, if it has said anything
-/

namespace Workgraph

variable {σ : Type}

open Activity

/-! ## Last words -/

/-- Whether a model says something in a message. -/
def Message.speaks (m : Message) : Bool := m.hasRole Role.assistant && !m.content.isEmpty

/-- What is said last in a conversation: the content of the last message in which a model says
something, or nothing if there is none. -/
inductive LastSaid : List Message → String → Prop
  | said {before after : List Message} {m : Message} (hm : m.speaks = true)
      (hafter : ∀ n ∈ after, n.speaks = false) : LastSaid (before ++ m :: after) m.content
  | silence {ms : List Message} (h : ∀ m ∈ ms, m.speaks = false) : LastSaid ms ""

theorem Message.content_ne_empty {m : Message} (h : m.speaks = true) : m.content ≠ "" := by
  intro hempty
  simp [speaks, hempty] at h

section LastWords

variable {ms own : List Message} {text : String}

theorem filter_speaks_eq_nil_iff :
    ms.filter Message.speaks = [] ↔ ∀ m ∈ ms, m.speaks = false := by
  simp [List.filter_eq_nil_iff]

theorem lastText_eq_find? (ms : List Message) : Agent.lastText ms =
    ((ms.reverse.find? Message.speaks).map (·.content)).getD "" := by
  have hspeaks : (fun m : Message => m.hasRole Role.assistant && !m.content.isEmpty) =
      Message.speaks := rfl
  unfold Agent.lastText
  rw [hspeaks]
  cases ms.reverse.find? Message.speaks <;> rfl

theorem lastText_eq (ms : List Message) : Agent.lastText ms =
    ((ms.filter Message.speaks).getLast?.map (·.content)).getD "" := by
  rw [lastText_eq_find?, ← List.head?_filter, List.filter_reverse, List.head?_reverse]

/-- What is said last does not depend on messages in which nothing is said. -/
theorem lastText_congr (h : own.filter Message.speaks = ms.filter Message.speaks) :
    Agent.lastText own = Agent.lastText ms := by
  rw [lastText_eq, lastText_eq, h]

theorem lastText_append_of_silent (h : ∀ m ∈ own, m.speaks = false) :
    Agent.lastText (ms ++ own) = Agent.lastText ms := by
  refine lastText_congr ?_
  rw [List.filter_append, filter_speaks_eq_nil_iff.mpr h, List.append_nil]

theorem lastText_append_of_speaks (h : ∃ m ∈ own, m.speaks = true) :
    Agent.lastText (ms ++ own) = Agent.lastText own := by
  have hne : own.filter Message.speaks ≠ [] := by
    obtain ⟨m, hm, hspeaks⟩ := h
    exact List.ne_nil_of_mem (List.mem_filter.mpr ⟨hm, hspeaks⟩)
  rw [lastText_eq, lastText_eq, List.filter_append, List.getLast?_append_of_ne_nil _ hne]

/-- What an agent looks for in a conversation is what was said last. -/
theorem lastText_eq_iff : Agent.lastText ms = text ↔ LastSaid ms text := by
  constructor
  · rintro rfl
    rw [lastText_eq_find?]
    cases hfind : ms.reverse.find? Message.speaks with
    | none =>
      refine .silence fun m hm => ?_
      simpa using List.find?_eq_none.mp hfind m (List.mem_reverse.mpr hm)
    | some m =>
      -- Read backwards, what lies ahead of the message found stands behind it.
      obtain ⟨hspeaks, later, earlier, hsplit, hlater⟩ := List.find?_eq_some_iff_append.mp hfind
      have hms : ms = earlier.reverse ++ m :: later.reverse := by
        simpa using congrArg List.reverse hsplit
      rw [hms]
      refine .said hspeaks fun n hn => ?_
      simpa using hlater n (List.mem_reverse.mp hn)
  · rintro (⟨hm, hafter⟩ | h)
    · rw [lastText_eq, List.filter_append, List.filter_cons_of_pos hm,
        filter_speaks_eq_nil_iff.mpr hafter, List.getLast?_concat]
      rfl
    · rw [lastText_eq, filter_speaks_eq_nil_iff.mpr h]
      rfl

theorem lastSaid_empty_iff : LastSaid ms "" ↔ ∀ m ∈ ms, m.speaks = false := by
  refine ⟨fun h => ?_, .silence⟩
  generalize htext : "" = text at h
  cases h with
  | said hm => exact absurd htext.symm (Message.content_ne_empty hm)
  | silence h => exact h

/-- What was said last in the whole of a conversation was said last in its second part, unless
nothing is said there and something before. -/
theorem lastSaid_append_iff (h : LastSaid (ms ++ own) text) :
    LastSaid own text ↔ (∃ m ∈ own, m.speaks = true) ∨ ∀ m ∈ ms, m.speaks = false := by
  rw [← lastText_eq_iff] at h
  by_cases hown : ∃ m ∈ own, m.speaks = true
  · rw [lastText_append_of_speaks hown] at h
    exact ⟨fun _ => .inl hown, fun _ => lastText_eq_iff.mp h⟩
  · have hsilent : ∀ m ∈ own, m.speaks = false := by simpa using hown
    rw [lastText_append_of_silent hsilent, lastText_eq_iff] at h
    have hempty : LastSaid own text ↔ text = "" := by
      rw [← lastText_eq_iff, lastText_eq_iff.mpr (.silence hsilent)]
      exact eq_comm
    rw [hempty, or_iff_right hown]
    constructor
    · rintro rfl
      exact lastSaid_empty_iff.mp h
    · intro hms
      exact (lastText_eq_iff.mpr h).symm.trans (lastText_eq_iff.mpr (.silence hms))

end LastWords

/-! ## Conversations that grow -/

/-- Messages are added at the end of a conversation, and of these the same is heard as of what was
said. -/
def AgentState.GoesOn (heard : Message → Bool) (said : List Message) (s s' : AgentState) : Prop :=
  ∃ more, s'.messages = s.messages ++ more ∧ more.filter heard = said.filter heard

namespace AgentState.GoesOn

variable {heard : Message → Bool} {said said' : List Message} {s s' s'' : AgentState}

theorem refl (s : AgentState) : s.GoesOn heard [] s := ⟨[], (List.append_nil _).symm, rfl⟩

theorem trans (h : s.GoesOn heard said s') (h' : s'.GoesOn heard said' s'') :
    s.GoesOn heard (said ++ said') s'' := by
  obtain ⟨more, hmessages, hmore⟩ := h
  obtain ⟨more', hmessages', hmore'⟩ := h'
  refine ⟨more ++ more', ?_, ?_⟩
  · rw [hmessages', hmessages, List.append_assoc]
  · rw [List.filter_append, List.filter_append, hmore, hmore']

theorem push (s : AgentState) (m : Message) : s.GoesOn heard [m] (s.push m) := ⟨[m], rfl, rfl⟩

end AgentState.GoesOn

/-- A hook that adds messages at the end of the conversation, none of which is heard, and edits
nothing else there. -/
def Hook.Adds (heard : Message → Bool) (h : Hook σ) : Prop :=
  ∀ s, (h s).Gives fun result => s.GoesOn heard [] result.1

/-- A layer whose hooks add messages, none of which is heard. -/
structure Middleware.Adds (heard : Message → Bool) (m : Middleware σ) : Prop where
  beforeAgent : m.beforeAgent.Adds heard
  beforeModel : m.beforeModel.Adds heard
  afterModel : m.afterModel.Adds heard
  afterAgent : m.afterAgent.Adds heard

/-- Layers whose hooks add messages, none of which is heard. -/
def Chain.Adds (heard : Message → Bool) (c : Chain σ) : Prop := ∀ m ∈ c, m.Adds heard

namespace Chain

variable {heard : Message → Bool}

theorem runHooks_adds {layers : Chain σ} {hook : Middleware σ → Hook σ}
    (h : ∀ m ∈ layers, (hook m).Adds heard) : Hook.Adds heard (runHooks (layers.map hook)) :=
  runHooks_keeps .refl (fun _ _ _ hs' hs'' => hs'.trans hs'') h

variable {c : Chain σ} (h : c.Adds heard)
include h

theorem Adds.beforeAgent : c.beforeAgent.Adds heard :=
  runHooks_adds fun m hm => (h m hm).beforeAgent

theorem Adds.beforeModel : c.beforeModel.Adds heard :=
  runHooks_adds fun m hm => (h m hm).beforeModel

theorem Adds.afterModel : c.afterModel.Adds heard :=
  runHooks_adds fun m hm => (h m (List.mem_reverse.mp hm)).afterModel

theorem Adds.afterAgent : c.afterAgent.Adds heard :=
  runHooks_adds fun m hm => (h m (List.mem_reverse.mp hm)).afterAgent

end Chain

namespace Agent

/-! ## Replies -/

section Replies

variable (a : Agent σ) (system : Option Message) (ctx : NodeContext) (toolCtx : ToolContext)

/-- The reply of the model behind the hooks before its call, if they let the call through, it may
still be made and the model replies. -/
def replyBehind? : (AgentState × Except MiddlewareError (Option Jump)) × World σ → Option Message
  | ((_, .error _), _) => none
  | ((s, .ok jump), w) =>
    if leadsToModel jump && s.iteration < a.maxIterations then
      (a.chain.callModel a.model (a.request system s.messages) w).1.toOption
    else none

/-- The reply of the model in a turn, if there is one. -/
def reply? (jump : Option Jump) (s : AgentState) (w : World σ) : Option Message :=
  if w.cancelled then none
  else if leadsToModel jump then a.replyBehind? system (a.chain.beforeModel s w)
  else none

/-- The replies of the model, turn after turn. -/
def replies : Nat → Option Jump → AgentState → World σ → List Message
  | 0, _, _, _ => []
  | turns + 1, jump, s, w =>
    (a.reply? system jump s w).toList ++
      match a.turn system ctx toolCtx jump s w with
      | ((_, .ended _), _) => []
      | ((s', .again jump'), w') => replies turns jump' s' w'

/-- The replies of the model in a run of the agent. -/
def repliesOf (patience : Nat) (ctx : NodeContext) (s : Snapshot) (w : World σ) : List Message :=
  match a.chain.beforeAgent (a.startState ctx s) w with
  | ((_, .error _), _) => []
  | ((s', .ok jump), w') =>
    a.replies (a.instructions s) ctx ⟨ctx.nodeKey, ctx.step, s⟩ patience jump s' w'

theorem reply?_of_leads {a : Agent σ} {system : Option Message} {jump : Option Jump}
    {s : AgentState} {w : World σ}
    {moment : (AgentState × Except MiddlewareError (Option Jump)) × World σ}
    (hw : w.cancelled = false) (hj : leadsToModel jump = true)
    (hb : a.chain.beforeModel s w = moment) :
    a.reply? system jump s w = a.replyBehind? system moment := by
  rw [reply?, hw, if_neg Bool.false_ne_true, if_pos hj, hb]

end Replies

/-! ## The loop -/

section Loop

variable {a : Agent σ} {heard : Message → Bool}
  (hassistant : ∀ m, heard m = true → m.hasRole Role.assistant = true)
  {system : Option Message} {ctx : NodeContext} {toolCtx : ToolContext}

include hassistant

theorem unheard {m : Message} (h : m.hasRole Role.assistant = false) : heard m = false :=
  Bool.eq_false_iff.mpr fun hm => absurd (hassistant m hm) (Bool.eq_false_iff.mp h)

/-- The answers of tools are not heard. -/
theorem runCalls_unheard (calls : List ToolCall) :
    (a.runCalls ctx toolCtx calls).Gives fun result => ∀ m ∈ result.1, heard m = false := by
  induction calls with
  | nil => exact .pure nofun
  | cons call rest ih =>
    unfold runCalls
    refine .after _ ?_
    rintro (text | signal)
    · refine .bind ih ?_
      rintro ⟨answers, signal⟩ hrest
      exact .pure (List.forall_mem_cons.mpr ⟨unheard hassistant rfl, hrest⟩)
    · exact .pure nofun

variable (ctx toolCtx) in
theorem toolsTurn_goesOn (s : AgentState) :
    (a.toolsTurn ctx toolCtx s).Gives fun result => s.GoesOn heard [] result.1 := by
  unfold toolsTurn
  refine .bind (runCalls_unheard hassistant _) ?_
  rintro ⟨answers, signal⟩ hanswers
  have hadded : s.GoesOn heard [] { s with messages := s.messages ++ answers } :=
    ⟨answers, rfl, List.filter_eq_nil_iff.mpr fun m hm => by simp [hanswers m hm]⟩
  cases signal with
  | none => exact .pure hadded
  | some signal => exact .pure hadded

variable (hadds : a.chain.Adds heard)
include hadds

omit hassistant in
theorem afterReply_goesOn (s : AgentState) :
    (a.afterReply s).Gives fun result => s.GoesOn heard [] result.1 := by
  unfold afterReply
  refine .bind (hadds.afterModel s) ?_
  rintro ⟨s', e | _ | jump⟩ hs'
  · exact .pure hs'
  · dsimp only
    split
    · exact .pure hs'
    · exact .pure hs'
  · exact .pure hs'

variable (ctx toolCtx) in
theorem afterCall_goesOn (s : AgentState) (reply : Except ProviderError Message) :
    (a.afterCall ctx toolCtx s reply).Gives fun result =>
      s.GoesOn heard reply.toOption.toList result.1 := by
  cases reply with
  | error e => exact .pure (.refl s)
  | ok reply =>
    refine .bind (afterReply_goesOn hadds (s.push reply)) ?_
    rintro ⟨s', e | e⟩ hs'
    · refine (toolsTurn_goesOn hassistant ctx toolCtx s').mono fun _ hs'' => ?_
      exact ((AgentState.GoesOn.push s reply).trans hs').trans hs''
    · exact .pure ((AgentState.GoesOn.push s reply).trans hs')

/-- What is heard of a turn is the reply of the model. -/
theorem Turn.goesOn {jump : Option Jump} {s : AgentState} {w : World σ}
    {requests : List ModelRequest} {diversions : Nat} {result : (AgentState × TurnEnd) × World σ}
    (h : a.Turn system ctx toolCtx jump s w requests diversions result) :
    s.GoesOn heard (a.reply? system jump s w).toList result.1.1 := by
  cases h with
  | cancelled hw =>
    rw [reply?, if_pos hw]
    exact .refl s
  | stopped hw hj =>
    rw [reply?, hw, hj]
    exact .refl s
  | tools hw hj ht =>
    rw [reply?, hw, hj]
    exact ht ▸ toolsTurn_goesOn hassistant ctx toolCtx s w
  | refused hw hj hb =>
    rw [reply?_of_leads hw hj hb]
    exact (hadds.beforeModel s).of_eq hb
  | skipped hw hj hb =>
    rw [reply?_of_leads hw hj hb]
    exact (hadds.beforeModel s).of_eq hb
  | diverted hw hj hb =>
    rw [reply?_of_leads hw hj hb]
    exact (hadds.beforeModel s).of_eq hb
  | exhausted hw hj hb hnext hcap =>
    rw [reply?_of_leads hw hj hb, replyBehind?, if_neg (by simpa [hnext] using hcap)]
    exact (hadds.beforeModel s).of_eq hb
  | @called s₁ next w₁ w₂ reply result hw hj hb hnext hcap hr ha =>
    rw [reply?_of_leads hw hj hb, replyBehind?, if_pos (by simp [hnext, hcap]), hr]
    have hcall := (afterCall_goesOn hassistant ctx toolCtx hadds
      { s₁ with iteration := s₁.iteration + 1 } reply).of_eq ha
    exact ((hadds.beforeModel s).of_eq hb).trans hcall

/-- What is heard of the turns of an agent are the replies of its model. -/
theorem loop_goesOn (turns : Nat) (jump : Option Jump) (s : AgentState) (w : World σ) :
    s.GoesOn heard (a.replies system ctx toolCtx turns jump s w)
      (a.loop system ctx toolCtx turns jump s w).1.1 := by
  induction turns generalizing jump s w with
  | zero => exact .refl s
  | succ turns ih =>
    obtain ⟨requests, diversions, hturn⟩ := a.turn_turn system ctx toolCtx jump s w
    have hgoes := hturn.goesOn hassistant hadds
    unfold loop replies
    rw [Activity.bind_apply]
    obtain ⟨s', e, w', hends⟩ : ∃ s' e w',
        a.turn system ctx toolCtx jump s w = ((s', e), w') := ⟨_, _, _, rfl⟩
    rw [hends] at hgoes ⊢
    cases e with
    | ended e =>
      rw [List.append_nil]
      exact hgoes
    | again jump' => exact hgoes.trans (ih jump' s' w')

variable (ctx) in
/-- What is heard of an agent are the replies of its model. -/
theorem looped_goesOn (patience : Nat) (s : Snapshot) (w : World σ) :
    (a.startState ctx s).GoesOn heard (a.repliesOf patience ctx s w)
      (a.looped ctx s patience w).1.1 := by
  unfold looped run repliesOf
  rw [Activity.bind_apply]
  obtain ⟨s', hooked, w', hb⟩ : ∃ s' hooked w',
      a.chain.beforeAgent (a.startState ctx s) w = ((s', hooked), w') := ⟨_, _, _, rfl⟩
  have hbefore := (hadds.beforeAgent (a.startState ctx s)).of_eq hb
  rw [hb]
  cases hooked with
  | error e => exact hbefore
  | ok jump => exact hbefore.trans (loop_goesOn hassistant hadds patience jump s' w')

end Loop

/-! ## What an agent writes -/

section Node

variable {a : Agent σ} {patience : Nat} {ctx : NodeContext} {s : Snapshot} {w w₁ w₂ : World σ}
  {s₁ s₂ : AgentState} {e : LoopEnd} {jump : Option Jump}

/-- An agent that does not fail writes what was said last in its conversation, as the hooks behind
it leave it, and adds what stands there behind the history. -/
theorem exists_report {out : NodeOutput} (h : (a.node patience ctx s w).1 = .ok out)
    (hfail : ∀ message, out ≠ .failure message) : ∃ s₁ e w₁ s₂ jump w₂,
      a.looped ctx s patience w = ((s₁, e), w₁) ∧
      a.chain.afterAgent s₁ w₁ = ((s₂, .ok jump), w₂) ∧
      out.update = some (report (lastText s₂.messages)) ∧
      out.messages = some (s₂.messages.drop s.messages.length) := by
  obtain ⟨s₁, message, w₁, hloop⟩ | ⟨s₁, e, w₁, hloop, hrests⟩ := failed_or_rests h
  · rw [node_failed hloop] at h
    exact absurd (Except.ok.inj h).symm (hfail message)
  · obtain ⟨signal, hnode⟩ := node_rests hloop hrests
    rw [hnode] at h
    obtain ⟨s₂, hooked, w₂, hhook⟩ : ∃ s₂ hooked w₂,
        a.chain.afterAgent s₁ w₁ = ((s₂, hooked), w₂) := ⟨_, _, _, rfl⟩
    cases hooked with
    | error refusal =>
      rw [conclude_refused _ signal hhook] at h
      exact absurd (Except.ok.inj h).symm (hfail refusal.message)
    | ok jump =>
      obtain ⟨out', hout', hupdate, hmessages⟩ := conclude_done ctx _ signal hhook
      cases h.symm.trans hout'
      exact ⟨s₁, e, w₁, s₂, jump, w₂, hloop, hhook, hupdate, hmessages⟩

/-- If all layers only add to the conversation, the history is its beginning, and what is heard
behind it are the replies of the model. -/
theorem exists_own {heard : Message → Bool}
    (hassistant : ∀ m, heard m = true → m.hasRole Role.assistant = true)
    (hadds : a.chain.Adds heard) (hloop : a.looped ctx s patience w = ((s₁, e), w₁))
    (hhook : a.chain.afterAgent s₁ w₁ = ((s₂, .ok jump), w₂)) :
    ∃ own, s₂.messages = s.messages ++ own ∧
      own.filter heard = (a.repliesOf patience ctx s w).filter heard := by
  have hturns := looped_goesOn hassistant ctx hadds patience s w
  rw [hloop] at hturns
  obtain ⟨more, hmessages, hmore⟩ := hturns.trans ((hadds.afterAgent s₁).of_eq hhook)
  rw [List.append_nil] at hmore
  refine ⟨_, hmessages.trans (List.append_assoc _ _ _), ?_⟩
  -- The prompt of the agent is said by a user.
  have hprompt : List.filter heard
      (a.prompt.map fun t => Message.user (renderTemplate t s.parameters)).toList = [] := by
    refine List.filter_eq_nil_iff.mpr fun m hm => ?_
    obtain ⟨t, -, rfl⟩ := Option.map_eq_some_iff.mp (Option.mem_toList.mp hm)
    exact Bool.eq_false_iff.mp (unheard hassistant rfl)
  rw [List.filter_append, hprompt, List.nil_append, hmore]

end Node

end Agent

/-- What an agent writes, if it does not fail, is what was said last in its conversation, and this
is what it has said itself, if it has said anything. Whatever its layers do, it is so unless the
agent says nothing and something was said before; and if they only add messages, what was said
before is the history that the agent was given. What an agent says itself is what its model replies,
as long as its layers add nothing that is said by a model: the history is of no concern then. -/
theorem own_words_last (a : Agent σ) (patience : Nat) (ctx : NodeContext) (s : Snapshot)
    (w : World σ) {out : NodeOutput} (h : (a.node patience ctx s w).1 = .ok out)
    (hfail : ∀ message, out ≠ .failure message) :
    ∃ before own text, out.messages = some own ∧ out.update = some (Agent.report text) ∧
      LastSaid (before ++ own) text ∧
      (LastSaid own text ↔
        (∃ m ∈ own, m.speaks = true) ∨ ∀ m ∈ before, m.speaks = false) ∧
      (a.chain.Adds (fun _ => false) → before = s.messages) ∧
      (a.chain.Adds Message.speaks →
        ∀ said, LastSaid own said ↔ LastSaid (a.repliesOf patience ctx s w) said) := by
  obtain ⟨s₁, e, w₁, s₂, jump, w₂, hloop, hhook, hupdate, hmessages⟩ :=
    Agent.exists_report h hfail
  have hlast : LastSaid (s₂.messages.take s.messages.length ++ s₂.messages.drop s.messages.length)
      (Agent.lastText s₂.messages) := by
    rw [List.take_append_drop]
    exact lastText_eq_iff.mp rfl
  refine ⟨_, _, _, hmessages, hupdate, hlast, lastSaid_append_iff hlast, fun hadds => ?_,
    fun hadds said => ?_⟩
  · obtain ⟨own, hown, -⟩ :=
      Agent.exists_own (fun _ hm => absurd hm Bool.false_ne_true) hadds hloop hhook
    rw [hown, List.take_left]
  · obtain ⟨own, hown, hreplies⟩ :=
      Agent.exists_own (fun m hm => (Bool.and_eq_true_iff.mp hm).1) hadds hloop hhook
    rw [hown, List.drop_left, ← lastText_eq_iff, ← lastText_eq_iff, lastText_congr hreplies]

/-- A state in which another agent has greeted the user. -/
def greetedState (greeting : String) : Snapshot :=
  { Snapshot.empty with messages := [.user "Where is my refund?", .assistant greeting] }

/-- An agent that looks something up and has nothing to add then. A layer around it leaves a
note. -/
def lookingAgent : Agent Unit where
  name := "Ada"
  modelName := ""
  model := fun request =>
    pure (.ok (if request.messages.any (·.hasRole Role.tool) then .assistant ""
      else .calling "Let me look." [⟨"call_1", "look", .null⟩]))
  systemPrompt := none
  prompt := none
  maxIterations := 5
  tools := []
  chain := [{ Middleware.passing "note" with
    afterAgent := fun s => pure (s.push (.user "It is late."), .ok none) }]
  supervisor := none

theorem lookingAgent_adds : lookingAgent.chain.Adds Message.speaks := by
  intro m hm
  cases List.mem_singleton.mp hm
  exact ⟨fun s => .pure (.refl s), fun s => .pure (.refl s), fun s => .pure (.refl s),
    fun s => .pure ⟨[.user "It is late."], rfl, rfl⟩⟩

/-- What it has said before it looked is its last word, not the greeting. -/
theorem own_words_last_looking :
    let ctx := NodeContext.detached "ada"
    let run := lookingAgent.node 5 ctx (greetedState "Hello.") (.start ())
    lookingAgent.chain.Adds Message.speaks ∧
    ∃ out, run.1 = .ok out ∧ (∀ message, out ≠ .failure message) ∧
      out.update = some (Agent.report "Let me look.") ∧
      LastSaid (lookingAgent.repliesOf 5 ctx (greetedState "Hello.") (.start ()))
        "Let me look." := by
  intro ctx run
  let own : List Message := [.calling "Let me look." [⟨"call_1", "look", .null⟩],
    .tool "Error: tool 'look' is not available" "call_1" "look", .assistant "",
    .user "It is late."]
  let out : NodeOutput := ⟨some (Agent.report "Let me look."), some own, none, none⟩
  have hrun : run.1 = .ok out := rfl
  have hfail : ∀ message, out ≠ .failure message :=
    fun message h => Option.some_ne_none _ (congrArg NodeOutput.messages h)
  obtain ⟨before, own', text, hmessages, hupdate, -, hown, -, hreplies⟩ :=
    own_words_last lookingAgent 5 ctx (greetedState "Hello.") (.start ()) hrun hfail
  cases hmessages
  have hlast := hown.mpr (.inl ⟨_, List.mem_cons_self, rfl⟩)
  have htext : Agent.lastText own = text := lastText_eq_iff.mpr hlast
  cases htext
  exact ⟨lookingAgent_adds, out, hrun, hfail, hupdate, (hreplies lookingAgent_adds _).mp hlast⟩

/-- An agent that hands over to another one without a word. -/
def deskAgent : Agent Unit where
  name := "desk"
  modelName := ""
  model := fun _ => pure (.ok (.calling "" [⟨"call_1", "transfer_to_billing", .obj []⟩]))
  systemPrompt := none
  prompt := none
  maxIterations := 5
  tools := [TransferTool.toTool
    ⟨"transfer_to_billing", "Ask agent 'billing' for help", "billing", "billing"⟩]
  chain := []
  supervisor := none

/-- It writes the greeting of the other agent as its own output, one as well as another, though its
model replies the same to both and says nothing. -/
theorem inherited_words_reported :
    let ctx := NodeContext.detached "desk"
    let own : List Message := [.calling "" [⟨"call_1", "transfer_to_billing", .obj []⟩]]
    let out : String → NodeOutput := fun text =>
      ⟨some (Agent.report text), some own, some ⟨"billing",
        [.tool "Successfully transferred to billing" "call_1" "transfer_to_billing"]⟩, none⟩
    (deskAgent.node 5 ctx (greetedState "Hello.") (.start ())).1 = .ok (out "Hello.") ∧
      (deskAgent.node 5 ctx (greetedState "Good day.") (.start ())).1 = .ok (out "Good day.") ∧
      deskAgent.repliesOf 5 ctx (greetedState "Hello.") (.start ()) = own ∧
      deskAgent.repliesOf 5 ctx (greetedState "Good day.") (.start ()) = own ∧
      LastSaid own "" ∧ ¬ LastSaid own "Hello." := by
  intro ctx own out
  have hempty : LastSaid own "" := lastSaid_empty_iff.mpr (by decide)
  refine ⟨rfl, rfl, rfl, rfl, hempty, fun h => ?_⟩
  have htext : "Hello." = "" := (lastText_eq_iff.mpr h).symm.trans (lastText_eq_iff.mpr hempty)
  exact absurd htext (by decide)

end Workgraph
