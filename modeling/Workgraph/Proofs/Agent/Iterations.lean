import Workgraph.Proofs.Json.Numerals
import Workgraph.Proofs.Node.Silent
/-!
# How often an agent calls its model

An agent goes through its turns: it runs its hooks, calls the model, runs the tools that the model
asks for. Hooks may send it around, past the model or past the tools. Still it calls the model no
more often than it may, and as long as the hooks before the calls of the model do not divert it to
its tools for ever, it comes to an end: of two turns that follow one another at least one calls the
model or is diverted.

## Main definitions

- `Middleware.KeepsCount`: layers that leave the count of the calls of the model alone
- `Agent.Due`: a call of the model is due
- `Agent.Turn`: what a turn can do, with the requests that it makes of the model
- `Agent.Reaches`: how far an agent comes, turn after turn
- `Agent.Exceeds`: the agent comes to a call of the model that it may not make

## Main statements

- `Agent.turn_turn`: a turn of an agent is one of these
- `Agent.Reaches.count`: the agent has counted its requests, and there are no more than it may make
- `Agent.Reaches.pace`: how many turns there are to the calls of the model
- `Agent.Reaches.exceeds_iff`: when an agent ends for too many calls of its model
- `iterations_capped`: the loop of an agent ends within its cap
-/

namespace Workgraph

variable {σ : Type}

open Activity

/-! ## Hooks -/

/-- A hook that leaves the count of the calls of the model alone. -/
def Hook.KeepsCount (h : Hook σ) : Prop :=
  ∀ s, (h s).Gives fun result => result.1.iteration = s.iteration

/-- A layer whose hooks leave the count of the calls of the model alone. -/
structure Middleware.KeepsCount (m : Middleware σ) : Prop where
  beforeAgent : m.beforeAgent.KeepsCount
  beforeModel : m.beforeModel.KeepsCount
  afterModel : m.afterModel.KeepsCount

/-- Layers whose hooks leave the count of the calls of the model alone. -/
def Chain.KeepsCount (c : Chain σ) : Prop := ∀ m ∈ c, m.KeepsCount

namespace Chain

/-- What each hook keeps is kept by the hooks of all layers, one after the other. -/
theorem runHooks_keeps {R : AgentState → AgentState → Prop} (hrefl : ∀ s, R s s)
    (htrans : ∀ s s' s'', R s s' → R s' s'' → R s s'') {layers : Chain σ}
    {hook : Middleware σ → Hook σ}
    (h : ∀ m ∈ layers, ∀ s, (hook m s).Gives fun result => R s result.1) (s : AgentState) :
    (runHooks (layers.map hook) s).Gives fun result => R s result.1 := by
  induction layers generalizing s with
  | nil => exact .pure (hrefl s)
  | cons m rest ih =>
    rw [List.map_cons]
    unfold runHooks
    refine .bind (h m List.mem_cons_self s) ?_
    rintro ⟨s', e | _ | jump⟩ hs'
    · exact .pure hs'
    · have hrest := ih (fun m' hm' => h m' (List.mem_cons_of_mem _ hm')) s'
      exact hrest.mono fun result hs'' => htrans s s' result.1 hs' hs''
    · exact .pure hs'

theorem runHooks_keepsCount {layers : Chain σ} {hook : Middleware σ → Hook σ}
    (h : ∀ m ∈ layers, (hook m).KeepsCount) : Hook.KeepsCount (runHooks (layers.map hook)) :=
  runHooks_keeps (R := fun s s' => s'.iteration = s.iteration) (fun _ => rfl)
    (fun _ _ _ hs' hs'' => hs''.trans hs') h

variable {c : Chain σ} (h : c.KeepsCount)
include h

theorem KeepsCount.beforeAgent : c.beforeAgent.KeepsCount :=
  runHooks_keepsCount fun m hm => (h m hm).beforeAgent

theorem KeepsCount.beforeModel : c.beforeModel.KeepsCount :=
  runHooks_keepsCount fun m hm => (h m hm).beforeModel

theorem KeepsCount.afterModel : c.afterModel.KeepsCount :=
  runHooks_keepsCount fun m hm => (h m (List.mem_reverse.mp hm)).afterModel

end Chain

/-! ## Messages -/

section Messages

open Text (isDigit numeral)

/-- What an agent reports that has called its model as often as it may. -/
def Agent.capMessage (a : Agent σ) : String :=
  s!"agent exceeded max iterations ({a.maxIterations})"

theorem Agent.toList_capMessage (a : Agent σ) : a.capMessage.toList =
    "agent exceeded max iterations (".toList ++ (numeral a.maxIterations ++ ")".toList) := by
  unfold capMessage numeral
  simp only [ToString.toString, String.toList_append, List.append_assoc]

/-- A message is another one if it has a character that is no digit and does not stand in the words
around the number. -/
theorem Agent.ne_capMessage (a : Agent σ) {message : String} {c : Char} (hc : c ∈ message.toList)
    (hdigit : isDigit c = false) (hfront : c ∉ "agent exceeded max iterations (".toList)
    (hback : c ∉ ")".toList) : message ≠ a.capMessage := by
  rintro rfl
  rw [toList_capMessage, List.mem_append, List.mem_append] at hc
  obtain hc | hc | hc := hc
  · exact hfront hc
  · rw [JsonText.isDigit_of_mem_numeral hc] at hdigit
    cases hdigit
  · exact hback hc

theorem MiddlewareError.message_ne_capMessage (e : MiddlewareError) (a : Agent σ) :
    e.message ≠ a.capMessage := by
  have hcolon : ':' ∈ e.message.toList := by
    unfold message
    cases e <;>
      simp only [ToString.toString, String.toList_append, List.mem_append] <;> simp
  exact a.ne_capMessage hcolon rfl (by simp) (by simp)

theorem ProviderError.message_ne_capMessage (e : ProviderError) (a : Agent σ) :
    e.message ≠ a.capMessage := by
  unfold message
  cases e with
  | notFound kind name =>
    -- The kind of a provider and its name may be anything, but the words around them have a letter.
    refine a.ne_capMessage (c := 'v') ?_ rfl (by simp) (by simp)
    simp only [ToString.toString, String.toList_append, List.mem_append]
    simp
  | invocation provider message =>
    refine a.ne_capMessage (c := ':') ?_ rfl (by simp) (by simp)
    simp only [String.toList_append, List.mem_append]
    simp
  | invalidConfig message =>
    refine a.ne_capMessage (c := ':') ?_ rfl (by simp) (by simp)
    simp only [String.toList_append, List.mem_append]
    simp

theorem NodeOutput.failure_inj {message message' : String}
    (h : failure message = failure message') : message = message' := by
  cases h
  rfl

end Messages

/-- One activity behind another goes on with the result and the world that this one leaves. -/
theorem Activity.bind_apply {α β : Type} (x : Activity σ α) (f : α → Activity σ β) (w : World σ) :
    (x >>= f) w = f (x w).1 (x w).2 := rfl

namespace Agent

/-! ## Turns -/

/-- Whether a turn that begins like this leads to the model, and whether hooks that end like this
let it through. -/
def leadsToModel : Option Jump → Bool
  | none | some .model => true
  | some .tools | some .stop => false

/-- A call of the model is due: the turn leads to the model, and the hooks before the call let it
through. -/
def Due (a : Agent σ) (jump : Option Jump) (s : AgentState) (w : World σ) : Prop :=
  w.cancelled = false ∧ leadsToModel jump = true ∧
    ∃ s₁ next w₁, a.chain.beforeModel s w = ((s₁, .ok next), w₁) ∧ leadsToModel next = true

/-- What follows the reply of the model. -/
def afterCall (a : Agent σ) (ctx : NodeContext) (toolCtx : ToolContext) (s : AgentState) :
    Except ProviderError Message → Activity σ (AgentState × TurnEnd)
  | .error e => return (s, .ended (.failed e.message))
  | .ok reply => do
    match ← a.afterReply (s.push reply) with
    | (s, .turn e) => return (s, e)
    | (s, .tools) => a.toolsTurn ctx toolCtx s

section Turns

variable (a : Agent σ) (system : Option Message) (ctx : NodeContext) (toolCtx : ToolContext)

/-- What a turn can do: the requests that it makes of the model, how often the hooks before the call
of the model divert it to the tools, and where it leads. -/
inductive Turn (jump : Option Jump) (s : AgentState) (w : World σ) :
    List ModelRequest → Nat → (AgentState × TurnEnd) × World σ → Prop
  | cancelled (hw : w.cancelled = true) : Turn jump s w [] 0 ((s, .ended .cancelled), w)
  | stopped (hw : w.cancelled = false) (hj : jump = some .stop) :
      Turn jump s w [] 0 ((s, .ended .done), w)
  | tools {result : (AgentState × TurnEnd) × World σ} (hw : w.cancelled = false)
      (hj : jump = some .tools) (ht : a.toolsTurn ctx toolCtx s w = result) :
      Turn jump s w [] 0 result
  | refused {s' : AgentState} {e : MiddlewareError} {w' : World σ} (hw : w.cancelled = false)
      (hj : leadsToModel jump = true) (hb : a.chain.beforeModel s w = ((s', .error e), w')) :
      Turn jump s w [] 0 ((s', .ended (.failed e.message)), w')
  | skipped {s' : AgentState} {w' : World σ} (hw : w.cancelled = false)
      (hj : leadsToModel jump = true)
      (hb : a.chain.beforeModel s w = ((s', .ok (some .stop)), w')) :
      Turn jump s w [] 0 ((s', .ended .done), w')
  | diverted {s' : AgentState} {w' : World σ} (hw : w.cancelled = false)
      (hj : leadsToModel jump = true)
      (hb : a.chain.beforeModel s w = ((s', .ok (some .tools)), w')) :
      Turn jump s w [] 1 ((s', .again (some .tools)), w')
  | exhausted {s' : AgentState} {next : Option Jump} {w' : World σ} (hw : w.cancelled = false)
      (hj : leadsToModel jump = true) (hb : a.chain.beforeModel s w = ((s', .ok next), w'))
      (hnext : leadsToModel next = true) (hcap : a.maxIterations ≤ s'.iteration) :
      Turn jump s w [] 0 ((s', .ended (.failed a.capMessage)), w')
  | called {s' : AgentState} {next : Option Jump} {w' w'' : World σ}
      {reply : Except ProviderError Message} {result : (AgentState × TurnEnd) × World σ}
      (hw : w.cancelled = false) (hj : leadsToModel jump = true)
      (hb : a.chain.beforeModel s w = ((s', .ok next), w')) (hnext : leadsToModel next = true)
      (hcap : s'.iteration < a.maxIterations)
      (hr : a.chain.callModel a.model (a.request system s'.messages) w' = (reply, w''))
      (ha : a.afterCall ctx toolCtx { s' with iteration := s'.iteration + 1 } reply w'' = result) :
      Turn jump s w [a.request system s'.messages] 0 result

variable {a system ctx toolCtx} {jump : Option Jump} {s : AgentState} {w : World σ}

/-- Hooks have let a call of the model through: the agent calls the model and goes on, unless it has
called it too often. -/
theorem callModel_turn {next : AgentState × ModelTurnEnd → Activity σ (AgentState × TurnEnd)}
    {s' : AgentState} {jump' : Option Jump} {w' : World σ}
    (hturn : ∀ s e, next (s, .turn e) = pure (s, e))
    (htools : ∀ s, next (s, .tools) = a.toolsTurn ctx toolCtx s) (hw : w.cancelled = false)
    (hj : leadsToModel jump = true) (hb : a.chain.beforeModel s w = ((s', .ok jump'), w'))
    (hnext : leadsToModel jump' = true)
    {called : AgentState × Except String Unit → Activity σ (AgentState × ModelTurnEnd)}
    (herror : ∀ s message, called (s, .error message) =
      pure (s, .turn (.ended (.failed message))))
    (hok : ∀ s, called (s, .ok ()) = a.afterReply s) :
    ∃ requests diversions, a.Turn system ctx toolCtx jump s w requests diversions
      ((a.callModel system s' >>= called >>= next) w') := by
  rw [bind_assoc]
  unfold callModel
  by_cases hcap : a.maxIterations ≤ s'.iteration
  · rw [if_pos hcap]
    change ∃ requests diversions, a.Turn system ctx toolCtx jump s w requests diversions
      ((called (s', .error a.capMessage) >>= next) w')
    rw [herror, pure_bind, hturn]
    exact ⟨[], 0, .exhausted hw hj hb hnext hcap⟩
  · rw [if_neg hcap, bind_assoc, Activity.bind_apply]
    obtain ⟨reply, w'', hr⟩ : ∃ reply w'',
        a.chain.callModel a.model (a.request system s'.messages) w' = (reply, w'') := ⟨_, _, rfl⟩
    rw [hr]
    refine ⟨_, 0, .called hw hj hb hnext (Nat.lt_of_not_le hcap) hr ?_⟩
    cases reply with
    | error e =>
      rw [pure_bind, herror, pure_bind, hturn]
      rfl
    | ok reply =>
      rw [pure_bind, hok]
      refine congrFun (congrArg (a.afterReply _ >>= ·) (funext ?_)) w''
      rintro ⟨s'', e | e⟩
      · exact (htools s'').symm
      · exact (hturn s'' e).symm

/-- The part of a turn that leads to the model, with what follows if the model asks for tools. -/
theorem modelTurn_turn {next : AgentState × ModelTurnEnd → Activity σ (AgentState × TurnEnd)}
    (hturn : ∀ s e, next (s, .turn e) = pure (s, e))
    (htools : ∀ s, next (s, .tools) = a.toolsTurn ctx toolCtx s) (hw : w.cancelled = false)
    (hj : leadsToModel jump = true) :
    ∃ requests diversions, a.Turn system ctx toolCtx jump s w requests diversions
      ((a.modelTurn system s >>= next) w) := by
  obtain ⟨s₁, hooked, w₁, hb⟩ : ∃ s₁ hooked w₁,
      a.chain.beforeModel s w = ((s₁, hooked), w₁) := ⟨_, _, _, rfl⟩
  unfold modelTurn
  rw [bind_assoc, Activity.bind_apply, hb]
  obtain e | _ | _ | _ | _ := hooked
  · change ∃ requests diversions, a.Turn system ctx toolCtx jump s w requests diversions
      (next (s₁, .turn (.ended (.failed e.message))) w₁)
    rw [hturn]
    exact ⟨[], 0, .refused hw hj hb⟩
  · exact callModel_turn hturn htools hw hj hb rfl (fun _ _ => rfl) (fun _ => rfl)
  · exact callModel_turn hturn htools hw hj hb rfl (fun _ _ => rfl) (fun _ => rfl)
  · change ∃ requests diversions, a.Turn system ctx toolCtx jump s w requests diversions
      (next (s₁, .turn (.again (some .tools))) w₁)
    rw [hturn]
    exact ⟨[], 1, .diverted hw hj hb⟩
  · change ∃ requests diversions, a.Turn system ctx toolCtx jump s w requests diversions
      (next (s₁, .turn (.ended .done)) w₁)
    rw [hturn]
    exact ⟨[], 0, .skipped hw hj hb⟩

variable (a system ctx toolCtx jump s w) in
/-- A turn of an agent is one of these. -/
theorem turn_turn :
    ∃ requests diversions, a.Turn system ctx toolCtx jump s w requests diversions
      (a.turn system ctx toolCtx jump s w) := by
  unfold turn
  change ∃ requests diversions, a.Turn system ctx toolCtx jump s w requests diversions
    ((if w.cancelled = true then _ else _ : Activity σ (AgentState × TurnEnd)) w)
  cases hw : w.cancelled with
  | true => exact ⟨[], 0, .cancelled hw⟩
  | false =>
    rw [if_neg Bool.false_ne_true]
    obtain _ | _ | _ | _ := jump
    · exact modelTurn_turn (fun _ _ => rfl) (fun _ => rfl) hw rfl
    · exact modelTurn_turn (fun _ _ => rfl) (fun _ => rfl) hw rfl
    · exact ⟨[], 0, .tools hw rfl rfl⟩
    · exact ⟨[], 0, .stopped hw rfl⟩

/-! ## What a turn leaves -/

/-- The turn does not end the agent because it has called its model too often, and does not give it
up. -/
def Within (a : Agent σ) (e : TurnEnd) : Prop :=
  e ≠ .ended .endless ∧ e ≠ .ended (.failed a.capMessage)

theorem within_failed {message : String} (h : message ≠ a.capMessage) :
    a.Within (.ended (.failed message)) :=
  ⟨nofun, fun he => h (LoopEnd.failed.inj (TurnEnd.ended.inj he))⟩

variable (a ctx toolCtx) in
theorem toolsTurn_leads (s : AgentState) : (a.toolsTurn ctx toolCtx s).Gives fun result =>
    result.1.iteration = s.iteration ∧
      (result.2 = .again none ∨ ∃ signal, result.2 = .ended (.handoff signal)) := by
  unfold toolsTurn
  refine .after _ ?_
  rintro ⟨answers, _ | signal⟩
  · exact .pure ⟨rfl, .inl rfl⟩
  · exact .pure ⟨rfl, .inr ⟨signal, rfl⟩⟩

variable (a ctx toolCtx) in
theorem toolsTurn_within (s : AgentState) : (a.toolsTurn ctx toolCtx s).Gives fun result =>
    result.1.iteration = s.iteration ∧ a.Within result.2 := by
  refine (a.toolsTurn_leads ctx toolCtx s).mono ?_
  rintro ⟨s', e⟩ ⟨hs', rfl | ⟨signal, rfl⟩⟩
  · exact ⟨hs', nofun, nofun⟩
  · exact ⟨hs', nofun, nofun⟩

theorem afterReply_within (hcount : a.chain.KeepsCount) (s : AgentState) :
    (a.afterReply s).Gives fun result => result.1.iteration = s.iteration ∧
      ∀ e, result.2 = .turn e → a.Within e := by
  unfold afterReply
  refine .bind (hcount.afterModel s) ?_
  rintro ⟨s', e | _ | jump⟩ hs'
  · refine .pure ⟨hs', ?_⟩
    rintro _ ⟨⟩
    exact within_failed (e.message_ne_capMessage a)
  · dsimp only
    split
    · exact .pure ⟨hs', nofun⟩
    · refine .pure ⟨hs', ?_⟩
      rintro _ ⟨⟩
      exact ⟨nofun, nofun⟩
  · refine .pure ⟨hs', ?_⟩
    rintro _ ⟨⟩
    exact ⟨nofun, nofun⟩

variable (ctx toolCtx) in
theorem afterCall_within (hcount : a.chain.KeepsCount) (s : AgentState)
    (reply : Except ProviderError Message) :
    (a.afterCall ctx toolCtx s reply).Gives fun result =>
      result.1.iteration = s.iteration ∧ a.Within result.2 := by
  cases reply with
  | error e => exact .pure ⟨rfl, within_failed (e.message_ne_capMessage a)⟩
  | ok reply =>
    refine .bind (afterReply_within hcount (s.push reply)) ?_
    rintro ⟨s', e | e⟩ ⟨hs', hwithin⟩
    · exact (a.toolsTurn_within ctx toolCtx s').mono fun _ hs'' => ⟨hs''.1.trans hs', hs''.2⟩
    · exact .pure ⟨hs', hwithin e rfl⟩

section Facts

variable {requests : List ModelRequest} {diversions : Nat} {s' : AgentState} {e : TurnEnd}
  {w' : World σ}

/-- Every request of the model is counted, and none is made above the cap. -/
theorem Turn.count (h : a.Turn system ctx toolCtx jump s w requests diversions ((s', e), w'))
    (hcount : a.chain.KeepsCount) : s'.iteration = s.iteration + requests.length ∧
      (s.iteration ≤ a.maxIterations → s'.iteration ≤ a.maxIterations) := by
  -- Whoever makes no request leaves the count as it is.
  have hkept : s'.iteration = s.iteration → s'.iteration = s.iteration + 0 ∧
      (s.iteration ≤ a.maxIterations → s'.iteration ≤ a.maxIterations) :=
    fun hs' => ⟨hs', fun hle => hs' ▸ hle⟩
  have hbefore := hcount.beforeModel s w
  cases h with
  | cancelled hw => exact hkept rfl
  | stopped hw hj => exact hkept rfl
  | tools hw hj ht =>
    have hsame := (a.toolsTurn_within ctx toolCtx s w).1
    rw [ht] at hsame
    exact hkept hsame
  | refused hw hj hb => exact hkept (by rwa [hb] at hbefore)
  | skipped hw hj hb => exact hkept (by rwa [hb] at hbefore)
  | diverted hw hj hb => exact hkept (by rwa [hb] at hbefore)
  | exhausted hw hj hb hnext hcap => exact hkept (by rwa [hb] at hbefore)
  | @called s₁ next w₁ w₂ reply result hw hj hb hnext hcap hr ha =>
    have hsame := (afterCall_within ctx toolCtx hcount
      { s₁ with iteration := s₁.iteration + 1 } reply w₂).1
    rw [ha] at hsame
    rw [hb] at hbefore
    have hnumber : s'.iteration = s.iteration + 1 := hsame.trans (congrArg (· + 1) hbefore)
    exact ⟨hnumber, fun _ => hsame ▸ hcap⟩

/-- Whether a turn that begins like this goes to the tools without a call of the model. -/
def detour : Option Jump → Nat
  | some .tools => 1
  | _ => 0

theorem detour_le (jump : Option Jump) : detour jump ≤ 1 := by
  obtain _ | _ | _ | _ := jump <;> decide

/-- A turn that goes on has called the model or was diverted, unless it was a detour to the tools.
A detour to the tools is not followed by another one. -/
theorem Turn.pace {jump' : Option Jump}
    (h : a.Turn system ctx toolCtx jump s w requests diversions ((s', .again jump'), w')) :
    1 + detour jump' ≤ detour jump + 2 * (requests.length + diversions) := by
  cases h with
  | tools hw hj ht =>
    have hleads := (a.toolsTurn_leads ctx toolCtx s w).2
    rw [ht] at hleads
    obtain hagain | ⟨signal, hended⟩ := hleads
    · cases hagain
      rw [hj]
      exact Nat.le_refl 1
    · cases hended
  | diverted hw hj hb => exact Nat.le_add_left 2 _
  | called hw hj hb hnext hcap hr ha =>
    have hnext := detour_le jump'
    rw [List.length_singleton]
    omega

/-- A turn does not end the agent for too many calls of the model, unless a call is due and none is
left. -/
theorem Turn.within_or_due
    (h : a.Turn system ctx toolCtx jump s w requests diversions ((s', e), w'))
    (hcount : a.chain.KeepsCount) : a.Within e ∨
      e = .ended (.failed a.capMessage) ∧ a.Due jump s w ∧ a.maxIterations ≤ s.iteration := by
  cases h with
  | cancelled hw => exact .inl ⟨nofun, nofun⟩
  | stopped hw hj => exact .inl ⟨nofun, nofun⟩
  | tools hw hj ht =>
    have hwithin := (a.toolsTurn_within ctx toolCtx s w).2
    rw [ht] at hwithin
    exact .inl hwithin
  | @refused _ e _ hw hj hb => exact .inl (within_failed (e.message_ne_capMessage a))
  | skipped hw hj hb => exact .inl ⟨nofun, nofun⟩
  | diverted hw hj hb => exact .inl ⟨nofun, nofun⟩
  | exhausted hw hj hb hnext hcap =>
    have hsame := hcount.beforeModel s w
    rw [hb] at hsame
    exact .inr ⟨rfl, ⟨hw, hj, _, _, _, hb, hnext⟩, hsame ▸ hcap⟩
  | @called s₁ next w₁ w₂ reply result hw hj hb hnext hcap hr ha =>
    have hwithin := (afterCall_within ctx toolCtx hcount
      { s₁ with iteration := s₁.iteration + 1 } reply w₂).2
    rw [ha] at hwithin
    exact .inl hwithin

/-- If a call of the model is due and none is left, the agent ends and says so. -/
theorem Turn.exceeds (h : a.Turn system ctx toolCtx jump s w requests diversions ((s', e), w'))
    (hcount : a.chain.KeepsCount) (hdue : a.Due jump s w) (hcap : a.maxIterations ≤ s.iteration) :
    e = .ended (.failed a.capMessage) := by
  obtain ⟨hcancelled, hleads, s₁, next₁, w₁, hb₁, hnext₁⟩ := hdue
  have hsame := hcount.beforeModel s w
  cases h with
  | cancelled hw => rw [hcancelled] at hw; cases hw
  | stopped hw hj => rw [hj] at hleads; cases hleads
  | tools hw hj ht => rw [hj] at hleads; cases hleads
  | refused hw hj hb => rw [hb] at hb₁; cases hb₁
  | skipped hw hj hb => rw [hb] at hb₁; cases hb₁; cases hnext₁
  | diverted hw hj hb => rw [hb] at hb₁; cases hb₁; cases hnext₁
  | exhausted hw hj hb hnext hcap => rfl
  | called hw hj hb hnext hbelow hr ha =>
    rw [hb] at hsame
    exact absurd (hsame ▸ hbelow) (Nat.not_lt_of_le hcap)

/-- A turn is one of these in one way only. -/
theorem Turn.unique {requests₁ requests₂ : List ModelRequest} {diversions₁ diversions₂ : Nat}
    {moment₁ moment₂ : (AgentState × TurnEnd) × World σ}
    (h₁ : a.Turn system ctx toolCtx jump s w requests₁ diversions₁ moment₁)
    (h₂ : a.Turn system ctx toolCtx jump s w requests₂ diversions₂ moment₂) :
    requests₁ = requests₂ ∧ diversions₁ = diversions₂ ∧ moment₁ = moment₂ := by
  -- Two different cases do not agree on the cancellation, the jump, the hooks or the cap.
  cases h₁ <;> cases h₂ <;> grind [leadsToModel]

theorem Turn.turn_eq {moment : (AgentState × TurnEnd) × World σ}
    (h : a.Turn system ctx toolCtx jump s w requests diversions moment) :
    a.turn system ctx toolCtx jump s w = moment := by
  obtain ⟨_, _, hturn⟩ := a.turn_turn system ctx toolCtx jump s w
  exact (hturn.unique h).2.2

end Facts

end Turns

/-! ## The loop -/

section Loop

variable (a : Agent σ) (ctx : NodeContext) (s : Snapshot) (w : World σ)

/-- What the model is told ahead of every conversation. -/
def instructions : Option Message :=
  a.systemPrompt.map fun t => Message.system (renderTemplate t s.parameters)

/-- What the first hooks of the agent see. -/
def startState : AgentState := ⟨ctx.nodeKey, a.opening s, 0, s⟩

/-- The run of the loop that the node makes. -/
def looped (patience : Nat) : Activity σ (AgentState × LoopEnd) :=
  a.run patience (a.instructions s) ctx ⟨ctx.nodeKey, ctx.step, s⟩ (a.startState ctx s)

/-- How far the agent comes after the hooks before it and a number of turns, with the requests that
it has made of the model and how often it was diverted to the tools. -/
inductive Reaches :
    Nat → List ModelRequest → Nat → AgentState → TurnEnd → World σ → Prop
  | begun {s₁ : AgentState} {jump : Option Jump} {w₁ : World σ}
      (hb : a.chain.beforeAgent (a.startState ctx s) w = ((s₁, .ok jump), w₁)) :
      Reaches 0 [] 0 s₁ (.again jump) w₁
  | refused {s₁ : AgentState} {e : MiddlewareError} {w₁ : World σ}
      (hb : a.chain.beforeAgent (a.startState ctx s) w = ((s₁, .error e), w₁)) :
      Reaches 0 [] 0 s₁ (.ended (.failed e.message)) w₁
  | turned {n : Nat} {requests requests' : List ModelRequest} {diversions diversions' : Nat}
      {s₁ s₂ : AgentState} {jump : Option Jump} {e : TurnEnd} {w₁ w₂ : World σ}
      (h : Reaches n requests diversions s₁ (.again jump) w₁)
      (ht : a.Turn (a.instructions s) ctx ⟨ctx.nodeKey, ctx.step, s⟩ jump s₁ w₁ requests'
        diversions' ((s₂, e), w₂)) :
      Reaches (n + 1) (requests ++ requests') (diversions + diversions') s₂ e w₂

/-- The agent comes to a moment at which a call of the model is due and it has called the model as
often as it may. -/
def Exceeds : Prop :=
  ∃ n requests diversions s₁ jump w₁,
    a.Reaches ctx s w n requests diversions s₁ (.again jump) w₁ ∧ a.Due jump s₁ w₁ ∧
      requests.length = a.maxIterations

namespace Reaches

variable {a ctx s w} {n : Nat} {requests : List ModelRequest} {diversions : Nat}
  {s₁ : AgentState} {jump : Option Jump} {w₁ : World σ}

/-- The agent has called its model as often as it says, and no more often than it may. -/
theorem count {e : TurnEnd} (h : a.Reaches ctx s w n requests diversions s₁ e w₁)
    (hcount : a.chain.KeepsCount) :
    s₁.iteration = requests.length ∧ requests.length ≤ a.maxIterations := by
  have hstart := hcount.beforeAgent (a.startState ctx s) w
  induction h with
  | begun hb =>
    rw [hb] at hstart
    exact ⟨hstart, Nat.zero_le _⟩
  | refused hb =>
    rw [hb] at hstart
    exact ⟨hstart, Nat.zero_le _⟩
  | turned h ht ih =>
    obtain ⟨hcalls, hle⟩ := ht.count hcount
    rw [List.length_append, ← ih.1, ← hcalls]
    exact ⟨rfl, hle (ih.1 ▸ ih.2)⟩

/-- As long as the agent goes on, at least every second turn calls the model or is diverted. -/
theorem pace (h : a.Reaches ctx s w n requests diversions s₁ (.again jump) w₁) :
    n + detour jump ≤ 2 * (requests.length + diversions) + 1 := by
  generalize he : TurnEnd.again jump = e at h
  -- A detour to the tools is paid for by the turn before it, and the first one by the one added.
  induction h generalizing jump with
  | begun hb => exact Nat.le_trans (Nat.le_of_eq (Nat.zero_add _)) (detour_le jump)
  | refused hb => cases he
  | turned h ht ih =>
    cases he
    have hbefore := ih rfl
    have hturn := ht.pace
    rw [List.length_append]
    omega

/-- An agent that goes on has another turn. -/
theorem goes_on (h : a.Reaches ctx s w n requests diversions s₁ (.again jump) w₁) :
    ∃ requests' diversions' s₂ e w₂,
      a.Reaches ctx s w (n + 1) requests' diversions' s₂ e w₂ := by
  obtain ⟨_, _, hturn⟩ :=
    a.turn_turn (a.instructions s) ctx ⟨ctx.nodeKey, ctx.step, s⟩ jump s₁ w₁
  exact ⟨_, _, _, _, _, h.turned hturn⟩

variable (a ctx s w) in
/-- After a number of turns the agent still goes on, unless it has come to its end. -/
theorem again_or_ended (n : Nat) :
    (∃ requests diversions s₁ jump w₁,
      a.Reaches ctx s w n requests diversions s₁ (.again jump) w₁) ∨
    ∃ m ≤ n, ∃ requests diversions s₁ e w₁,
      a.Reaches ctx s w m requests diversions s₁ (.ended e) w₁ := by
  induction n with
  | zero =>
    obtain ⟨s₁, hooked, w₁, hb⟩ : ∃ s₁ hooked w₁,
        a.chain.beforeAgent (a.startState ctx s) w = ((s₁, hooked), w₁) := ⟨_, _, _, rfl⟩
    cases hooked with
    | ok jump => exact .inl ⟨_, _, _, _, _, .begun hb⟩
    | error e => exact .inr ⟨0, Nat.le_refl 0, _, _, _, _, _, .refused hb⟩
  | succ n ih =>
    obtain ⟨_, _, _, _, _, hagain⟩ | ⟨m, hm, hended⟩ := ih
    · obtain ⟨_, _, _, e | jump, _, hnext⟩ := hagain.goes_on
      · exact .inr ⟨n + 1, Nat.le_refl _, _, _, _, _, _, hnext⟩
      · exact .inl ⟨_, _, _, _, _, hnext⟩
    · exact .inr ⟨m, Nat.le_succ_of_le hm, hended⟩

/-- The loop takes up where the agent has come to. -/
theorem looped_eq_loop (h : a.Reaches ctx s w n requests diversions s₁ (.again jump) w₁)
    (turns : Nat) : a.looped ctx s (n + turns) w =
      a.loop (a.instructions s) ctx ⟨ctx.nodeKey, ctx.step, s⟩ turns jump s₁ w₁ := by
  generalize he : TurnEnd.again jump = e at h
  -- Going back turn by turn, the turns that are left become more.
  induction h generalizing jump turns with
  | begun hb =>
    cases he
    unfold looped run
    rw [Activity.bind_apply, hb, Nat.zero_add]
  | refused hb => cases he
  | turned h ht ih =>
    cases he
    rw [Nat.add_assoc, Nat.add_comm 1, ih (turns + 1) rfl, loop, Activity.bind_apply, ht.turn_eq]

/-- With as many turns as it takes, the loop ends as the agent does. -/
theorem looped_eq {e : LoopEnd}
    (h : a.Reaches ctx s w n requests diversions s₁ (.ended e) w₁) {patience : Nat}
    (hpatience : n ≤ patience) : a.looped ctx s patience w = ((s₁, e), w₁) := by
  cases h with
  | refused hb =>
    unfold looped run
    rw [Activity.bind_apply, hb]
    rfl
  | turned h ht =>
    obtain ⟨turns, rfl⟩ := Nat.exists_eq_add_of_le hpatience
    rw [Nat.add_assoc, Nat.add_comm 1, h.looped_eq_loop, loop, Activity.bind_apply, ht.turn_eq]
    rfl

/-- There is one end. -/
theorem ended_unique {e e' : LoopEnd} {n' : Nat} {requests' : List ModelRequest}
    {diversions' : Nat} {s₂ : AgentState} {w₂ : World σ}
    (h : a.Reaches ctx s w n requests diversions s₁ (.ended e) w₁)
    (h' : a.Reaches ctx s w n' requests' diversions' s₂ (.ended e') w₂) : e = e' := by
  have hends := (h.looped_eq (Nat.le_max_left n n')).symm.trans
    (h'.looped_eq (Nat.le_max_right n n'))
  exact congrArg (·.1.2) hends

/-- The loop that is never given up ends for too many calls of the model exactly if the agent comes
to a call that is due and that it may not make. -/
theorem exceeds_iff {e : LoopEnd}
    (h : a.Reaches ctx s w n requests diversions s₁ (.ended e) w₁)
    (hcount : a.chain.KeepsCount) : e = .failed a.capMessage ↔ a.Exceeds ctx s w := by
  constructor
  · rintro rfl
    generalize he : TurnEnd.ended (.failed a.capMessage) = e at h
    cases h with
    | begun hb => cases he
    | @refused _ e _ hb =>
      have hmessage := LoopEnd.failed.inj (TurnEnd.ended.inj he)
      exact absurd hmessage.symm (e.message_ne_capMessage a)
    | turned h ht =>
      cases he
      obtain hwithin | ⟨-, hdue, hcap⟩ := ht.within_or_due hcount
      · exact absurd rfl hwithin.2
      · obtain ⟨hcalls, hle⟩ := h.count hcount
        exact ⟨_, _, _, _, _, _, h, hdue, Nat.le_antisymm hle (hcalls ▸ hcap)⟩
  · rintro ⟨n', requests', diversions', s₂, jump, w₂, h', hdue, hall⟩
    obtain ⟨_, _, hturn⟩ :=
      a.turn_turn (a.instructions s) ctx ⟨ctx.nodeKey, ctx.step, s⟩ jump s₂ w₂
    have hcap : a.maxIterations ≤ s₂.iteration :=
      Nat.le_of_eq (hall.symm.trans (h'.count hcount).1.symm)
    have hends := h'.turned hturn
    rw [hturn.exceeds hcount hdue hcap] at hends
    exact h.ended_unique hends

theorem ne_endless {e : TurnEnd} (h : a.Reaches ctx s w n requests diversions s₁ e w₁)
    (hcount : a.chain.KeepsCount) : e ≠ .ended .endless := by
  cases h with
  | begun hb => nofun
  | refused hb => nofun
  | turned h ht =>
    obtain hwithin | ⟨rfl, -⟩ := ht.within_or_due hcount
    · exact hwithin.1
    · nofun

/-- An agent comes to its end, however patient it is. -/
theorem exists_ended {D : Nat} (hcount : a.chain.KeepsCount)
    (hdiverted : ∀ n requests diversions s₁ e w₁,
      a.Reaches ctx s w n requests diversions s₁ e w₁ → diversions ≤ D) :
    ∃ n ≤ 2 * (a.maxIterations + D) + 2, ∃ requests diversions s₁ e w₁,
      a.Reaches ctx s w n requests diversions s₁ (.ended e) w₁ := by
  obtain ⟨requests, diversions, s₁, jump, w₁, hagain⟩ | hended :=
    again_or_ended a ctx s w (2 * (a.maxIterations + D) + 2)
  · have hcalls := (hagain.count hcount).2
    have hdiversions := hdiverted _ _ _ _ _ _ hagain
    have hpace := hagain.pace
    omega
  · exact hended

/-- If the hooks before the calls of the model never divert the agent to its tools, it is never
diverted. -/
theorem undiverted {e : TurnEnd} (h : a.Reaches ctx s w n requests diversions s₁ e w₁)
    (hnever : ∀ s, (a.chain.beforeModel s).Gives fun result => result.2 ≠ .ok (some .tools)) :
    diversions = 0 := by
  induction h with
  | begun hb => rfl
  | refused hb => rfl
  | @turned _ _ _ _ _ s₁ _ _ _ w₁ _ h ht ih =>
    rw [ih, Nat.zero_add]
    cases ht with
    | diverted hw hj hb =>
      have hresult := hnever s₁ w₁
      rw [hb] at hresult
      exact absurd rfl hresult
    | _ => rfl

end Reaches

/-! ## The node -/

theorem fail_result (ctx : NodeContext) (message : String) :
    (fail ctx message : Activity σ (Except NodeError NodeOutput)).Gives
      (· = .ok (.failure message)) :=
  .after _ fun _ => .pure rfl

/-- What follows the loop does not report that the model was called too often. -/
theorem conclude_ne_failure (inherited : Nat) (signal : Option Handoff) (s₁ : AgentState) :
    (a.conclude ctx inherited signal s₁).Gives (· ≠ .ok (.failure a.capMessage)) := by
  unfold conclude
  refine .after _ ?_
  rintro ⟨s₂, e | jump⟩
  · refine (fail_result ctx e.message).mono ?_
    rintro _ rfl h
    exact e.message_ne_capMessage a (NodeOutput.failure_inj (Except.ok.inj h))
  · have hmessages : ∀ update handoff, (Except.ok ⟨some update, some (s₂.messages.drop inherited),
        handoff, none⟩ : Except NodeError NodeOutput) ≠ .ok (.failure a.capMessage) :=
      fun _ _ h => Option.some_ne_none _ (congrArg NodeOutput.messages (Except.ok.inj h))
    cases signal with
    | some signal => exact .pure (hmessages _ _)
    | none => exact .after _ fun signal => .pure (hmessages _ _)

/-- The node reports that the model was called too often exactly if its loop ends so. -/
theorem node_failure_iff (patience : Nat) :
    (a.node patience ctx s w).1 = .ok (.failure a.capMessage) ↔
      (a.looped ctx s patience w).1.2 = .failed a.capMessage := by
  obtain ⟨s₁, e, w₁, hloop⟩ : ∃ s₁ e w₁, a.looped ctx s patience w = ((s₁, e), w₁) :=
    ⟨_, _, _, rfl⟩
  unfold node
  change (((a.looped ctx s patience >>= _ : Activity σ _) w).1) = _ ↔ _
  rw [Activity.bind_apply, hloop]
  cases e with
  | failed message =>
    change (fail ctx message w₁).1 = _ ↔ LoopEnd.failed message = _
    rw [fail_result ctx message w₁]
    constructor
    · intro h
      rw [NodeOutput.failure_inj (Except.ok.inj h)]
    · intro h
      rw [LoopEnd.failed.inj h]
  | cancelled => exact ⟨nofun, nofun⟩
  | endless => exact ⟨nofun, nofun⟩
  | done => exact ⟨fun h => absurd h (conclude_ne_failure a ctx _ none s₁ w₁), nofun⟩
  | handoff signal =>
    exact ⟨fun h => absurd h (conclude_ne_failure a ctx _ (some signal) s₁ w₁), nofun⟩

end Loop

end Agent

/-- The loop of an agent ends within its cap. The layers around the agent may do anything, but leave
the count of the calls of the model alone and divert the agent from a call of the model to its tools
only so often. Then the loop comes to an end by itself, with no more calls of the model than the
agent may make. And it ends with the report that these are too many exactly if a further call is
due, let through by the hooks before it, with all of them made. -/
theorem iterations_capped (a : Agent σ) (ctx : NodeContext) (s : Snapshot) (w : World σ) (D : Nat)
    (hcount : a.chain.KeepsCount)
    (hdiverted : ∀ n requests diversions s₁ e w₁,
      a.Reaches ctx s w n requests diversions s₁ e w₁ → diversions ≤ D) :
    ∃ n requests diversions s₁ e w₁, a.Reaches ctx s w n requests diversions s₁ (.ended e) w₁ ∧
      n ≤ 2 * (a.maxIterations + D) + 2 ∧ requests.length ≤ a.maxIterations ∧ e ≠ .endless ∧
      (e = .failed a.capMessage ↔ a.Exceeds ctx s w) ∧
      ∀ patience ≥ n, a.looped ctx s patience w = ((s₁, e), w₁) ∧
        ((a.node patience ctx s w).1 = .ok (.failure a.capMessage) ↔ a.Exceeds ctx s w) := by
  obtain ⟨n, hn, requests, diversions, s₁, e, w₁, h⟩ := Agent.Reaches.exists_ended hcount hdiverted
  have hexceeds := h.exceeds_iff hcount
  refine ⟨n, requests, diversions, s₁, e, w₁, h, hn, (h.count hcount).2, ?_, hexceeds, ?_⟩
  · exact fun he => h.ne_endless hcount (congrArg TurnEnd.ended he)
  · intro patience hpatience
    have hloop := h.looped_eq hpatience
    rw [a.node_failure_iff, hloop]
    exact ⟨rfl, hexceeds⟩

/-- An agent whose model asks for a tool that it does not have, over and over, with a layer that
sends it to its tools after each call. -/
def loopyAgent : Agent Unit where
  name := "Ada"
  modelName := ""
  model := fun _ => pure (.ok (.calling "" [⟨"call_1", "look", .null⟩]))
  systemPrompt := none
  prompt := none
  maxIterations := 2
  tools := []
  chain := [{ Middleware.passing "around" with afterModel := fun s => pure (s, .ok (some .tools)) }]
  supervisor := none

theorem loopyAgent_keepsCount : loopyAgent.chain.KeepsCount := by
  intro m hm
  cases List.mem_singleton.mp hm
  exact ⟨fun s => .pure rfl, fun s => .pure rfl, fun s => .pure rfl⟩

theorem loopyAgent_undiverted (ctx : NodeContext) (s : Snapshot) (w : World Unit) :
    ∀ n requests diversions s₁ e w₁,
      loopyAgent.Reaches ctx s w n requests diversions s₁ e w₁ → diversions ≤ 0 :=
  fun _ _ _ _ _ _ h => Nat.le_of_eq (h.undiverted fun _ _ => nofun)

/-- It may call its model twice, and a third call is due. -/
theorem iterations_capped_loopy :
    let ctx := NodeContext.detached "ada"
    loopyAgent.chain.KeepsCount ∧
      (loopyAgent.node 6 ctx .empty (.start ())).1 =
        .ok (.failure "agent exceeded max iterations (2)") ∧
      loopyAgent.Exceeds ctx .empty (.start ()) := by
  intro ctx
  have hnode : (loopyAgent.node 6 ctx .empty (.start ())).1 =
      .ok (.failure "agent exceeded max iterations (2)") := rfl
  obtain ⟨n, requests, diversions, s₁, e, w₁, -, hn, -, -, -, hpatience⟩ :=
    iterations_capped loopyAgent ctx .empty (.start ()) 0 loopyAgent_keepsCount
      (loopyAgent_undiverted ctx _ _)
  exact ⟨loopyAgent_keepsCount, hnode, (hpatience 6 hn).2.mp hnode⟩

end Workgraph
