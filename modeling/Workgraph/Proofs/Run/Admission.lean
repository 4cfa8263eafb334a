import Workgraph.Proofs.Run.Session
/-!
# Admission

A thread is busy exactly as long as a call has let a run begin on it that has not been cleared away,
and there is never more than one such call, in whatever order the steps of all calls and runs
happen. A call that is refused leaves nothing behind.

## Main definitions

- `Session.Holds`, `Session.Held`: which call a thread is busy with
- `Session.Without`: sessions that differ in one call

## Main statements

- `Session.Held.run`: whatever happens, at most one call has the thread
- `Session.run_without`: a call that never had its thread might as well not have been made
- `one_run_at_a_time`: who is admitted to a thread, who is cancelled, and what a refusal leaves
  behind
-/

namespace Workgraph

variable {σ τ : Type} {e : Engine σ τ} {threadId : String} {number : Nat}

theorem EngineState.isActive_eq (s : EngineState σ τ) (threadId : String) :
    s.isActive threadId = (s.active.get? threadId).isSome :=
  Table.contains_eq_isSome _ _

theorem Call.holds_of_isOutside {c : Call σ} (h : c.isOutside = true) : c.holds = false := by
  cases c with
  | admitted options => cases h
  | running => cases h
  | _ => rfl

/-! ## One step -/

namespace Engine.Step

variable {s s' : EngineState σ τ} {c c' : Call σ}

/-- A step of a call has no part in the runs of other threads. -/
theorem active_of_ne (h : e.Step threadId s c c' s') {t : String} (hne : t ≠ threadId) :
    s'.active.get? t = s.active.get? t := by
  cases h with
  | claimed ha => exact Table.get?_insert_of_ne _ hne
  | moved ha hm => exact Table.get?_insert_of_ne _ hne
  | finished ha hstage => exact Table.get?_erase_of_ne hne
  | canceled ha => exact Table.get?_insert_of_ne _ hne
  | _ => rfl

/-- A call comes to have its thread only if the thread was not busy, and when it ceases to have it
the thread is free. Apart from that, a step of a call changes nothing about who has the thread. -/
theorem turns (h : e.Step threadId s c c' s') :
    (c'.holds = c.holds ∧ s'.isActive threadId = s.isActive threadId) ∨
    (c.holds = false ∧ c'.holds = true ∧ s.isActive threadId = false ∧
      s'.isActive threadId = true) ∨
    (c.holds = true ∧ c'.holds = false ∧ s'.isActive threadId = false) := by
  simp only [EngineState.isActive_eq]
  cases h with
  | outside hc hc' =>
    rw [Call.holds_of_isOutside hc, Call.holds_of_isOutside hc']
    exact .inl ⟨rfl, rfl⟩
  | claimed ha =>
    rw [ha, Table.get?_insert_self]
    exact .inr (.inl ⟨rfl, rfl, rfl, rfl⟩)
  | moved ha hm =>
    rw [ha, Table.get?_insert_self]
    exact .inl ⟨rfl, rfl⟩
  | finished ha hstage =>
    rw [Table.get?_erase_self]
    exact .inr (.inr ⟨rfl, rfl, rfl⟩)
  | canceled ha =>
    rw [ha, Table.get?_insert_self]
    exact .inl ⟨rfl, rfl⟩
  | _ => exact .inl ⟨rfl, rfl⟩

/-- A call on its way in changes nothing as long as it does not get in, and from then on it is not
refused any more. -/
theorem outside_or (h : e.Step threadId s c c' s') :
    (c.isOutside = true ∧ c'.isOutside = true ∧ s' = s) ∨ c'.isOutside = false := by
  cases h with
  | outside hc hc' => exact .inl ⟨hc, hc', rfl⟩
  | rested hc hc' hq => exact .inr hc
  | _ => exact .inr rfl

end Engine.Step

/-! ## Who has a thread -/

namespace Session

/-- A call has let a run begin on its thread that has not been cleared away. -/
def Holds (s : Session σ τ) (threadId : String) (number : Nat) : Prop :=
  ∃ c, s.calls threadId number = some c ∧ c.holds = true

/-- A thread is busy with one call, or it is free. -/
def Held (s : Session σ τ) : Prop :=
  ∀ t, ∃ holder : Option Nat, s.engine.isActive t = holder.isSome ∧
    ∀ n, s.Holds t n ↔ holder = some n

variable {s s' : Session σ τ}

theorem holds_put (s : Session σ τ) (threadId : String) (number : Nat)
    (p : Call σ × EngineState σ τ) (t : String) (n : Nat) :
    (s.put threadId number p).Holds t n ↔
      if t = threadId ∧ n = number then p.1.holds = true else s.Holds t n := by
  unfold Holds
  split
  · rename_i heq
    obtain ⟨rfl, rfl⟩ := heq
    rw [s.put_self]
    exact ⟨fun ⟨c, hc, h⟩ => by rw [Option.some.inj hc]; exact h, fun h => ⟨_, rfl, h⟩⟩
  · rename_i hne
    rw [s.put_of_ne p hne]

/-- A call that goes on to where its turn allows it leaves every thread busy with one call or
free. -/
theorem Held.put (h : s.Held) {c : Call σ} (hc : s.Holds threadId number ↔ c.holds = true)
    {p : Call σ × EngineState σ τ} (hne : ∀ t, t ≠ threadId → p.2.isActive t = s.engine.isActive t)
    (hturns : (p.1.holds = c.holds ∧ p.2.isActive threadId = s.engine.isActive threadId) ∨
      (c.holds = false ∧ p.1.holds = true ∧ s.engine.isActive threadId = false ∧
        p.2.isActive threadId = true) ∨
      (c.holds = true ∧ p.1.holds = false ∧ p.2.isActive threadId = false)) :
    (s.put threadId number p).Held := by
  intro t
  obtain ⟨holder, hactive, hholds⟩ := h t
  by_cases ht : t = threadId
  · subst ht
    -- Whoever else had the thread still has it, unless the call itself comes or goes.
    obtain ⟨hsame, hbusy⟩ | ⟨-, hin, hfree, hbusy⟩ | ⟨hin, hout, hfree⟩ := hturns
    · refine ⟨holder, hbusy.trans hactive, fun n => ?_⟩
      rw [s.holds_put, hsame, ← hc]
      split
      · rename_i heq
        rw [← heq.2]
        exact hholds n
      · exact hholds n
    · refine ⟨some number, hbusy, fun n => ?_⟩
      have hnone : holder = none := by
        rw [hactive] at hfree
        simpa using hfree
      rw [s.holds_put, hin, hholds, hnone]
      simp [eq_comm]
    · refine ⟨none, hfree, fun n => ?_⟩
      have hsome : holder = some number := (hholds number).mp (hc.mpr hin)
      rw [s.holds_put, hout, hholds, hsome]
      simp [eq_comm]
  · refine ⟨holder, (hne t ht).trans hactive, fun n => ?_⟩
    rw [s.holds_put, if_neg fun heq => ht heq.1]
    exact hholds n

/-- Whatever happens, every thread is busy with one call or free. -/
theorem Held.happens (h : s.Held) {a : Action σ} (ha : s.Happens e a s') : s'.Held := by
  cases ha with
  | made hc =>
    refine h.put (c := .asked _) ?_ (fun _ _ => rfl) (.inl ⟨rfl, rfl⟩)
    unfold Holds
    rw [hc]
    exact ⟨nofun, nofun⟩
  | @went t n c hc =>
    have hstep := e.step_step t s.engine c
    refine h.put ?_ (fun t' ht => ?_) hstep.turns
    · unfold Holds
      rw [hc]
      exact ⟨fun ⟨_, hsame, hholds⟩ => by rw [Option.some.inj hsame]; exact hholds,
        fun hholds => ⟨c, rfl, hholds⟩⟩
    · rw [EngineState.isActive_eq, EngineState.isActive_eq, hstep.active_of_ne ht]
  | _ => exact h

theorem Idle.held (h : s.Idle) : s.Held := by
  intro t
  refine ⟨none, h.active t, fun n => ?_⟩
  unfold Holds
  rw [h.calls]
  exact ⟨nofun, nofun⟩

theorem Held.run (h : s.Held) (e : Engine σ τ) (actions : List (Action σ)) :
    (s.run e actions).Held := by
  induction actions using List.reverseRecOn with
  | nil => exact h
  | append_singleton actions a ih =>
    rw [run_concat]
    exact ih.happens (act_happens _ e a)

theorem Held.busy_iff (h : s.Held) (t : String) :
    s.engine.isActive t = true ↔ ∃ n, s.Holds t n := by
  obtain ⟨holder, hactive, hholds⟩ := h t
  rw [hactive, Option.isSome_iff_exists]
  simp only [hholds]

theorem Held.unique (h : s.Held) {t : String} {n n' : Nat} (hn : s.Holds t n)
    (hn' : s.Holds t n') : n = n' := by
  obtain ⟨holder, -, hholds⟩ := h t
  exact Option.some.inj (((hholds n).mp hn).symm.trans ((hholds n').mp hn'))

/-! ## Refused calls -/

/-- The other session is the same, except that a call has not been made in it. -/
structure Without (threadId : String) (number : Nat) (s s' : Session σ τ) : Prop where
  engine : s.engine = s'.engine
  calls : ∀ t n, ¬(t = threadId ∧ n = number) → s.calls t n = s'.calls t n

/-- What happens to other calls happens as if the call had not been made. -/
theorem Without.act (h : Without threadId number s s') {a : Action σ}
    (ha : a.isOf threadId number = false) : Without threadId number (s.act e a) (s'.act e a) := by
  have hput : ∀ t n p, Without threadId number (s.put t n p) (s'.put t n p) := by
    refine fun t n p => ⟨rfl, fun t' n' hne => ?_⟩
    unfold Session.put
    dsimp only
    rw [h.calls t' n' hne]
  cases a with
  | ask t n q =>
    unfold Session.act
    dsimp only
    rw [h.engine, h.calls t n (by simpa [Action.isOf] using ha)]
    cases s'.calls t n with
    | some c => exact h
    | none => exact hput t n _
  | go t n =>
    unfold Session.act
    dsimp only
    rw [h.engine, h.calls t n (by simpa [Action.isOf] using ha)]
    cases s'.calls t n with
    | none => exact h
    | some c => exact hput t n _
  | register graphId w => exact ⟨by unfold Session.act; rw [h.engine], h.calls⟩
  | pass time => exact ⟨by unfold Session.act; rw [h.engine], h.calls⟩

/-- A call that goes on and changes nothing in the engine might as well not have been made. -/
theorem Without.put (h : Without threadId number s s') {p : Call σ × EngineState σ τ}
    (hp : p.2 = s.engine) : Without threadId number (s.put threadId number p) s' :=
  ⟨hp.trans h.engine, fun t n hne => (s.put_of_ne p hne).trans (h.calls t n hne)⟩

/-- Nothing that happens to others moves a call. -/
theorem Happens.calls_eq {a : Action σ} (h : s.Happens e a s')
    (ha : a.isOf threadId number = false) :
    s'.calls threadId number = s.calls threadId number := by
  have hput : ∀ t n p, (t == threadId && n == number) = false →
      (s.put t n p).calls threadId number = s.calls threadId number :=
    fun t n p hne => s.put_of_ne p fun heq => by simp [heq.1, heq.2] at hne
  cases h with
  | made hc => exact hput _ _ _ ha
  | went hc => exact hput _ _ _ ha
  | _ => rfl

/-- What happens to a call that has not had its thread so far: it gets in or is answered, or else it
might as well not have been made. -/
theorem Without.own {s₁ : Session σ τ} (h : Without threadId number s s') {a : Action σ}
    (hact : s.Happens e a s₁) (ha : a.isOf threadId number = true) :
    (∃ c, s₁.calls threadId number = some c ∧ c.isOutside = false) ∨
      Without threadId number s₁ s' := by
  cases hact with
  | @made t n q hc =>
    obtain ⟨rfl, rfl⟩ : t = threadId ∧ n = number := by simpa [Action.isOf] using ha
    exact .inr (h.put rfl)
  | @went t n c hc =>
    obtain ⟨rfl, rfl⟩ : t = threadId ∧ n = number := by simpa [Action.isOf] using ha
    obtain ⟨-, -, hsame⟩ | hin := (e.step_step t s.engine c).outside_or
    · exact .inr (h.put hsame)
    · exact .inl ⟨_, s.put_self .., hin⟩
  | registered graphId w => cases ha
  | passed time => cases ha
  | _ => exact .inr h

/-- A call that has got in or has been answered is not refused later. -/
theorem Happens.inside {a : Action σ} (h : s.Happens e a s') {c : Call σ}
    (hc : s.calls threadId number = some c) (hin : c.isOutside = false) :
    ∃ c, s'.calls threadId number = some c ∧ c.isOutside = false := by
  cases ha : a.isOf threadId number with
  | false => exact ⟨c, (h.calls_eq ha).trans hc, hin⟩
  | true =>
    cases h with
    | @made t n q hnone =>
      obtain ⟨rfl, rfl⟩ : t = threadId ∧ n = number := by simpa [Action.isOf] using ha
      cases hnone.symm.trans hc
    | @went t n c' hc' =>
      obtain ⟨rfl, rfl⟩ : t = threadId ∧ n = number := by simpa [Action.isOf] using ha
      cases hc'.symm.trans hc
      obtain ⟨hout, -⟩ | hin' := (e.step_step t s.engine c).outside_or
      · cases hin.symm.trans hout
      · exact ⟨_, s.put_self .., hin'⟩
    | registered graphId w => cases ha
    | passed time => cases ha
    | _ => exact ⟨c, hc, hin⟩

/-- A call that has not got in and has not been answered might as well not have been made. -/
theorem run_without (s : Session σ τ) (e : Engine σ τ) (actions : List (Action σ))
    (threadId : String) (number : Nat) :
    (∃ c, (s.run e actions).calls threadId number = some c ∧ c.isOutside = false) ∨
      Without threadId number (s.run e actions)
        (s.run e (actions.filter fun a => !a.isOf threadId number)) := by
  induction actions using List.reverseRecOn with
  | nil => exact .inr ⟨rfl, fun _ _ _ => rfl⟩
  | append_singleton actions a ih =>
    rw [run_concat, List.filter_append]
    obtain ⟨c, hc, hin⟩ | hwithout := ih
    · exact .inl ((act_happens _ e a).inside hc hin)
    · cases ha : a.isOf threadId number with
      | false =>
        rw [List.filter_singleton, ha]
        refine .inr ?_
        change Without threadId number _ (s.run e (_ ++ [a]))
        rw [run_concat]
        exact hwithout.act ha
      | true =>
        rw [List.filter_singleton, ha]
        change _ ∨ Without threadId number _ (s.run e (_ ++ []))
        rw [List.append_nil]
        exact hwithout.own (act_happens _ e a) ha

/-- A cancellation reaches the active run of its thread and nothing else; it is answered whether
there is one. -/
theorem act_cancel (s : Session σ τ) (e : Engine σ τ)
    (hc : s.calls threadId number = some (.asked .cancel)) :
    let s' := s.act e (.go threadId number)
    s'.calls threadId number = some (.answered (s.engine.isActive threadId)) ∧
      s'.engine = { s.engine with active := s'.engine.active } ∧
      s'.engine.active.get? threadId =
        (s.engine.active.get? threadId).map ({ · with cancelled := true }) ∧
      ∀ t, t ≠ threadId → s'.engine.active.get? t = s.engine.active.get? t := by
  intro s'
  have hs' : s' = s.put threadId number (e.step threadId s.engine (.asked .cancel)) := by
    change s.act e (.go threadId number) = _
    unfold Session.act
    dsimp only
    rw [hc]
  rw [hs', s.put_self, s.engine.isActive_eq]
  cases ha : s.engine.active.get? threadId with
  | none =>
    have hstep : e.step threadId s.engine (.asked .cancel) = (.answered false, s.engine) := by
      unfold Engine.step EngineState.cancel
      dsimp only
      rw [ha]
    rw [hstep]
    exact ⟨rfl, rfl, ha, fun _ _ => rfl⟩
  | some run =>
    have hstep : e.step threadId s.engine (.asked .cancel) = (.answered true,
        { s.engine with
          active := s.engine.active.insert threadId { run with cancelled := true } }) := by
      unfold Engine.step EngineState.cancel
      dsimp only
      rw [ha]
    rw [hstep]
    exact ⟨rfl, rfl, Table.get?_insert_self _ _ _, fun t ht => Table.get?_insert_of_ne _ ht⟩

end Session

open Session

/-- Admission to threads. However the steps of all calls and of their runs follow one another, with
workflows registered in between, a thread is active exactly if a call has let a run begin on it that
has not been cleared away, and there is at most one such call. A cancellation is answered according
to whether its thread is active, and all that it changes is that the run of this thread is
cancelled. A call that is refused leaves the engine, with its workflows, its active runs, what it
remembers of threads and its archive, as well as all other calls exactly as if it had not been
made. -/
theorem one_run_at_a_time (e : Engine σ τ) {s₀ : Session σ τ} (h₀ : s₀.Idle)
    (actions : List (Action σ)) (threadId : String) :
    let s := s₀.run e actions
    (s.engine.isActive threadId = true ↔ ∃ n, s.Holds threadId n) ∧
    (∀ n n', s.Holds threadId n → s.Holds threadId n' → n = n') ∧
    (∀ n, s.calls threadId n = some (.asked .cancel) →
      let s' := s.act e (.go threadId n)
      s'.calls threadId n = some (.answered (s.engine.isActive threadId)) ∧
        s'.engine = { s.engine with active := s'.engine.active } ∧
        s'.engine.active.get? threadId =
          (s.engine.active.get? threadId).map ({ · with cancelled := true }) ∧
        ∀ t, t ≠ threadId → s'.engine.active.get? t = s.engine.active.get? t) ∧
    ∀ n err, s.calls threadId n = some (.refused err) →
      let s' := s₀.run e (actions.filter fun a => !a.isOf threadId n)
      s.engine = s'.engine ∧
        ∀ t k, ¬(t = threadId ∧ k = n) → s.calls t k = s'.calls t k := by
  intro s
  have hheld := h₀.held.run e actions
  refine ⟨hheld.busy_iff threadId, fun n n' => hheld.unique, fun n => s.act_cancel e, ?_⟩
  intro n err hrefused
  obtain ⟨c, hc, hin⟩ | hwithout := s₀.run_without e actions threadId n
  · cases hrefused.symm.trans hc
    cases hin
  · exact ⟨hwithout.engine, hwithout.calls⟩

/-! ## Two calls that start a run on one thread -/

/-- Nothing has been asked of the engine with the workflow of the uneven branches. -/
def forkSession : Session Unit Chains := ⟨forkIdle, fun _ _ => none⟩

/-- A call starts a run on a thread; before its run has made a move, another one tries to start a
run with another pause, and then the run is cancelled. -/
def busyActions : List (Action Unit) :=
  let first : Request := .start "uneven" ⟨.null, .null, none, [], []⟩
  let second : Request := .start "uneven" ⟨.null, .null, none, ["c"], []⟩
  [.ask "t" 0 first, .go "t" 0, .ask "t" 1 second, .go "t" 0, .go "t" 1, .go "t" 1, .go "t" 0,
    .ask "t" 2 .cancel]

theorem forkSession_idle : forkSession.Idle where
  calls := fun _ _ => rfl
  active := fun _ => rfl

theorem one_run_at_a_time_busy :
    forkSession.Idle ∧
      (forkSession.run forkEngine busyActions).calls "t" 1 =
        some (.refused (.threadBusy "t")) ∧
      (forkSession.run forkEngine busyActions).calls "t" 2 = some (.asked .cancel) ∧
      (forkSession.run forkEngine busyActions).engine =
        (forkSession.run forkEngine (busyActions.filter fun a => !a.isOf "t" 1)).engine ∧
      ((forkSession.run forkEngine busyActions).act forkEngine (.go "t" 2)).calls "t" 2 =
        some (.answered true) := by
  have hrefused : (forkSession.run forkEngine busyActions).calls "t" 1 =
      some (.refused (.threadBusy "t")) := rfl
  have hasked : (forkSession.run forkEngine busyActions).calls "t" 2 = some (.asked .cancel) := rfl
  obtain ⟨-, -, hcancel, hrefusal⟩ :=
    one_run_at_a_time forkEngine forkSession_idle busyActions "t"
  have hactive : (forkSession.run forkEngine busyActions).engine.isActive "t" = true := by
    decide +kernel
  refine ⟨forkSession_idle, hrefused, hasked, (hrefusal 1 _ hrefused).1, ?_⟩
  rw [← hactive]
  exact (hcancel 2 hasked).1

end Workgraph
