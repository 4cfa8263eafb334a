import Workgraph.Proofs.Run.Announced
import Workgraph.Proofs.Run.Recording
/-!
# Step budgets

A run with a limit, compared to the same run without one. The run without a limit has its budget
topped up behind every move, so that there is always one more step to begin. Both go side by side as
long as the first can pay for the steps of the second; the budget is spent on nothing but steps, one
for each step that is begun, whether or not it comes through.

## Main definitions

- `Stage.due`: the step that the next move begins
- `Runner.unlimited`: the run without a limit
- `Runner.unlimitedSteps`: the steps that it begins

## Main statements

- `Runner.unlimited_withLimit`: the run without a limit does not depend on the limit
- `Runner.moves_eq_unlimited`: a run goes along with the unlimited one while its budget lasts
- `budget_exact`: a run whose steps are within the limit ends as if there were none, and any other
  fails behind exactly as many steps as the limit allows
-/

namespace Workgraph

variable {σ τ α : Type}

/-- The cursor with another budget. -/
def Cursor.withBudget (c : Cursor) (budget : Nat) : Cursor := { c with budget := budget }

namespace Stage

/-- The stage with another budget. -/
def withBudget (budget : Nat) : Stage → Stage
  | waiting start => waiting start
  | ready c => ready (c.withBudget budget)
  | running c arrivals => running (c.withBudget budget) arrivals
  | accepted c outputs => accepted (c.withBudget budget) outputs
  | ended o => ended o

/-- The frontier of the step that the next move begins, if it begins one and there is budget. -/
def due (w : RunWorld σ τ) : Stage → List (List String)
  | ready c => if c.frontier.isEmpty || w.world.cancelled then [] else [c.frontier]
  | _ => []

/-- The number of the last step that has begun. -/
def progress : Stage → Nat
  | waiting start => start.step
  | ready c => c.step
  | running c _ => c.step + 1
  | accepted c _ => c.step + 1
  | ended o => o.steps

theorem due_ready_of_empty {c : Cursor} {w : RunWorld σ τ} (h : c.frontier.isEmpty = true) :
    (ready c).due w = [] := by
  simp [due, h]

theorem due_ready_of_cancelled {c : Cursor} {w : RunWorld σ τ} (h : w.world.cancelled = true) :
    (ready c).due w = [] := by
  simp [due, h]

theorem due_ready {c : Cursor} {w : RunWorld σ τ} (hf : c.frontier ≠ [])
    (hw : w.world.cancelled = false) : (ready c).due w = [c.frontier] := by
  simp [due, hf, hw]

theorem length_due_le (w : RunWorld σ τ) (stage : Stage) : (stage.due w).length ≤ 1 := by
  cases stage with
  | ready c =>
    unfold due
    dsimp only
    split <;> simp
  | _ => simp [due]

/-- Where a step is due, the run stands between two steps with something to do. -/
theorem exists_ready_of_due {stage : Stage} {w : RunWorld σ τ} (h : stage.due w ≠ []) :
    ∃ c, stage = ready c ∧ c.frontier ≠ [] ∧ w.world.cancelled = false := by
  cases stage with
  | ready c =>
    refine ⟨c, rfl, ?_, ?_⟩
    · intro hf
      exact h (due_ready_of_empty (by rw [hf]; rfl))
    · by_contra hw
      exact h (due_ready_of_cancelled (by simpa using hw))
  | _ => exact absurd rfl h

@[simp] theorem due_withBudget (stage : Stage) (budget : Nat) (w : RunWorld σ τ) :
    (stage.withBudget budget).due w = stage.due w := by
  cases stage <;> rfl

@[simp] theorem begun_withBudget (stage : Stage) (budget : Nat) :
    (stage.withBudget budget).begun = stage.begun := by
  cases stage <;> rfl

@[simp] theorem progress_withBudget (stage : Stage) (budget : Nat) :
    (stage.withBudget budget).progress = stage.progress := by
  cases stage <;> rfl

@[simp] theorem withBudget_withBudget (stage : Stage) (b b' : Nat) :
    (stage.withBudget b).withBudget b' = stage.withBudget b' := by
  cases stage <;> rfl

theorem withBudget_eq_ended_iff {stage : Stage} {budget : Nat} {o : Outcome} :
    stage.withBudget budget = ended o ↔ stage = ended o := by
  cases stage <;> simp [withBudget]

end Stage

/-! ## What the budget is not asked for -/

/-- A part of a run does what it does whatever the world is. -/
theorem RunPart.Relates.refl (p : RunPart σ τ α) : RunPart.Relates Eq Eq p p := by
  rintro w _ rfl
  exact ⟨rfl, rfl⟩

/-- One part of a run does the same as another, but comes out with a budget of its own. -/
abbrev RunPart.Pays (budget : Nat) (p q : RunPart σ τ Stage) : Prop :=
  RunPart.Relates Eq (fun stage stage' => stage = stage'.withBudget budget) p q

theorem RunPart.Pays.apply {budget : Nat} {p q : RunPart σ τ Stage} (h : RunPart.Pays budget p q)
    (w : RunWorld σ τ) : p w = ((q w).1.withBudget budget, (q w).2) :=
  Prod.ext (h w w rfl).1 (h w w rfl).2

namespace Runner

section Parts

open RunPart

variable (r : Runner σ τ) (budget : Nat)

theorem stop_pays (c : Cursor) (status : RunStatus) (i : Option Interrupt) :
    Pays budget (r.stop (c.withBudget budget) status i) (r.stop c status i) :=
  .bind_eq (.refl _) fun _ => .pure rfl

theorem fail_pays (c : Cursor) (e : RunError) :
    Pays budget (r.fail (c.withBudget budget) e) (r.fail c e) :=
  .bind_eq (.refl _) fun _ => .bind_eq (.refl _) fun _ => .pure rfl

theorem save_pays (c : Cursor) (record : StepRecord) :
    Relates Eq (fun result result' => result = result'.map (·.withBudget budget))
      (r.save (c.withBudget budget) record) (r.save c record) := by
  refine .bind_eq (.refl _) fun number => .bind_eq (.refl _) fun time => .bind_eq (.refl _) ?_
  rintro (e | id)
  · exact .pure rfl
  · exact .pure rfl

theorem pause_pays (c : Cursor) (record : StepRecord) (i : Interrupt) :
    Pays budget (r.pause (c.withBudget budget) record i) (r.pause c record i) := by
  refine .bind (r.save_pays budget c _) ?_
  rintro _ (e | c') rfl
  · exact r.fail_pays budget c e
  · exact .bind_eq (.refl _) fun _ => r.stop_pays budget c' _ _

theorem runNodes_withBudget (c : Cursor) (base : Nat) (order : List Nat) :
    r.runNodes (c.withBudget budget) base order = r.runNodes c base order := by
  induction order with
  | nil => rfl
  | cons index rest ih =>
    unfold runNodes
    rw [ih]
    rfl

theorem runFrontier_pays (c : Cursor) :
    Pays budget (r.runFrontier (c.withBudget budget)) (r.runFrontier c) := by
  unfold runFrontier
  rw [show (c.withBudget budget).frontier = c.frontier from rfl]
  cases c.frontier.find? fun key => !r.workflow.contains key with
  | some key => exact r.fail_pays budget c _
  | none =>
    refine .bind_eq (.refl _) fun base => .bind_eq (.refl _) fun _ => ?_
    rw [runNodes_withBudget]
    exact .bind_eq (.refl _) fun arrivals => .bind_eq (.refl _) fun _ => .pure rfl

theorem gather_pays (c : Cursor) (arrivals : Arrivals) :
    Pays budget (r.gather (c.withBudget budget) arrivals) (r.gather c arrivals) := by
  refine .bind_eq (.refl _) fun cancelled => ?_
  cases cancelled with
  | true => exact r.stop_pays budget c _ _
  | false =>
    rw [if_neg Bool.false_ne_true, if_neg Bool.false_ne_true,
      show (c.withBudget budget).frontier = c.frontier from rfl]
    cases barrier c.frontier arrivals with
    | ok outputs => exact .pure rfl
    | error failure => exact .bind_eq (.refl _) fun _ => r.fail_pays budget c _

theorem route_pays (c : Cursor) (record : StepRecord) (i : Option Interrupt) :
    Pays budget (r.route (c.withBudget budget) record i) (r.route c record i) := by
  unfold route
  rw [show (c.withBudget budget).store = c.store from rfl]
  cases r.workflow.candidates record.ranNodes record.handoffs c.store.state with
  | error e => exact r.fail_pays budget c e
  | ok routed =>
    cases i with
    | none => exact .pure rfl
    | some i => exact r.pause_pays budget (c.sentTo (r.workflow.holdJoins
        (appendNew routed c.deferred))) record i

theorem settle_pays (c : Cursor) (outputs : List NodeOutput) :
    Pays budget (r.settle (c.withBudget budget) outputs) (r.settle c outputs) := by
  refine .bind_eq (.refl _) ?_
  rintro ⟨store, _ | e⟩
  · refine .bind (r.save_pays budget (c.stepped store) _) ?_
    rintro _ (e | c') rfl
    · exact r.fail_pays budget (c.stepped store) e
    · exact r.route_pays budget c' _ _
  · exact r.fail_pays budget { c with store := store } e

end Parts

/-! ## What a step costs -/

variable (r : Runner σ τ)

theorem dispatch_of_empty {c : Cursor} (hf : c.frontier.isEmpty = true) (budget : Nat) :
    r.dispatch (c.withBudget budget) = r.stop (c.withBudget budget) .completed none := by
  unfold dispatch
  rw [if_pos (show (c.withBudget budget).frontier.isEmpty = true from hf)]

theorem dispatch_of_cancelled {c : Cursor} {w : RunWorld σ τ} (hf : ¬c.frontier.isEmpty = true)
    (hw : w.world.cancelled = true) (budget : Nat) :
    r.dispatch (c.withBudget budget) w = r.stop (c.withBudget budget) .canceled none w := by
  unfold dispatch
  rw [if_neg (show ¬(c.withBudget budget).frontier.isEmpty = true from hf), RunPart.bind_apply]
  change (if w.world.cancelled = true then _ else _ : RunPart σ τ Stage) w = _
  rw [if_pos hw]

theorem dispatch_of_pause {c : Cursor} {w : RunWorld σ τ} (hf : ¬c.frontier.isEmpty = true)
    (hw : w.world.cancelled = false) {key : String} (hp : r.pauseAhead? c = some key)
    (budget : Nat) :
    r.dispatch (c.withBudget (budget + 1)) w = r.pause (c.withBudget budget)
      (r.pendingRecord c (.plain key "interrupt_before")) (.plain key "interrupt_before") w := by
  unfold dispatch
  rw [if_neg (show ¬(c.withBudget (budget + 1)).frontier.isEmpty = true from hf),
    RunPart.bind_apply]
  change (if w.world.cancelled = true then _ else _ : RunPart σ τ Stage) w = _
  rw [hw, if_neg Bool.false_ne_true]
  dsimp only [Cursor.withBudget]
  rw [show r.pauseAhead? { c with budget := budget } = some key from hp]
  rfl

theorem dispatch_of_goes {c : Cursor} {w : RunWorld σ τ} (hf : ¬c.frontier.isEmpty = true)
    (hw : w.world.cancelled = false) (hp : r.pauseAhead? c = none) (budget : Nat) :
    r.dispatch (c.withBudget (budget + 1)) w = r.runFrontier (c.entered budget) w := by
  unfold dispatch
  rw [if_neg (show ¬(c.withBudget (budget + 1)).frontier.isEmpty = true from hf),
    RunPart.bind_apply]
  change (if w.world.cancelled = true then _ else _ : RunPart σ τ Stage) w = _
  rw [hw, if_neg Bool.false_ne_true]
  dsimp only [Cursor.withBudget]
  rw [show r.pauseAhead? { c with budget := budget } = none from hp]
  rfl

theorem dispatch_pays {c : Cursor} {w : RunWorld σ τ} {budget : Nat}
    (hb : ((Stage.ready c).due w).length ≤ budget) :
    r.dispatch (c.withBudget budget) w =
      ((r.dispatch (c.withBudget 1) w).1.withBudget (budget - ((Stage.ready c).due w).length),
        (r.dispatch (c.withBudget 1) w).2) := by
  by_cases hf : c.frontier.isEmpty = true
  · rw [Stage.due_ready_of_empty hf, r.dispatch_of_empty hf, r.dispatch_of_empty hf]
    exact (r.stop_pays budget (c.withBudget 1) _ _).apply w
  · cases hw : w.world.cancelled with
    | true =>
      rw [Stage.due_ready_of_cancelled hw, r.dispatch_of_cancelled hf hw,
        r.dispatch_of_cancelled hf hw]
      exact (r.stop_pays budget (c.withBudget 1) _ _).apply w
    | false =>
      -- One of the budget is spent on both sides, and the rest is not asked for.
      rw [Stage.due_ready (by simpa using hf) hw] at hb ⊢
      obtain ⟨rest, rfl⟩ := Nat.exists_eq_add_of_le' hb
      cases hp : r.pauseAhead? c with
      | some key =>
        rw [List.length_singleton, r.dispatch_of_pause hf hw hp rest,
          r.dispatch_of_pause hf hw hp 0]
        exact (r.pause_pays rest (c.withBudget 0) _ _).apply w
      | none =>
        rw [List.length_singleton, r.dispatch_of_goes hf hw hp rest, r.dispatch_of_goes hf hw hp 0]
        exact (r.runFrontier_pays rest (c.entered 0)).apply w

/-- A move costs as much as there are steps due, and does the same with more than that. -/
theorem advance_pays {stage : Stage} {w : RunWorld σ τ} {budget : Nat}
    (hs : ∀ start, stage ≠ .waiting start) (hb : (stage.due w).length ≤ budget) :
    r.advance (stage.withBudget budget) w =
      ((r.advance (stage.withBudget 1) w).1.withBudget (budget - (stage.due w).length),
        (r.advance (stage.withBudget 1) w).2) := by
  cases stage with
  | waiting start => exact absurd rfl (hs start)
  | ready c => exact r.dispatch_pays hb
  | running c arrivals => exact (r.gather_pays budget (c.withBudget 1) arrivals).apply w
  | accepted c outputs => exact (r.settle_pays budget (c.withBudget 1) outputs).apply w
  | ended o => rfl

/-! ## The run without a limit -/

section Unlimited

/-- Where the run without a limit stands after a number of moves. Its budget is topped up behind
every move. -/
def unlimited (start : RunStart) (w : RunWorld σ τ) : Nat → Stage × RunWorld σ τ
  | 0 => (.waiting start, w)
  | n + 1 =>
    ((r.advance (unlimited start w n).1 (unlimited start w n).2).1.withBudget 1,
      (r.advance (unlimited start w n).1 (unlimited start w n).2).2)

/-- The frontiers of the steps that the run without a limit begins within a number of moves. -/
def unlimitedSteps (start : RunStart) (w : RunWorld σ τ) : Nat → List (List String)
  | 0 => []
  | n + 1 => unlimitedSteps start w n ++ (r.unlimited start w n).1.due (r.unlimited start w n).2

/-- The runner with another limit. -/
def withLimit (limit : Nat) : Runner σ τ := { r with limit := limit }

theorem withLimit_runNodes (limit : Nat) (c : Cursor) (base : Nat) (order : List Nat) :
    (r.withLimit limit).runNodes c base order = r.runNodes c base order := by
  induction order with
  | nil => rfl
  | cons index rest ih =>
    unfold runNodes
    rw [ih]
    rfl

theorem withLimit_writeAll (limit step : Nat) (store : Store)
    (outputs : List (String × NodeOutput)) :
    (r.withLimit limit).writeAll step store outputs = r.writeAll step store outputs := by
  induction outputs generalizing store with
  | nil => rfl
  | cons output rest ih =>
    unfold writeAll
    simp only [ih]
    rfl

theorem withLimit_resumedCursor (limit : Nat) (cp : Checkpoint) (input : Option Json) :
    (r.withLimit limit).resumedCursor cp input =
      (r.resumedCursor cp input).map (·.withBudget limit) := by
  unfold resumedCursor
  change (r.workflow.resumeFrontier (r.resumedStore cp input).state cp.record >>= _) =
    Except.map _ (r.workflow.resumeFrontier (r.resumedStore cp input).state cp.record >>= _)
  cases r.workflow.resumeFrontier (r.resumedStore cp input).state cp.record <;> rfl

theorem withLimit_begin (limit : Nat) (start : RunStart) (w : RunWorld σ τ) :
    (((r.withLimit limit).begin start w).1.withBudget 1, ((r.withLimit limit).begin start w).2) =
      ((r.begin start w).1.withBudget 1, (r.begin start w).2) := by
  have hsame : RunPart.Relates Eq (fun stage stage' => stage.withBudget 1 = stage'.withBudget 1)
      ((r.withLimit limit).begin start) (r.begin start) := by
    refine .bind_eq (.refl _) fun _ => ?_
    cases start with
    | fresh input environment =>
      refine .bind ((r.save_pays limit (r.freshCursor input environment) _)) ?_
      rintro _ (e | c) rfl
      · exact .bind_eq (.refl _) fun _ => .bind_eq (.refl _) fun _ => .pure rfl
      · exact .pure rfl
    | resume cp input =>
      dsimp only
      rw [withLimit_resumedCursor]
      cases r.resumedCursor cp input with
      | ok c => exact .pure (Stage.withBudget_withBudget (.ready c) limit 1)
      | error e => exact .bind_eq (.refl _) fun _ => .bind_eq (.refl _) fun _ => .pure rfl
  exact Prod.ext (hsame w w rfl).1 (hsame w w rfl).2

theorem withLimit_advance (limit : Nat) {stage : Stage} (hs : ∀ start, stage ≠ .waiting start)
    (w : RunWorld σ τ) :
    (r.withLimit limit).advance (stage.withBudget 1) w = r.advance (stage.withBudget 1) w := by
  cases stage with
  | waiting start => exact absurd rfl (hs start)
  | ready c =>
    change (r.withLimit limit).dispatch (c.withBudget 1) w = r.dispatch (c.withBudget 1) w
    unfold dispatch runFrontier
    simp only [withLimit_runNodes]
    rfl
  | running c arrivals => rfl
  | accepted c outputs =>
    change (r.withLimit limit).settle (c.withBudget 1) outputs w =
      r.settle (c.withBudget 1) outputs w
    unfold settle
    rw [withLimit_writeAll]
    rfl
  | ended o => rfl

theorem Move.ne_waiting {r : Runner σ τ} {stage stage' : Stage} {w w' : RunWorld σ τ}
    (h : r.Move stage w stage' w') (start : RunStart) : stage' ≠ .waiting start := by
  cases h <;> exact fun he => nomatch he

theorem unlimited_ne_waiting (start : RunStart) (w : RunWorld σ τ) (n : Nat) (start' : RunStart) :
    (r.unlimited start w (n + 1)).1 ≠ .waiting start' := by
  intro h
  have hmove := (r.advance_move (r.unlimited start w n).1 (r.unlimited start w n).2).ne_waiting
    start'
  unfold unlimited at h
  cases hstage : (r.advance (r.unlimited start w n).1 (r.unlimited start w n).2).1 with
  | waiting start'' =>
    rw [hstage] at h
    exact hmove (by rw [hstage]; exact h)
  | _ =>
    rw [hstage] at h
    cases h

theorem unlimited_withBudget (start : RunStart) (w : RunWorld σ τ) (n : Nat) :
    (r.unlimited start w (n + 1)).1.withBudget 1 = (r.unlimited start w (n + 1)).1 :=
  Stage.withBudget_withBudget _ _ _

/-- The run without a limit is the same for all limits. -/
theorem unlimited_withLimit (limit : Nat) (start : RunStart) (w : RunWorld σ τ) (n : Nat) :
    (r.withLimit limit).unlimited start w n = r.unlimited start w n := by
  induction n with
  | zero => rfl
  | succ n ih =>
    unfold unlimited
    rw [ih]
    cases n with
    | zero => exact r.withLimit_begin limit start w
    | succ n =>
      rw [← r.unlimited_withBudget, r.withLimit_advance limit (r.unlimited_ne_waiting start w n)]

end Unlimited

/-! ## Side by side -/

section SideBySide

variable {r} {start : RunStart} {w : RunWorld σ τ}

theorem begin_withBudget (start : RunStart) (w : RunWorld σ τ) :
    (r.begin start w).1.withBudget r.limit = (r.begin start w).1 := by
  have hmove := r.begin_move start w
  generalize (r.begin start w).1 = stage, (r.begin start w).2 = w' at hmove
  cases hmove with
  | begun log hs => rfl
  | resumed log hc =>
    obtain ⟨split, -, rfl⟩ := r.resumedCursor_eq_ok_iff.mp hc
    rfl
  | _ => rfl

theorem unlimitedSteps_succ (n : Nat) : r.unlimitedSteps start w (n + 1) =
    r.unlimitedSteps start w n ++ (r.unlimited start w n).1.due (r.unlimited start w n).2 := rfl

theorem unlimitedSteps_length_mono {m n : Nat} (h : m ≤ n) :
    (r.unlimitedSteps start w m).length ≤ (r.unlimitedSteps start w n).length := by
  induction h with
  | refl => exact Nat.le_refl _
  | step _ ih =>
    rw [unlimitedSteps_succ, List.length_append]
    exact Nat.le_add_right_of_le ih

/-- A run goes along with the unlimited one while its budget lasts, and has paid for its steps. -/
theorem moves_eq_unlimited {n : Nat} (h : (r.unlimitedSteps start w n).length ≤ r.limit) :
    r.moves n (.waiting start) w =
      ((r.unlimited start w n).1.withBudget (r.limit - (r.unlimitedSteps start w n).length),
        (r.unlimited start w n).2) := by
  induction n with
  | zero => rfl
  | succ n ih =>
    rw [moves_succ_last, ih (Nat.le_trans (unlimitedSteps_length_mono n.le_succ) h)]
    cases n with
    | zero =>
      refine Prod.ext ?_ rfl
      exact ((Stage.withBudget_withBudget _ _ _).trans (begin_withBudget start w)).symm
    | succ n =>
      rw [unlimitedSteps_succ (n + 1), List.length_append] at h ⊢
      refine (r.advance_pays (r.unlimited_ne_waiting start w n) (Nat.le_sub_of_add_le' h)).trans ?_
      rw [unlimited_withBudget, Nat.sub_sub]
      exact Prod.ext (Stage.withBudget_withBudget _ _ _).symm rfl

/-- The run without a limit stays at its end, if it comes to one. -/
theorem unlimited_ended {m n : Nat} {o : Outcome} (h : (r.unlimited start w n).1 = .ended o)
    (hle : n ≤ m) : (r.unlimited start w m).1 = .ended o := by
  induction hle with
  | refl => exact h
  | step _ ih =>
    unfold unlimited
    rw [ih]
    rfl

/-- What has not ended the run has come to be a step under way. -/
theorem Move.begun_eq_due {stage stage' : Stage} {w w' : RunWorld σ τ}
    (h : r.Move stage w stage' w') (hs : ∀ o, stage' ≠ .ended o) : stage'.begun = stage.due w := by
  cases h with
  | dispatched log log' hf hw hb hp hk ha => exact (Stage.due_ready hf hw).symm
  | begun => rfl
  | resumed => rfl
  | accepted => rfl
  | settled => rfl
  | rested o => exact absurd rfl (hs o)
  | _ => exact absurd rfl (hs _)

/-- A step that is due is the next one. -/
theorem Move.progress_eq {stage stage' : Stage} {w w' : RunWorld σ τ}
    (h : r.Move stage w stage' w') (hs : ∀ o, stage' ≠ .ended o) :
    stage'.progress = stage.progress + (stage.due w).length := by
  cases h with
  | dispatched log log' hf hw hb hp hk ha =>
    rw [Stage.due_ready hf hw]
    rfl
  | begun => rfl
  | resumed log hc =>
    obtain ⟨split, -, rfl⟩ := r.resumedCursor_eq_ok_iff.mp hc
    rfl
  | accepted => rfl
  | settled => rfl
  | rested o => exact absurd rfl (hs o)
  | _ => exact absurd rfl (hs _)

/-- While the run without a limit goes on, the steps it has begun count up its progress, and a run
whose budget has lasted so far has begun the same. -/
theorem unlimitedSteps_spec {n : Nat} (hn : ∀ o, (r.unlimited start w n).1 ≠ .ended o) :
    (r.unlimited start w n).1.progress = start.step + (r.unlimitedSteps start w n).length ∧
      ((r.unlimitedSteps start w n).length ≤ r.limit →
        r.frontiers n (.waiting start) w = r.unlimitedSteps start w n) := by
  induction n with
  | zero => exact ⟨rfl, fun _ => rfl⟩
  | succ n ih =>
    obtain ⟨hprogress, hfrontiers⟩ := ih fun o ho => hn o (unlimited_ended ho n.le_succ)
    have hmove := r.advance_move (r.unlimited start w n).1 (r.unlimited start w n).2
    have hgoes : ∀ o, (r.advance (r.unlimited start w n).1 (r.unlimited start w n).2).1 ≠
        .ended o := fun o ho => hn o (Stage.withBudget_eq_ended_iff.mpr ho)
    rw [unlimitedSteps_succ, List.length_append]
    constructor
    · rw [← Nat.add_assoc, ← hprogress, ← hmove.progress_eq hgoes]
      exact Stage.progress_withBudget _ _
    · intro hle
      have hmoves := moves_eq_unlimited (n := n + 1)
        (by rwa [unlimitedSteps_succ, List.length_append])
      rw [frontiers_succ_last, hfrontiers (by omega), hmoves, ← hmove.begun_eq_due hgoes,
        Stage.begun_withBudget]
      exact congrArg _ (Stage.begun_withBudget _ _)

/-- A run that still goes on beyond the limit does not end within it. -/
theorem beyond_limit_of_goes {n : Nat} (h : r.limit < (r.unlimitedSteps start w n).length)
    (hn : ∀ o, (r.unlimited start w n).1 ≠ .ended o) (m : Nat) (o : Outcome)
    (ho : (r.unlimited start w m).1 = .ended o) :
    r.limit < (r.unlimitedSteps start w m).length := by
  obtain hle | hle := Nat.le_total m n
  · exact absurd (unlimited_ended ho hle) (hn o)
  · exact Nat.lt_of_lt_of_le h (unlimitedSteps_length_mono hle)

/-- Without a budget nothing can be begun. -/
theorem advance_exhausted {c : Cursor} (hf : c.frontier ≠ []) (hw : w.world.cancelled = false) :
    ∃ log, r.advance (.ready (c.withBudget 0)) w =
      (.ended (r.failedAt c (.stepBudget r.limit)), w.turn 0 w.archive log) := by
  have hmove := r.advance_move (.ready (c.withBudget 0)) w
  obtain ⟨stage', w', hadvance⟩ : ∃ stage' w',
      r.advance (.ready (c.withBudget 0)) w = (stage', w') := ⟨_, _, rfl⟩
  rw [hadvance] at hmove ⊢
  cases hmove with
  | completed log hf' => exact absurd hf' hf
  | canceled log hf' hw' => exact absurd (hw.symm.trans hw') Bool.false_ne_true
  | exhausted log hf' hw' hb => exact ⟨log, rfl⟩
  | pausedAhead log hf' hw' hb => cases hb
  | pauseAheadRefused log hf' hw' hb => cases hb
  | strayNode log hw' hb => cases hb
  | dispatched log log' hf' hw' hb => cases hb

/-- Some step of a run is the first that is not within the limit, unless the run ends before. -/
theorem exists_beyond_limit
    (h : ∀ n o, (r.unlimited start w n).1 = .ended o →
      r.limit < (r.unlimitedSteps start w n).length) :
    ∃ n, n < enoughMoves r.limit ∧ (r.unlimitedSteps start w n).length = r.limit ∧
      (r.unlimited start w n).1.due (r.unlimited start w n).2 ≠ [] := by
  -- All the moves that the limit pays for would have brought the run to its end.
  have hmoves : r.limit < (r.unlimitedSteps start w (enoughMoves r.limit)).length := by
    by_contra hle
    obtain ⟨o, ho, -⟩ := r.run_ends start w
    rw [moves_eq_unlimited (Nat.le_of_not_lt hle)] at ho
    exact hle (h _ o (Stage.withBudget_eq_ended_iff.mp ho))
  have hbeyond : ∃ n, r.limit < (r.unlimitedSteps start w n).length := ⟨_, hmoves⟩
  have hfirst := Nat.find_spec hbeyond
  have hle := Nat.find_min' hbeyond hmoves
  cases hfind : Nat.find hbeyond with
  | zero =>
    rw [hfind] at hfirst
    exact absurd hfirst (Nat.not_lt_zero _)
  | succ n =>
    rw [hfind] at hfirst hle
    rw [unlimitedSteps_succ, List.length_append] at hfirst
    have hwithin := Nat.le_of_not_lt (Nat.find_min hbeyond (by omega : n < Nat.find hbeyond))
    have hone := (r.unlimited start w n).1.length_due_le (r.unlimited start w n).2
    refine ⟨n, hle, by omega, ?_⟩
    intro hdue
    rw [hdue, List.length_nil] at hfirst
    omega

end SideBySide

end Runner

/-- The step budget is exact. If the run without a limit ends within as many steps as the limit
allows, the run with the limit ends the same, in the same world. Otherwise it ends where the next
step would begin, after exactly that many steps with the same frontiers; it reports the state that
the run without a limit has there, and changes nothing of the world but the log. -/
theorem budget_exact (r : Runner σ τ) (start : RunStart) (w : RunWorld σ τ) :
    (∀ n o, (r.unlimited start w n).1 = .ended o →
      (r.unlimitedSteps start w n).length ≤ r.limit →
      r.run start w = (some o, (r.unlimited start w n).2)) ∧
    ((∀ n o, (r.unlimited start w n).1 = .ended o →
        r.limit < (r.unlimitedSteps start w n).length) →
      ∃ n c log, (r.unlimited start w n).1 = .ready c ∧ c.frontier ≠ [] ∧
        (r.unlimitedSteps start w n).length = r.limit ∧ c.step = start.step + r.limit ∧
        r.frontiers (Runner.enoughMoves r.limit) (.waiting start) w = r.unlimitedSteps start w n ∧
        r.run start w = (some (r.failedAt c (.stepBudget r.limit)),
          (r.unlimited start w n).2.turn 0 (r.unlimited start w n).2.archive log)) := by
  constructor
  · intro n o ho hle
    refine Runner.run_eq_of_moves (n := n) ?_
    rw [Runner.moves_eq_unlimited hle, ho]
    rfl
  · intro h
    obtain ⟨n, hn, hlength, hdue⟩ := Runner.exists_beyond_limit h
    obtain ⟨c, hc, hf, hw⟩ := Stage.exists_ready_of_due hdue
    have hgoes : ∀ o, (r.unlimited start w n).1 ≠ .ended o := by
      intro o ho
      rw [hc] at ho
      cases ho
    obtain ⟨hprogress, hfrontiers⟩ := Runner.unlimitedSteps_spec hgoes
    obtain ⟨log, hlast⟩ := Runner.advance_exhausted (r := r) hf hw
    have hmoves : r.moves (n + 1) (.waiting start) w =
        (.ended (r.failedAt c (.stepBudget r.limit)),
          (r.unlimited start w n).2.turn 0 (r.unlimited start w n).2.archive log) := by
      rw [Runner.moves_succ_last, Runner.moves_eq_unlimited (Nat.le_of_eq hlength), hc, hlength,
        Nat.sub_self]
      exact hlast
    refine ⟨n, c, log, hc, hf, hlength, ?_, ?_, Runner.run_eq_of_moves hmoves⟩
    · rwa [hc, hlength] at hprogress
    · rw [Runner.frontiers_eq_of_ended (by rw [hmoves]) hn, Runner.frontiers_succ_last, hmoves,
        hfrontiers (Nat.le_of_eq hlength)]
      exact List.append_nil _

/-! ## Just enough steps, and one too few -/

/-- The run through the uneven branches has four steps to go through. -/
def unevenSpan : Stage × RunWorld Unit Chains :=
  unevenRunner.unlimited (.fresh .null .null) ⟨.start (), []⟩ 14

theorem budget_exact_uneven :
    (∃ o, ((unevenRunner.withLimit 4).run (.fresh .null .null) ⟨.start (), []⟩).1 = some o ∧
      unevenSpan.1 = .ended o ∧ o.status = .completed ∧ o.steps = 4) ∧
    ∃ c, ((unevenRunner.withLimit 3).run (.fresh .null .null) ⟨.start (), []⟩).1 =
        some (unevenRunner.failedAt c (.stepBudget 3)) ∧ c.frontier ≠ [] ∧ c.step = 3 ∧
      ((unevenRunner.withLimit 3).frontiers (Runner.enoughMoves 3) (.waiting (.fresh .null .null))
        ⟨.start (), []⟩).length = 3 := by
  constructor
  · have hended : unevenSpan.1.outcome?.map (fun o => (o.status, o.steps)) =
        some (.completed, 4) := by decide +kernel
    obtain ⟨o, ho, hreport⟩ := Option.map_eq_some_iff.mp hended
    obtain ⟨hstatus, hsteps⟩ := Prod.mk.inj hreport
    have hstage := Stage.eq_ended_of_outcome? ho
    refine ⟨o, ?_, hstage, hstatus, hsteps⟩
    rw [(budget_exact (unevenRunner.withLimit 4) _ _).1 14 o]
    · rw [Runner.unlimited_withLimit]
      exact hstage
    · decide +kernel
  · have hgoes : ((unevenRunner.withLimit 3).unlimited (.fresh .null .null) ⟨.start (), []⟩ 11).1
        |>.outcome?.isNone := by decide +kernel
    obtain ⟨n, c, log, -, hf, hlength, hstep, hfrontiers, hrun⟩ :=
      (budget_exact (unevenRunner.withLimit 3) (.fresh .null .null) ⟨.start (), []⟩).2 <|
        Runner.beyond_limit_of_goes (n := 11) (by decide +kernel) fun o ho => by
          rw [ho] at hgoes
          cases hgoes
    refine ⟨c, by rw [hrun]; rfl, hf, hstep, ?_⟩
    rw [show Runner.enoughMoves 3 = Runner.enoughMoves (unevenRunner.withLimit 3).limit from rfl,
      hfrontiers]
    exact hlength

end Workgraph
