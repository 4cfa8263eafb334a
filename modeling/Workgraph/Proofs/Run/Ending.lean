import Workgraph.Proofs.Run.Move
/-!
# Runs come to an end

Every move of a run leaves fewer moves to make, so a run ends within as many moves as it is given.
The steps that it begins on the way are listed by their frontiers.

## Main definitions

- `Runner.movesLeft`: how many moves a run can still make
- `Runner.frontiers`: the frontiers of the steps that begin within a number of moves

## Main statements

- `Runner.run_ends`, `Runner.run_eq_of_moves`: a run has an outcome, which is where its moves lead
- `Runner.moves_induct`: what every move keeps, along with the steps begun so far
-/

namespace Workgraph

variable {σ τ : Type}

/-- The frontier of the step that has just begun. -/
def Stage.begun : Stage → List (List String)
  | .running c _ => [c.frontier]
  | _ => []

namespace Runner

variable (r : Runner σ τ)

/-- How many moves a run can still make. -/
def movesLeft : Stage → Nat
  | .waiting _ => enoughMoves r.limit
  | .ready c => 3 * c.budget + 1
  | .running c _ => 3 * c.budget + 3
  | .accepted c _ => 3 * c.budget + 2
  | .ended _ => 0

variable {r}

theorem Move.movesLeft_lt {stage stage' : Stage} {w w' : RunWorld σ τ}
    (h : r.Move stage w stage' w') (hs : ∀ o, stage ≠ .ended o) :
    r.movesLeft stage' < r.movesLeft stage := by
  cases h with
  | begun log hsaved =>
    show 3 * r.limit + 1 < 3 * r.limit + 2
    omega
  | resumed log hc =>
    obtain ⟨split, -, rfl⟩ := r.resumedCursor_eq_ok_iff.mp hc
    show 3 * r.limit + 1 < 3 * r.limit + 2
    omega
  | @dispatched _ c budget arrivals after log log' hf hw hb hp hk ha =>
    show 3 * budget + 3 < 3 * c.budget + 1
    omega
  | @accepted _ c arrivals outputs hw hb =>
    show 3 * c.budget + 2 < 3 * c.budget + 3
    omega
  | @settled _ c outputs store id t routed log ho hsaved hr hi =>
    show 3 * c.budget + 1 < 3 * c.budget + 2
    omega
  | rested o => exact absurd rfl (hs o)
  | _ => simp [movesLeft, enoughMoves]

theorem moves_ended (o : Outcome) (n : Nat) (w : RunWorld σ τ) :
    r.moves n (.ended o) w = (.ended o, w) := by
  cases n with
  | zero => rfl
  | succ n => rfl

theorem moves_succ (n : Nat) (stage : Stage) (w : RunWorld σ τ) :
    r.moves (n + 1) stage w = r.moves n (r.advance stage w).1 (r.advance stage w).2 := by
  cases stage with
  | ended o =>
    rw [moves_ended]
    exact (moves_ended o n w).symm
  | waiting start => rfl
  | ready c => rfl
  | running c arrivals => rfl
  | accepted c outputs => rfl

theorem moves_succ_last (n : Nat) (stage : Stage) (w : RunWorld σ τ) :
    r.moves (n + 1) stage w = r.advance (r.moves n stage w).1 (r.moves n stage w).2 := by
  induction n generalizing stage w with
  | zero => exact moves_succ 0 stage w
  | succ n ih => rw [moves_succ, ih, ← moves_succ]

/-- A run that has come to its end stays there. -/
theorem moves_eq_of_ended {m n : Nat} {stage : Stage} {w : RunWorld σ τ} {o : Outcome}
    (h : (r.moves n stage w).1 = .ended o) (hle : n ≤ m) :
    r.moves m stage w = r.moves n stage w := by
  induction hle with
  | refl => rfl
  | step _ ih =>
    rw [moves_succ_last, ih, h]
    exact Prod.ext h.symm rfl

/-- With as many moves as are left, a run comes to its end. -/
theorem exists_moves_ended {n : Nat} {stage : Stage} {w : RunWorld σ τ}
    (h : r.movesLeft stage ≤ n) : ∃ o, (r.moves n stage w).1 = .ended o := by
  induction n generalizing stage w with
  | zero =>
    cases stage with
    | ended o => exact ⟨o, rfl⟩
    | waiting start => simp [movesLeft, enoughMoves] at h
    | ready c => simp [movesLeft] at h
    | running c arrivals => simp [movesLeft] at h
    | accepted c outputs => simp [movesLeft] at h
  | succ n ih =>
    -- A run that has not ended has fewer moves left behind each of them.
    by_cases hs : ∃ o, stage = .ended o
    · obtain ⟨o, rfl⟩ := hs
      exact ⟨o, by rw [moves_ended]⟩
    · rw [moves_succ]
      have hlt := (r.advance_move stage w).movesLeft_lt fun o ho => hs ⟨o, ho⟩
      exact ih (by omega)

/-- A run has an outcome. -/
theorem run_ends (start : RunStart) (w : RunWorld σ τ) :
    ∃ o, (r.moves (enoughMoves r.limit) (.waiting start) w).1 = .ended o ∧
      (r.run start w).1 = some o := by
  obtain ⟨o, ho⟩ :=
    exists_moves_ended (r := r) (w := w) (Nat.le_refl (r.movesLeft (.waiting start)))
  refine ⟨o, ho, ?_⟩
  change (r.moves (enoughMoves r.limit) (.waiting start) w).1.outcome? = some o
  rw [show (r.moves (enoughMoves r.limit) (.waiting start) w).1 = .ended o from ho]
  rfl

/-- Wherever a run ends is where it ends. -/
theorem run_eq_of_moves {n : Nat} {start : RunStart} {w w' : RunWorld σ τ} {o : Outcome}
    (h : r.moves n (.waiting start) w = (.ended o, w')) : r.run start w = (some o, w') := by
  have hmoves : r.moves (enoughMoves r.limit) (.waiting start) w = (.ended o, w') := by
    obtain hle | hle := Nat.le_total n (enoughMoves r.limit)
    · rw [moves_eq_of_ended (by rw [h]) hle, h]
    · obtain ⟨o', ho', -⟩ := run_ends (r := r) start w
      rw [← moves_eq_of_ended ho' hle, h]
  change ((r.moves (enoughMoves r.limit) (.waiting start) w).1.outcome?,
    (r.moves (enoughMoves r.limit) (.waiting start) w).2) = _
  rw [hmoves]
  rfl

/-! ## Steps along the way -/

variable (r) in
/-- The frontiers of the steps that begin within a number of moves, in order. -/
def frontiers : Nat → Stage → RunWorld σ τ → List (List String)
  | 0, _, _ => []
  | n + 1, stage, w =>
    (r.advance stage w).1.begun ++ frontiers n (r.advance stage w).1 (r.advance stage w).2

theorem frontiers_succ_last (n : Nat) (stage : Stage) (w : RunWorld σ τ) :
    r.frontiers (n + 1) stage w = r.frontiers n stage w ++ (r.moves (n + 1) stage w).1.begun := by
  induction n generalizing stage w with
  | zero =>
    rw [moves_succ]
    exact List.append_nil _
  | succ n ih =>
    rw [moves_succ]
    unfold frontiers
    rw [ih, List.append_assoc]

/-- No step begins behind the end. -/
theorem frontiers_eq_of_ended {m n : Nat} {stage : Stage} {w : RunWorld σ τ} {o : Outcome}
    (h : (r.moves n stage w).1 = .ended o) (hle : n ≤ m) :
    r.frontiers m stage w = r.frontiers n stage w := by
  induction hle with
  | refl => rfl
  | @step m hle ih =>
    rw [frontiers_succ_last, ih, moves_eq_of_ended h (Nat.le_succ_of_le hle), h]
    exact List.append_nil _

/-- What every move keeps, along with the frontiers of the steps begun so far, is kept by any number
of moves. -/
theorem moves_induct {motive : List (List String) → Stage → RunWorld σ τ → Prop}
    (hmove : ∀ {fs stage w stage' w'}, motive fs stage w → r.Move stage w stage' w' →
      motive (fs ++ stage'.begun) stage' w')
    (n : Nat) {fs : List (List String)} {stage : Stage} {w : RunWorld σ τ}
    (h : motive fs stage w) :
    motive (fs ++ r.frontiers n stage w) (r.moves n stage w).1 (r.moves n stage w).2 := by
  induction n generalizing fs stage w with
  | zero =>
    unfold frontiers
    rwa [List.append_nil]
  | succ n ih =>
    rw [moves_succ]
    unfold frontiers
    rw [← List.append_assoc]
    exact ih (hmove h (r.advance_move stage w))

end Runner

end Workgraph
