import Workgraph.Proofs.Run.Ending
/-!
# Runs alike

Two runners of one workflow that differ in their archives and in the order in which the nodes of a
step run. If whatever they do with the world corresponds, part by part, then so do their runs as a
whole. Here the machine is taken apart once for both.

## Main definitions

- `RunPart.Relates`: parts of runs that correspond
- `Stage.Alike`: stages that differ in the arrivals of a step at most
- `Runner.alongside`: a runner with another archive and another order
- `Runner.Echoes`: what has to correspond

## Main statements

- `Runner.Echoes.advance`: the moves of both correspond
- `Runner.Echoes.run`: both runs have the same outcome
-/

namespace Workgraph

variable {σ τ τ' α α' β β' : Type} {W : RunWorld σ τ → RunWorld σ τ' → Prop}

/-- Parts of runs that correspond: from corresponding worlds they come to corresponding results and
leave corresponding worlds behind. -/
def RunPart.Relates (W : RunWorld σ τ → RunWorld σ τ' → Prop) (R : α → β → Prop)
    (p : RunPart σ τ α) (q : RunPart σ τ' β) : Prop :=
  ∀ w w', W w w' → R (p w).1 (q w').1 ∧ W (p w).2 (q w').2

namespace RunPart.Relates

variable {R : α → β → Prop} {S : α' → β' → Prop}

theorem pure {a : α} {b : β} (h : R a b) :
    Relates W R (Pure.pure a : RunPart σ τ α) (Pure.pure b : RunPart σ τ' β) :=
  fun _ _ hw => ⟨h, hw⟩

theorem bind {p : RunPart σ τ α} {q : RunPart σ τ' β} {f : α → RunPart σ τ α'}
    {g : β → RunPart σ τ' β'} (hp : Relates W R p q)
    (hf : ∀ a b, R a b → Relates W S (f a) (g b)) : Relates W S (p >>= f) (q >>= g) := by
  intro w w' hw
  rw [RunPart.bind_apply, RunPart.bind_apply]
  obtain ⟨hr, hw'⟩ := hp w w' hw
  exact hf _ _ hr _ _ hw'

/-- Parts that come to the same result are gone on from alike. -/
theorem bind_eq {p : RunPart σ τ α} {q : RunPart σ τ' α} {f : α → RunPart σ τ α'}
    {g : α → RunPart σ τ' β'} (hp : Relates W Eq p q) (hf : ∀ a, Relates W S (f a) (g a)) :
    Relates W S (p >>= f) (q >>= g) := by
  refine hp.bind ?_
  rintro a _ rfl
  exact hf a

end RunPart.Relates

/-- Stages that are the same, but for the arrivals of a step. -/
inductive Stage.Alike (A : Cursor → Arrivals → Arrivals → Prop) : Stage → Stage → Prop
  | same (stage : Stage) : Alike A stage stage
  | running {c : Cursor} {arrivals arrivals' : Arrivals} (h : A c arrivals arrivals') :
      Alike A (.running c arrivals) (.running c arrivals')

theorem Stage.Alike.outcome?_eq {A : Cursor → Arrivals → Arrivals → Prop} {stage stage' : Stage}
    (h : stage.Alike A stage') : stage.outcome? = stage'.outcome? := by
  cases h with
  | same => rfl
  | running => rfl

/-- Stages whose arrivals are the same too are the same. -/
theorem Stage.Alike.eq {stage stage' : Stage} (h : stage.Alike (fun _ => Eq) stage') :
    stage = stage' := by
  cases h with
  | same => rfl
  | running h => rw [h]

namespace Runner

/-- The runner with another archive, whose nodes run in another order. -/
def alongside (r : Runner σ τ) (a : Archive τ') (order : Nat → Nat → List Nat) : Runner σ τ' :=
  { r with archive := a, order := order }

/-- Everything that a runner does with the world corresponds to what it does alongside: reporting,
looking out for a cancellation, drawing numbers, waiting, saving, and running the nodes of a step,
whose arrivals may differ if the barrier does not tell them apart. -/
structure Echoes (r : Runner σ τ) (a : Archive τ') (order : Nat → Nat → List Nat)
    (W : RunWorld σ τ → RunWorld σ τ' → Prop) (A : Cursor → Arrivals → Arrivals → Prop) : Prop where
  report : ∀ e, RunPart.Relates W Eq (RunPart.report e) (RunPart.report e)
  isCancelled : RunPart.Relates W Eq (RunPart.perform Activity.isCancelled)
    (RunPart.perform Activity.isCancelled)
  reserve : ∀ count, RunPart.Relates W Eq (RunPart.perform (Activity.reserve count))
    (RunPart.perform (Activity.reserve count))
  wait : RunPart.Relates W Eq (RunPart.perform Activity.wait) (RunPart.perform Activity.wait)
  save : ∀ c record, RunPart.Relates W Eq (r.save c record) ((r.alongside a order).save c record)
  runNodes : ∀ c base, (∀ key ∈ c.frontier, r.workflow.contains key = true) →
    RunPart.Relates W (A c)
      (RunPart.perform (r.runNodes c base (r.order (c.step + 1) c.frontier.length)))
      (RunPart.perform ((r.alongside a order).runNodes c base
        (order (c.step + 1) c.frontier.length)))
  barrier : ∀ {c arrivals arrivals'}, A c arrivals arrivals' →
    barrier c.frontier arrivals = barrier c.frontier arrivals'

namespace Echoes

variable {r : Runner σ τ} {a : Archive τ'} {order : Nat → Nat → List Nat}
  {A : Cursor → Arrivals → Arrivals → Prop} (h : r.Echoes a order W A)

open RunPart Stage

include h

theorem stop (c : Cursor) (status : RunStatus) (i : Option Interrupt) :
    Relates W (Alike A) (r.stop c status i) ((r.alongside a order).stop c status i) :=
  .bind_eq (h.report _) fun _ => .pure (.same _)

theorem fail (c : Cursor) (e : RunError) :
    Relates W (Alike A) (r.fail c e) ((r.alongside a order).fail c e) :=
  .bind_eq (h.report _) fun _ => .bind_eq (h.report _) fun _ => .pure (.same _)

theorem pause (c : Cursor) (record : StepRecord) (i : Interrupt) :
    Relates W (Alike A) (r.pause c record i) ((r.alongside a order).pause c record i) := by
  refine .bind_eq (h.save _ _) ?_
  rintro (e | c')
  · exact h.fail c e
  · exact .bind_eq (h.report _) fun _ => h.stop c' _ _

theorem begin (start : RunStart) :
    Relates W (Alike A) (r.begin start) ((r.alongside a order).begin start) := by
  refine .bind_eq (h.report _) fun _ => ?_
  cases start with
  | fresh input environment =>
    refine .bind_eq (h.save _ _) ?_
    rintro (e | c)
    · exact h.fail _ e
    · exact .pure (.same _)
  | resume cp input =>
    dsimp only
    rw [show (r.alongside a order).resumedCursor cp input = r.resumedCursor cp input from rfl]
    cases r.resumedCursor cp input with
    | ok c => exact .pure (.same _)
    | error e => exact h.fail _ e

theorem runFrontier (c : Cursor) :
    Relates W (Alike A) (r.runFrontier c) ((r.alongside a order).runFrontier c) := by
  unfold Runner.runFrontier
  rw [show (r.alongside a order).workflow = r.workflow from rfl]
  cases hfind : c.frontier.find? fun key => !r.workflow.contains key with
  | some key => exact h.fail c _
  | none =>
    have hk : ∀ key ∈ c.frontier, r.workflow.contains key = true := by
      intro key hkey
      simpa using List.find?_eq_none.mp hfind key hkey
    refine .bind_eq (h.reserve _) fun base => .bind_eq h.wait fun _ =>
      .bind (h.runNodes c base hk) fun arrivals arrivals' harrivals => ?_
    exact .bind_eq h.wait fun _ => .pure (.running harrivals)

theorem dispatch (c : Cursor) :
    Relates W (Alike A) (r.dispatch c) ((r.alongside a order).dispatch c) := by
  unfold Runner.dispatch
  by_cases hf : c.frontier.isEmpty = true
  · rw [if_pos hf, if_pos hf]
    exact h.stop c _ _
  · rw [if_neg hf, if_neg hf]
    refine .bind_eq h.isCancelled fun cancelled => ?_
    cases cancelled with
    | true => exact h.stop c _ _
    | false =>
      rw [if_neg Bool.false_ne_true, if_neg Bool.false_ne_true]
      cases c.budget with
      | zero => exact h.fail c _
      | succ budget =>
        dsimp only
        rw [show (r.alongside a order).pauseAhead? { c with budget := budget } =
          r.pauseAhead? { c with budget := budget } from rfl]
        cases r.pauseAhead? { c with budget := budget } with
        | some key => exact h.pause _ _ _
        | none => exact h.runFrontier _

theorem gather (c : Cursor) {arrivals arrivals' : Arrivals}
    (hb : Workgraph.barrier c.frontier arrivals = Workgraph.barrier c.frontier arrivals') :
    Relates W (Alike A) (r.gather c arrivals) ((r.alongside a order).gather c arrivals') := by
  unfold Runner.gather
  refine .bind_eq h.isCancelled fun cancelled => ?_
  cases cancelled with
  | true => exact h.stop c _ _
  | false =>
    rw [if_neg Bool.false_ne_true, if_neg Bool.false_ne_true, hb]
    cases Workgraph.barrier c.frontier arrivals' with
    | ok outputs => exact .pure (.same _)
    | error failure => exact .bind_eq (h.report _) fun _ => h.fail c _

theorem writeAll (step : Nat) (store : Store) (outputs : List (String × NodeOutput)) :
    Relates W Eq (r.writeAll step store outputs)
      ((r.alongside a order).writeAll step store outputs) := by
  induction outputs generalizing store with
  | nil => exact .pure rfl
  | cons output rest ih =>
    obtain ⟨key, out⟩ := output
    unfold Runner.writeAll
    rw [show (r.alongside a order).workflow = r.workflow from rfl]
    obtain ⟨store', e⟩ := r.workflow.writeOutput key out store
    cases e with
    | some e => exact .pure rfl
    | none => exact .bind_eq (h.report _) fun _ => ih store'

theorem route (c : Cursor) (record : StepRecord) (i : Option Interrupt) :
    Relates W (Alike A) (r.route c record i) ((r.alongside a order).route c record i) := by
  unfold Runner.route
  rw [show (r.alongside a order).workflow = r.workflow from rfl]
  cases r.workflow.candidates record.ranNodes record.handoffs c.store.state with
  | error e => exact h.fail c e
  | ok routed =>
    cases i with
    | none => exact .pure (.same _)
    | some i => exact h.pause _ _ _

theorem settle (c : Cursor) (outputs : List NodeOutput) :
    Relates W (Alike A) (r.settle c outputs) ((r.alongside a order).settle c outputs) := by
  unfold Runner.settle
  refine .bind_eq (h.writeAll _ _ _) ?_
  rintro ⟨store, _ | e⟩
  · refine .bind_eq (h.save _ _) ?_
    rintro (e | c')
    · exact h.fail _ e
    · exact h.route _ _ _
  · exact h.fail _ e

/-- The moves of both correspond. -/
theorem advance {stage stage' : Stage} (hs : stage.Alike A stage') :
    Relates W (Alike A) (r.advance stage) ((r.alongside a order).advance stage') := by
  cases hs with
  | running harrivals => exact h.gather _ (h.barrier harrivals)
  | same =>
    cases stage with
    | waiting start => exact h.begin start
    | ready c => exact h.dispatch c
    | running c arrivals => exact h.gather c rfl
    | accepted c outputs => exact h.settle c outputs
    | ended o => exact .pure (.same _)

theorem moves (n : Nat) {stage stage' : Stage} (hs : stage.Alike A stage') :
    Relates W (Alike A) (r.moves n stage) ((r.alongside a order).moves n stage') := by
  induction n generalizing stage stage' with
  | zero => exact .pure hs
  | succ n ih =>
    intro w w' hw
    rw [moves_succ, moves_succ]
    obtain ⟨hs', hw'⟩ := h.advance hs w w' hw
    exact ih hs' _ _ hw'

/-- Both runs have the same outcome. -/
theorem run (start : RunStart) :
    Relates W Eq (r.run start) ((r.alongside a order).run start) :=
  (h.moves _ (.same _)).bind fun _ _ hs => .pure hs.outcome?_eq

end Echoes

end Runner

end Workgraph
