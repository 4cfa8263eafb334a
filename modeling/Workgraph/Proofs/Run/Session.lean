import Workgraph.Proofs.Run.Interleaving
/-!
# Sessions

What goes on in an engine that many use at once. A call that starts or resumes a run reads or
changes one thing at a time: it looks up the latest checkpoint of its thread, the workflow and the
options of the thread, it claims the thread, it has its options remembered, and from then on its run
makes one move after the other until it is cleared away. Between any two of these steps whatever
else may go on. Calls are told apart by their thread and a number.

## Main definitions

- `Request`, `Call`: what can be asked, and where a call stands between two steps
- `EngineState.claim`, `EngineState.remember`: the two halves of letting a run begin
- `Engine.step`: one step of a call
- `Session`, `Action`, `Session.act`, `Session.run`: an engine and its calls, and what happens
- `Engine.Step`, `Session.Happens`: everything that a step of a call can do, and that can happen

## Main statements

- `Engine.start_at_once`, `Engine.resume_at_once`: a call whose steps nothing comes between
- `Engine.step_step`, `Session.act_happens`: nothing else is done, and nothing else happens
-/

namespace Workgraph

variable {σ τ : Type}

/-- What can be asked about a thread. -/
inductive Request where
  | start (graphId : String) (input : RunInput)
  | resume (input : Option Json)
  | cancel

/-- Where a call stands: it has been made; it has found the checkpoint to resume, and the workflow;
it has everything that a run needs; its thread is its own; its run goes on; it has the outcome of
its run; it has been refused; it has been answered. -/
inductive Call (σ : Type) where
  | asked (q : Request)
  | found (cp : Checkpoint) (input : Option Json)
  | equipped (w : Workflow σ) (cp : Checkpoint) (input : Option Json)
  | prepared (w : Workflow σ) (options : ThreadOptions) (start : RunStart)
  | admitted (options : ThreadOptions)
  | running
  | finished (o : Outcome)
  | refused (e : RunError)
  | answered (b : Bool)

namespace Call

/-- Whether a call has let a run begin that has not been cleared away. -/
def holds : Call σ → Bool
  | admitted _ => true
  | running => true
  | _ => false

/-- Whether a call is on its way to let a run begin, or has been refused on that way. -/
def isOutside : Call σ → Bool
  | asked (.start _ _) => true
  | asked (.resume _) => true
  | found _ _ => true
  | equipped _ _ _ => true
  | prepared _ _ _ => true
  | refused _ => true
  | _ => false

end Call

namespace EngineState

/-- Lets a run begin on a thread, unless the thread is busy, without remembering its options. -/
def claim (s : EngineState σ τ) (threadId : String) (w : Workflow σ) (options : ThreadOptions)
    (start : RunStart) : Except RunError (EngineState σ τ) :=
  if s.isActive threadId then .error (.threadBusy threadId)
  else .ok { s with active := s.active.insert threadId ⟨options, w, .waiting start, false⟩ }

/-- Remembers the options of a thread. -/
def remember (s : EngineState σ τ) (threadId : String) (options : ThreadOptions) :
    EngineState σ τ :=
  { s with threads := s.threads.insert threadId options }

/-- Letting a run begin is claiming the thread and remembering its options. -/
theorem spawn_eq_claim (s : EngineState σ τ) (threadId : String) (w : Workflow σ)
    (options : ThreadOptions) (start : RunStart) :
    s.spawn threadId w options start =
      (s.claim threadId w options start).map (·.remember threadId options) := by
  unfold spawn claim
  cases s.isActive threadId with
  | true => rfl
  | false => rfl

end EngineState

namespace Engine

/-- One step of a call about a thread. -/
def step (e : Engine σ τ) (threadId : String) (s : EngineState σ τ) :
    Call σ → Call σ × EngineState σ τ
  | .asked (.start graphId input) =>
    match s.workflow graphId with
    | .error err => (.refused err, s)
    | .ok w =>
      (.prepared w ⟨graphId, input.pauseBefore, input.pauseAfter⟩
        (.fresh input.input input.environment), s)
  | .asked (.resume input) =>
    match e.latest s threadId with
    | .error err => (.refused err, s)
    | .ok cp => (.found cp input, s)
  | .asked .cancel =>
    let (b, s) := s.cancel threadId
    (.answered b, s)
  | .found cp input =>
    match s.workflow cp.record.graphId with
    | .error err => (.refused err, s)
    | .ok w => (.equipped w cp input, s)
  | .equipped w cp input =>
    (.prepared w (optionsFor s threadId cp.record.graphId) (.resume cp input), s)
  | .prepared w options start =>
    match s.claim threadId w options start with
    | .error err => (.refused err, s)
    | .ok s => (.admitted options, s)
  | .admitted options => (.running, s.remember threadId options)
  | .running =>
    match e.tick threadId s with
    | (some o, s) => (.finished o, s)
    | (none, s) => (.running, s)
  | call => (call, s)

/-- A number of steps of a call with nothing in between. -/
def steps (e : Engine σ τ) (threadId : String) :
    Nat → Call σ × EngineState σ τ → Call σ × EngineState σ τ
  | 0, p => p
  | n + 1, p => steps e threadId n (e.step threadId p.2 p.1)

/-- How a call stands that has let a run begin, or has been refused. -/
def settledAs (s : EngineState σ τ) : Except RunError (EngineState σ τ) → Call σ × EngineState σ τ
  | .ok s' => (.running, s')
  | .error err => (.refused err, s)

/-- Behind what a run needs, letting it begin takes two more steps. -/
theorem steps_prepared (e : Engine σ τ) (threadId : String) (s : EngineState σ τ) (w : Workflow σ)
    (options : ThreadOptions) (start : RunStart) :
    e.steps threadId 2 (.prepared w options start, s) =
      settledAs s (s.spawn threadId w options start) := by
  rw [s.spawn_eq_claim]
  change e.steps threadId 1 (e.step threadId s (.prepared w options start)) = _
  unfold step
  dsimp only
  cases s.claim threadId w options start with
  | error err => rfl
  | ok s' => rfl

/-- The steps of a call that starts a run, with nothing in between, are starting it. -/
theorem start_at_once (e : Engine σ τ) (threadId : String) (s : EngineState σ τ) (graphId : String)
    (input : RunInput) :
    e.steps threadId 3 (.asked (.start graphId input), s) =
      settledAs s ((start s graphId { input with threadId := some threadId }).map (·.2)) := by
  change e.steps threadId 2 (e.step threadId s (.asked (.start graphId input))) = _
  unfold step start
  dsimp only
  cases s.workflow graphId with
  | error err => rfl
  | ok w =>
    refine (e.steps_prepared threadId s w _ _).trans (congrArg (settledAs s) ?_)
    dsimp only [bind, Except.bind, Option.getD_some]
    cases s.spawn threadId w ⟨graphId, input.pauseBefore, input.pauseAfter⟩
      (.fresh input.input input.environment) with
    | error err => rfl
    | ok s' => rfl

/-- The steps of a call that resumes a thread, with nothing in between, are resuming it. -/
theorem resume_at_once (e : Engine σ τ) (threadId : String) (s : EngineState σ τ)
    (input : Option Json) :
    e.steps threadId 5 (.asked (.resume input), s) = settledAs s (e.resume s threadId input) := by
  change e.steps threadId 4 (e.step threadId s (.asked (.resume input))) = _
  unfold step resume
  dsimp only
  cases e.latest s threadId with
  | error err => rfl
  | ok cp =>
    change e.steps threadId 3 (e.step threadId s (.found cp input)) =
      settledAs s (continueFrom s threadId cp input)
    unfold step continueFrom
    dsimp only
    cases s.workflow cp.record.graphId with
    | error err => rfl
    | ok w => exact e.steps_prepared threadId s w _ _

end Engine

/-! ## What happens in a session -/

/-- An engine and the calls that have been made, by thread and number. -/
structure Session (σ τ : Type) where
  engine : EngineState σ τ
  calls : String → Nat → Option (Call σ)

/-- What can happen: a call is made, a call goes one step further, a workflow is registered, time
passes. -/
inductive Action (σ : Type) where
  | ask (threadId : String) (number : Nat) (q : Request)
  | go (threadId : String) (number : Nat)
  | register (graphId : String) (w : Workflow σ)
  | pass (time : Timestamp)

/-- Whether something happens to a given call. -/
def Action.isOf (threadId : String) (number : Nat) : Action σ → Bool
  | ask t n _ => t == threadId && n == number
  | go t n => t == threadId && n == number
  | _ => false

namespace Session

/-- The session in which a call has come to stand somewhere, with the engine behind that. -/
def put (s : Session σ τ) (threadId : String) (number : Nat) (p : Call σ × EngineState σ τ) :
    Session σ τ :=
  ⟨p.2, fun t n => if t = threadId ∧ n = number then some p.1 else s.calls t n⟩

/-- What happens. A number that is taken is not given to another call. -/
def act (e : Engine σ τ) (s : Session σ τ) : Action σ → Session σ τ
  | .ask threadId number q =>
    match s.calls threadId number with
    | none => s.put threadId number (.asked q, s.engine)
    | some _ => s
  | .go threadId number =>
    match s.calls threadId number with
    | none => s
    | some call => s.put threadId number (e.step threadId s.engine call)
  | .register graphId w => { s with engine := s.engine.register graphId w }
  | .pass time => { s with engine := { s.engine with clock := time } }

/-- Everything that happens, one thing after the other. -/
def run (e : Engine σ τ) (s : Session σ τ) (actions : List (Action σ)) : Session σ τ :=
  actions.foldl (act e) s

/-- A session in which no call has been made and no run is active. -/
structure Idle (s : Session σ τ) : Prop where
  calls : ∀ t n, s.calls t n = none
  active : ∀ t, s.engine.isActive t = false

theorem put_self (s : Session σ τ) (t : String) (n : Nat) (p : Call σ × EngineState σ τ) :
    (s.put t n p).calls t n = some p.1 := if_pos ⟨rfl, rfl⟩

theorem put_of_ne (s : Session σ τ) {t t' : String} {n n' : Nat} (p : Call σ × EngineState σ τ)
    (h : ¬(t' = t ∧ n' = n)) : (s.put t n p).calls t' n' = s.calls t' n' := if_neg h

theorem run_concat (e : Engine σ τ) (s : Session σ τ) (actions : List (Action σ)) (a : Action σ) :
    s.run e (actions ++ [a]) = (s.run e actions).act e a := List.foldl_concat ..

end Session

/-! ## Everything that a step can do -/

namespace Engine

/-- Everything that a step of a call can do. -/
inductive Step (e : Engine σ τ) (threadId : String) (s : EngineState σ τ) :
    Call σ → Call σ → EngineState σ τ → Prop
  | outside {c c' : Call σ} (hc : c.isOutside = true) (hc' : c'.isOutside = true) :
      Step e threadId s c c' s
  | claimed {w : Workflow σ} {options : ThreadOptions} {start : RunStart}
      (ha : s.active.get? threadId = none) :
      Step e threadId s (.prepared w options start) (.admitted options)
        { s with active := s.active.insert threadId ⟨options, w, .waiting start, false⟩ }
  | remembered (options : ThreadOptions) :
      Step e threadId s (.admitted options) .running (s.remember threadId options)
  | moved {run : ActiveRun σ} {stage : Stage} {w : RunWorld σ τ}
      (ha : s.active.get? threadId = some run)
      (hm : (e.runner threadId run.workflow run.options).Move run.stage
        (s.runWorld threadId run.cancelled) stage w) :
      Step e threadId s .running .running { s.withRunWorld threadId w with
        active := s.active.insert threadId
          { run with stage := stage, cancelled := w.world.cancelled } }
  | finished {run : ActiveRun σ} {o : Outcome} (ha : s.active.get? threadId = some run)
      (hstage : run.stage = .ended o) :
      Step e threadId s .running (.finished o) { s with active := s.active.erase threadId }
  | stray (ha : s.active.get? threadId = none) : Step e threadId s .running .running s
  | canceled {run : ActiveRun σ} (ha : s.active.get? threadId = some run) :
      Step e threadId s (.asked .cancel) (.answered true)
        { s with active := s.active.insert threadId { run with cancelled := true } }
  | idle (ha : s.active.get? threadId = none) :
      Step e threadId s (.asked .cancel) (.answered false) s
  | rested {c : Call σ} (hc : c.isOutside = false) (hc' : c.holds = false)
      (hq : c ≠ .asked .cancel) : Step e threadId s c c s

/-- A step of a call whose run goes on is a move of the run. -/
theorem step_running (e : Engine σ τ) (threadId : String) (s : EngineState σ τ) :
    e.Step threadId s .running (e.step threadId s .running).1 (e.step threadId s .running).2 := by
  unfold step
  dsimp only
  cases ha : s.active.get? threadId with
  | none =>
    rw [tick_idle ha]
    exact .stray ha
  | some run =>
    cases ho : run.stage.outcome? with
    | some o =>
      rw [tick_ended ha ho]
      exact .finished ha (Stage.eq_ended_of_outcome? ho)
    | none =>
      rw [tick_active ha ho]
      exact .moved ha (Runner.advance_move _ _ _)

/-- One step of a call is one of these. -/
theorem step_step (e : Engine σ τ) (threadId : String) (s : EngineState σ τ) (c : Call σ) :
    e.Step threadId s c (e.step threadId s c).1 (e.step threadId s c).2 := by
  cases c with
  | asked q =>
    cases q with
    | start graphId input =>
      unfold step
      dsimp only
      cases s.workflow graphId with
      | error err => exact .outside rfl rfl
      | ok w => exact .outside rfl rfl
    | resume input =>
      unfold step
      dsimp only
      cases e.latest s threadId with
      | error err => exact .outside rfl rfl
      | ok cp => exact .outside rfl rfl
    | cancel =>
      unfold step EngineState.cancel
      dsimp only
      cases ha : s.active.get? threadId with
      | none => exact .idle ha
      | some run => exact .canceled ha
  | found cp input =>
    unfold step
    dsimp only
    cases s.workflow cp.record.graphId with
    | error err => exact .outside rfl rfl
    | ok w => exact .outside rfl rfl
  | equipped w cp input => exact .outside rfl rfl
  | prepared w options start =>
    unfold step EngineState.claim EngineState.isActive
    rw [Table.contains_eq_isSome]
    cases ha : s.active.get? threadId with
    | none => exact .claimed ha
    | some run => exact .outside rfl rfl
  | admitted options => exact .remembered options
  | running => exact e.step_running threadId s
  | finished o => exact .rested rfl rfl nofun
  | refused err => exact .outside rfl rfl
  | answered b => exact .rested rfl rfl nofun

end Engine

namespace Session

/-- Everything that can happen: a call is made, unless its number is taken; a call that has been
made goes one step further; a workflow is registered; time passes. -/
inductive Happens (e : Engine σ τ) (s : Session σ τ) : Action σ → Session σ τ → Prop
  | made {t : String} {n : Nat} {q : Request} (hc : s.calls t n = none) :
      Happens e s (.ask t n q) (s.put t n (.asked q, s.engine))
  | taken {t : String} {n : Nat} {q : Request} {c : Call σ} (hc : s.calls t n = some c) :
      Happens e s (.ask t n q) s
  | went {t : String} {n : Nat} {c : Call σ} (hc : s.calls t n = some c) :
      Happens e s (.go t n) (s.put t n (e.step t s.engine c))
  | missing {t : String} {n : Nat} (hc : s.calls t n = none) : Happens e s (.go t n) s
  | registered (graphId : String) (w : Workflow σ) :
      Happens e s (.register graphId w) { s with engine := s.engine.register graphId w }
  | passed (time : Timestamp) :
      Happens e s (.pass time) { s with engine := { s.engine with clock := time } }

/-- What happens is one of these. -/
theorem act_happens (s : Session σ τ) (e : Engine σ τ) (a : Action σ) :
    s.Happens e a (s.act e a) := by
  unfold act
  cases a with
  | ask t n q =>
    dsimp only
    cases hc : s.calls t n with
    | none => exact .made hc
    | some c => exact .taken hc
  | go t n =>
    dsimp only
    cases hc : s.calls t n with
    | none => exact .missing hc
    | some c => exact .went hc
  | register graphId w => exact .registered graphId w
  | pass time => exact .passed time

end Session

end Workgraph
