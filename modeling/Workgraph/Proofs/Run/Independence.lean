import Workgraph.Proofs.Run.Admission
import Workgraph.Proofs.Run.Seclusion
import Workgraph.Proofs.State.Tables
/-!
# Independence

What can be seen of a thread, apart from times: the registered workflows, its active run, what is
remembered of it, how many identifiers it has drawn, its chains, and where its calls stand. What is
done about another thread cannot be seen. What is done about the thread itself goes by what can be
seen of it. So all that comes about on a thread comes about in the same way whatever happens on
others.

## Main definitions

- `ThreadView`, `EngineState.view`, `Session.seen`: what can be seen of a thread
- `EngineState.Secluded`, `Session.Secluded`: only secluded nodes run
- `Action.concerns`: whether something happens to a thread

## Main statements

- `Engine.Step.view_of_ne`: a step about another thread cannot be seen
- `Engine.observed_step`: a step about the thread goes by what can be seen
- `Session.seen_run`: what can be seen depends on what concerns the thread only
- `threads_independent`: threads do not influence each other
-/

namespace Workgraph

variable {σ : Type} {e : Engine σ Chains} {threadId : String}

/-! ## What can be seen of a thread -/

/-- An active run, without times. -/
def ActiveRun.undated (run : ActiveRun σ) : ActiveRun σ := { run with stage := run.stage.undated }

/-- Where a call stands, without times. -/
def Call.undated : Call σ → Call σ
  | .found cp input => .found cp.undated input
  | .equipped w cp input => .equipped w cp.undated input
  | .prepared w options start => .prepared w options start.undated
  | call => call

/-- What can be seen of a thread in an engine. -/
structure ThreadView (σ : Type) where
  workflows : Table (Workflow σ)
  active : Option (ActiveRun σ)
  options : Option ThreadOptions
  issued : Nat
  history : String → List Checkpoint

/-- What can be seen of a thread, without times. -/
def EngineState.view (s : EngineState σ Chains) (threadId : String) : ThreadView σ where
  workflows := s.workflows
  active := (s.active.get? threadId).map ActiveRun.undated
  options := s.threads.get? threadId
  issued := (s.issued.get? threadId).getD 0
  history := s.archive.history threadId

/-- What can be seen of a thread behind a step of one of its calls. -/
def Engine.observed (threadId : String) (p : Call σ × EngineState σ Chains) :
    Call σ × ThreadView σ := (p.1.undated, p.2.view threadId)

/-- What can be seen of a thread and its calls. -/
def Session.seen (s : Session σ Chains) (threadId : String) :
    ThreadView σ × (Nat → Option (Call σ)) :=
  (s.engine.view threadId, fun n => (s.calls threadId n).map Call.undated)

/-! ## Only secluded nodes run -/

/-- All workflows that are registered or that are run have secluded nodes. -/
structure EngineState.Secluded {τ : Type} (s : EngineState σ τ) : Prop where
  registered : ∀ graphId w, s.workflows.get? graphId = some w → w.Secluded
  active : ∀ t run, s.active.get? t = some run → run.workflow.Secluded

/-- The workflow that a call has found has secluded nodes. -/
def Call.Secluded : Call σ → Prop
  | .equipped w _ _ => w.Secluded
  | .prepared w _ _ => w.Secluded
  | _ => True

structure Session.Secluded {τ : Type} (s : Session σ τ) : Prop where
  engine : s.engine.Secluded
  calls : ∀ t n c, s.calls t n = some c → c.Secluded

/-- Whatever is registered has to have secluded nodes. -/
def Action.Secluded : Action σ → Prop
  | .register _ w => w.Secluded
  | _ => True

section Secluded

variable {τ : Type} {e : Engine σ τ} {s s' : EngineState σ τ} {c c' : Call σ}

theorem EngineState.Secluded.workflow (h : s.Secluded) {graphId : String} {w : Workflow σ}
    (hw : s.workflow graphId = .ok w) : w.Secluded := by
  unfold EngineState.workflow at hw
  cases hget : s.workflows.get? graphId with
  | none =>
    rw [hget] at hw
    cases hw
  | some w' =>
    rw [hget] at hw
    cases hw
    exact h.registered graphId _ hget

/-- A run of secluded nodes on a thread. -/
theorem EngineState.Secluded.insert (h : s.Secluded) {run : ActiveRun σ}
    (hrun : run.workflow.Secluded) (t : String) (other : ActiveRun σ)
    (hother : (s.active.insert threadId run).get? t = some other) : other.workflow.Secluded := by
  rw [Table.get?_insert] at hother
  split at hother
  · cases hother
    exact hrun
  · exact h.active t other hother

theorem Engine.Step.secluded (hstep : e.Step threadId s c c' s') (h : s.Secluded)
    (hc : c.Secluded) : s'.Secluded := by
  cases hstep with
  | claimed ha => exact ⟨h.registered, h.insert hc⟩
  | moved ha hm =>
    have hrun := h.active _ _ ha
    exact ⟨h.registered, h.insert hrun⟩
  | canceled ha =>
    have hrun := h.active _ _ ha
    exact ⟨h.registered, h.insert hrun⟩
  | finished ha hstage =>
    refine ⟨h.registered, fun t run hrun => ?_⟩
    by_cases ht : t = threadId
    · rw [ht, Table.get?_erase_self] at hrun
      cases hrun
    · rw [Table.get?_erase_of_ne ht] at hrun
      exact h.active t run hrun
  | remembered options => exact ⟨h.registered, h.active⟩
  | _ => exact h

/-- A call finds its workflow among those that are registered. -/
theorem Engine.step_secluded (h : s.Secluded) (hc : c.Secluded) :
    (e.step threadId s c).1.Secluded := by
  unfold step
  cases c with
  | asked q =>
    cases q with
    | start graphId input =>
      dsimp only
      cases hw : s.workflow graphId with
      | error err => trivial
      | ok w => exact h.workflow hw
    | resume input =>
      dsimp only
      cases e.latest s threadId with
      | error err => trivial
      | ok cp => trivial
    | cancel => trivial
  | found cp input =>
    dsimp only
    cases hw : s.workflow cp.record.graphId with
    | error err => trivial
    | ok w => exact h.workflow hw
  | equipped w cp input => exact hc
  | prepared w options start =>
    dsimp only
    cases s.claim threadId w options start with
    | error err => trivial
    | ok s' => trivial
  | running =>
    dsimp only
    split
    · trivial
    · trivial
  | _ => trivial

variable {s : Session σ τ}

theorem Session.Secluded.put (h : s.Secluded) {p : Call σ × EngineState σ τ} (hp : p.2.Secluded)
    (hc : p.1.Secluded) (number : Nat) : (s.put threadId number p).Secluded := by
  refine ⟨hp, fun t n c hcall => ?_⟩
  by_cases hkey : t = threadId ∧ n = number
  · obtain ⟨rfl, rfl⟩ := hkey
    rw [s.put_self] at hcall
    cases hcall
    exact hc
  · rw [s.put_of_ne p hkey] at hcall
    exact h.calls t n c hcall

/-- Whatever happens, only secluded nodes run. -/
theorem Session.Secluded.happens (h : s.Secluded) {a : Action σ} {s' : Session σ τ}
    (hact : s.Happens e a s') (ha : a.Secluded) : s'.Secluded := by
  cases hact with
  | @made t n q hc =>
    refine h.put h.engine ?_ n
    trivial
  | @went t n c hcall =>
    have hc := h.calls t n c hcall
    exact h.put ((e.step_step t s.engine c).secluded h.engine hc)
      (Engine.step_secluded h.engine hc) n
  | registered graphId w =>
    refine ⟨⟨fun other w' hw' => ?_, h.engine.active⟩, h.calls⟩
    change (s.engine.workflows.insert graphId w).get? other = some w' at hw'
    rw [Table.get?_insert] at hw'
    split at hw'
    · cases hw'
      exact ha
    · exact h.engine.registered other w' hw'
  | passed time => exact ⟨⟨h.engine.registered, h.engine.active⟩, h.calls⟩
  | _ => exact h

end Secluded

/-! ## Steps about other threads -/

variable {s s' : EngineState σ Chains} {c c' : Call σ}

/-- A step about another thread cannot be seen. -/
theorem Engine.Step.view_of_ne (he : e.archive = .memory) {t : String}
    (h : e.Step threadId s c c' s') (hne : t ≠ threadId) : s'.view t = s.view t := by
  have hactive := h.active_of_ne hne
  unfold EngineState.view
  rw [hactive]
  cases h with
  | remembered options =>
    unfold EngineState.remember
    rw [Table.get?_insert_of_ne _ hne]
  | moved ha hm =>
    have hhistory := hm.leaves (q := fun cs => cs.history t) fun cp cs hthread _ => by
      rw [show (e.runner threadId _ _).archive = .memory from he]
      exact Chains.save_of_ne fun heq => hne (heq.symm.trans hthread)
    unfold EngineState.withRunWorld
    dsimp only
    rw [Table.get?_insert_of_ne _ hne, hhistory]
    rfl
  | _ => rfl

/-! ## Steps about the thread -/

namespace EngineState

section Views

variable (h : s.view threadId = s'.view threadId)

include h

theorem workflow_eq (graphId : String) : s.workflow graphId = s'.workflow graphId := by
  have hworkflows : s.workflows = s'.workflows := congrArg ThreadView.workflows h
  unfold workflow
  rw [hworkflows]

/-- The options of a resumed run can be seen. -/
theorem optionsFor_eq (graphId : String) :
    Engine.optionsFor s threadId graphId = Engine.optionsFor s' threadId graphId := by
  have hoptions : s.threads.get? threadId = s'.threads.get? threadId :=
    congrArg ThreadView.options h
  unfold Engine.optionsFor
  rw [hoptions]

theorem active_eq : (s.active.get? threadId).map ActiveRun.undated =
    (s'.active.get? threadId).map ActiveRun.undated := congrArg ThreadView.active h

theorem isActive_congr : s.isActive threadId = s'.isActive threadId := by
  have hactive := congrArg Option.isSome (active_eq h)
  rw [Option.isSome_map, Option.isSome_map] at hactive
  rwa [isActive_eq, isActive_eq]

/-- The latest checkpoint can be seen, but for its time. -/
theorem latest_undated (he : e.archive = .memory) :
    (e.latest s threadId).map Checkpoint.undated =
      (e.latest s' threadId).map Checkpoint.undated := by
  have hlast : ∀ s : EngineState σ Chains, (e.latest s threadId).map Checkpoint.undated =
      match ((s.view threadId).history e.settings.checkpointNs).getLast? with
      | none => .error (.threadNotFound threadId)
      | some cp => .ok cp := by
    intro s
    unfold Engine.latest view Chains.history
    rw [he, List.getLast?_map]
    dsimp only [Archive.memory, Chains.load]
    cases (s.archive.chain threadId e.settings.checkpointNs).getLast? with
    | none => rfl
    | some cp => rfl
  rw [hlast, hlast, h]

/-- Another active run on the thread in both engines. -/
theorem view_active {active active' : Table (ActiveRun σ)}
    (ha : (active.get? threadId).map ActiveRun.undated =
      (active'.get? threadId).map ActiveRun.undated) :
    ({ s with active := active } : EngineState σ Chains).view threadId =
      ({ s' with active := active' } : EngineState σ Chains).view threadId :=
  congrArg₂ (fun v a => ({ v with active := a } : ThreadView σ)) h ha

end Views

theorem view_remember (s : EngineState σ Chains) (threadId : String) (options : ThreadOptions) :
    (s.remember threadId options).view threadId =
      { s.view threadId with options := some options } := by
  unfold view remember
  dsimp only
  rw [Table.get?_insert_self]

end EngineState

namespace Engine

/-- A move of the active run of a thread goes by what can be seen of the thread. -/
theorem observed_tick (he : e.archive = .memory) (hs : s.Secluded)
    (h : s.view threadId = s'.view threadId) :
    (e.tick threadId s).1 = (e.tick threadId s').1 ∧
      (e.tick threadId s).2.view threadId = (e.tick threadId s').2.view threadId := by
  have hactive := EngineState.active_eq h
  cases ha : s.active.get? threadId with
  | none =>
    rw [ha] at hactive
    rw [tick_idle ha, tick_idle (Option.map_eq_none_iff.mp hactive.symm)]
    exact ⟨rfl, h⟩
  | some run =>
    rw [ha] at hactive
    obtain ⟨run', ha', hrun⟩ := Option.map_eq_some_iff.mp hactive.symm
    obtain ⟨hoptions, hworkflow, hstage, hcancelled⟩ := ActiveRun.mk.inj hrun
    have houtcome : run'.stage.outcome? = run.stage.outcome? := by
      rw [← run'.stage.undated_outcome?, hstage, run.stage.undated_outcome?]
    cases ho : run.stage.outcome? with
    | some o =>
      rw [tick_ended ha ho, tick_ended ha' (houtcome.trans ho)]
      refine ⟨rfl, EngineState.view_active h ?_⟩
      rw [Table.get?_erase_self, Table.get?_erase_self]
    | none =>
      obtain ⟨hworkflows, -, hthread, hissued, hhistory⟩ := ThreadView.mk.inj h
      rw [tick_active ha ho, tick_active ha' (houtcome.trans ho), hoptions, hworkflow, hcancelled]
      have hworlds : (s.runWorld threadId run.cancelled).Beside threadId
          (s'.runWorld threadId run.cancelled) := ⟨⟨rfl, hissued⟩, hhistory⟩
      obtain ⟨hbehind, hbeside⟩ := (e.runner threadId run.workflow run.options).advance_beside he
        (hs.active _ _ ha) hstage.symm hworlds
      refine ⟨rfl, ?_⟩
      unfold EngineState.view EngineState.withRunWorld
      dsimp only
      simp only [Table.get?_insert_self]
      rw [hbehind, hbeside.world.cancelled, hbeside.world.issued, hworkflows, hthread]
      exact congrArg _ hbeside.history

/-- Claiming a thread goes by what can be seen of it. -/
theorem observed_prepared (h : s.view threadId = s'.view threadId) (w : Workflow σ)
    (options : ThreadOptions) {start start' : RunStart} (hstart : start.undated = start'.undated) :
    observed threadId (e.step threadId s (.prepared w options start)) =
      observed threadId (e.step threadId s' (.prepared w options start')) := by
  unfold step EngineState.claim
  dsimp only
  rw [EngineState.isActive_congr h]
  cases s'.isActive threadId with
  | true => exact Prod.ext rfl h
  | false =>
    refine Prod.ext rfl (EngineState.view_active h ?_)
    rw [Table.get?_insert_self, Table.get?_insert_self]
    exact congrArg (fun start => some (ActiveRun.mk options w (.waiting start) false)) hstart

/-- Cancelling the run of a thread goes by what can be seen of it. -/
theorem observed_cancel (h : s.view threadId = s'.view threadId) :
    observed threadId (e.step threadId s (.asked .cancel)) =
      observed threadId (e.step threadId s' (.asked .cancel)) := by
  have hactive := EngineState.active_eq h
  unfold step EngineState.cancel
  dsimp only
  cases ha : s.active.get? threadId with
  | none =>
    rw [ha] at hactive
    rw [Option.map_eq_none_iff.mp hactive.symm]
    exact Prod.ext rfl h
  | some run =>
    rw [ha] at hactive
    obtain ⟨run', ha', hrun⟩ := Option.map_eq_some_iff.mp hactive.symm
    rw [ha']
    refine Prod.ext rfl (EngineState.view_active h ?_)
    rw [Table.get?_insert_self, Table.get?_insert_self]
    exact congrArg (fun run : ActiveRun σ => some { run with cancelled := true }) hrun.symm

/-- Looking up the latest checkpoint of a thread goes by what can be seen of it. -/
theorem observed_resume (he : e.archive = .memory) (h : s.view threadId = s'.view threadId)
    (input : Option Json) :
    observed threadId (e.step threadId s (.asked (.resume input))) =
      observed threadId (e.step threadId s' (.asked (.resume input))) := by
  have hlatest := EngineState.latest_undated h he
  unfold step
  dsimp only
  cases hl : e.latest s threadId with
  | error err =>
    rw [hl] at hlatest
    cases hl' : e.latest s' threadId with
    | error err' =>
      rw [hl'] at hlatest
      cases hlatest
      exact Prod.ext rfl h
    | ok cp' =>
      rw [hl'] at hlatest
      cases hlatest
  | ok cp =>
    rw [hl] at hlatest
    cases hl' : e.latest s' threadId with
    | error err' =>
      rw [hl'] at hlatest
      cases hlatest
    | ok cp' =>
      rw [hl'] at hlatest
      have hcp : cp.undated = cp'.undated := Except.ok.inj hlatest
      exact Prod.ext (congrArg (Call.found · input) hcp) h

/-- A step of a call does not go by the times of what the call has found. -/
theorem observed_step_undated (e : Engine σ Chains) (threadId : String) (s : EngineState σ Chains)
    (c : Call σ) :
    observed threadId (e.step threadId s c.undated) = observed threadId (e.step threadId s c) := by
  cases c with
  | found cp input =>
    dsimp only [Call.undated]
    unfold step
    dsimp only [Checkpoint.undated]
    cases s.workflow cp.record.graphId with
    | error err => rfl
    | ok w => rfl
  | prepared w options start => exact observed_prepared rfl w options start.undated_undated
  | _ => rfl

/-- A step of a call about a thread goes by what can be seen of the thread. -/
theorem observed_step (he : e.archive = .memory) (hs : s.Secluded)
    (h : s.view threadId = s'.view threadId) (hc : c.undated = c'.undated) :
    observed threadId (e.step threadId s c) = observed threadId (e.step threadId s' c') := by
  rw [← e.observed_step_undated, ← e.observed_step_undated threadId s', hc]
  generalize c'.undated = c
  cases c with
  | asked q =>
    cases q with
    | start graphId input =>
      unfold step
      dsimp only
      rw [EngineState.workflow_eq h]
      cases s'.workflow graphId with
      | error err => exact Prod.ext rfl h
      | ok w => exact Prod.ext rfl h
    | resume input => exact observed_resume he h input
    | cancel => exact observed_cancel h
  | found cp input =>
    unfold step
    dsimp only
    rw [EngineState.workflow_eq h]
    cases s'.workflow cp.record.graphId with
    | error err => exact Prod.ext rfl h
    | ok w => exact Prod.ext rfl h
  | equipped w cp input =>
    unfold step
    dsimp only
    rw [EngineState.optionsFor_eq h]
    exact Prod.ext rfl h
  | prepared w options start => exact observed_prepared h w options rfl
  | admitted options =>
    refine Prod.ext rfl ?_
    change (s.remember threadId options).view threadId =
      (s'.remember threadId options).view threadId
    rw [EngineState.view_remember, EngineState.view_remember, h]
  | running =>
    obtain ⟨hresult, hview⟩ := observed_tick he hs h
    unfold step
    generalize e.tick threadId s = p at hresult hview
    generalize e.tick threadId s' = p' at hresult hview
    obtain ⟨o, behind⟩ := p
    obtain ⟨o', behind'⟩ := p'
    obtain rfl : o = o' := hresult
    cases o with
    | none => exact Prod.ext rfl hview
    | some o => exact Prod.ext rfl hview
  | _ => exact Prod.ext rfl h

end Engine

/-! ## What happens -/

/-- Whether something happens to a thread. A registration concerns all threads. -/
def Action.concerns (threadId : String) : Action σ → Bool
  | ask t _ _ => t == threadId
  | go t _ => t == threadId
  | register _ _ => true
  | pass _ => false

namespace Session

variable {s s' : Session σ Chains} {a : Action σ}

/-- What can be seen when one of the calls of the thread has come to stand somewhere. -/
theorem seen_put (h : s.seen threadId = s'.seen threadId) {p p' : Call σ × EngineState σ Chains}
    (hp : Engine.observed threadId p = Engine.observed threadId p') (number : Nat) :
    (s.put threadId number p).seen threadId = (s'.put threadId number p').seen threadId := by
  refine Prod.ext (congrArg Prod.snd hp) (funext fun n => ?_)
  by_cases hn : n = number
  · subst hn
    change Option.map _ _ = Option.map _ _
    rw [put_self, put_self]
    exact congrArg (fun p => some p.1) hp
  · change Option.map _ _ = Option.map _ _
    rw [put_of_ne _ _ fun heq => hn heq.2, put_of_ne _ _ fun heq => hn heq.2]
    exact congrFun (congrArg Prod.snd h) n

/-- What happens to others cannot be seen. -/
theorem Happens.seen_eq (he : e.archive = .memory) (h : s.Happens e a s')
    (ha : a.concerns threadId = false) : s'.seen threadId = s.seen threadId := by
  have hput : ∀ t n p, t ≠ threadId → p.2.view threadId = s.engine.view threadId →
      (s.put t n p).seen threadId = s.seen threadId := by
    refine fun t n p ht hp => Prod.ext hp (funext fun k => ?_)
    change Option.map _ _ = Option.map _ _
    rw [put_of_ne _ _ fun heq => ht heq.1.symm]
  cases h with
  | @made t n q hc =>
    have ht : t ≠ threadId := by simpa [Action.concerns] using ha
    exact hput t n _ ht rfl
  | @went t n c hc =>
    have ht : t ≠ threadId := by simpa [Action.concerns] using ha
    exact hput t n _ ht ((e.step_step t s.engine c).view_of_ne he ht.symm)
  | registered graphId w => cases ha
  | _ => rfl

/-- What happens to the thread goes by what can be seen of it. -/
theorem seen_act (he : e.archive = .memory) (hs : s.Secluded)
    (h : s.seen threadId = s'.seen threadId) (ha : a.concerns threadId = true) :
    (s.act e a).seen threadId = (s'.act e a).seen threadId := by
  obtain ⟨hview, hcalls⟩ := Prod.mk.inj h
  cases a with
  | ask t n q =>
    obtain rfl : t = threadId := by simpa [Action.concerns] using ha
    have hcall := congrFun hcalls n
    unfold Session.act
    dsimp only
    cases hc : s.calls t n with
    | none =>
      rw [hc] at hcall
      rw [Option.map_eq_none_iff.mp hcall.symm]
      refine seen_put h ?_ n
      exact Prod.ext rfl hview
    | some c =>
      rw [hc] at hcall
      obtain ⟨c', hc', -⟩ := Option.map_eq_some_iff.mp hcall.symm
      rw [hc']
      exact h
  | go t n =>
    obtain rfl : t = threadId := by simpa [Action.concerns] using ha
    have hcall := congrFun hcalls n
    unfold Session.act
    dsimp only
    cases hc : s.calls t n with
    | none =>
      rw [hc] at hcall
      rw [Option.map_eq_none_iff.mp hcall.symm]
      exact h
    | some c =>
      rw [hc] at hcall
      obtain ⟨c', hc', hsame⟩ := Option.map_eq_some_iff.mp hcall.symm
      rw [hc']
      exact seen_put h (Engine.observed_step he hs.engine hview hsame.symm) n
  | register graphId w =>
    exact congrArg (fun p : ThreadView σ × _ =>
      ({ p.1 with workflows := p.1.workflows.insert graphId w }, p.2)) h
  | pass time => cases ha

theorem seen_run_of_not (he : e.archive = .memory) (s : Session σ Chains)
    {actions : List (Action σ)} (ha : ∀ a ∈ actions, a.concerns threadId = false) :
    (s.run e actions).seen threadId = s.seen threadId := by
  induction actions using List.reverseRecOn with
  | nil => rfl
  | append_singleton actions a ih =>
    rw [run_concat, (act_happens _ e a).seen_eq he (ha a (by simp))]
    exact ih fun a hmem => ha a (List.mem_append_left _ hmem)

/-- What can be seen of a thread depends on what concerns it only. -/
theorem seen_run (he : e.archive = .memory) {actions actions' : List (Action σ)} (hs : s.Secluded)
    (ha : ∀ a ∈ actions, a.Secluded)
    (hsame : actions.filter (·.concerns threadId) = actions'.filter (·.concerns threadId))
    (h : s.seen threadId = s'.seen threadId) :
    (s.run e actions).seen threadId = (s'.run e actions').seen threadId := by
  induction actions generalizing actions' s s' with
  | nil =>
    rw [s'.seen_run_of_not he fun a hmem => ?_]
    · exact h
    · simpa using List.filter_eq_nil_iff.mp hsame.symm a hmem
  | cons a rest ih =>
    have hs' : (s.act e a).Secluded :=
      hs.happens (s.act_happens e a) (ha a List.mem_cons_self)
    have hrest : ∀ a ∈ rest, a.Secluded := fun a hmem => ha a (List.mem_cons_of_mem _ hmem)
    change ((s.act e a).run e rest).seen threadId = _
    cases hconcerns : a.concerns threadId with
    | false =>
      rw [List.filter_cons_of_neg (by simp [hconcerns])] at hsame
      exact ih hs' hrest hsame (((s.act_happens e a).seen_eq he hconcerns).trans h)
    | true =>
      rw [List.filter_cons_of_pos hconcerns] at hsame
      -- The other session first goes through what does not concern the thread.
      obtain ⟨before, after, rfl, hbefore, -, hafter⟩ := List.filter_eq_cons_iff.mp hsame.symm
      have hseen : s.seen threadId = (s'.run e before).seen threadId := by
        rw [s'.seen_run_of_not he fun a hmem => by simpa using hbefore a hmem]
        exact h
      change _ = ((before ++ a :: after).foldl (act e) s').seen threadId
      rw [List.foldl_append, List.foldl_cons]
      exact ih hs' hrest hafter.symm (seen_act he hs hseen hconcerns)

end Session

/-- The outcome of the run of a call, once it has been given. -/
def Call.outcome? : Call σ → Option Outcome
  | .finished o => some o
  | _ => none

theorem Call.undated_outcome? (c : Call σ) : c.undated.outcome? = c.outcome? := by
  cases c with
  | _ => rfl

/-- The outcome of the run that a call has let begin. -/
def Session.outcome? {τ : Type} (s : Session σ τ) (threadId : String) (number : Nat) :
    Option Outcome := (s.calls threadId number).bind Call.outcome?

/-- The outcomes of a thread can be seen. -/
theorem Session.outcome?_eq (s : Session σ Chains) (threadId : String) (number : Nat) :
    s.outcome? threadId number = ((s.seen threadId).2 number).bind Call.outcome? := by
  unfold outcome? seen
  dsimp only
  cases s.calls threadId number with
  | none => rfl
  | some c => exact c.undated_outcome?.symm

open Session

/-- Threads do not influence each other. In two sessions that begin alike the same is done about a
thread, whatever is done about other threads in between, and whatever the time. Then the calls about
the thread come to stand in the same places, the outcomes of its runs are the same, and so are its
checkpoints, but for times. In particular nothing would be different if only the calls about the
thread had been made. What the nodes give back has to depend on the state and on what they are told
only. -/
theorem threads_independent (he : e.archive = .memory) {s₀ : Session σ Chains} (h₀ : s₀.Secluded)
    {actions actions' : List (Action σ)} (ha : ∀ a ∈ actions, a.Secluded)
    (hsame : actions.filter (·.concerns threadId) = actions'.filter (·.concerns threadId)) :
    let s := s₀.run e actions
    let s' := s₀.run e actions'
    (∀ n, (s.calls threadId n).map Call.undated = (s'.calls threadId n).map Call.undated) ∧
    (∀ n, s.outcome? threadId n = s'.outcome? threadId n) ∧
    ∀ checkpointNs, (s.engine.archive.chain threadId checkpointNs).map Checkpoint.undated =
      (s'.engine.archive.chain threadId checkpointNs).map Checkpoint.undated := by
  intro s s'
  have hseen : s.seen threadId = s'.seen threadId := seen_run he h₀ ha hsame rfl
  refine ⟨congrFun (congrArg Prod.snd hseen), fun n => ?_, fun ns => ?_⟩
  · rw [s.outcome?_eq, s'.outcome?_eq, hseen]
  · exact congrFun (congrArg (fun p => p.1.history) hseen) ns

/-! ## Runs on two threads -/

/-- Two threads take turns: on one of them a run pauses and is resumed, on the other one a run is
cancelled; in between time passes. -/
def turnActions : List (Action Unit) :=
  let paused : Request := .start "uneven" ⟨.null, .null, none, ["c"], []⟩
  let plain : Request := .start "uneven" ⟨.null, .null, none, [], []⟩
  let turns (count number : Nat) : List (Action Unit) :=
    (List.replicate count [.go "t" number, .go "u" 0]).flatten
  [.ask "t" 0 paused, .ask "u" 0 plain] ++ turns 8 0 ++
    [.ask "u" 1 .cancel, .go "u" 1, .pass ⟨1, 0⟩] ++ turns 8 0 ++
    [.ask "t" 1 (.resume none)] ++ turns 20 1

/-- What is done about one of the threads. -/
def ownActions : List (Action Unit) := turnActions.filter (·.concerns "t")

theorem turnActions_secluded : ∀ a ∈ turnActions, a.Secluded := by
  have hnone : turnActions.all (fun | .register _ _ => false | _ => true) = true := rfl
  intro a ha
  have hkind := List.all_eq_true.mp hnone a ha
  cases a with
  | register graphId w => cases hkind
  | _ => trivial

theorem unevenWorkflow_secluded : unevenWorkflow.Secluded := by
  intro n hn ctx s w w' h
  rw [(unevenWorkflow_nodes hn).1]
  exact ⟨rfl, h⟩

theorem forkSession_secluded : forkSession.Secluded := by
  refine ⟨⟨fun graphId w hw => ?_, fun t run hrun => ?_⟩, fun t n c hc => ?_⟩
  · change (Table.insert [] "uneven" unevenWorkflow).get? graphId = some w at hw
    rw [Table.get?_insert] at hw
    split at hw
    · cases hw
      exact unevenWorkflow_secluded
    · cases hw
  · cases hrun
  · cases hc

theorem threads_independent_turns :
    forkEngine.archive = .memory ∧ forkSession.Secluded ∧ (∀ a ∈ turnActions, a.Secluded) ∧
      turnActions.filter (·.concerns "t") = ownActions.filter (·.concerns "t") ∧
      ((forkSession.run forkEngine ownActions).outcome? "t" 0).map (·.status) =
        some .interrupted ∧
      ((forkSession.run forkEngine ownActions).outcome? "t" 1).map (·.status) =
        some .completed ∧
      ((forkSession.run forkEngine turnActions).outcome? "u" 0).map (·.status) =
        some .canceled ∧
      ((forkSession.run forkEngine turnActions).engine.archive.chain "t" "").map
          Checkpoint.undated =
        ((forkSession.run forkEngine ownActions).engine.archive.chain "t" "").map
          Checkpoint.undated := by
  have hsame : turnActions.filter (·.concerns "t") = ownActions.filter (·.concerns "t") := by
    simp [ownActions]
  have hpaused : ((forkSession.run forkEngine turnActions).outcome? "t" 0).map (·.status) =
      some .interrupted := by decide +kernel
  have hresumed : ((forkSession.run forkEngine turnActions).outcome? "t" 1).map (·.status) =
      some .completed := by decide +kernel
  have hcanceled : ((forkSession.run forkEngine turnActions).outcome? "u" 0).map (·.status) =
      some .canceled := by decide +kernel
  obtain ⟨-, houtcome, hchain⟩ := threads_independent (e := forkEngine) rfl forkSession_secluded
    turnActions_secluded hsame
  rw [houtcome] at hpaused hresumed
  exact ⟨rfl, forkSession_secluded, turnActions_secluded, hsame, hpaused, hresumed, hcanceled,
    hchain ""⟩

end Workgraph
