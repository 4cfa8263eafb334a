import Mathlib.Algebra.BigOperators.Group.List.Basic
import Mathlib.Algebra.Ring.Nat
import Mathlib.Logic.Relation
import Workgraph.Proofs.Checkpoint.Saving
import Workgraph.Proofs.Run.Alike
import Workgraph.Proofs.Run.Recording
import Workgraph.Proofs.Run.Routing
import Workgraph.Proofs.Run.Step
/-!
# Concurrency

The nodes of a step run at the same time, as far as there is room for them, and finish in some
order. If what they give back depends on nothing but what they are told and the state, then nobody
can tell in which order they finished, or how much room there was: not from what passes the barrier,
and so not from the outcome of the run or from its checkpoints, except for their times.

## Main definitions

- `Tasks.Step`, `Finishes`: how the tasks of a step begin and finish
- `Workflow.Depends`: nodes that depend on what they are told and on the state only
- `Runner.Yields`: what passes the barrier of a step
- `RunWorld.Agree`: worlds of two runs that agree

## Main statements

- `finishes_iff`: with any room, tasks can finish in any order
- `Runner.barrier_yields`: the barrier goes by the order of the frontier
- `concurrency_invisible`: the order in which nodes finish makes no difference
-/

namespace Workgraph

open Relation

variable {σ τ : Type}

/-! ## The tasks of a step -/

/-- The tasks of a step by the places of their nodes in the frontier: those that wait to begin,
those that run, and those that have finished, in the order in which they did. -/
structure Tasks where
  waiting : List Nat
  running : List Nat
  finished : List Nat

/-- All tasks. -/
def Tasks.all (t : Tasks) : List Nat := t.waiting ++ t.running ++ t.finished

/-- A task begins if there is room for it, or one that runs finishes. A width says how many may run
at once, at least one; without a width there is always room. -/
inductive Tasks.Step (width : Option Nat) : Tasks → Tasks → Prop
  | begin {before after running finished : List Nat} {index : Nat}
      (room : ∀ n, width = some n → running.length < max n 1) :
      Step width ⟨before ++ index :: after, running, finished⟩
        ⟨before ++ after, running ++ [index], finished⟩
  | finish {waiting before after finished : List Nat} {index : Nat} :
      Step width ⟨waiting, before ++ index :: after, finished⟩
        ⟨waiting, before ++ after, finished ++ [index]⟩

/-- An order in which all tasks of a step can finish. -/
def Finishes (width : Option Nat) (count : Nat) (order : List Nat) : Prop :=
  ReflTransGen (Tasks.Step width) ⟨List.range count, [], []⟩ ⟨[], [], order⟩

variable {width : Option Nat}

/-- No task is lost and none is doubled. -/
theorem Tasks.Step.perm {t t' : Tasks} (h : Tasks.Step width t t') : t.all.Perm t'.all := by
  unfold Tasks.all
  cases h with
  | begin room =>
    rw [List.perm_iff_count]
    intro a
    simp only [List.count_append, List.count_cons, List.count_nil]
    omega
  | finish =>
    rw [List.perm_iff_count]
    intro a
    simp only [List.count_append, List.count_cons, List.count_nil]
    omega

/-- With room for one, the tasks that wait can begin and finish one after the other, in any order.
-/
theorem Tasks.one_by_one {order waiting : List Nat} (h : waiting.Perm order) (finished : List Nat) :
    ReflTransGen (Tasks.Step width) ⟨waiting, [], finished⟩ ⟨[], [], finished ++ order⟩ := by
  induction order generalizing waiting finished with
  | nil =>
    rw [List.perm_nil.mp h, List.append_nil]
  | cons index rest ih =>
    obtain ⟨before, after, rfl⟩ := List.append_of_mem (h.mem_iff.mpr List.mem_cons_self)
    have hrest : (before ++ after).Perm rest := (List.perm_middle.symm.trans h).cons_inv
    have hbegin : Tasks.Step width ⟨before ++ index :: after, [], finished⟩
        ⟨before ++ after, [index], finished⟩ :=
      .begin fun n _ => Nat.lt_of_lt_of_le Nat.zero_lt_one (Nat.le_max_right n 1)
    have hfinish : Tasks.Step width ⟨before ++ after, [index], finished⟩
        ⟨before ++ after, [], finished ++ [index]⟩ :=
      @Tasks.Step.finish width (before ++ after) [] [] finished index
    have hdone := ih hrest (finished ++ [index])
    rw [List.append_assoc] at hdone
    exact (hdone.head hfinish).head hbegin

/-- However much room there is, the tasks of a step can finish in any order, and each finishes
once. -/
theorem finishes_iff {count : Nat} {order : List Nat} :
    Finishes width count order ↔ order.Perm (List.range count) := by
  constructor
  · intro h
    have hall : ∀ {t t'}, ReflTransGen (Tasks.Step width) t t' → t.all.Perm t'.all := by
      intro t t' hsteps
      induction hsteps with
      | refl => exact .refl _
      | tail _ hstep ih => exact ih.trans hstep.perm
    simpa [Tasks.all] using (hall h).symm
  · intro h
    have hsteps : ReflTransGen (Tasks.Step width) ⟨List.range count, [], []⟩
        ⟨[], [], [] ++ order⟩ :=
      Tasks.one_by_one h.symm []
    rwa [List.nil_append] at hsteps

/-! ## What passes the barrier -/

/-- What nodes give back, by what they are told and the state. -/
abbrev Response := NodeContext → Snapshot → Except NodeError NodeOutput

/-- The nodes depend on nothing but what they are told and the state: so do what they give back and
how many identifiers they draw. None of them cancels the run. What they do to the host, to the log
and to the time may depend on anything. -/
def Workflow.Depends (w : Workflow σ) (f : Response) (d : NodeContext → Snapshot → Nat) : Prop :=
  ∀ n ∈ w.nodes, ∀ ctx s world, ctx.nodeKey = n.key → world.cancelled = false →
    (n.run ctx s world).1 = f ctx s ∧ (n.run ctx s world).2.cancelled = false ∧
      (n.run ctx s world).2.issued = world.issued + d ctx s

namespace Runner

variable {r : Runner σ τ} {f : Response} {d : NodeContext → Snapshot → Nat} {c : Cursor}
  {base : Nat}

/-- What the node at a place of the frontier gives back. -/
def resultOf (r : Runner σ τ) (f : Response) (c : Cursor) (base : Nat) (p : String × Nat) :
    Except NodeError NodeOutput :=
  f (r.contextOf c p.1 (base + p.2)) c.store.state

/-- How many identifiers the node at a place of the frontier draws. -/
def drawsAt (r : Runner σ τ) (d : NodeContext → Snapshot → Nat) (c : Cursor) (base index : Nat) :
    Nat :=
  ((c.frontier[index]?.bind r.workflow.node?).map fun n =>
    d (r.contextOf c n.key (base + index)) c.store.state).getD 0

/-- Every place of the frontier has the result of its node. -/
def Delivers (r : Runner σ τ) (f : Response) (c : Cursor) (base : Nat) (arrivals : Arrivals) :
    Prop :=
  ∀ p ∈ c.frontier.zipIdx, resultAt arrivals p.2 = r.resultOf f c base p

/-- What passes the barrier of a step: what all nodes gave back, in the order of the frontier, or
the error of the one that comes first in the frontier among those that failed. -/
def Yields (r : Runner σ τ) (f : Response) (c : Cursor) (base : Nat) :
    Except (String × NodeError) (List NodeOutput) → Prop
  | .ok outputs =>
    List.Forall₂ (fun p out => r.resultOf f c base p = .ok out) c.frontier.zipIdx outputs
  | .error (key, e) => ∃ before after, c.frontier = before ++ key :: after ∧
    r.resultOf f c base (key, before.length) = .error e ∧
    ∀ p ∈ before.zipIdx, ∃ out, r.resultOf f c base p = .ok out

/-- Arrivals with the same results at all places are the same to the barrier. -/
theorem Delivers.barrier_eq {arrivals : Arrivals} (h : r.Delivers f c base arrivals) :
    barrier c.frontier arrivals =
      c.frontier.zipIdx.mapM fun p => (r.resultOf f c base p).mapError fun e => (p.1, e) := by
  unfold barrier
  refine mapM_congr fun p hp => ?_
  dsimp only
  rw [h p hp]

/-- The barrier goes by the order of the frontier. -/
theorem Delivers.yields {arrivals : Arrivals} (h : r.Delivers f c base arrivals) :
    r.Yields f c base (barrier c.frontier arrivals) := by
  cases hb : barrier c.frontier arrivals with
  | ok outputs =>
    have hall := (barrier_eq_ok_iff.mp hb)
    refine List.forall₂_iff_zip.mpr ⟨hall.length_eq, fun {p out} hp => ?_⟩
    rw [← h p (List.of_mem_zip hp).1]
    exact (List.forall₂_iff_zip.mp hall).2 hp
  | error failure =>
    obtain ⟨key, e⟩ := failure
    rw [h.barrier_eq] at hb
    obtain ⟨before, ⟨key', index⟩, after, hsplit, hfail, hbefore⟩ := mapM_eq_error hb
    have herror : r.resultOf f c base (key', index) = .error e ∧ key' = key := by
      cases hr : r.resultOf f c base (key', index) with
      | ok out =>
        rw [hr] at hfail
        cases hfail
      | error e' =>
        rw [hr] at hfail
        cases hfail
        exact ⟨rfl, rfl⟩
    obtain ⟨herror, rfl⟩ := herror
    -- The places before the one that failed are those of the nodes before it.
    obtain ⟨keys, more, hfrontier, rfl, hmore⟩ := List.zipIdx_eq_append_iff.mp hsplit
    obtain ⟨_, rest, rfl, hhead, -⟩ := List.zipIdx_eq_cons_iff.mp hmore.symm
    obtain ⟨rfl, rfl⟩ := Prod.mk.inj hhead
    rw [Nat.zero_add] at herror
    refine ⟨keys, rest, hfrontier, herror, fun p hp => ?_⟩
    obtain ⟨out, hout⟩ := hbefore p hp
    cases hr : r.resultOf f c base p with
    | ok out' => exact ⟨out', rfl⟩
    | error e' =>
      rw [hr] at hout
      cases hout

section Nodes

variable (hf : r.workflow.Depends f d)

include hf in
/-- Every result of the nodes of a step is that of the node at its place. The nodes do not cancel
the run, and they draw as many identifiers as each of them does. -/
theorem Depends.runNodes (c : Cursor) (base : Nat) (order : List Nat) {world : World σ}
    (hawake : world.cancelled = false) :
    (∀ arrival ∈ (r.runNodes c base order world).1, ∃ key, c.frontier[arrival.1]? = some key ∧
      arrival.2 = r.resultOf f c base (key, arrival.1)) ∧
    (r.runNodes c base order world).2.cancelled = false ∧
    (r.runNodes c base order world).2.issued =
      world.issued + (order.map (r.drawsAt d c base)).sum := by
  induction order generalizing world with
  | nil =>
    refine ⟨?_, hawake, rfl⟩
    intro arrival harrival
    cases harrival
  | cons index rest ih =>
    unfold Runner.runNodes
    rw [List.map_cons, List.sum_cons]
    cases hn : c.frontier[index]?.bind r.workflow.node? with
    | none =>
      have hdraws : r.drawsAt d c base index = 0 := by
        unfold drawsAt
        rw [hn]
        rfl
      rw [hdraws, Nat.zero_add]
      exact ih hawake
    | some n =>
      have hdraws : r.drawsAt d c base index =
          d (r.contextOf c n.key (base + index)) c.store.state := by
        unfold drawsAt
        rw [hn]
        rfl
      obtain ⟨key, hkey, hnode⟩ := Option.bind_eq_some_iff.mp hn
      obtain ⟨hmem, rfl⟩ := Workflow.node?_eq_some hnode
      obtain ⟨log, hrun⟩ := runNode_apply n (r.contextOf c n.key (base + index)) c.store.state world
      obtain ⟨hresult, hawake', hissued⟩ := hf n hmem (r.contextOf c n.key (base + index))
        c.store.state { world with log := log } rfl hawake
      rw [← hrun] at hresult hawake' hissued
      obtain ⟨hrest, hcalm, hsum⟩ := ih hawake'
      refine ⟨?_, hcalm, ?_⟩
      · intro arrival harrival
        obtain rfl | harrival := List.mem_cons.mp harrival
        · exact ⟨n.key, hkey, hresult⟩
        · exact hrest arrival harrival
      · rw [hdraws, ← Nat.add_assoc]
        exact hsum.trans (congrArg (· + _) hissued)

include hf in
/-- Where all nodes of a step finish, every place of the frontier has the result of its node. -/
theorem Depends.delivers (c : Cursor) (base : Nat) {order : List Nat}
    (ho : order.Perm (List.range c.frontier.length))
    (hk : ∀ key ∈ c.frontier, r.workflow.contains key = true) {world : World σ}
    (hawake : world.cancelled = false) :
    r.Delivers f c base (r.runNodes c base order world).1 := by
  rintro ⟨key, index⟩ hp
  have hkey : c.frontier[index]? = some key := List.mem_zipIdx_iff_getElem?.mp hp
  have hlt : index < c.frontier.length := List.snd_lt_of_mem_zipIdx hp
  obtain ⟨result, hresult⟩ := runNodes_all base world
    (fun i hi => ho.mem_iff.mpr (List.mem_range.mpr hi)) hk index hlt
  obtain ⟨result', hmem, hat⟩ := resultAt_of_mem hresult
  obtain ⟨key', hkey', hgiven⟩ := (Depends.runNodes hf c base order hawake).1 _ hmem
  cases hkey.symm.trans hkey'
  exact hat.trans hgiven

end Nodes

/-- The results in front of the barrier are those of the nodes. -/
def Collects (r : Runner σ τ) (f : Response) : Stage → Prop
  | .running c arrivals => ∃ base, r.Delivers f c base arrivals
  | _ => True

/-- Wherever a run comes, the results in front of the barrier are those of the nodes, whatever the
order in which they finished. -/
theorem Reaches.collects (hf : r.workflow.Depends f d)
    (ho : ∀ step count, (r.order step count).Perm (List.range count)) {start : RunStart}
    {stage : Stage} {world : RunWorld σ (τ × List Checkpoint)} (h : r.Reaches start stage world) :
    r.Collects f stage := by
  refine h.induct (motive := fun stage _ => r.Collects f stage) trivial ?_
  intro stage w stage' w' hs hmove
  cases hmove with
  | @dispatched _ c budget arrivals world log log' hfrontier hw hb hp hk ha =>
    have hawake : (w.turn c.frontier.length w.archive log).world.cancelled = false := hw
    have hdelivers := Depends.delivers (r := r) hf (c.entered budget) w.world.issued
      (ho (c.step + 1) c.frontier.length) hk hawake
    rw [recording_runNodes] at ha
    rw [show r.runNodes _ _ (r.order _ _) _ = _ from ha] at hdelivers
    exact ⟨_, hdelivers⟩
  | rested => exact hs
  | _ => trivial

end Runner

/-! ## Two runs -/

/-- Contents and records that are alike. -/
def RecordedAlike (V : τ → τ → Prop) (t t' : τ × List Checkpoint) : Prop :=
  V t.1 t'.1 ∧ List.Forall₂ Checkpoint.Alike t.2 t'.2

/-- A record takes no notice of times either. -/
theorem Archive.Timeless.recording {a : Archive τ} {V : τ → τ → Prop} (h : a.Timeless V) :
    a.recording.Timeless (RecordedAlike V) := by
  rintro cp cp' ⟨t, cps⟩ ⟨t', cps'⟩ hcp ⟨ht, hcps⟩
  obtain ⟨hresult, hcontents⟩ := h cp cp' t t' hcp ht
  obtain ⟨result, contents, hs⟩ : ∃ result contents, a.save cp t = (result, contents) := ⟨_, _, rfl⟩
  obtain ⟨result', contents', hs'⟩ : ∃ result contents, a.save cp' t' = (result, contents) :=
    ⟨_, _, rfl⟩
  rw [hs, hs'] at hresult hcontents
  cases hresult
  unfold Archive.recording
  dsimp only
  rw [hs, hs']
  cases result with
  | ok id => exact ⟨rfl, hcontents, List.rel_append hcps (.cons hcp .nil)⟩
  | error e => exact ⟨rfl, hcontents, hcps⟩

/-- Worlds of two runs that nobody has cancelled: the archives are alike, and as many identifiers
have been drawn. -/
structure RunWorld.Agree (V : τ → τ → Prop) (w w' : RunWorld σ τ) : Prop where
  archive : V w.archive w'.archive
  issued : w.world.issued = w'.world.issued
  awake : w.world.cancelled = false
  awake' : w'.world.cancelled = false

namespace RunWorld.Agree

open RunPart

variable {V : τ → τ → Prop}

theorem report (e e' : Timestamp → Event) :
    Relates (Agree V) Eq (RunPart.report e : RunPart σ τ Unit) (RunPart.report e') :=
  fun _ _ hw => ⟨rfl, hw.archive, hw.issued, hw.awake, hw.awake'⟩

theorem isCancelled : Relates (Agree V) Eq (perform Activity.isCancelled : RunPart σ τ Bool)
    (perform Activity.isCancelled) :=
  fun _ _ hw => ⟨hw.awake.trans hw.awake'.symm, hw⟩

theorem reserve (count : Nat) : Relates (Agree V) Eq
    (perform (Activity.reserve count) : RunPart σ τ Nat) (perform (Activity.reserve count)) :=
  fun _ _ hw => ⟨hw.issued, hw.archive, congrArg (· + count) hw.issued, hw.awake, hw.awake'⟩

theorem wait : Relates (Agree V) Eq (perform Activity.wait : RunPart σ τ Unit)
    (perform Activity.wait) :=
  fun _ _ hw => ⟨rfl, hw.archive, hw.issued, hw.awake, hw.awake'⟩

end RunWorld.Agree

namespace Runner

variable {r : Runner σ τ} {f : Response} {d : NodeContext → Snapshot → Nat} {V : τ → τ → Prop}
  {order : Nat → Nat → List Nat}

/-- Two runs whose nodes finish in different orders do the same with worlds that agree. -/
theorem Depends.echoes (hf : r.workflow.Depends f d) (hv : r.archive.Timeless V)
    (ho : ∀ step count, (r.order step count).Perm (List.range count))
    (ho' : ∀ step count, (order step count).Perm (List.range count)) :
    r.Echoes r.archive order (RunWorld.Agree V)
      (fun c arrivals arrivals' => barrier c.frontier arrivals = barrier c.frontier arrivals') where
  report := fun e => RunWorld.Agree.report e e
  isCancelled := RunWorld.Agree.isCancelled
  reserve := RunWorld.Agree.reserve
  wait := RunWorld.Agree.wait
  save := by
    intro c record w w' hw
    obtain ⟨result, t, hs⟩ : ∃ result t, r.Saves c record w result t := ⟨_, _, rfl⟩
    obtain ⟨result', t', hs'⟩ :
        ∃ result t, (r.alongside r.archive order).Saves c record w' result t := ⟨_, _, rfl⟩
    have halike : (r.checkpointAt c record w.world).Alike
        ((r.alongside r.archive order).checkpointAt c record w'.world) := by
      unfold Checkpoint.Alike checkpointAt
      rw [hw.issued]
      rfl
    obtain ⟨hresult, hcontents⟩ := hv _ _ _ _ halike hw.archive
    rw [show r.archive.save _ _ = _ from hs, show r.archive.save _ _ = _ from hs']
      at hresult hcontents
    obtain rfl : result = result' := hresult
    rw [r.save_apply hs, (r.alongside r.archive order).save_apply hs']
    exact ⟨rfl, hcontents, congrArg (· + 1) hw.issued, hw.awake, hw.awake'⟩
  runNodes := by
    intro c base hk w w' hw
    have hperm := ho (c.step + 1) c.frontier.length
    have hperm' := ho' (c.step + 1) c.frontier.length
    obtain ⟨-, hawake, hissued⟩ := Depends.runNodes hf c base
      (r.order (c.step + 1) c.frontier.length) hw.awake
    obtain ⟨-, hawake', hissued'⟩ := Depends.runNodes (r := r.alongside r.archive order) hf c base
      (order (c.step + 1) c.frontier.length) hw.awake'
    have hb := (Depends.delivers hf c base hperm hk hw.awake).barrier_eq
    have hb' := (Depends.delivers (r := r.alongside r.archive order) hf c base hperm' hk
      hw.awake').barrier_eq
    refine ⟨hb.trans hb'.symm, hw.archive, ?_, hawake, hawake'⟩
    -- Whatever the order, each node draws once.
    have hsum := ((hperm.trans hperm'.symm).map (r.drawsAt d c base)).sum_eq
    exact hissued.trans ((congrArg₂ (· + ·) hw.issued hsum).trans hissued'.symm)
  barrier := id

end Runner

/-- The order in which the nodes of a step finish makes no difference, nor does the room that there
is for them to run at once. What passes the barrier is what the nodes gave back, in the order of the
frontier, or the error of the node that comes first in the frontier among those that failed. Two
runs that differ in these orders and in the room have the same outcome, and their checkpoints are
the same but for their times. -/
theorem concurrency_invisible {r : Runner σ τ} {f : Response} {d : NodeContext → Snapshot → Nat}
    (hf : r.workflow.Depends f d) {V : τ → τ → Prop} (hv : r.archive.Timeless V)
    {width width' : Option Nat} {order' : Nat → Nat → List Nat}
    (ho : ∀ step count, Finishes width count (r.order step count))
    (ho' : ∀ step count, Finishes width' count (order' step count)) (start : RunStart) :
    (∀ c arrivals world, r.Reaches start (.running c arrivals) world →
      ∃ base, r.Yields f c base (barrier c.frontier arrivals)) ∧
    ∀ w w' : RunWorld σ (τ × List Checkpoint), w.Agree (RecordedAlike V) w' →
      let run := r.recording.run start w
      let run' := ({ r with order := order' } : Runner σ τ).recording.run start w'
      ∃ o, run.1 = some o ∧ run'.1 = some o ∧ V run.2.archive.1 run'.2.archive.1 ∧
        List.Forall₂ Checkpoint.Alike run.2.saved run'.2.saved := by
  have hperm := fun step count => finishes_iff.mp (ho step count)
  have hperm' := fun step count => finishes_iff.mp (ho' step count)
  constructor
  · intro c arrivals world hreach
    obtain ⟨base, hdelivers⟩ := hreach.collects hf hperm
    exact ⟨base, hdelivers.yields⟩
  · intro w w' hw run run'
    have hechoes := Runner.Depends.echoes (r := r.recording) hf hv.recording hperm hperm'
    obtain ⟨hsame, hagree⟩ := hechoes.run start w w' hw
    obtain ⟨o, -, ho⟩ := Runner.run_ends (r := r.recording) start w
    exact ⟨o, ho, hsame.symm.trans ho, hagree.archive.1, hagree.archive.2⟩

/-! ## Two nodes that fail in one step -/

/-- A workshop that makes nodes that publish the input, and nodes that fail. -/
def clashShop : Workshop Unit where
  makers := inputShop.makers ++ [(.make .workflow (some "fail") none, fun _ =>
    .ok ⟨fun ctx _ => pure (.error (.missingInput ctx.nodeKey)), none, none, []⟩)]
  services := .none
  middleware := []
  patience := 0

/-- Two nodes behind another one, both of which fail. -/
def clashFork : Description where
  nodes := [("s", "start"), ("x", "fail"), ("y", "fail")].map fun p =>
    ⟨p.1, .workflow, some p.2, none, none, .null⟩
  links := [.edge "s" "x", .edge "s" "y"]
  entry := some "s"

/-- The workflow of the two nodes that fail. -/
def clashWorkflow : Workflow Unit :=
  match compile clashShop clashFork [] with
  | .ok w => w
  | .error _ => ⟨[], [], []⟩

theorem compile_clashFork : compile clashShop clashFork [] = .ok clashWorkflow :=
  eq_ok_of_isOk ⟨[], [], []⟩ (by decide +kernel)

/-- What the nodes give back. -/
def clashResponse : Response := fun ctx s =>
  if ctx.nodeKey = "s" then .ok (.write s.input) else .error (.missingInput ctx.nodeKey)

theorem clashWorkflow_depends : clashWorkflow.Depends clashResponse fun _ _ => 0 := by
  intro n hn ctx s world hkey hawake
  obtain ⟨spec, hspec, -, plan, hplan, rfl⟩ := (compile_reflects compile_clashFork).planned n hn
  change ctx.nodeKey = spec.key at hkey
  unfold clashResponse
  rw [hkey]
  obtain ⟨p, hp, rfl⟩ := List.mem_map.mp hspec
  obtain rfl | rfl | rfl : p = ("s", "start") ∨ p = ("x", "fail") ∨ p = ("y", "fail") := by
    simpa using hp
  · have hmade : clashShop.build clashFork [] ⟨"s", .workflow, some "start", none, none, .null⟩ =
        .ok (.writing startNode (.shallowMerge (channelName "s"))) := rfl
    cases hmade.symm.trans hplan
    exact ⟨rfl, hawake, rfl⟩
  · have hmade : clashShop.build clashFork [] ⟨"x", .workflow, some "fail", none, none, .null⟩ =
        .ok ⟨fun ctx _ => pure (.error (.missingInput ctx.nodeKey)), none, none, []⟩ := rfl
    cases hmade.symm.trans hplan
    exact ⟨congrArg (fun key => Except.error (NodeError.missingInput key)) hkey, hawake, rfl⟩
  · have hmade : clashShop.build clashFork [] ⟨"y", .workflow, some "fail", none, none, .null⟩ =
        .ok ⟨fun ctx _ => pure (.error (.missingInput ctx.nodeKey)), none, none, []⟩ := rfl
    cases hmade.symm.trans hplan
    exact ⟨congrArg (fun key => Except.error (NodeError.missingInput key)) hkey, hawake, rfl⟩

/-- A run in which nodes finish one after the other. -/
def clashRunner : Runner Unit Chains :=
  { unevenRunner with graphId := "clash", workflow := clashWorkflow }

/-- The order in which the last nodes of the frontier finish first. -/
def backwardOrder (_step count : Nat) : List Nat := (List.range count).reverse

theorem concurrency_invisible_clash :
    let w : RunWorld Unit (Chains × List Checkpoint) := ⟨.start (), ([], [])⟩
    clashWorkflow.Depends clashResponse (fun _ _ => 0) ∧ Archive.memory.Timeless Chains.Alike ∧
      (∀ step count, Finishes (some 1) count (clashRunner.order step count)) ∧
      (∀ step count, Finishes none count (backwardOrder step count)) ∧
      w.Agree (RecordedAlike Chains.Alike) w ∧
      ∃ o, (clashRunner.recording.run (.fresh .null .null) w).1 = some o ∧
        ({ clashRunner with order := backwardOrder }.recording.run (.fresh .null .null) w).1 =
          some o ∧
        o.failure = some (.ofError (.node "x" none (.missingInput "x"))) := by
  intro w
  have hforward : ∀ step count, Finishes (some 1) count (clashRunner.order step count) :=
    fun _ _ => finishes_iff.mpr (.refl _)
  have hbackward : ∀ step count, Finishes none count (backwardOrder step count) :=
    fun _ count => finishes_iff.mpr (List.range count).reverse_perm
  have hagree : w.Agree (RecordedAlike Chains.Alike) w := ⟨⟨.nil, .nil⟩, rfl, rfl, rfl⟩
  refine ⟨clashWorkflow_depends, Archive.memory_timeless, hforward, hbackward, hagree, ?_⟩
  obtain ⟨-, hruns⟩ := concurrency_invisible (r := clashRunner) clashWorkflow_depends
    Archive.memory_timeless hforward hbackward (.fresh .null .null)
  obtain ⟨o, ho, ho', -, -⟩ := hruns w w hagree
  refine ⟨o, ho, ho', ?_⟩
  have hfailed : (clashRunner.recording.run (.fresh .null .null) w).1.bind (·.failure) =
      some (.ofError (.node "x" none (.missingInput "x"))) := by decide +kernel
  rwa [ho] at hfailed

end Workgraph
