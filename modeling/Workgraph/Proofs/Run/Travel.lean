import Workgraph.Proofs.Run.Step
import Workgraph.Proofs.Run.Writing
import Workgraph.Proofs.State.Whole
/-!
# Travels

What the steps of a workflow do if its nodes depend on nothing but their key, the step and the
state: the position in front of a step determines what is written and the position behind it. A
travel follows such steps from a position, so it is determined by where it begins and how long it
is.

## Main definitions

- `Position`: where a run stands between two steps
- `Workflow.Behaves`: nodes that depend on their key, the step and the state only
- `Workflow.land`, `Workflow.leap`: the end of a step, and a whole step
- `Workflow.Travels`: steps that follow one another
- `Workflow.Marks`: a checkpoint that holds a position

## Main statements

- `Workflow.Travels.unique`, `Workflow.Travels.prefix_or_leap`: travels from one position agree
- `Workflow.Marks.resumes`: every runner goes on where a checkpoint marks
-/

namespace Workgraph

variable {σ τ : Type}

/-- Where a run stands between two steps, as far as the steps to come depend on it. -/
structure Position where
  store : Store
  frontier : List String
  deferred : List String
  step : Nat

/-- The position of a cursor. -/
def Cursor.position (c : Cursor) : Position := ⟨c.store, c.frontier, c.deferred, c.step⟩

/-- What the nodes give back, by key, step and state. -/
abbrev Behaviour := String → Nat → Snapshot → Except NodeError NodeOutput

/-- What is left of a completed step: the nodes that ran, and the state behind it. -/
abbrev Footprint := List String × Snapshot

namespace Workflow

variable {w : Workflow σ} {f : Behaviour}

/-- The nodes behave as stated, whatever else they find in the world. -/
def Behaves (w : Workflow σ) (f : Behaviour) : Prop :=
  ∀ n ∈ w.nodes, ∀ ctx s world, (n.run ctx s world).1 = f n.key ctx.step s

/-- The position in front of the first step. -/
def outset (w : Workflow σ) (input environment : Json) : Position :=
  ⟨(Store.fresh w.schema).withInputs input environment, w.entry, [], 0⟩

/-- The position behind a step that has been written, unless it routes to an unknown node. -/
def onward (w : Workflow σ) (store : Store) (ran : List String) (handoffs : List (String × Handoff))
    (deferred : List String) (step : Nat) : Except RunError Position :=
  (w.candidates ran handoffs store.state).map fun routed =>
    let split := w.holdJoins (appendNew routed deferred)
    ⟨store, split.1, split.2, step⟩

section Onward

variable {store : Store} {ran : List String} {handoffs : List (String × Handoff)}

theorem onward_ok {routed : List String}
    (h : w.candidates ran handoffs store.state = .ok routed) (deferred : List String) (step : Nat) :
    w.onward store ran handoffs deferred step =
      .ok ⟨store, (w.holdJoins (appendNew routed deferred)).1,
        (w.holdJoins (appendNew routed deferred)).2, step⟩ := by
  unfold onward
  rw [h]
  rfl

theorem onward_error {e : RunError} (h : w.candidates ran handoffs store.state = .error e)
    (deferred : List String) (step : Nat) :
    w.onward store ran handoffs deferred step = .error e := by
  unfold onward
  rw [h]
  rfl

end Onward

/-- The end of a step: what is left of it and the position behind it. There is none if the outputs
of the nodes cannot be written. -/
def land (w : Workflow σ) (p : Position) (outputs : List NodeOutput) :
    Option (Footprint × Except RunError Position) :=
  match w.writeOutputs p.store (p.frontier.zip outputs) with
  | (_, some _) => none
  | (store, none) => some ((p.frontier, store.state),
      w.onward store p.frontier (handoffsOf (p.frontier.zip outputs)) p.deferred (p.step + 1))

/-- A whole step. There is none if no node is left to run, or if a node is unknown or fails. -/
def leap (w : Workflow σ) (f : Behaviour) (p : Position) :
    Option (Footprint × Except RunError Position) :=
  if p.frontier = [] ∨ p.frontier.all w.contains = false then none
  else match p.frontier.mapM fun key => f key (p.step + 1) p.store.state with
    | .error _ => none
    | .ok outputs => w.land p outputs

theorem land_eq_some_iff {p : Position} {outputs : List NodeOutput}
    {landing : Footprint × Except RunError Position} :
    w.land p outputs = some landing ↔ ∃ store,
      w.writeOutputs p.store (p.frontier.zip outputs) = (store, none) ∧
      landing = ((p.frontier, store.state), w.onward store p.frontier
        (handoffsOf (p.frontier.zip outputs)) p.deferred (p.step + 1)) := by
  unfold land
  obtain ⟨store, e, ho⟩ : ∃ store e,
      w.writeOutputs p.store (p.frontier.zip outputs) = (store, e) := ⟨_, _, rfl⟩
  rw [ho]
  cases e with
  | some e => simp
  | none => simp [eq_comm]

theorem leap_eq_some_iff {p : Position} {landing : Footprint × Except RunError Position} :
    w.leap f p = some landing ↔ p.frontier ≠ [] ∧ (∀ key ∈ p.frontier, w.contains key = true) ∧
      ∃ outputs, List.Forall₂ (fun key out => f key (p.step + 1) p.store.state = .ok out)
        p.frontier outputs ∧ w.land p outputs = some landing := by
  unfold leap
  by_cases hidle : p.frontier = [] ∨ p.frontier.all w.contains = false
  · rw [if_pos hidle]
    refine ⟨(nomatch ·), ?_⟩
    rintro ⟨hne, hknown, -⟩
    obtain hnil | hall := hidle
    · exact absurd hnil hne
    · rw [List.all_eq_true.mpr hknown] at hall
      cases hall
  · rw [if_neg hidle]
    rw [not_or, Bool.not_eq_false, List.all_eq_true] at hidle
    obtain ⟨hne, hknown⟩ := hidle
    cases hm : p.frontier.mapM fun key => f key (p.step + 1) p.store.state with
    | error e =>
      refine ⟨(nomatch ·), ?_⟩
      rintro ⟨-, -, outputs, hall, -⟩
      rw [mapM_eq_ok_iff.mpr hall] at hm
      cases hm
    | ok outputs =>
      constructor
      · intro h
        exact ⟨hne, hknown, outputs, mapM_eq_ok_iff.mp hm, h⟩
      · rintro ⟨-, -, outputs', hall, h⟩
        rw [mapM_eq_ok_iff.mpr hall] at hm
        cases hm
        exact h

/-! ## Steps that follow one another -/

/-- Steps that follow one another from a position, with what is left of them and the position behind
the last one. -/
inductive Travels (w : Workflow σ) (f : Behaviour) (origin : Position) :
    List Footprint → Except RunError Position → Prop
  | start : Travels w f origin [] (.ok origin)
  | step {prints : List Footprint} {p : Position} {footprint : Footprint}
      {target : Except RunError Position} (h : Travels w f origin prints (.ok p))
      (hl : w.leap f p = some (footprint, target)) :
      Travels w f origin (prints ++ [footprint]) target

namespace Travels

variable {origin : Position} {prints prints' : List Footprint}
  {target target' : Except RunError Position}

/-- Travels of one length from one position are the same. -/
theorem unique (h : w.Travels f origin prints target) (h' : w.Travels f origin prints' target')
    (hlen : prints.length = prints'.length) : prints = prints' ∧ target = target' := by
  induction h generalizing prints' target' with
  | start =>
    cases h' with
    | start => exact ⟨rfl, rfl⟩
    | step h' hl' => simp at hlen
  | step h hl ih =>
    cases h' with
    | start => simp at hlen
    | step h' hl' =>
      simp only [List.length_append, List.length_singleton, Nat.add_right_cancel_iff] at hlen
      obtain ⟨rfl, hp⟩ := ih h' hlen
      cases hp
      rw [hl, Option.some.injEq, Prod.mk.injEq] at hl'
      exact ⟨by rw [hl'.1], hl'.2⟩

/-- A travel passes, after any number of its steps, a position from which it goes on. -/
theorem take (h : w.Travels f origin prints target) {n : Nat} (hn : n < prints.length) :
    ∃ p landing, w.Travels f origin (prints.take n) (.ok p) ∧ w.leap f p = some landing := by
  induction h with
  | start => simp at hn
  | @step prints p footprint target h hl ih =>
    rw [List.length_append, List.length_singleton] at hn
    by_cases hlast : n < prints.length
    · rw [List.take_append_of_le_length (Nat.le_of_lt hlast)]
      exact ih hlast
    · have hn : n = prints.length := by omega
      rw [hn, List.take_left]
      exact ⟨p, _, h, hl⟩

/-- Of two travels from one position, the first is a part of the second, or else the second could
have gone on. -/
theorem prefix_or_leap (h : w.Travels f origin prints target)
    (h' : w.Travels f origin prints' target') :
    prints <+: prints' ∨ prints'.length < prints.length ∧
      ∃ p landing, target' = .ok p ∧ w.leap f p = some landing := by
  by_cases hlen : prints'.length < prints.length
  · obtain ⟨p, landing, hp, hl⟩ := h.take hlen
    -- Where the second one ends, the first one goes on.
    obtain ⟨-, ht⟩ := unique h' hp (by rw [List.length_take]; omega)
    exact .inr ⟨hlen, p, landing, ht, hl⟩
  · refine .inl ?_
    by_cases hlen' : prints.length = prints'.length
    · obtain ⟨rfl, -⟩ := unique h h' hlen'
      exact List.prefix_refl _
    · obtain ⟨p, landing, hp, -⟩ := h'.take (n := prints.length) (by omega)
      obtain ⟨heq, -⟩ := unique h hp (by rw [List.length_take]; omega)
      rw [heq]
      exact List.take_prefix _ _

end Travels

/-! ## Checkpoints as marks -/

/-- The position that a checkpoint holds. -/
def behind (w : Workflow σ) (cp : Checkpoint) : Except RunError Position :=
  (w.resumeFrontier cp.state cp.record).map fun split =>
    ⟨⟨w.schema, cp.state⟩, split.1, split.2, cp.record.step⟩

/-- A checkpoint holds a position, with a value for every channel. -/
structure Marks (w : Workflow σ) (cp : Checkpoint) (target : Except RunError Position) : Prop where
  whole : Store.Whole ⟨w.schema, cp.state⟩
  behind_eq : w.behind cp = target

/-- Every runner of a workflow that resumes a checkpoint without further input comes to stand at a
position. -/
def Resumes (w : Workflow σ) (cp : Checkpoint) (target : Except RunError Position) : Prop :=
  ∀ (τ : Type) (r : Runner σ τ), r.workflow = w →
    (r.resumedCursor cp none).map Cursor.position = target

/-- Every runner goes on where a checkpoint marks. -/
theorem Marks.resumes {cp : Checkpoint} {target : Except RunError Position}
    (h : w.Marks cp target) : w.Resumes cp target := by
  rintro τ r rfl
  have hstore : r.resumedStore cp none = ⟨r.workflow.schema, cp.state⟩ :=
    Store.restore_whole rfl h.whole
  rw [← h.behind_eq]
  unfold behind Runner.resumedCursor
  rw [hstore]
  dsimp only
  cases r.workflow.resumeFrontier cp.state cp.record with
  | error e => rfl
  | ok split => rfl

/-- A position that a checkpoint marks has a value for every channel. -/
theorem Marks.store {cp : Checkpoint} {p : Position} (h : w.Marks cp (.ok p)) :
    p.store.schema = w.schema ∧ p.store.Whole := by
  have hb := h.behind_eq
  unfold behind at hb
  cases hr : w.resumeFrontier cp.state cp.record with
  | error e =>
    rw [hr] at hb
    cases hb
  | ok split =>
    rw [hr] at hb
    cases hb
    exact ⟨rfl, h.whole⟩

section Marks

variable {p : Position} {cp : Checkpoint} {store : Store}

theorem writeOutputs_whole {outputs : List (String × NodeOutput)} {store' : Store}
    (h : w.writeOutputs store outputs = (store', none)) (hs : store.Whole) : store'.Whole := by
  refine writeOutputs_induct (motive := Store.Whole) ?_ h hs
  intro p _ store store' ho hs
  obtain ⟨⟨mid, hu, rfl⟩, -⟩ := writeOutput_cases ho
  obtain rfl | ⟨name, value, -, rfl⟩ := writeUpdate_cases hu
  · exact hs
  · exact Store.whole_put hs name value

/-- The checkpoint in front of the first step marks the outset. -/
theorem marks_first {input environment : Json} {graphId : String}
    (hs : cp.state = (w.outset input environment).store.state)
    (hr : cp.record = .blank graphId 0 .input) :
    w.Marks cp (.ok (w.outset input environment)) := by
  constructor
  · rw [hs]
    exact Store.ofState_whole _ _
  · unfold behind
    rw [hs, hr]
    rfl

/-- The checkpoint of a pause in front of a step marks the position of the pause. -/
theorem marks_pending (hschema : p.store.schema = w.schema) (hwhole : p.store.Whole)
    (hf : p.frontier ≠ []) (hs : cp.state = p.store.state) (hp : cp.record.pending = p.frontier)
    (hd : cp.record.deferred = p.deferred) (hstep : cp.record.step = p.step) :
    w.Marks cp (.ok p) := by
  have hstore : (⟨w.schema, cp.state⟩ : Store) = p.store := by rw [hs, ← hschema]
  constructor
  · rw [hstore]
    exact hwhole
  · unfold behind resumeFrontier
    rw [hstore, hp, hd, hstep, if_pos (by simpa using hf)]
    rfl

/-- The checkpoint of a step marks the position behind it. -/
theorem marks_step (hschema : store.schema = w.schema) (hwhole : store.Whole)
    (hs : cp.state = store.state) (hp : cp.record.pending = []) (hran : cp.record.ranNodes ≠ []) :
    w.Marks cp (w.onward store cp.record.ranNodes cp.record.handoffs cp.record.deferred
      cp.record.step) := by
  have hstore : (⟨w.schema, cp.state⟩ : Store) = store := by rw [hs, ← hschema]
  constructor
  · rw [hstore]
    exact hwhole
  · unfold behind resumeFrontier onward
    rw [hstore, hs, if_neg (by simp [hp]), if_neg (by simp [hran])]
    cases w.candidates cp.record.ranNodes cp.record.handoffs store.state with
    | error e => rfl
    | ok routed => rfl

end Marks

end Workflow

namespace Runner

variable {r : Runner σ τ} {f : Behaviour} {c : Cursor} {outputs : List NodeOutput}

/-- Nodes that behave as stated give back what the next step needs. -/
theorem Gave.leap_eq (h : r.Gave c outputs) (hf : r.workflow.Behaves f) (hne : c.frontier ≠ []) :
    r.workflow.leap f c.position = r.workflow.land c.position outputs := by
  -- The world that a node found does not matter, so neither does the order in which they ran.
  obtain ⟨hlen, hgave⟩ := h
  have hgiven : ∀ p ∈ c.frontier.zip outputs, r.workflow.contains p.1 = true ∧
      f p.1 (c.step + 1) c.store.state = .ok p.2 := by
    intro p hp
    obtain ⟨n, hn, execution, before, hrun⟩ := hgave p hp
    obtain ⟨hmem, hkey⟩ := Workflow.node?_eq_some hn
    rw [hf n hmem, hkey] at hrun
    exact ⟨Option.isSome_iff_exists.mpr ⟨n, hn⟩, hrun⟩
  have hall : List.Forall₂ (fun key out => f key (c.step + 1) c.store.state = .ok out)
      c.frontier outputs := by
    refine List.forall₂_iff_zip.mpr ⟨hlen.symm, fun {key out} hp => ?_⟩
    exact (hgiven _ hp).2
  have hknown : ∀ key ∈ c.frontier, r.workflow.contains key = true := by
    intro key hkey
    rw [← List.map_fst_zip (Nat.le_of_eq hlen.symm)] at hkey
    obtain ⟨p, hp, rfl⟩ := List.mem_map.mp hkey
    exact (hgiven p hp).1
  have hready : ¬ (c.position.frontier = [] ∨
      c.position.frontier.all r.workflow.contains = false) := by
    rw [not_or, Bool.not_eq_false, List.all_eq_true]
    exact ⟨hne, hknown⟩
  have houtputs : c.position.frontier.mapM
      (fun key => f key (c.position.step + 1) c.position.store.state) = .ok outputs :=
    mapM_eq_ok_iff.mpr hall
  unfold Workflow.leap
  rw [if_neg hready, houtputs]

end Runner

end Workgraph
