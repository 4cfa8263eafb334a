import Workgraph.Proofs.Run.Thread
/-!
# Cancelled runs

A run may be cancelled at any moment: between two moves, by one of its own nodes, or by anybody else
while they run. From then on it begins no step. Steps stay whole: one that is under way at the
barrier is dropped as if it had never begun, and one that has passed it is written and put on record
as if nothing had happened.

## Main definitions

- `Runner.Passes`: how a run gets on from one moment to another, whatever else goes on
- `Runner.calledOff`: the outcome of a run that is cancelled between two steps
- `Runner.Kept`: a cursor whose position the last checkpoint on record marks

## Main statements

- `Runner.Passes.cancelled`: no step begins behind a cancellation, which is not taken back
- `Runner.settle_withCancelled`: a step is settled the same whether or not the run is cancelled
- `cancellation_whole_step`: cancellation takes effect as a whole step
-/

namespace Workgraph

variable {σ τ : Type}

/-- The same world, in which the run is cancelled or not. -/
def RunWorld.withCancelled (w : RunWorld σ τ) (cancelled : Bool) : RunWorld σ τ :=
  ⟨{ w.world with cancelled := cancelled }, w.archive⟩

/-- A part of a run that does the same if the run is cancelled, or is not. -/
abbrev RunPart.Heedless {α : Type} (cancelled : Bool) (p : RunPart σ τ α) : Prop :=
  RunPart.Relates (fun w w' => w' = w.withCancelled cancelled) Eq p p

namespace Runner

/-- How a run gets on from one moment to another, with the frontiers of the steps that begin in
between. Between two moves everything may change but the record, which belongs to the run, and a
cancellation, which is not taken back; and while its nodes run, any results may come in. -/
inductive Passes (r : Runner σ τ) (stage : Stage) (w : RunWorld σ (τ × List Checkpoint)) :
    List (List String) → Stage → RunWorld σ (τ × List Checkpoint) → Prop
  | here : Passes r stage w [] stage w
  | moved {begun : List (List String)} {stage' : Stage} {w' : RunWorld σ (τ × List Checkpoint)}
      (h : Passes r stage w begun stage' w') :
      Passes r stage w (begun ++ (r.recording.advance stage' w').1.begun)
        (r.recording.advance stage' w').1 (r.recording.advance stage' w').2
  | disturbed {begun : List (List String)} {stage' stage'' : Stage}
      {w' w'' : RunWorld σ (τ × List Checkpoint)} (h : Passes r stage w begun stage' w')
      (hs : stage'.Alike (fun _ _ _ => True) stage'') (hsaved : w''.saved = w'.saved)
      (hw : w'.world.cancelled = true → w''.world.cancelled = true) :
      Passes r stage w begun stage'' w''

variable {r : Runner σ τ}

/-! ## No step begins -/

/-- No step begins where the run is cancelled, and a move does not take the cancellation back. -/
theorem Move.of_cancelled {stage stage' : Stage} {w w' : RunWorld σ τ}
    (h : r.Move stage w stage' w') (hw : w.world.cancelled = true) :
    stage'.begun = [] ∧ w'.world.cancelled = true := by
  cases h with
  | dispatched log log' hf hw' => exact absurd (hw'.symm.trans hw) Bool.false_ne_true
  | _ => exact ⟨rfl, hw⟩

section Passes

variable {stage stage' : Stage} {w w' : RunWorld σ (τ × List Checkpoint)}
  {begun : List (List String)}

theorem Passes.cancelled (h : r.Passes stage w begun stage' w') (hw : w.world.cancelled = true) :
    begun = [] ∧ w'.world.cancelled = true := by
  induction h with
  | here => exact ⟨rfl, hw⟩
  | @moved begun stage' w' _ ih =>
    obtain ⟨rfl, hw'⟩ := ih
    exact (r.recording.advance_move stage' w').of_cancelled hw'
  | disturbed _ _ _ hlatched ih => exact ⟨ih.1, hlatched ih.2⟩

theorem Passes.moves (h : r.Passes stage w begun stage' w') (n : Nat) :
    r.Passes stage w (begun ++ r.recording.frontiers n stage' w')
      (r.recording.moves n stage' w').1 (r.recording.moves n stage' w').2 := by
  induction n generalizing begun stage' w' with
  | zero =>
    unfold frontiers
    rwa [List.append_nil]
  | succ n ih =>
    rw [moves_succ]
    unfold frontiers
    rw [← List.append_assoc]
    exact ih h.moved

/-- A run may be cancelled at any moment. -/
theorem Passes.cancel (h : r.Passes stage w begun stage' w') :
    r.Passes stage w begun stage' (w'.withCancelled true) :=
  h.disturbed (.same _) rfl fun _ => rfl

/-- What holds when the run is cancelled, whatever results come in, and is kept by every move of a
cancelled run, holds from then on. -/
theorem Passes.induct {motive : Stage → List Checkpoint → Prop} (hw : w.world.cancelled = true)
    (hhere : motive stage w.saved)
    (hmove : ∀ {stage : Stage} {w : RunWorld σ (τ × List Checkpoint)}, w.world.cancelled = true →
      motive stage w.saved →
      motive (r.recording.advance stage w).1 (r.recording.advance stage w).2.saved)
    (halike : ∀ {stage stage' : Stage} {saved}, stage.Alike (fun _ _ _ => True) stage' →
      motive stage saved → motive stage' saved)
    (h : r.Passes stage w begun stage' w') : motive stage' w'.saved := by
  induction h with
  | here => exact hhere
  | moved h ih => exact hmove (h.cancelled hw).2 ih
  | disturbed _ hs hsaved _ ih =>
    rw [hsaved]
    exact halike hs ih

end Passes

/-! ## The run ends -/

/-- How many moves a cancelled run can still make. -/
def lastMoves : Stage → Nat
  | .waiting _ | .accepted _ _ => 2
  | .ready _ | .running _ _ => 1
  | .ended _ => 0

theorem lastMoves_le (stage : Stage) : lastMoves stage ≤ 2 := by
  cases stage <;> simp [lastMoves]

theorem Move.lastMoves_lt {stage stage' : Stage} {w w' : RunWorld σ τ}
    (h : r.Move stage w stage' w') (hw : w.world.cancelled = true)
    (hs : ∀ o, stage ≠ .ended o) : lastMoves stage' < lastMoves stage := by
  cases h with
  | dispatched log log' hf hw' => exact absurd (hw'.symm.trans hw) Bool.false_ne_true
  | accepted hw' => exact absurd (hw'.symm.trans hw) Bool.false_ne_true
  | rested o => exact absurd rfl (hs o)
  | _ => simp [lastMoves]

/-- A cancelled run comes to its end at once. -/
theorem exists_ended_of_cancelled {n : Nat} {stage : Stage} {w : RunWorld σ τ}
    (hw : w.world.cancelled = true) (hn : lastMoves stage ≤ n) :
    ∃ o, (r.moves n stage w).1 = .ended o := by
  induction n generalizing stage w with
  | zero =>
    cases stage with
    | ended o => exact ⟨o, rfl⟩
    | _ => simp [lastMoves] at hn
  | succ n ih =>
    by_cases hs : ∃ o, stage = .ended o
    · obtain ⟨o, rfl⟩ := hs
      exact ⟨o, by rw [moves_ended]⟩
    · have hmove := r.advance_move stage w
      have hlt := hmove.lastMoves_lt hw fun o ho => hs ⟨o, ho⟩
      rw [moves_succ]
      exact ih (hmove.of_cancelled hw).2 (by omega)

/-! ## Between two steps, and at the barrier -/

/-- The outcome of a run that is cancelled between two steps: it completes if nothing is left to
do. -/
def calledOff (r : Runner σ τ) (c : Cursor) : Outcome :=
  r.outcomeAt c (if c.frontier = [] then .completed else .canceled) none none

theorem Move.ready_of_cancelled {c : Cursor} {stage' : Stage} {w w' : RunWorld σ τ}
    (h : r.Move (.ready c) w stage' w') (hw : w.world.cancelled = true) :
    stage' = .ended (r.calledOff c) ∧ w'.archive = w.archive := by
  unfold calledOff
  cases h with
  | completed log hf =>
    rw [if_pos hf]
    exact ⟨rfl, rfl⟩
  | canceled log hf hw' =>
    rw [if_neg hf]
    exact ⟨rfl, rfl⟩
  | exhausted log hf hw' => exact absurd (hw'.symm.trans hw) Bool.false_ne_true
  | pausedAhead log hf hw' => exact absurd (hw'.symm.trans hw) Bool.false_ne_true
  | pauseAheadRefused log hf hw' => exact absurd (hw'.symm.trans hw) Bool.false_ne_true
  | strayNode log hw' => exact absurd (hw'.symm.trans hw) Bool.false_ne_true
  | dispatched log log' hf hw' => exact absurd (hw'.symm.trans hw) Bool.false_ne_true

/-- At the barrier of a cancelled run nothing that has come in matters. -/
theorem Move.running_of_cancelled {c : Cursor} {arrivals : Arrivals} {stage' : Stage}
    {w w' : RunWorld σ τ} (h : r.Move (.running c arrivals) w stage' w')
    (hw : w.world.cancelled = true) :
    stage' = .ended (r.outcomeAt c .canceled none none) ∧ w'.archive = w.archive := by
  cases h with
  | dropped log hw' => exact ⟨rfl, rfl⟩
  | nodeFailed log hw' => exact absurd (hw'.symm.trans hw) Bool.false_ne_true
  | accepted hw' => exact absurd (hw'.symm.trans hw) Bool.false_ne_true

section Passes

variable {c : Cursor} {arrivals : Arrivals} {outputs : List NodeOutput} {stage' : Stage}
  {w w' : RunWorld σ (τ × List Checkpoint)} {begun : List (List String)}

theorem Passes.from_ready (h : r.Passes (.ready c) w begun stage' w')
    (hw : w.world.cancelled = true) :
    w'.saved = w.saved ∧ (stage' = .ready c ∨ stage' = .ended (r.calledOff c)) := by
  refine h.induct (motive := fun stage saved => saved = w.saved ∧
    (stage = .ready c ∨ stage = .ended (r.calledOff c))) hw ⟨rfl, .inl rfl⟩ ?_ ?_
  · rintro stage w₁ hw₁ ⟨hsaved, rfl | rfl⟩
    · obtain ⟨hstage, harchive⟩ := (r.recording.advance_move (.ready c) w₁).ready_of_cancelled hw₁
      exact ⟨(congrArg Prod.snd harchive).trans hsaved, .inr hstage⟩
    · exact ⟨hsaved, .inr rfl⟩
  · rintro stage stage' saved (same | ⟨-⟩) hm
    · exact hm
    · obtain ⟨-, hready | hended⟩ := hm
      · cases hready
      · cases hended

theorem Passes.from_running (h : r.Passes (.running c arrivals) w begun stage' w')
    (hw : w.world.cancelled = true) :
    w'.saved = w.saved ∧ ((∃ arrivals', stage' = .running c arrivals') ∨
      stage' = .ended (r.outcomeAt c .canceled none none)) := by
  refine h.induct (motive := fun stage saved => saved = w.saved ∧
    ((∃ arrivals', stage = .running c arrivals') ∨
      stage = .ended (r.outcomeAt c .canceled none none))) hw ⟨rfl, .inl ⟨arrivals, rfl⟩⟩ ?_ ?_
  · rintro stage w₁ hw₁ ⟨hsaved, ⟨arrivals', rfl⟩ | rfl⟩
    · obtain ⟨hstage, harchive⟩ :=
        (r.recording.advance_move (.running c arrivals') w₁).running_of_cancelled hw₁
      exact ⟨(congrArg Prod.snd harchive).trans hsaved, .inr hstage⟩
    · exact ⟨hsaved, .inr rfl⟩
  · rintro stage stage' saved (same | @⟨c', arrivals₁, arrivals₂, -⟩) hm
    · exact hm
    · obtain ⟨hsaved, ⟨arrivals', hrunning⟩ | hended⟩ := hm
      · cases hrunning
        exact ⟨hsaved, .inl ⟨arrivals₂, rfl⟩⟩
      · cases hended

end Passes

/-! ## Behind the barrier -/

section Settling

open RunPart

variable {cancelled : Bool}

theorem report_heedless (e : Timestamp → Event) :
    Heedless cancelled (report e : RunPart σ τ Unit) := by
  rintro w _ rfl
  exact ⟨rfl, rfl⟩

theorem save_heedless (c : Cursor) (record : StepRecord) :
    Heedless cancelled (r.save c record) := by
  rintro w _ rfl
  obtain ⟨result, t, hs⟩ : ∃ result t, r.Saves c record w result t := ⟨_, _, rfl⟩
  have hs' : r.Saves c record (w.withCancelled cancelled) result t := hs
  rw [r.save_apply hs, r.save_apply hs']
  exact ⟨rfl, rfl⟩

theorem stop_heedless (c : Cursor) (status : RunStatus) (i : Option Interrupt) :
    Heedless cancelled (r.stop c status i) :=
  .bind_eq (report_heedless _) fun _ => .pure rfl

theorem fail_heedless (c : Cursor) (e : RunError) : Heedless cancelled (r.fail c e) :=
  .bind_eq (report_heedless _) fun _ => .bind_eq (report_heedless _) fun _ => .pure rfl

theorem pause_heedless (c : Cursor) (record : StepRecord) (i : Interrupt) :
    Heedless cancelled (r.pause c record i) := by
  refine .bind_eq (save_heedless _ _) ?_
  rintro (e | c')
  · exact fail_heedless c e
  · exact .bind_eq (report_heedless _) fun _ => stop_heedless c' _ _

theorem writeAll_heedless (step : Nat) (store : Store) (outputs : List (String × NodeOutput)) :
    Heedless cancelled (r.writeAll step store outputs) := by
  induction outputs generalizing store with
  | nil => exact .pure rfl
  | cons output rest ih =>
    obtain ⟨key, out⟩ := output
    unfold writeAll
    obtain ⟨store', e⟩ := r.workflow.writeOutput key out store
    cases e with
    | some e => exact .pure rfl
    | none => exact .bind_eq (report_heedless _) fun _ => ih store'

theorem route_heedless (c : Cursor) (record : StepRecord) (i : Option Interrupt) :
    Heedless cancelled (r.route c record i) := by
  unfold route
  cases r.workflow.candidates record.ranNodes record.handoffs c.store.state with
  | error e => exact fail_heedless c e
  | ok routed =>
    cases i with
    | none => exact .pure rfl
    | some i => exact pause_heedless _ _ _

theorem settle_heedless (c : Cursor) (outputs : List NodeOutput) :
    Heedless cancelled (r.settle c outputs) := by
  refine .bind_eq (writeAll_heedless _ _ _) ?_
  rintro ⟨store, _ | e⟩
  · refine .bind_eq (save_heedless _ _) ?_
    rintro (e | c')
    · exact fail_heedless _ e
    · exact route_heedless _ _ _
  · exact fail_heedless _ e

end Settling

/-- A step that has passed the barrier is settled the same whether or not the run is cancelled. -/
theorem settle_withCancelled (r : Runner σ τ) (c : Cursor) (outputs : List NodeOutput)
    (w : RunWorld σ τ) (cancelled : Bool) : r.settle c outputs (w.withCancelled cancelled) =
      ((r.settle c outputs w).1, (r.settle c outputs w).2.withCancelled cancelled) := by
  obtain ⟨hstage, hworld⟩ := settle_heedless (r := r) c outputs w _ rfl
  exact Prod.ext hstage.symm hworld

/-- What a step leaves that has been settled and lets the run go on: the store as its nodes have
written it, and its checkpoint on record. -/
structure Settled (r : Runner σ τ) (c : Cursor) (outputs : List NodeOutput)
    (saved : List Checkpoint) (c' : Cursor) (saved' : List Checkpoint) : Prop where
  written : r.workflow.writeOutputs c.store (c.frontier.zip outputs) = (c'.store, none)
  step : c'.step = c.step + 1
  recorded : ∃ cp, saved' = saved ++ [cp] ∧ cp.state = c'.store.state ∧
    cp.record = r.stepRecord c outputs
  routed : ∃ routed, r.workflow.candidates c.frontier (handoffsOf (c.frontier.zip outputs))
      c'.store.state = .ok routed ∧
    (c'.frontier, c'.deferred) = r.workflow.holdJoins (appendNew routed c.deferred)

theorem Move.settled_of_ready {c c' : Cursor} {outputs : List NodeOutput}
    {w w' : RunWorld σ (τ × List Checkpoint)}
    (h : r.recording.Move (.accepted c outputs) w (.ready c') w') :
    r.Settled c outputs w.saved c' w'.saved := by
  cases h with
  | settled log ho hs hr hi =>
    obtain ⟨cp, hcp, hstate, hrecord⟩ := exists_saved (r := r) hs
    exact ⟨ho, rfl, ⟨cp, hcp, hstate, hrecord⟩, _, hr, rfl⟩

/-- A step that does not let the run go on pauses it or fails it. -/
theorem Move.status_of_accepted {c : Cursor} {outputs : List NodeOutput} {o : Outcome}
    {w w' : RunWorld σ τ} (h : r.Move (.accepted c outputs) w (.ended o) w') :
    o.status = .interrupted ∨ o.status = .failed := by
  cases h with
  | pausedBehind => exact .inl rfl
  | _ => exact .inr rfl

/-- What has become of a step that had passed the barrier when its run was cancelled: it waits to be
settled, or it has been settled as in a run that is not cancelled, and the run has ended with it or
is called off behind it. -/
inductive Aftermath (r : Runner σ τ) (c : Cursor) (outputs : List NodeOutput)
    (saved : List Checkpoint) : Stage → List Checkpoint → Prop
  | waits : Aftermath r c outputs saved (.accepted c outputs) saved
  | ended {w w' : RunWorld σ (τ × List Checkpoint)} {o : Outcome} (hsaved : w.saved = saved)
      (hw : w.world.cancelled = false) (hs : r.recording.settle c outputs w = (.ended o, w'))
      (ho : o.status = .interrupted ∨ o.status = .failed) :
      Aftermath r c outputs saved (.ended o) w'.saved
  | ready {w w' : RunWorld σ (τ × List Checkpoint)} {c' : Cursor} (hsaved : w.saved = saved)
      (hw : w.world.cancelled = false) (hs : r.recording.settle c outputs w = (.ready c', w'))
      (hc : r.Settled c outputs saved c' w'.saved) :
      Aftermath r c outputs saved (.ready c') w'.saved
  | calledOff {w w' : RunWorld σ (τ × List Checkpoint)} {c' : Cursor} (hsaved : w.saved = saved)
      (hw : w.world.cancelled = false) (hs : r.recording.settle c outputs w = (.ready c', w'))
      (hc : r.Settled c outputs saved c' w'.saved) :
      Aftermath r c outputs saved (.ended (r.calledOff c')) w'.saved

/-- A step that is settled in a cancelled run comes to its aftermath. -/
theorem settle_aftermath (c : Cursor) (outputs : List NodeOutput)
    (w : RunWorld σ (τ × List Checkpoint)) :
    r.Aftermath c outputs w.saved (r.recording.settle c outputs w).1
      (r.recording.settle c outputs w).2.saved := by
  have hmove := r.recording.settle_move c outputs w
  have hs := r.recording.settle_withCancelled c outputs w false
  obtain ⟨stage', w', hsettle⟩ : ∃ stage' w',
      r.recording.settle c outputs w = (stage', w') := ⟨_, _, rfl⟩
  rw [hsettle] at hmove hs ⊢
  change r.Aftermath c outputs (w.withCancelled false).saved stage' (w'.withCancelled false).saved
  cases stage' with
  | ready c' => exact .ready rfl rfl hs hmove.settled_of_ready
  | ended o => exact .ended rfl rfl hs hmove.status_of_accepted
  | waiting start => cases hmove
  | running c' arrivals => cases hmove
  | accepted c' outputs' => cases hmove

theorem Passes.from_accepted {c : Cursor} {outputs : List NodeOutput} {stage' : Stage}
    {w w' : RunWorld σ (τ × List Checkpoint)} {begun : List (List String)}
    (h : r.Passes (.accepted c outputs) w begun stage' w') (hw : w.world.cancelled = true) :
    r.Aftermath c outputs w.saved stage' w'.saved := by
  refine h.induct (motive := r.Aftermath c outputs w.saved) hw .waits ?_ ?_
  · intro stage w₁ hw₁ hm
    obtain ⟨saved, hsaved₁⟩ : ∃ saved, w₁.saved = saved := ⟨_, rfl⟩
    rw [hsaved₁] at hm
    cases hm with
    | waits =>
      rw [← hsaved₁]
      exact settle_aftermath c outputs w₁
    | ended hsaved hw hs ho =>
      change r.Aftermath c outputs w.saved (.ended _) w₁.saved
      rw [hsaved₁]
      exact .ended hsaved hw hs ho
    | calledOff hsaved hw hs hc =>
      change r.Aftermath c outputs w.saved (.ended _) w₁.saved
      rw [hsaved₁]
      exact .calledOff hsaved hw hs hc
    | @ready w₂ w₂' c' hsaved hw hs hc =>
      obtain ⟨hstage, harchive⟩ := (r.recording.advance_move (.ready c') w₁).ready_of_cancelled hw₁
      rw [hstage, show (r.recording.advance (.ready c') w₁).2.saved = w₂'.saved from
        (congrArg Prod.snd harchive).trans hsaved₁]
      exact .calledOff hsaved hw hs hc
  · rintro stage stage' saved (same | ⟨-⟩) hm
    · exact hm
    · cases hm

/-! ## In front of the step -/

/-- A cursor whose store has a value for every channel, and whose position is marked by the last
checkpoint on record, if there is one. -/
structure Kept (r : Runner σ τ) (saved : List Checkpoint) (c : Cursor) : Prop where
  schema : c.store.schema = r.workflow.schema
  whole : c.store.Whole
  marks : ∀ cp, saved.getLast? = some cp → r.workflow.Marks cp (.ok c.position)

/-- What a run keeps of its position, stage by stage. -/
def KeptAt (r : Runner σ τ) (saved : List Checkpoint) : Stage → Prop
  | .waiting _ => saved = []
  | .ready c => r.Kept saved c
  | .running c _ | .accepted c _ => r.Kept saved c ∧ c.frontier ≠ []
  | .ended _ => True

theorem Move.kept {stage stage' : Stage} {w w' : RunWorld σ (τ × List Checkpoint)}
    (h : r.recording.Move stage w stage' w') (hk : r.KeptAt w.saved stage) :
    r.KeptAt w'.saved stage' := by
  cases h with
  | begun log hs =>
    obtain ⟨cp, hcp, hstate, hrecord⟩ := exists_saved (r := r) hs
    refine ⟨rfl, Store.ofState_whole _ _, ?_⟩
    rw [RunWorld.saved_turn, hcp, show w.saved = [] from hk]
    intro cp' hcp'
    cases hcp'
    exact Workflow.marks_first hstate hrecord
  | @resumed _ cp input c log hc =>
    obtain ⟨split, -, rfl⟩ := r.recording.resumedCursor_eq_ok_iff.mp hc
    rw [RunWorld.saved_turn, show w.archive.2 = [] from hk]
    refine ⟨?_, ?_, nofun⟩
    · cases input <;> rfl
    · cases input <;> exact Store.ofState_whole _ _
  | dispatched log log' hf hw hb hp hk' ha => exact ⟨⟨hk.schema, hk.whole, hk.marks⟩, hf⟩
  | accepted hw hb => exact hk
  | @settled _ c outputs store id t routed log ho hs hr hi =>
    obtain ⟨⟨hschema, hwhole, -⟩, hf⟩ := hk
    obtain ⟨cp, hcp, hstate, hrecord⟩ := exists_saved (r := r) hs
    refine ⟨(Workflow.writeOutputs_schema ho).trans hschema, Workflow.writeOutputs_whole ho hwhole,
      ?_⟩
    rw [RunWorld.saved_turn, hcp]
    intro cp' hcp'
    rw [List.getLast?_concat, Option.some.injEq] at hcp'
    subst hcp'
    exact Workflow.onward_ok hr _ _ ▸
      marks_stepRecord (r := r) ⟨hschema, hwhole⟩ hf ho hstate hrecord
  | _ => trivial

theorem Passes.kept {start : RunStart} {stage : Stage} {origin w : RunWorld σ (τ × List Checkpoint)}
    {begun : List (List String)} (h : r.Passes (.waiting start) origin begun stage w)
    (ho : origin.saved = []) : r.KeptAt w.saved stage := by
  induction h with
  | here => exact ho
  | moved _ ih => exact (r.recording.advance_move _ _).kept ih
  | disturbed _ hs hsaved _ ih =>
    rw [hsaved]
    obtain same | ⟨-⟩ := hs
    · exact ih
    · exact ih

/-- A step that is under way was begun where the run stood between two steps, and has left nothing
on record. -/
theorem Passes.exists_ready {start : RunStart} {c : Cursor} {arrivals : Arrivals}
    {origin w : RunWorld σ (τ × List Checkpoint)} {begun : List (List String)}
    (h : r.Passes (.waiting start) origin begun (.running c arrivals) w) :
    ∃ before c₀ w₀, r.Passes (.waiting start) origin before (.ready c₀) w₀ ∧
      r.Passes (.ready c₀) w₀ [c₀.frontier] (.running c arrivals) w ∧
      begun = before ++ [c₀.frontier] ∧ w.saved = w₀.saved ∧ ∃ budget, c = c₀.entered budget := by
  generalize hstage : Stage.running c arrivals = stage at h
  induction h generalizing c arrivals with
  | here => cases hstage
  | @moved before stage₀ w₀ h ih =>
    have hmove := r.recording.advance_move stage₀ w₀
    have hhere : r.Passes stage₀ w₀ [] stage₀ w₀ := .here
    have hpasses := hhere.moved
    obtain ⟨stage₁, w₁, hadvance⟩ : ∃ stage₁ w₁,
        r.recording.advance stage₀ w₀ = (stage₁, w₁) := ⟨_, _, rfl⟩
    rw [hadvance] at hstage hmove hpasses ⊢
    obtain rfl : Stage.running c arrivals = stage₁ := hstage
    cases hmove with
    | @dispatched _ c₀ budget => exact ⟨before, c₀, w₀, h, hpasses, rfl, rfl, budget, rfl⟩
  | disturbed h hs hsaved hlatched ih =>
    obtain ⟨arrivals₀, rfl⟩ : ∃ arrivals₀, _ = Stage.running c arrivals₀ := by
      cases hs with
      | same => exact ⟨arrivals, hstage.symm⟩
      | running _ =>
        cases hstage
        exact ⟨_, rfl⟩
    obtain ⟨before, c₀, w₀, hready, hrunning, hbegun, hrecord, hc⟩ := ih rfl
    subst hstage
    exact ⟨before, c₀, w₀, hready, .disturbed hrunning hs hsaved hlatched, hbegun,
      hsaved.trans hrecord, hc⟩

end Runner

/-- Cancellation takes effect as a whole step. From the moment at which a run is cancelled, it
begins no step, and two moves bring it to its end. Between two steps it is called off where it
stands. A step under way is dropped, whatever comes in from its nodes: what is reported, what is on
record and where the run could be resumed is as it was in front of the step. A step that has passed
the barrier is settled as in a run that is not cancelled, and unless the run ends with it, it is
called off behind it. -/
theorem cancellation_whole_step {r : Runner σ τ} {start : RunStart}
    {origin w w' : RunWorld σ (τ × List Checkpoint)} {before after : List (List String)}
    {stage stage' : Stage} (ho : origin.saved = [])
    (h : r.Passes (.waiting start) origin before stage w) (hw : w.world.cancelled = true)
    (h' : r.Passes stage w after stage' w') :
    after = [] ∧ (∃ o, (r.recording.moves 2 stage' w').1 = .ended o) ∧
    (∀ c, stage = .ready c → w'.saved = w.saved ∧
      (stage' = .ready c ∨ stage' = .ended (r.calledOff c))) ∧
    (∀ c arrivals, stage = .running c arrivals → ∃ before₀ c₀ w₀,
      r.Passes (.waiting start) origin before₀ (.ready c₀) w₀ ∧
      r.Passes (.ready c₀) w₀ [c₀.frontier] stage w ∧ before = before₀ ++ [c₀.frontier] ∧
      c.position = c₀.position ∧ c.parentId = c₀.parentId ∧ r.Kept w₀.saved c₀ ∧
      w'.saved = w₀.saved ∧ ((∃ arrivals', stage' = .running c arrivals') ∨
        stage' = .ended (r.outcomeAt c₀ .canceled none none))) ∧
    ∀ c outputs, stage = .accepted c outputs → r.Aftermath c outputs w.saved stage' w'.saved := by
  obtain ⟨hafter, hw'⟩ := h'.cancelled hw
  refine ⟨hafter, Runner.exists_ended_of_cancelled hw' (Runner.lastMoves_le _), ?_, ?_, ?_⟩
  · rintro c rfl
    exact h'.from_ready hw
  · rintro c arrivals rfl
    obtain ⟨before₀, c₀, w₀, hready, hrunning, hbegun, hsaved, budget, rfl⟩ := h.exists_ready
    obtain ⟨hsaved', hstage⟩ := h'.from_running hw
    exact ⟨before₀, c₀, w₀, hready, hrunning, hbegun, rfl, rfl, hready.kept ho,
      hsaved'.trans hsaved, hstage⟩
  · rintro c outputs rfl
    exact h'.from_accepted hw

/-! ## A step cancelled while its nodes run -/

/-- Where the run through the uneven branches stands while both of them run. -/
def unevenRush : Stage × RunWorld Unit (Chains × List Checkpoint) :=
  unevenRunner.recording.moves 5 (.waiting (.fresh .null .null)) ⟨.start (), ([], [])⟩

theorem unevenRush_passes :
    unevenRunner.Passes (.waiting (.fresh .null .null)) ⟨.start (), ([], [])⟩
      ([] ++ unevenRunner.recording.frontiers 5 (.waiting (.fresh .null .null))
        ⟨.start (), ([], [])⟩) unevenRush.1 unevenRush.2 :=
  Runner.Passes.here.moves 5

/-- The same moment, when somebody has cancelled the run. -/
def unevenCall : RunWorld Unit (Chains × List Checkpoint) := unevenRush.2.withCancelled true

theorem cancellation_whole_step_uneven :
    ∃ c arrivals, unevenRush.1 = .running c arrivals ∧ c.frontier = ["a", "b"] ∧
      ∃ (c₀ : Cursor) (cp : Checkpoint), c₀.frontier = ["a", "b"] ∧
        (unevenRunner.recording.advance unevenRush.1 unevenCall).1 =
          .ended (unevenRunner.outcomeAt c₀ .canceled none none) ∧
        (unevenRunner.recording.advance unevenRush.1 unevenCall).2.saved.getLast? = some cp ∧
        unevenWorkflow.Marks cp (.ok c₀.position) := by
  have hbegun : unevenRush.1.begun = [["a", "b"]] := by decide +kernel
  have hended : (unevenRunner.recording.advance unevenRush.1 unevenCall).1.begun = [] := by
    decide +kernel
  obtain ⟨cp, hcp⟩ : ∃ cp,
      (unevenRunner.recording.advance unevenRush.1 unevenCall).2.saved.getLast? = some cp :=
    Option.isSome_iff_exists.mp (by decide +kernel)
  obtain ⟨c, arrivals, hstage⟩ : ∃ c arrivals, unevenRush.1 = .running c arrivals := by
    cases hstage : unevenRush.1 with
    | running c arrivals => exact ⟨c, arrivals, rfl⟩
    | _ =>
      rw [hstage] at hbegun
      cases hbegun
  have hfrontier : c.frontier = ["a", "b"] := by
    rw [hstage] at hbegun
    exact List.singleton_inj.mp hbegun
  obtain ⟨-, -, -, hrunning, -⟩ :=
    cancellation_whole_step rfl unevenRush_passes.cancel rfl Runner.Passes.here.moved
  obtain ⟨before₀, c₀, w₀, -, -, -, hposition, -, hkept, hsaved, hend⟩ :=
    hrunning c arrivals hstage
  refine ⟨c, arrivals, hstage, hfrontier, c₀, cp, ?_, ?_, hcp, hkept.marks cp (hsaved ▸ hcp)⟩
  · rw [← hfrontier]
    exact congrArg Position.frontier hposition.symm
  · obtain ⟨arrivals', hrunning⟩ | hend := hend
    · exact absurd (hrunning ▸ hended) (List.cons_ne_nil _ _)
    · exact hend

end Workgraph
