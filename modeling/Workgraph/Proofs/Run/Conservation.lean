import Workgraph.Proofs.Run.Recording
import Workgraph.Proofs.Run.Routing
/-!
# No node is lost

Between two steps every node that the run was sent to, and every join that waited, runs next or
waits, in one place only. So nothing is left over when a run completes.

## Main definitions

- `Workflow.Records`, `Workflow.Stands`: what is known of checkpoints and of the stages of a run
- `Runner.Due`: the nodes that are still to come
- `ranIn`, `Workflow.SendsTo`: what the steps on record have run, and what they lead to

## Main statements

- `routing_conserved`: nothing is lost and nothing is doubled, from one step to the next and until
  the run completes
-/

namespace Workgraph

variable {σ τ : Type}

/-- The nodes that the steps on record have run. -/
def ranIn (cps : List Checkpoint) : List String :=
  (cps.filter (·.record.source == .step)).flatMap (·.record.ranNodes)

theorem mem_ranIn {cps : List Checkpoint} {key : String} :
    key ∈ ranIn cps ↔ ∃ cp ∈ cps, cp.record.source = .step ∧ key ∈ cp.record.ranNodes := by
  simp [ranIn, and_assoc]

theorem ranIn_append (cps more : List Checkpoint) :
    ranIn (cps ++ more) = ranIn cps ++ ranIn more := by
  simp [ranIn]

/-- A tail of two lists joined together begins in one of them. -/
theorem cons_suffix_append {α : Type} {a : α} {after xs ys : List α} (h : a :: after <:+ xs ++ ys) :
    (∃ rest, a :: rest <:+ xs ∧ after = rest ++ ys) ∨ a :: after <:+ ys := by
  obtain ⟨before, h⟩ := h
  obtain ⟨rest, rfl, hrest⟩ | ⟨rest, rfl, hrest⟩ := List.append_eq_append_iff.mp h
  · cases rest with
    | nil => exact .inr ⟨[], hrest⟩
    | cons b rest =>
      obtain ⟨rfl, rfl⟩ := List.cons.inj hrest
      exact .inl ⟨rest, ⟨before, rfl⟩, rfl⟩
  · exact .inr ⟨rest, hrest.symm⟩

namespace Workflow

variable {w : Workflow σ}

/-- What is known of the record of a checkpoint: a pause in front of a step has run nothing, and
what it stopped in front of is in its place. -/
structure Records (w : Workflow σ) (record : StepRecord) : Prop where
  placed : record.pending ≠ [] → w.Placed record.pending record.deferred
  idle : record.pending ≠ [] → record.ranNodes = []
  deferred_known : record.deferred ⊆ w.keys

/-- Where a run stands, every node is in its place. -/
def Stands (w : Workflow σ) : Stage → Prop
  | .waiting start => ∀ cp input, start = .resume cp input → w.Records cp.record
  | .ready c => w.Placed c.frontier c.deferred
  | .running c _ => w.Placed c.frontier c.deferred
  | .accepted c _ => w.Placed c.frontier c.deferred
  | .ended _ => True

/-- A node that the step before a checkpoint led to, or a join that waited before it. -/
def SendsTo (w : Workflow σ) (cp : Checkpoint) (t : String) : Prop :=
  t ∈ cp.record.deferred ∨ ∃ key ∈ cp.record.ranNodes, ∃ ts,
    w.targets cp.record.handoffs cp.state key = .ok ts ∧ t ∈ ts

theorem placed_resumed {ws : Workshop σ} {g : Description} {site : List String}
    (h : Reflects ws g site w) {s : Snapshot} {record : StepRecord}
    {split : List String × List String} (hr : w.Records record)
    (hs : w.resumeFrontier s record = .ok split) : w.Placed split.1 split.2 := by
  obtain ⟨hp, rfl⟩ | ⟨-, -, -, rfl⟩ | ⟨-, routed, hc, rfl⟩ := resumeFrontier_cases hs
  · exact hr.placed hp
  · exact .of_frontier h.entry_nodup h.entry_known
  · exact placed_routed hc hr.deferred_known

theorem keeps_resumed {s : Snapshot} {record : StepRecord} {split : List String × List String}
    (hr : w.Records record) (hs : w.resumeFrontier s record = .ok split) :
    w.Keeps record.handoffs s record.ranNodes record.deferred split.1 split.2 ∧
      record.pending ⊆ split.1 := by
  obtain ⟨hp, rfl⟩ | ⟨hp, hran, hdef, rfl⟩ | ⟨hp, routed, hc, rfl⟩ := resumeFrontier_cases hs
  · rw [hr.idle hp]
    exact ⟨⟨by simp, fun _ hk => .inr hk⟩, List.Subset.refl _⟩
  · rw [hran, hdef, hp]
    exact ⟨⟨by simp, by simp⟩, List.nil_subset _⟩
  · rw [hp]
    exact ⟨keeps_routed _ hc, List.nil_subset _⟩

end Workflow

namespace Runner

variable {ws : Workshop σ} {g : Description} {site : List String} {r : Runner σ τ}
  {stage stage' : Stage}

/-! ## One move -/

/-- Every move leads from places to places. -/
theorem Move.stands {world world' : RunWorld σ τ} (hw : Reflects ws g site r.workflow)
    (h : r.Move stage world stage' world') (hs : r.workflow.Stands stage) :
    r.workflow.Stands stage' := by
  cases h with
  | begun => exact .of_frontier hw.entry_nodup hw.entry_known
  | resumed log hc =>
    obtain ⟨split, hsplit, rfl⟩ := r.resumedCursor_eq_ok_iff.mp hc
    exact Workflow.placed_resumed hw (hs _ _ rfl) hsplit
  | dispatched => exact hs
  | accepted => exact hs
  | settled log ho hsaved hr hi =>
    exact Workflow.placed_routed hr fun _ hk => Workflow.Placed.deferred_known hs hk
  | rested => exact hs
  | _ => trivial

/-- Whatever is saved can be gone on from. -/
theorem SavesAt.records {cp : Checkpoint} (h : r.SavesAt stage cp)
    (hs : r.workflow.Stands stage) : r.workflow.Records cp.record := by
  cases h with
  | first hstate hr =>
    rw [hr]
    exact ⟨fun h => absurd rfl h, fun _ => rfl, List.nil_subset _⟩
  | ahead hstate hr hf =>
    rw [hr]
    exact ⟨fun _ => hs, fun _ => rfl, fun _ hk => hs.deferred_known hk⟩
  | step ho hstate hr =>
    rw [hr]
    exact ⟨fun h => absurd rfl h, fun h => absurd rfl h, fun _ hk => hs.deferred_known hk⟩
  | behind ho hstate hr =>
    rw [hr]
    exact ⟨fun h => absurd rfl h, fun h => absurd rfl h, fun _ hk => hs.deferred_known hk⟩

/-- The nodes that are still to come: those to begin with, or those that run next or wait. A run
that ends before its time leaves everything open. -/
def Due (r : Runner σ τ) : Stage → String → Prop
  | .waiting (.fresh _ _), key => key ∈ r.workflow.entry
  | .waiting (.resume cp input), key =>
    ∃ c, r.resumedCursor cp input = .ok c ∧ (key ∈ c.frontier ∨ key ∈ c.deferred)
  | .ready c, key => key ∈ c.frontier ∨ key ∈ c.deferred
  | .running c _, key => key ∈ c.frontier ∨ key ∈ c.deferred
  | .accepted c _, key => key ∈ c.frontier ∨ key ∈ c.deferred
  | .ended o, _ => o.status ≠ .completed

/-- What is put on record between two stages covers what is due at the first one and what its own
steps lead to, as far as that is not due at the second one. -/
structure Covers (r : Runner σ τ) (stage : Stage) (cps : List Checkpoint) (stage' : Stage) :
    Prop where
  due : ∀ key, r.Due stage key → key ∈ ranIn cps ∨ r.Due stage' key
  sent : ∀ cp after, cp :: after <:+ cps → cp.record.source = .step →
    ∀ t, r.workflow.SendsTo cp t → t ∈ ranIn after ∨ r.Due stage' t

namespace Covers

theorem of_due (h : ∀ key, r.Due stage key → r.Due stage' key) : r.Covers stage [] stage' :=
  ⟨fun key hk => .inr (h key hk), by simp⟩

theorem trans {middle : Stage} {cps more : List Checkpoint} (h : r.Covers stage cps middle)
    (h' : r.Covers middle more stage') : r.Covers stage (cps ++ more) stage' := by
  -- What is due in the middle runs later on or stays due.
  have hnext : ∀ ran t, t ∈ ranIn ran ∨ r.Due middle t →
      t ∈ ranIn (ran ++ more) ∨ r.Due stage' t := by
    intro ran t ht
    rw [ranIn_append, List.mem_append]
    obtain ht | ht := ht
    · exact .inl (.inl ht)
    · exact (h'.due t ht).imp_left .inr
  constructor
  · intro key hk
    exact hnext cps key (h.due key hk)
  · intro cp after hsuf hstep t ht
    obtain ⟨rest, hrest, rfl⟩ | hsuf := cons_suffix_append hsuf
    · exact hnext rest t (h.sent cp rest hrest hstep t ht)
    · exact h'.sent cp after hsuf hstep t ht

/-- A run that ends before its time leaves everything open. -/
theorem of_ended {o : Outcome} (ho : o.status ≠ .completed) (cps : List Checkpoint) :
    r.Covers stage cps (.ended o) :=
  ⟨fun _ _ => .inr ho, fun _ _ _ _ _ _ => .inr ho⟩

end Covers

/-- Whatever is due runs or stays due, and so does whatever a step leads to. -/
theorem Move.covers {world world' : RunWorld σ (τ × List Checkpoint)}
    (h : r.recording.Move stage world stage' world') (hs : r.workflow.Stands stage) :
    ∃ more, world'.saved = world.saved ++ more ∧ r.Covers stage more stage' := by
  have hgrow := h.saved
  cases h with
  | begun log hsaved =>
    refine ⟨_, saved_of_saves hsaved, fun key hk => .inr (.inl hk), ?_⟩
    intro cp after hsuf hstep
    obtain ⟨rfl, -⟩ : cp = _ ∧ after = [] := by simpa [List.suffix_cons_iff] using hsuf
    cases hstep
  | resumed log hc =>
    refine ⟨[], by simp [RunWorld.saved], .of_due ?_⟩
    rintro key ⟨c, hc', hk⟩
    cases hc.symm.trans hc'
    exact hk
  | completed log hf =>
    refine ⟨[], by simp [RunWorld.saved], .of_due ?_⟩
    intro key hk
    -- Nothing runs next, so nothing waits either.
    have hd := Workflow.Placed.runs hs hf
    change key ∈ _ ∨ key ∈ _ at hk
    rw [hf, hd] at hk
    simp at hk
  | dispatched => exact ⟨[], by simp [RunWorld.saved], .of_due fun _ hk => hk⟩
  | accepted => exact ⟨[], by simp, .of_due fun _ hk => hk⟩
  -- Only here a step goes on record. Its nodes have run, and the rest is kept for the next ones.
  | @settled w c outputs store id t routed log ho hsaved hr hi =>
    have hkeeps := Workflow.keeps_routed c.deferred hr
    refine ⟨_, saved_of_saves hsaved, ?_, ?_⟩
    · rintro key (hk | hk)
      · exact .inl (mem_ranIn.mpr ⟨_, List.mem_singleton_self _, rfl, hk⟩)
      · exact .inr (hkeeps.2 key hk)
    · intro cp after hsuf hstep t ht
      obtain ⟨rfl, rfl⟩ : cp = _ ∧ after = [] := by simpa [List.suffix_cons_iff] using hsuf
      refine .inr ?_
      obtain ht | ⟨key, hk, ts, hts, ht⟩ := ht
      · exact hkeeps.2 t ht
      · obtain ⟨ts', hts', hall⟩ := hkeeps.1 key hk
        cases hts.symm.trans hts'
        exact hall t ht
  | rested => exact ⟨[], by simp, .of_due fun _ hk => hk⟩
  | _ =>
    -- All the other moves end the run before its time.
    obtain ⟨more, hmore, -⟩ := hgrow
    exact ⟨more, hmore, .of_ended (by simp [failedAt, outcomeAt]) more⟩

/-! ## Whole runs -/

/-- Wherever a run comes that may begin as it does, it stands where every node is in its place, it
has saved only what can be gone on from, and the record covers what was due. -/
theorem Reaches.conserves {start : RunStart} {world : RunWorld σ (τ × List Checkpoint)}
    (hw : Reflects ws g site r.workflow)
    (hs : ∀ cp input, start = .resume cp input → r.workflow.Records cp.record)
    (h : r.Reaches start stage world) :
    r.workflow.Stands stage ∧ (∀ cp ∈ world.saved, r.workflow.Records cp.record) ∧
      r.Covers (.waiting start) world.saved stage := by
  refine h.induct (motive := fun stage cps => r.workflow.Stands stage ∧
    (∀ cp ∈ cps, r.workflow.Records cp.record) ∧ r.Covers (.waiting start) cps stage) ?_ ?_
  · exact ⟨hs, by simp, .of_due fun _ hk => hk⟩
  · rintro stage w stage' w' ⟨hstands, hrecords, hcovers⟩ hmove
    refine ⟨Move.stands (r := r.recording) hw hmove hstands, ?_, ?_⟩
    · obtain ⟨more, hmore, hsaves⟩ := hmove.saved
      rw [hmore]
      intro cp hcp
      obtain hcp | hcp := List.mem_append.mp hcp
      · exact hrecords cp hcp
      · exact (hsaves cp hcp).records hstands
    · obtain ⟨more, hmore, hmore'⟩ := hmove.covers hstands
      rw [hmore]
      exact hcovers.trans hmore'

end Runner

/-- Whatever runs of a workflow write can be gone on from. -/
theorem Workflow.Wrote.records {ws : Workshop σ} {g : Description} {site : List String}
    {w : Workflow σ} (hw : Reflects ws g site w) {cp : Checkpoint} (h : w.Wrote cp) :
    w.Records cp.record := by
  refine h.induct (motive := fun cp => w.Records cp.record) ?_
  rintro τ r start stage world rfl hs hreach
  exact (hreach.conserves hw hs).2.1

theorem Workflow.Starts.records {ws : Workshop σ} {g : Description} {site : List String}
    {w : Workflow σ} (hw : Reflects ws g site w) {start : RunStart} (h : w.Starts start) :
    ∀ cp input, start = .resume cp input → w.Records cp.record := by
  rintro cp input rfl
  cases h with
  | resume _ hcp => exact hcp.records hw

/-- No node is lost and none is doubled. Between two steps, the nodes that run next and the joins
that wait are nodes of the workflow, each in one place only; what waits are joins, and something
runs if anything waits. What the nodes of the last step lead to, and what waited before it, runs
next or waits; so does, behind a checkpoint, what its step led to and what waited before that, and
what a pause stopped in front of runs next. When a run completes, it has run everything that was due
in the beginning, and everything that any of its steps led to after that step. -/
theorem routing_conserved {ws : Workshop σ} {g : Description} {site : List String}
    {w : Workflow σ} (hc : compile ws g site = .ok w) {r : Runner σ τ} (hr : r.workflow = w)
    {start : RunStart} (hs : w.Starts start) {stage : Stage}
    {world : RunWorld σ (τ × List Checkpoint)} (h : r.Reaches start stage world) :
    (∀ c, stage = .ready c → w.Placed c.frontier c.deferred) ∧
    (∀ c outputs c', stage = .accepted c outputs →
      (r.recording.advance stage world).1 = .ready c' →
      w.Keeps (handoffsOf (c.frontier.zip outputs)) c'.store.state c.frontier c.deferred
        c'.frontier c'.deferred) ∧
    (∀ cp input c', stage = .waiting (.resume cp input) →
      (r.recording.advance stage world).1 = .ready c' →
      w.Keeps cp.record.handoffs c'.store.state cp.record.ranNodes cp.record.deferred
        c'.frontier c'.deferred ∧ cp.record.pending ⊆ c'.frontier) ∧
    (∀ o, stage = .ended o → o.status = .completed →
      (∀ key, r.Due (.waiting start) key → key ∈ ranIn world.saved) ∧
      ∀ cp after, cp :: after <:+ world.saved → cp.record.source = .step →
        ∀ t, w.SendsTo cp t → t ∈ ranIn after) := by
  subst hr
  have hw := compile_reflects hc
  obtain ⟨hstands, -, hcovers⟩ := h.conserves hw (hs.records hw)
  have hmove := r.recording.advance_move stage world
  generalize (r.recording.advance stage world).2 = world' at hmove
  refine ⟨?_, ?_, ?_, ?_⟩
  · rintro c rfl
    exact hstands
  · rintro c outputs c' rfl hc'
    rw [hc'] at hmove
    cases hmove with
    | settled log ho hsaved hroute hi => exact Workflow.keeps_routed _ hroute
  · rintro cp input c' rfl hc'
    rw [hc'] at hmove
    cases hmove with
    | resumed log hcursor =>
      obtain ⟨split, hsplit, rfl⟩ := r.recording.resumedCursor_eq_ok_iff.mp hcursor
      exact Workflow.keeps_resumed (hstands cp input rfl) hsplit
  · rintro o rfl ho
    refine ⟨fun key hk => ?_, fun cp after hsuf hstep t ht => ?_⟩
    · exact (hcovers.due key hk).resolve_right fun hdue => hdue ho
    · exact (hcovers.sent cp after hsuf hstep t ht).resolve_right fun hdue => hdue ho

/-- The run through the uneven branches begins at their source. Whatever a node leads to runs
behind it, the join behind both of its branches. -/
theorem routing_conserved_uneven :
    compile inputShop unevenFork [] = .ok unevenWorkflow ∧
      unevenWorkflow.Starts (.fresh .null .null) ∧
      unevenRunner.Reaches (.fresh .null .null) unevenRun.1 unevenRun.2 ∧
      ranIn unevenRun.2.saved = ["s", "a", "b", "c", "j"] ∧ "s" ∈ ranIn unevenRun.2.saved ∧
      ∀ place key target, (place, key, target) ∈
          [(1, "s", "a"), (1, "s", "b"), (2, "a", "j"), (2, "b", "c"), (3, "c", "j")] →
        ∃ cp after, unevenRun.2.saved.drop place = cp :: after ∧
          key ∈ cp.record.ranNodes ∧ target ∈ ranIn after := by
  have hran : ranIn unevenRun.2.saved = ["s", "a", "b", "c", "j"] := by decide +kernel
  obtain ⟨-, -, -, hall⟩ := routing_conserved compile_unevenFork rfl (.fresh _ _) unevenRun_reaches
  obtain ⟨o, hstage, hstatus⟩ := Option.map_eq_some_iff.mp unevenRun_completed
  obtain ⟨hdue, hsent⟩ := hall o (Stage.eq_ended_of_outcome? hstage) hstatus
  refine ⟨compile_unevenFork, .fresh _ _, unevenRun_reaches, hran, ?_, ?_⟩
  · have hentry : "s" ∈ unevenWorkflow.entry := by decide +kernel
    exact hdue "s" hentry
  · intro place key target hplace
    -- Each of the edges is taken by the step at its place.
    have htaken : [(1, "s", "a"), (1, "s", "b"), (2, "a", "j"), (2, "b", "c"), (3, "c", "j")].all
        (fun e => unevenRun.2.saved[e.1]?.any fun cp =>
          cp.record.source == .step && cp.record.ranNodes.contains e.2.1 &&
            (unevenWorkflow.targets cp.record.handoffs cp.state e.2.1).toOption.any
              (·.contains e.2.2)) = true := by
      decide +kernel
    have hone := List.all_eq_true.mp htaken _ hplace
    simp only [Option.any_eq_true, Bool.and_eq_true, beq_iff_eq, List.contains_iff_mem] at hone
    obtain ⟨cp, hcp, ⟨hstep, hkey⟩, ts, hts, htarget⟩ := hone
    obtain ⟨hlen, rfl⟩ := List.getElem?_eq_some_iff.mp hcp
    have hdrop := List.drop_eq_getElem_cons hlen
    have hleads : unevenWorkflow.targets unevenRun.2.saved[place].record.handoffs
        unevenRun.2.saved[place].state key = .ok ts := by
      revert hts
      cases unevenWorkflow.targets unevenRun.2.saved[place].record.handoffs
        unevenRun.2.saved[place].state key <;> simp [Except.toOption]
    refine ⟨_, _, hdrop, hkey, hsent _ _ ?_ hstep target (.inr ⟨key, hkey, ts, hleads, htarget⟩)⟩
    rw [← hdrop]
    exact List.drop_suffix _ _

end Workgraph
