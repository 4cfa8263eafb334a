import Mathlib.Data.List.Forall2
import Workgraph.Proofs.Workflow.Reachability
import Workgraph.Run.Machine
/-!
# Routing

Where a run stands between two steps: the nodes that run next and the joins that wait are nodes of
the workflow, each in one place only, and together they are what the step routed to and what waited
before it.

## Main definitions

- `Workflow.Placed`: how the nodes that run next and the joins that wait are kept apart
- `Workflow.Keeps`: what a step routed to and what waited before it still runs or waits

## Main statements

- `Workflow.mem_candidates`: the candidates are the targets of the nodes that ran
- `Workflow.placed_routed`, `Workflow.keeps_routed`: nothing is lost or doubled behind a step
- `Workflow.resumeFrontier_cases`: what runs next behind a checkpoint
-/

namespace Workgraph

/-- A list goes through a function that can fail if all of its elements do. -/
theorem mapM_eq_ok_iff {ε α β : Type} {f : α → Except ε β} {as : List α} {bs : List β} :
    as.mapM f = .ok bs ↔ List.Forall₂ (fun a b => f a = .ok b) as bs := by
  induction as generalizing bs with
  | nil =>
    rw [List.mapM_nil, List.forall₂_nil_left_iff]
    exact ⟨fun h => (Except.ok.inj h).symm, fun h => by rw [h]; rfl⟩
  | cons a rest ih =>
    rw [List.mapM_cons, List.forall₂_cons_left_iff]
    constructor
    · intro h
      cases ha : f a with
      | error e =>
        rw [ha] at h
        cases h
      | ok b =>
        cases hr : rest.mapM f with
        | error e =>
          rw [ha, hr] at h
          cases h
        | ok more =>
          rw [ha, hr] at h
          cases h
          exact ⟨b, more, rfl, ih.mp hr, rfl⟩
    · rintro ⟨b, more, ha, hr, rfl⟩
      rw [ha, ih.mpr hr]
      rfl

/-- Functions that agree on a list go through it alike. -/
theorem mapM_congr {ε α β : Type} {f g : α → Except ε β} {as : List α}
    (h : ∀ a ∈ as, f a = g a) : as.mapM f = as.mapM g := by
  induction as with
  | nil => rfl
  | cons a rest ih =>
    rw [List.mapM_cons, List.mapM_cons, h a List.mem_cons_self,
      ih fun b hb => h b (List.mem_cons_of_mem _ hb)]

/-- A list fails to go through a function at its first element that does. -/
theorem mapM_eq_error {ε α β : Type} {f : α → Except ε β} {as : List α} {e : ε}
    (h : as.mapM f = .error e) :
    ∃ before a after, as = before ++ a :: after ∧ f a = .error e ∧
      ∀ b ∈ before, ∃ out, f b = .ok out := by
  induction as with
  | nil => cases h
  | cons a rest ih =>
    rw [List.mapM_cons] at h
    cases ha : f a with
    | error e' =>
      rw [ha] at h
      cases h
      exact ⟨[], a, rest, rfl, ha, by simp⟩
    | ok out =>
      rw [ha] at h
      cases hr : rest.mapM f with
      | ok more =>
        rw [hr] at h
        cases h
      | error e' =>
        rw [hr] at h
        cases h
        obtain ⟨before, b, after, rfl, hb, hall⟩ := ih hr
        refine ⟨a :: before, b, after, rfl, hb, ?_⟩
        intro b' hb'
        obtain rfl | hb' := List.mem_cons.mp hb'
        · exact ⟨out, ha⟩
        · exact hall b' hb'

theorem exists_of_forall₂ {α β : Type} {R : α → β → Prop} {as : List α} {bs : List β}
    (h : List.Forall₂ R as bs) {a : α} (ha : a ∈ as) : ∃ b ∈ bs, R a b := by
  induction h with
  | nil => simp at ha
  | cons hab _ ih =>
    obtain rfl | ha := List.mem_cons.mp ha
    · exact ⟨_, List.mem_cons_self, hab⟩
    · obtain ⟨b, hb, hr⟩ := ih ha
      exact ⟨b, List.mem_cons_of_mem _ hb, hr⟩

/-- Where every element determines its partner, a list determines the list of partners. -/
theorem eq_map_of_forall₂ {α β : Type} {R : α → β → Prop} {f : α → β} {as : List α} {bs : List β}
    (h : List.Forall₂ R as bs) (hf : ∀ a ∈ as, ∀ b, R a b → b = f a) : bs = as.map f := by
  induction h with
  | nil => rfl
  | cons hab _ ih =>
    rw [List.map_cons, hf _ List.mem_cons_self _ hab,
      ih fun a ha => hf a (List.mem_cons_of_mem _ ha)]

/-- Where every element has a partner, a list has a list of partners. -/
theorem exists_forall₂ {α β : Type} {R : α → β → Prop} {as : List α} (h : ∀ a ∈ as, ∃ b, R a b) :
    ∃ bs, List.Forall₂ R as bs := by
  induction as with
  | nil => exact ⟨[], .nil⟩
  | cons a rest ih =>
    obtain ⟨b, hb⟩ := h a List.mem_cons_self
    obtain ⟨bs, hbs⟩ := ih fun c hc => h c (List.mem_cons_of_mem _ hc)
    exact ⟨b :: bs, .cons hb hbs⟩

/-- A list goes through a function that can fail if each of its elements does. -/
theorem exists_mapM_iff {ε α β : Type} {f : α → Except ε β} {as : List α} :
    (∃ bs, as.mapM f = .ok bs) ↔ ∀ a ∈ as, ∃ b, f a = .ok b := by
  constructor
  · rintro ⟨bs, h⟩ a ha
    obtain ⟨b, -, hb⟩ := exists_of_forall₂ (mapM_eq_ok_iff.mp h) ha
    exact ⟨b, hb⟩
  · intro h
    obtain ⟨bs, hbs⟩ := exists_forall₂ h
    exact ⟨bs, mapM_eq_ok_iff.mpr hbs⟩

namespace Workflow

variable {σ : Type} {w : Workflow σ}

/-! ## Candidates -/

section Candidates

variable {handoffs : List (String × Handoff)} {s : Snapshot} {ran routed : List String}

theorem knownTargets_eq_ok_iff {key : String} {ts : List String} :
    w.knownTargets handoffs s key = .ok ts ↔
      w.targets handoffs s key = .ok ts ∧ ∀ t ∈ ts, t ∈ w.keys := by
  unfold knownTargets
  cases w.targets handoffs s key with
  | error e => exact ⟨(nomatch ·), (nomatch ·.1)⟩
  | ok found =>
    dsimp only [bind, Except.bind]
    cases hf : found.find? fun t => !w.contains t with
    | some t =>
      refine ⟨(nomatch ·), fun h => ?_⟩
      obtain ⟨rfl, hk⟩ := h.imp_left Except.ok.inj
      have hc := contains_iff.mpr (hk t (List.mem_of_find?_eq_some hf))
      have hn : (!w.contains t) = true := List.find?_some (p := fun t => !w.contains t) hf
      simp [hc] at hn
    | none =>
      refine ⟨fun h => ⟨h, ?_⟩, fun h => h.1⟩
      cases h
      intro t ht
      have := List.find?_eq_none.mp hf t ht
      exact contains_iff.mp (by simpa using this)

theorem candidates_eq_ok_iff :
    w.candidates ran handoffs s = .ok routed ↔
      ∃ tss, ran.mapM (w.knownTargets handoffs s) = .ok tss ∧ routed = distinct tss.flatten := by
  unfold candidates
  cases ran.mapM (w.knownTargets handoffs s) with
  | error e => exact ⟨(nomatch ·), fun ⟨_, h, _⟩ => nomatch h⟩
  | ok tss =>
    refine ⟨fun h => ⟨tss, rfl, (Except.ok.inj h).symm⟩, ?_⟩
    rintro ⟨_, h, rfl⟩
    cases h
    rfl

/-- Routing fails only at an unknown node. -/
theorem knownTargets_error {key : String} {e : RunError}
    (h : w.knownTargets handoffs s key = .error e) : ∃ target, e = .unknownNode target key := by
  unfold knownTargets targets at h
  split at h
  · dsimp only [bind, Except.bind] at h
    split at h
    · cases h
      exact ⟨_, rfl⟩
    · cases h
  · split at h
    · dsimp only [bind, Except.bind] at h
      split at h
      · cases h
        exact ⟨_, rfl⟩
      · cases h
    · cases h
      exact ⟨key, rfl⟩

theorem candidates_error {e : RunError} (h : w.candidates ran handoffs s = .error e) :
    ∃ target source, e = .unknownNode target source := by
  unfold candidates at h
  cases hm : ran.mapM (w.knownTargets handoffs s) with
  | ok tss =>
    rw [hm] at h
    cases h
  | error e' =>
    rw [hm] at h
    cases h
    obtain ⟨before, key, after, -, hkey, -⟩ := mapM_eq_error hm
    obtain ⟨target, rfl⟩ := knownTargets_error hkey
    exact ⟨target, key, rfl⟩

theorem candidates_nodup (h : w.candidates ran handoffs s = .ok routed) : routed.Nodup := by
  obtain ⟨tss, -, rfl⟩ := candidates_eq_ok_iff.mp h
  exact nodup_distinct _

/-- Every target of a node that ran is a candidate. -/
theorem targets_of_candidates (h : w.candidates ran handoffs s = .ok routed) {key : String}
    (hk : key ∈ ran) : ∃ ts, w.targets handoffs s key = .ok ts ∧ ∀ t ∈ ts, t ∈ routed := by
  obtain ⟨tss, hm, rfl⟩ := candidates_eq_ok_iff.mp h
  obtain ⟨ts, hts, hkey⟩ := exists_of_forall₂ (mapM_eq_ok_iff.mp hm) hk
  refine ⟨ts, (knownTargets_eq_ok_iff.mp hkey).1, fun t ht => ?_⟩
  rw [mem_distinct]
  exact List.mem_flatten_of_mem hts ht

/-- The candidates are the targets of the nodes that ran. -/
theorem mem_candidates (h : w.candidates ran handoffs s = .ok routed) {t : String} :
    t ∈ routed ↔ ∃ key ∈ ran, ∃ ts, w.targets handoffs s key = .ok ts ∧ t ∈ ts := by
  constructor
  · intro ht
    obtain ⟨tss, hm, rfl⟩ := candidates_eq_ok_iff.mp h
    rw [mem_distinct] at ht
    obtain ⟨ts, hts, ht⟩ := List.mem_flatten.mp ht
    have hm := (mapM_eq_ok_iff.mp hm).flip
    obtain ⟨key, hk, hkey⟩ := exists_of_forall₂ hm hts
    exact ⟨key, hk, ts, (knownTargets_eq_ok_iff.mp hkey).1, ht⟩
  · rintro ⟨key, hk, ts, hts, ht⟩
    obtain ⟨ts', hts', hsub⟩ := targets_of_candidates h hk
    rw [hts] at hts'
    cases hts'
    exact hsub t ht

theorem candidates_known (h : w.candidates ran handoffs s = .ok routed) : routed ⊆ w.keys := by
  intro t ht
  obtain ⟨tss, hm, rfl⟩ := candidates_eq_ok_iff.mp h
  rw [mem_distinct] at ht
  obtain ⟨ts, hts, ht⟩ := List.mem_flatten.mp ht
  have hm := (mapM_eq_ok_iff.mp hm).flip
  obtain ⟨key, -, hkey⟩ := exists_of_forall₂ hm hts
  exact (knownTargets_eq_ok_iff.mp hkey).2 t ht

end Candidates

/-! ## Places -/

/-- The nodes that run next and the joins that wait are nodes of the workflow, each in one place
only, and something runs if anything waits. -/
structure Placed (w : Workflow σ) (frontier deferred : List String) : Prop where
  frontier_nodup : frontier.Nodup
  deferred_nodup : deferred.Nodup
  disjoint : ∀ key ∈ frontier, key ∉ deferred
  frontier_known : ∀ key ∈ frontier, key ∈ w.keys
  deferred_join : ∀ key ∈ deferred, ∃ n, w.node? key = some n ∧ n.isJoin = true
  runs : frontier = [] → deferred = []

namespace Placed

variable {frontier deferred : List String}

theorem deferred_known (h : w.Placed frontier deferred) {key : String} (hk : key ∈ deferred) :
    key ∈ w.keys := by
  obtain ⟨n, hn, -⟩ := h.deferred_join key hk
  exact mem_keys_of_node? hn

/-- Where nothing waits, any nodes of the workflow can run. -/
theorem of_frontier (hn : frontier.Nodup) (hk : ∀ key ∈ frontier, key ∈ w.keys) :
    w.Placed frontier [] :=
  ⟨hn, List.nodup_nil, by simp, hk, by simp, fun _ => rfl⟩

end Placed

/-- What the nodes of a step routed to in a state, and what waited before it, runs next or waits. -/
def Keeps (w : Workflow σ) (handoffs : List (String × Handoff)) (s : Snapshot)
    (ran waited frontier deferred : List String) : Prop :=
  (∀ key ∈ ran, ∃ ts, w.targets handoffs s key = .ok ts ∧
    ∀ t ∈ ts, t ∈ frontier ∨ t ∈ deferred) ∧
  ∀ key ∈ waited, key ∈ frontier ∨ key ∈ deferred

theorem placed_holdJoins {candidates : List String} (hn : candidates.Nodup)
    (hk : candidates ⊆ w.keys) :
    w.Placed (w.holdJoins candidates).1 (w.holdJoins candidates).2 where
  frontier_nodup := holdJoins_ready_nodup hn
  deferred_nodup := holdJoins_held_nodup hn
  disjoint := fun _ h => holdJoins_disjoint h
  frontier_known := fun _ h => hk (mem_holdJoins.mp (.inl h))
  deferred_join := by
    intro key h
    obtain ⟨n, hnode, hjoin, -⟩ := isHeld_iff.mp (isHeld_of_mem_held h)
    exact ⟨n, hnode, hjoin⟩
  runs := by
    intro h
    rw [holdJoins_ready_eq_nil h]
    rfl

section Step

variable {handoffs : List (String × Handoff)} {s : Snapshot} {ran waited routed : List String}

theorem placed_routed (h : w.candidates ran handoffs s = .ok routed)
    (hk : waited ⊆ w.keys) :
    w.Placed (w.holdJoins (appendNew routed waited)).1
      (w.holdJoins (appendNew routed waited)).2 := by
  refine placed_holdJoins (nodup_appendNew _ (candidates_nodup h)) ?_
  intro key hkey
  obtain hkey | hkey := mem_appendNew.mp hkey
  · exact candidates_known h hkey
  · exact hk hkey

theorem keeps_routed (waited : List String) (h : w.candidates ran handoffs s = .ok routed) :
    w.Keeps handoffs s ran waited (w.holdJoins (appendNew routed waited)).1
      (w.holdJoins (appendNew routed waited)).2 := by
  constructor
  · intro key hk
    obtain ⟨ts, hts, hsub⟩ := targets_of_candidates h hk
    exact ⟨ts, hts, fun t ht => mem_holdJoins.mpr (mem_appendNew.mpr (.inl (hsub t ht)))⟩
  · intro key hk
    exact mem_holdJoins.mpr (mem_appendNew.mpr (.inr hk))

end Step

/-! ## Behind a checkpoint -/

/-- What runs next behind a checkpoint: what a pause stopped in front of, or else the entry if no
step has been done, or else what the last step routes to. -/
theorem resumeFrontier_cases {s : Snapshot} {record : StepRecord}
    {split : List String × List String} (h : w.resumeFrontier s record = .ok split) :
    (record.pending ≠ [] ∧ split = (record.pending, record.deferred)) ∨
    (record.pending = [] ∧ record.ranNodes = [] ∧ record.deferred = [] ∧ split = (w.entry, [])) ∨
    (record.pending = [] ∧ ∃ routed,
      w.candidates record.ranNodes record.handoffs s = .ok routed ∧
      split = w.holdJoins (appendNew routed record.deferred)) := by
  unfold resumeFrontier at h
  by_cases hp : record.pending = []
  · rw [if_neg (by simp [hp])] at h
    by_cases hblank : record.ranNodes = [] ∧ record.deferred = []
    · rw [if_pos (by simp [hblank])] at h
      exact .inr (.inl ⟨hp, hblank.1, hblank.2, (Except.ok.inj h).symm⟩)
    · rw [if_neg (by simpa using hblank)] at h
      refine .inr (.inr ⟨hp, ?_⟩)
      cases hc : w.candidates record.ranNodes record.handoffs s with
      | error e =>
        rw [hc] at h
        cases h
      | ok routed =>
        rw [hc] at h
        exact ⟨routed, rfl, (Except.ok.inj h).symm⟩
  · rw [if_pos (by simpa using hp)] at h
    exact .inl ⟨hp, (Except.ok.inj h).symm⟩

theorem resumeFrontier_error {s : Snapshot} {record : StepRecord} {e : RunError}
    (h : w.resumeFrontier s record = .error e) :
    ∃ target source, e = .unknownNode target source := by
  unfold resumeFrontier at h
  split at h
  · cases h
  · split at h
    · cases h
    · cases hc : w.candidates record.ranNodes record.handoffs s with
      | ok routed =>
        rw [hc] at h
        cases h
      | error e' =>
        rw [hc] at h
        cases h
        exact candidates_error hc

end Workflow

end Workgraph
