import Mathlib.Data.Set.Finite.Basic
import Mathlib.Order.WellFounded
import Workgraph.Proofs.Run.Routing
/-!
# Levels of acyclic workflows

In a workflow without cycles a run never meets a node again that it has left behind. What runs next
is not behind anything else that is still to come, and this is kept when joins are held back: a node
behind another candidate is a join that waits for it. So there is always a candidate that need not
wait.

## Main definitions

- `Workflow.Acyclic`: no node leads back to itself
- `Workflow.Ahead`: how what has run, what runs next and what waits lie in the workflow
- `Workflow.Orderly`: how the steps of a run follow one another
- `Workflow.Spread`: how far a run has spread along the plain edges

## Main statements

- `Workflow.exists_unheld`: some candidate does not wait
- `Workflow.Ahead.step`, `Workflow.Orderly.snoc`: how a step leads from one level to the next
- `Workflow.Spread.mem_iff`: what has run once nothing is left
-/

namespace Workgraph

open Relation

namespace Workflow

variable {σ : Type} {w : Workflow σ}

/-- No node leads back to itself. -/
def Acyclic (w : Workflow σ) : Prop := ∀ key, ¬ TransGen w.Leads key key

/-- A workflow whose edges all lead to higher ranks has no cycles. -/
theorem acyclic_of_rank (rank : String → Nat) (h : ∀ a b, w.Leads a b → rank a < rank b) :
    w.Acyclic := by
  have hlt : ∀ a b, TransGen w.Leads a b → rank a < rank b := by
    intro a b hab
    induction hab with
    | single hab => exact h a _ hab
    | tail _ hbc ih => exact ih.trans (h _ _ hbc)
  intro key hkey
  exact Nat.lt_irrefl _ (hlt key key hkey)

theorem Acyclic.ne (h : w.Acyclic) {a b : String} (hab : w.Leads a b) : a ≠ b := by
  rintro rfl
  exact h a (.single hab)

/-- In a workflow without cycles, a way to an input of a node does not pass through the node. -/
theorem Acyclic.past (h : w.Acyclic) {a b key : String} (hab : ReflTransGen w.Leads a b)
    (hb : w.Leads b key) : ReflTransGen (w.LeadsPast key) a b := by
  induction hab using ReflTransGen.head_induction_on with
  | refl => exact .refl
  | @head a c hac hcb ih =>
    refine .head ⟨hac, ?_⟩ ih
    rintro rfl
    exact h c (.tail' hcb hb)

/-- Among several nodes of a workflow without cycles there is one that no other leads to. -/
theorem Acyclic.exists_first (h : w.Acyclic) {keys : List String} (hne : keys ≠ []) :
    ∃ key ∈ keys, ∀ a ∈ keys, ¬ TransGen w.Leads a key := by
  let R : {key // key ∈ keys} → {key // key ∈ keys} → Prop := fun a b => TransGen w.Leads a b
  have : Finite {key // key ∈ keys} := keys.finite_toSet.to_subtype
  have : IsTrans _ R := ⟨fun _ _ _ hab hbc => TransGen.trans hab hbc⟩
  have : Std.Irrefl R := ⟨fun a => h a⟩
  -- On finitely many keys a strict order is well-founded.
  obtain ⟨first, hfirst⟩ := List.exists_mem_of_ne_nil keys hne
  obtain ⟨⟨key, hkey⟩, -, hmin⟩ :=
    (Finite.wellFounded_of_trans_of_irrefl R).has_min Set.univ ⟨⟨first, hfirst⟩, trivial⟩
  exact ⟨key, hkey, fun a ha => hmin ⟨a, ha⟩ trivial⟩

variable {ws : Workshop σ} {g : Description} {site : List String}

/-- A candidate behind another one waits for it if it is a join. -/
theorem isHeld_of_leads (hw : Reflects ws g site w) (hac : w.Acyclic) {candidates : List String}
    {a b key : String} {n : WorkNode σ} (hn : w.node? key = some n) (hjoin : n.isJoin = true)
    (ha : a ∈ candidates) (hne : a ≠ key) (hab : ReflTransGen w.Leads a b) (hb : w.Leads b key) :
    w.isHeld candidates key = true := by
  refine isHeld_iff.mpr ⟨n, hn, hjoin, awaitsInput_iff.mpr ⟨a, ha, ?_, b, ?_, ?_⟩⟩
  · rwa [(node?_eq_some hn).2]
  · exact hw.mem_inputs hb hn (hac.ne hb)
  · rw [(node?_eq_some hn).2]
    exact hac.past hab hb

/-- What waits is behind another candidate. -/
theorem transGen_of_isHeld (hw : Reflects ws g site w) {candidates : List String} {key : String}
    (h : w.isHeld candidates key = true) : ∃ a ∈ candidates, TransGen w.Leads a key := by
  obtain ⟨n, hn, -, hawaits⟩ := isHeld_iff.mp h
  obtain ⟨a, ha, -, b, hb, hab⟩ := awaitsInput_iff.mp hawaits
  have hab : ReflTransGen w.Leads a b := ReflTransGen.mono (fun _ _ hleads => hleads.1) a b hab
  refine ⟨a, ha, .tail' hab ?_⟩
  exact hw.leads_of_mem_inputs hn hb

/-- Some candidate does not wait. -/
theorem exists_unheld (hw : Reflects ws g site w) (hac : w.Acyclic) {candidates : List String}
    (hne : candidates ≠ []) : ∃ key ∈ candidates, w.isHeld candidates key = false := by
  obtain ⟨key, hkey, hfirst⟩ := hac.exists_first hne
  refine ⟨key, hkey, ?_⟩
  rw [← Bool.not_eq_true]
  intro hheld
  obtain ⟨a, ha, hak⟩ := transGen_of_isHeld hw hheld
  exact hfirst a ha hak

/-- What has run cannot be reached from anything that runs next or waits, and what runs next cannot
be reached from anything else that does. -/
structure Ahead (w : Workflow σ) (past frontier deferred : List String) : Prop where
  placed : w.Placed frontier deferred
  left : ∀ x ∈ past, ∀ a, a ∈ frontier ∨ a ∈ deferred → ¬ ReflTransGen w.Leads a x
  foremost : ∀ x ∈ frontier, ∀ a, a ∈ frontier ∨ a ∈ deferred → a ≠ x → ¬ ReflTransGen w.Leads a x

namespace Ahead

/-- Nothing is ahead of nodes that nothing leads to. -/
theorem of_entry (hw : Reflects ws g site w) (hentry : ∀ a, ∀ b ∈ w.entry, ¬ w.Leads a b) :
    w.Ahead [] w.entry [] := by
  refine ⟨.of_frontier hw.entry_nodup hw.entry_known, by simp, ?_⟩
  intro x hx a ha hne hax
  obtain rfl | ⟨b, -, hbx⟩ := ReflTransGen.cases_tail hax
  · exact hne rfl
  · exact hentry b x hx hbx

variable {past frontier deferred routed : List String}

/-- What a step leads to, and what waited, cannot lead back to what has run. -/
theorem not_back (hac : w.Acyclic) (h : w.Ahead past frontier deferred)
    (hrouted : ∀ t ∈ routed, ∃ x ∈ frontier, w.Leads x t) :
    ∀ x ∈ past ++ frontier, ∀ a ∈ appendNew routed deferred, ¬ ReflTransGen w.Leads a x := by
  intro x hx a ha hax
  rw [List.mem_append] at hx
  obtain ha | ha := mem_appendNew.mp ha
  · obtain ⟨f, hf, hfa⟩ := hrouted a ha
    have hfx : ReflTransGen w.Leads f x := .head hfa hax
    obtain hx | hx := hx
    · exact h.left x hx f (.inl hf) hfx
    · by_cases hne : f = x
      · subst hne
        exact hac f (.head' hfa hax)
      · exact h.foremost x hx f (.inl hf) hne hfx
  · obtain hx | hx := hx
    · exact h.left x hx a (.inr ha) hax
    · refine h.foremost x hx a (.inr ha) ?_ hax
      rintro rfl
      exact h.placed.disjoint a hx ha

/-- A node behind another candidate waits for it. If it were no join, its only input would be a node
that has just run, and that cannot be reached any more. -/
theorem isHeld_of_behind (hw : Reflects ws g site w) (hac : w.Acyclic)
    (h : w.Ahead past frontier deferred) (hrouted : ∀ t ∈ routed, ∃ x ∈ frontier, w.Leads x t)
    {x a : String} (hx : x ∈ appendNew routed deferred) (ha : a ∈ appendNew routed deferred)
    (hne : a ≠ x) (hax : ReflTransGen w.Leads a x) :
    w.isHeld (appendNew routed deferred) x = true := by
  obtain rfl | ⟨b, hab, hbx⟩ := ReflTransGen.cases_tail hax
  · exact absurd rfl hne
  obtain ⟨n, hn⟩ := exists_node_of_mem_keys (hw.leads_known hbx)
  by_cases hjoin : n.isJoin = true
  · exact isHeld_of_leads hw hac hn hjoin ha hne hab hbx
  · obtain hx | hx := mem_appendNew.mp hx
    · obtain ⟨f, hf, hfx⟩ := hrouted x hx
      have hfin := hw.mem_inputs hfx hn (hac.ne hfx)
      have hbin := hw.mem_inputs hbx hn (hac.ne hbx)
      have hlen : n.inputs.length ≤ 1 := by simpa [WorkNode.isJoin] using hjoin
      -- The node that leads to it and the one that has just run are the same input.
      have hfb : f = b := by
        cases hinputs : n.inputs with
        | nil => simp [hinputs] at hfin
        | cons i rest =>
          have hnil : rest = [] := by
            rw [hinputs] at hlen
            simpa using hlen
          rw [hinputs, hnil, List.mem_singleton] at hfin hbin
          rw [hfin, hbin]
      subst hfb
      exact absurd hab (h.not_back hac hrouted f (List.mem_append.mpr (.inr hf)) a ha)
    · obtain ⟨m, hm, hmjoin⟩ := h.placed.deferred_join x hx
      rw [hn] at hm
      cases hm
      exact absurd hmjoin hjoin

/-- How a step leads from one level to the next. -/
theorem step (hw : Reflects ws g site w) (hac : w.Acyclic) (h : w.Ahead past frontier deferred)
    (hn : routed.Nodup) (hk : routed ⊆ w.keys)
    (hrouted : ∀ t ∈ routed, ∃ x ∈ frontier, w.Leads x t) :
    w.Ahead (past ++ frontier) (w.holdJoins (appendNew routed deferred)).1
      (w.holdJoins (appendNew routed deferred)).2 := by
  refine ⟨?_, ?_, ?_⟩
  · refine placed_holdJoins (nodup_appendNew _ hn) ?_
    intro key hkey
    obtain hkey | hkey := mem_appendNew.mp hkey
    · exact hk hkey
    · exact h.placed.deferred_known hkey
  · intro x hx a ha
    exact h.not_back hac hrouted x hx a (mem_holdJoins.mp ha)
  · intro x hx a ha hne hax
    have ha := mem_holdJoins.mp ha
    -- Behind another candidate it would be held back, although some candidate is not.
    have hheld := h.isHeld_of_behind hw hac hrouted (mem_holdJoins.mp (.inl hx)) ha hne hax
    have hfree := not_isHeld_of_mem_ready hx (exists_unheld hw hac (List.ne_nil_of_mem ha))
    rw [hheld] at hfree
    cases hfree

end Ahead

/-! ## The order of steps -/

/-- What runs in a step cannot be reached from what runs in a later one, nor from anything else in
the same step. -/
structure Orderly (w : Workflow σ) (fs : List (List String)) : Prop where
  left : fs.Pairwise fun earlier later =>
    ∀ x ∈ earlier, ∀ a ∈ later, ¬ ReflTransGen w.Leads a x
  foremost : ∀ f ∈ fs, ∀ x ∈ f, ∀ a ∈ f, a ≠ x → ¬ ReflTransGen w.Leads a x
  nonempty : ∀ f ∈ fs, f ≠ []
  nodup : ∀ f ∈ fs, f.Nodup
  known : ∀ f ∈ fs, f ⊆ w.keys

namespace Orderly

variable {fs : List (List String)}

theorem nil : w.Orderly [] := ⟨.nil, by simp, by simp, by simp, by simp⟩

/-- The next step keeps the order. -/
theorem snoc {frontier deferred : List String} (h : w.Orderly fs)
    (ha : w.Ahead fs.flatten frontier deferred) (hne : frontier ≠ []) :
    w.Orderly (fs ++ [frontier]) := by
  have hcases : ∀ {p : List String → Prop}, (∀ f ∈ fs, p f) → p frontier →
      ∀ f ∈ fs ++ [frontier], p f := by
    intro p hfs hp f hf
    obtain hf | hf := List.mem_append.mp hf
    · exact hfs f hf
    · rw [List.mem_singleton] at hf
      rwa [hf]
  constructor
  · rw [List.pairwise_append]
    refine ⟨h.left, List.pairwise_singleton _ _, ?_⟩
    intro earlier he later hl x hx a hal
    rw [List.mem_singleton] at hl
    subst hl
    exact ha.left x (List.mem_flatten_of_mem he hx) a (.inl hal)
  · exact hcases h.foremost fun x hx a hal => ha.foremost x hx a (.inl hal)
  · exact hcases h.nonempty hne
  · exact hcases h.nodup ha.placed.frontier_nodup
  · exact hcases h.known fun _ hk => ha.placed.frontier_known _ hk

/-- No node runs twice. -/
theorem nodup_flatten (h : w.Orderly fs) : fs.flatten.Nodup := by
  rw [List.nodup_flatten]
  refine ⟨h.nodup, h.left.imp ?_⟩
  intro earlier later hleft x hx hx'
  exact hleft x hx x hx' .refl

/-- There are no more steps than nodes. -/
theorem length_le (h : w.Orderly fs) : fs.length ≤ w.nodes.length := by
  have hsteps : fs.length ≤ fs.flatten.length := by
    have := h.nonempty
    clear h
    induction fs with
    | nil => simp
    | cons f rest ih =>
      have hf := List.length_pos_iff.mpr (this f List.mem_cons_self)
      have hrest := ih fun f hf => this f (List.mem_cons_of_mem _ hf)
      rw [List.flatten_cons, List.length_append, List.length_cons]
      omega
  have hsub : fs.flatten ⊆ w.keys := by
    intro x hx
    obtain ⟨f, hf, hx⟩ := List.mem_flatten.mp hx
    exact h.known f hf hx
  have hlen := (List.subperm_of_subset h.nodup_flatten hsub).length_le
  have hkeys : w.keys.length = w.nodes.length := List.length_map _
  omega

/-- A node that leads to another one runs in an earlier step, if both run. -/
theorem lt_of_leads (h : w.Orderly fs) {i k : Nat} {f f' : List String} {a b : String}
    (hi : fs[i]? = some f) (hk : fs[k]? = some f') (hb : b ∈ f) (ha : a ∈ f')
    (hab : ReflTransGen w.Leads a b) (hne : a ≠ b) : k < i := by
  by_contra hlt
  obtain ⟨hilt, rfl⟩ := List.getElem?_eq_some_iff.mp hi
  obtain ⟨hklt, rfl⟩ := List.getElem?_eq_some_iff.mp hk
  obtain heq | hik := Nat.eq_or_lt_of_le (Nat.le_of_not_lt hlt)
  · subst heq
    exact h.foremost _ (List.getElem_mem _) b hb a ha hne hab
  · exact List.pairwise_iff_getElem.mp h.left i k hilt hklt hik b hb a ha hab

end Orderly

/-! ## Spreading -/

/-- One node follows another if a plain edge leads to it. -/
def Follows (w : Workflow σ) (a b : String) : Prop := ∃ n, w.node? a = some n ∧ b ∈ n.edges

/-- What has run, what runs next and what waits has spread from the entry along plain edges, and
covers everything that has been come to. -/
structure Spread (w : Workflow σ) (past frontier deferred : List String) : Prop where
  reached : ∀ key, key ∈ past ∨ key ∈ frontier ∨ key ∈ deferred →
    ∃ e ∈ w.entry, ReflTransGen w.Follows e key
  entered : ∀ e ∈ w.entry, e ∈ past ∨ e ∈ frontier ∨ e ∈ deferred
  followed : ∀ x ∈ past, ∀ y, w.Follows x y → y ∈ past ∨ y ∈ frontier ∨ y ∈ deferred

namespace Spread

theorem of_entry : w.Spread [] w.entry [] := by
  refine ⟨?_, fun e he => .inr (.inl he), by simp⟩
  rintro key (hk | hk | hk)
  · cases hk
  · exact ⟨key, hk, .refl⟩
  · cases hk

variable {past frontier deferred routed : List String}

/-- A step spreads along the plain edges of its nodes. -/
theorem step (h : w.Spread past frontier deferred)
    (hrouted : ∀ t, t ∈ routed ↔ ∃ x ∈ frontier, w.Follows x t) :
    w.Spread (past ++ frontier) (w.holdJoins (appendNew routed deferred)).1
      (w.holdJoins (appendNew routed deferred)).2 := by
  -- Whatever was somewhere before the step is somewhere behind it.
  have hcover : ∀ key, key ∈ past ∨ key ∈ frontier ∨ key ∈ deferred →
      key ∈ past ++ frontier ∨ key ∈ (w.holdJoins (appendNew routed deferred)).1 ∨
        key ∈ (w.holdJoins (appendNew routed deferred)).2 := by
    intro key hk
    rw [mem_holdJoins, mem_appendNew, List.mem_append]
    tauto
  constructor
  · intro key hk
    rw [mem_holdJoins, mem_appendNew, List.mem_append] at hk
    obtain (hk | hk) | hk | hk := hk
    · exact h.reached key (.inl hk)
    · exact h.reached key (.inr (.inl hk))
    · obtain ⟨x, hx, hxk⟩ := (hrouted key).mp hk
      obtain ⟨e, he, hex⟩ := h.reached x (.inr (.inl hx))
      exact ⟨e, he, hex.tail hxk⟩
    · exact h.reached key (.inr (.inr hk))
  · intro e he
    exact hcover e (h.entered e he)
  · intro x hx y hxy
    obtain hx | hx := List.mem_append.mp hx
    · exact hcover y (h.followed x hx y hxy)
    · rw [mem_holdJoins, mem_appendNew]
      exact .inr (.inl ((hrouted y).mpr ⟨x, hx, hxy⟩))

/-- Once nothing is left, exactly what the entry leads to has run. -/
theorem mem_iff (h : w.Spread past [] []) {key : String} :
    key ∈ past ↔ ∃ e ∈ w.entry, ReflTransGen w.Follows e key := by
  constructor
  · intro hk
    exact h.reached key (.inl hk)
  · rintro ⟨e, he, hek⟩
    induction hek with
    | refl => simpa using h.entered e he
    | tail _ hbc ih => simpa using h.followed _ ih _ hbc

end Spread

end Workflow

end Workgraph
