import Workgraph.Proofs.Graph.Reordering
import Workgraph.Proofs.Node.Functional
/-!
# Nodes among reordered connections

The plans that the standard makers make of a node do not depend on the order of the connections:
the node does the same, and its navigator chooses the same targets, in another order at most.

## Main definitions

- `Concur`: computations that both succeed, or both fail
- `NodePlan.Mirrors`: plans that differ in the order of targets only

## Main statements

- `Description.Reordered.ofErrors_choose`, `Description.Reordered.ofPorts_choose`: the navigators
- `planAt_mirrors`: the plans of nodes other than agents
-/

namespace Workgraph

variable {σ α β : Type}

/-! ## Computations that concur -/

/-- Two computations concur if both succeed, with results that are related, or both fail. -/
inductive Concur {ε ε' : Type} (R : α → β → Prop) : Except ε α → Except ε' β → Prop
  | ok {a : α} {b : β} (h : R a b) : Concur R (.ok a) (.ok b)
  | error (e : ε) (e' : ε') : Concur R (.error e) (.error e')

namespace Concur

variable {ε ε' α' β' : Type} {R : α → β → Prop} {S : α' → β' → Prop}

theorem refl (x : Except ε α) : Concur Eq x x := by
  cases x with
  | ok a => exact .ok rfl
  | error e => exact .error e e

theorem bind {x : Except ε α} {y : Except ε' β} {f : α → Except ε α'} {g : β → Except ε' β'}
    (hx : Concur R x y) (hf : ∀ a b, R a b → Concur S (f a) (g b)) :
    Concur S (x >>= f) (y >>= g) := by
  cases hx with
  | ok h => exact hf _ _ h
  | error e e' => exact .error e e'

/-- Computations that come to the same result are gone on from alike. -/
theorem bind_eq {x : Except ε α} {y : Except ε' α} {f : α → Except ε α'} {g : α → Except ε' β'}
    (hx : Concur Eq x y) (hf : ∀ a, x = .ok a → Concur S (f a) (g a)) :
    Concur S (x >>= f) (y >>= g) := by
  cases hx with
  | @ok a b hab =>
    cases hab
    exact hf a rfl
  | error e e' => exact .error e e'

theorem bind_refl {x : Except ε α} {f : α → Except ε α'} {g : α → Except ε β'}
    (hf : ∀ a, Concur S (f a) (g a)) : Concur S (x >>= f) (x >>= g) :=
  bind_eq (refl x) fun a _ => hf a

/-- Computations concur if one succeeds when the other does. -/
theorem of_iff {x : Except ε α} {y : Except ε' β}
    (hiff : (∃ a, x = .ok a) ↔ ∃ b, y = .ok b) (hR : ∀ a b, x = .ok a → y = .ok b → R a b) :
    Concur R x y := by
  cases x with
  | ok a =>
    obtain ⟨b, rfl⟩ := hiff.mp ⟨a, rfl⟩
    exact .ok (hR a b rfl rfl)
  | error e =>
    cases y with
    | ok b =>
      obtain ⟨a, ha⟩ := hiff.mpr ⟨b, rfl⟩
      cases ha
    | error e' => exact .error e e'

theorem exists_iff {P : α → Prop} {Q : β → Prop} {x : Except ε α} {y : Except ε' β}
    (h : Concur R x y) (hiff : ∀ a b, R a b → (P a ↔ Q b)) :
    (∃ a, x = .ok a ∧ P a) ↔ ∃ b, y = .ok b ∧ Q b := by
  cases h with
  | ok hab => simp [hiff _ _ hab]
  | error e e' => simp

theorem isOk_eq {x : Except ε α} {y : Except ε' β} (h : Concur R x y) : x.isOk = y.isOk := by
  cases h with
  | ok => rfl
  | error => rfl

end Concur

/-! ## Navigators -/

namespace Description.Reordered

variable {g g' : Description} (h : g.Reordered g')

include h

theorem portsOf_perm (key : String) : (Navigator.portsOf g key).Perm (Navigator.portsOf g' key) :=
  perm_distinct ((h.links_perm.filter _).map _)

/-- Navigators that go by errors choose the same targets. -/
theorem ofErrors_choose (key : String) (s : Snapshot) :
    ((Navigator.ofErrors g key).choose s).targets.Perm
      ((Navigator.ofErrors g' key).choose s).targets := by
  unfold Navigator.ofErrors Navigator.choose
  rw [Route.targets_ofTargets, Route.targets_ofTargets]
  split
  · exact h.edgeTargets_perm _
  · exact h.edgeTargets_perm _

omit h in
/-- The targets of a port are those of its edges, if edges leave it. -/
theorem ofPorts_targets (g : Description) (key field : String) (s : Snapshot) :
    ((Navigator.ofPorts g key field).choose s).targets =
      match (s.channel? (channelName key)).bind fun v => Navigator.selectedPort? v field with
      | some port => if port ∈ Navigator.portsOf g key then g.edgeTargets port else []
      | none => [] := by
  unfold Navigator.ofPorts Navigator.choose
  dsimp only
  cases (s.channel? (channelName key)).bind fun v => Navigator.selectedPort? v field with
  | none => rfl
  | some port =>
    rw [Option.bind_some, List.find?_map]
    cases hfind : (Navigator.portsOf g key).find?
        ((fun p => p.1 == port) ∘ fun port => (port, g.edgeTargets port)) with
    | some found =>
      have hfound : found = port := by simpa using List.find?_some hfind
      have hmem := List.mem_of_find?_eq_some hfind
      rw [hfound] at hmem
      rw [hfound]
      show (Route.ofTargets (g.edgeTargets port)).targets =
        if port ∈ Navigator.portsOf g key then g.edgeTargets port else []
      rw [if_pos hmem, Route.targets_ofTargets]
    | none =>
      have hmem : port ∉ Navigator.portsOf g key := by
        intro hm
        simpa using List.find?_eq_none.mp hfind port hm
      exact (if_neg hmem).symm

/-- Navigators that go by ports choose the same targets. -/
theorem ofPorts_choose (key field : String) (s : Snapshot) :
    ((Navigator.ofPorts g key field).choose s).targets.Perm
      ((Navigator.ofPorts g' key field).choose s).targets := by
  rw [ofPorts_targets, ofPorts_targets]
  split
  · rename_i port _
    by_cases hport : port ∈ Navigator.portsOf g key
    · rw [if_pos hport, if_pos ((h.portsOf_perm key).mem_iff.mp hport)]
      exact h.edgeTargets_perm port
    · rw [if_neg hport, if_neg (fun hm => hport ((h.portsOf_perm key).mem_iff.mpr hm))]
  · exact .refl _

end Description.Reordered

/-! ## Plans -/

/-- Plans that differ in the order of the targets of their navigators only. -/
structure NodePlan.Mirrors (p p' : NodePlan σ) : Prop where
  run_eq : p'.run = p.run
  channel_eq : p'.channel = p.channel
  navigators : Option.Rel (fun n n' => ∀ s, (n.choose s).targets.Perm (n'.choose s).targets)
    p.navigator p'.navigator

theorem NodePlan.Mirrors.refl (p : NodePlan σ) : p.Mirrors p := by
  refine ⟨rfl, rfl, ?_⟩
  cases p.navigator with
  | none => exact .none
  | some n => exact .some fun _ => .refl _

section Makers

variable {ctx : BuildContext σ} {g' : Description}
  (planOf' : NodeSpec → Except BuildError (NodePlan σ)) (h : ctx.graph.Reordered g')

theorem triggerMaker_mirrors :
    Concur NodePlan.Mirrors (triggerMaker ctx)
      (triggerMaker { ctx with graph := g', planOf := planOf' }) := by
  refine Concur.bind_refl fun names => ?_
  dsimp only
  split
  · exact .error _ _
  · exact .ok (.refl _)

theorem aggregationMaker_mirrors :
    Concur NodePlan.Mirrors (aggregationMaker ctx)
      (aggregationMaker { ctx with graph := g', planOf := planOf' }) := by
  refine Concur.bind_refl fun a => ?_
  dsimp only
  split
  · exact .error _ _
  · exact .ok (.refl _)

include h

theorem branchMaker_mirrors :
    Concur NodePlan.Mirrors (branchMaker ctx)
      (branchMaker { ctx with graph := g', planOf := planOf' }) := by
  refine Concur.bind_refl fun cases => ?_
  dsimp only
  split
  · exact .error _ _
  · exact .ok ⟨rfl, rfl, .some (h.ofPorts_choose _ _)⟩

theorem listQueryMaker_mirrors :
    Concur NodePlan.Mirrors (listQueryMaker ctx)
      (listQueryMaker { ctx with graph := g', planOf := planOf' }) := by
  refine Concur.bind_refl fun q => ?_
  dsimp only
  split
  · exact .error _ _
  · exact .ok ⟨rfl, rfl, .some (h.ofErrors_choose _)⟩

theorem stageMaker_mirrors (stageOf : Services σ → String → Except ProviderError (DocumentStage σ))
    (needsInput : Option String) :
    Concur NodePlan.Mirrors (stageMaker stageOf needsInput ctx)
      (stageMaker stageOf needsInput { ctx with graph := g', planOf := planOf' }) := by
  refine Concur.bind_refl fun provider => ?_
  refine Concur.bind_refl fun stage => ?_
  refine Concur.bind_refl fun setup => ?_
  dsimp only
  split
  · exact .error _ _
  · exact .ok ⟨rfl, rfl, .some (h.ofErrors_choose _)⟩

theorem onlyChild_mirrors :
    Concur Eq (Iteration.onlyChild ctx)
      (Iteration.onlyChild { ctx with graph := g', planOf := planOf' }) := by
  obtain ⟨children, hchildren⟩ : ∃ children, children =
    (ctx.graph.outgoing ctx.node.key .agent).filterMap fun l => ctx.graph.node? l.targetKey :=
    ⟨_, rfl⟩
  obtain ⟨children', hchildren'⟩ : ∃ children', children' =
    (g'.outgoing ctx.node.key .agent).filterMap fun l => g'.node? l.targetKey := ⟨_, rfl⟩
  have hperm : children.Perm children' := by
    rw [hchildren, hchildren']
    simp only [h.node?_eq]
    exact (h.outgoing_perm _ _).filterMap _
  unfold Iteration.onlyChild
  dsimp only
  rw [← hchildren, ← hchildren']
  match children, children' with
  | [], _ =>
    rw [← hperm.nil_eq]
    exact .error _ _
  | [child], _ =>
    rw [← hperm.singleton_eq]
    dsimp only
    split
    · exact .error _ _
    · split
      · exact .ok rfl
      · exact .error _ _
  | _ :: _ :: _, [] => exact absurd hperm.length_eq (by simp)
  | _ :: _ :: _, [_] => exact absurd hperm.length_eq (by simp)
  | _ :: _ :: _, _ :: _ :: _ => exact .error _ _

theorem iterationMaker_mirrors
    (hplan : ∀ n ∈ ctx.graph.nodes, Concur NodePlan.Mirrors (ctx.planOf n) (planOf' n)) :
    Concur NodePlan.Mirrors (iterationMaker ctx)
      (iterationMaker { ctx with graph := g', planOf := planOf' }) := by
  refine Concur.bind_refl fun it => ?_
  dsimp only
  split
  · exact .error _ _
  · refine Concur.bind_eq (onlyChild_mirrors planOf' h) fun child honly => ?_
    refine Concur.bind (hplan child (Iteration.onlyChild_mem honly)) fun plan plan' hplans => ?_
    rw [hplans.run_eq, hplans.channel_eq]
    exact .ok ⟨rfl, rfl, .some (h.ofErrors_choose _)⟩

end Makers

section Standard

variable {ws : Workshop σ} {g g' : Description} (h : g.Reordered g')
  (hstandard : ∀ n ∈ g.nodes, ws.makers.resolve n.typeKey = standardMakers.resolve n.typeKey)
  (hagents : ∀ n ∈ g.nodes, n.kind ≠ .agent)

include h hstandard hagents

/-- The plans of standard nodes that are not agents, however deep they are nested. -/
theorem planAt_mirrors (depth : Nat) (site : List String) {n : NodeSpec} (hn : n ∈ g.nodes) :
    Concur NodePlan.Mirrors (ws.planAt g depth site n) (ws.planAt g' depth site n) := by
  induction depth generalizing site n with
  | zero => exact .error _ _
  | succ depth ih =>
    have hchild : ∀ child ∈ g.nodes, Concur NodePlan.Mirrors
        (ws.planAt g depth (site ++ [n.key]) child) (ws.planAt g' depth (site ++ [n.key]) child) :=
      fun child hmem => ih (site ++ [n.key]) hmem
    unfold Workshop.planAt
    cases hmaker : ws.makers.resolve n.typeKey with
    | error e => exact .error _ _
    | ok maker =>
      rw [hstandard n hn] at hmaker
      show Concur NodePlan.Mirrors (maker ⟨n, g, ws.services, ws.middleware, _, ws.patience, _⟩)
        (maker ⟨n, g', ws.services, ws.middleware, _, ws.patience, _⟩)
      obtain ⟨hkind, -⟩ | hplain := standardMakers_cases hmaker
      · exact absurd hkind (hagents n hn)
      · cases hplain with
        | start => exact .ok (.refl _)
        | trigger => exact triggerMaker_mirrors _
        | branch => exact branchMaker_mirrors _ h
        | listQuery => exact listQueryMaker_mirrors _ h
        | aggregation => exact aggregationMaker_mirrors _
        | iteration => exact iterationMaker_mirrors _ h hchild
        | source => exact stageMaker_mirrors _ h _ _
        | splitter => exact stageMaker_mirrors _ h _ _
        | transformer => exact stageMaker_mirrors _ h _ _

end Standard

end Workgraph
