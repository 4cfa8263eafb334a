import Workgraph.Proofs.Node.Conditions
import Workgraph.Proofs.Workflow.Navigation
import Workgraph.Proofs.Workflow.WellFormed
/-!
# Branches follow their first case

A branch writes down the port of the first case whose conditions hold, and its navigator reads it
back as a text and looks it up among the ports that connections leave. The two agree whatever the
names of the cases are, whatever the channel held before, and whatever else leaves the branch.

## Main definitions

- `Case.Matches`: the conditions of a case hold as it combines them
- `LeavesBy`: the port by which a branch is left, told from its cases
- `branchCases`: the cases of a branch from its configuration

## Main statements

- `leavesBy_iff`: the first case that holds is the one that is found
- `branch_first_case`: a branch is left by the edges of its first case that holds
-/

namespace Workgraph

variable {σ : Type}

/-- The conditions of a case hold as the case combines them. -/
def Case.Matches (c : Case) (scope : Json) : Prop := c.connective.Holds c.conditions scope

theorem Case.holds_iff {c : Case} {scope : Json} : c.holds scope = true ↔ c.Matches scope :=
  evaluateAll_iff

/-- A branch is left by the port of its first case that matches, or by the port for all other
cases. -/
inductive LeavesBy (scope : Json) : List Case → String → Prop
  | first {before after : List Case} {c : Case} (hearlier : ∀ b ∈ before, ¬ b.Matches scope)
      (hc : c.Matches scope) : LeavesBy scope (before ++ c :: after) c.name
  | otherwise {cases : List Case} (hnone : ∀ c ∈ cases, ¬ c.Matches scope) :
      LeavesBy scope cases elseCase

/-- The first case that matches is the one that is found. -/
theorem leavesBy_iff {scope : Json} {cases : List Case} {port : String} :
    LeavesBy scope cases port ↔
      ((cases.find? (·.holds scope)).map (·.name)).getD elseCase = port := by
  constructor
  · rintro (⟨hearlier, hc⟩ | hnone)
    · rename_i before after c
      have hfind : (before ++ c :: after).find? (·.holds scope) = some c := by
        refine List.find?_eq_some_iff_append.mpr ⟨Case.holds_iff.mpr hc, before, after, rfl, ?_⟩
        intro b hb
        rw [Bool.not_eq_true', ← Bool.not_eq_true, Case.holds_iff]
        exact hearlier b hb
      rw [hfind]
      rfl
    · have hfind : cases.find? (·.holds scope) = none :=
        List.find?_eq_none.mpr fun c hc => Case.holds_iff.not.mpr (hnone c hc)
      rw [hfind]
      rfl
  · rintro rfl
    cases hfind : cases.find? (·.holds scope) with
    | some c =>
      obtain ⟨hc, before, after, rfl, hearlier⟩ := List.find?_eq_some_iff_append.mp hfind
      refine .first (fun b hb => ?_) (Case.holds_iff.mp hc)
      rw [← Case.holds_iff, Bool.not_eq_true, ← Bool.not_eq_true']
      exact hearlier b hb
    | none =>
      exact .otherwise fun c hc => Case.holds_iff.not.mp (List.find?_eq_none.mp hfind c hc)

/-- A branch selects the port by which it is left. -/
theorem exists_leavesBy (key : String) (cases : List Case) (scope : Json) :
    ∃ port, LeavesBy scope cases port ∧ selectCase key cases scope = portOf key port := by
  refine ⟨_, leavesBy_iff.mpr rfl, ?_⟩
  unfold selectCase
  cases cases.find? (·.holds scope) <;> rfl

/-- The cases of a branch from its configuration; without any there are none. -/
def branchCases (spec : NodeSpec) : Except DecodeError (List Case) :=
  if spec.entity.isNull then .ok [] else decodeValue branchDecoder spec.entity

theorem name_ne_of_caseFlaw? {c : Case} (h : caseFlaw? c = none) : c.name ≠ elseCase := by
  intro hname
  unfold caseFlaw? at h
  split at h
  · cases h
  · simp [hname] at h

/-- A made branch has the cases of its configuration, and none of them has the name of the port for
all other cases. -/
theorem exists_branchCases {ctx : BuildContext σ} {plan : NodePlan σ}
    (h : branchMaker ctx = .ok plan) :
    ∃ cases, branchCases ctx.node = .ok cases ∧ (∀ c ∈ cases, c.name ≠ elseCase) ∧
      plan = .routing (branchNode ctx.node.key cases) (.shallowMerge (channelName ctx.node.key))
        (.ofPorts ctx.graph ctx.node.key routerField) := by
  obtain ⟨cases, hcases, h⟩ := exists_of_bind_eq_ok h
  dsimp only at h
  have hdecoded : branchCases ctx.node = .ok cases := by
    unfold BuildContext.configuration at hcases
    unfold branchCases
    by_cases hnull : ctx.node.entity.isNull = true
    · rw [if_pos hnull] at hcases ⊢
      exact congrArg _ (Except.ok.inj hcases)
    · rw [if_neg hnull] at hcases ⊢
      exact eq_ok_of_mapError hcases
  cases hflaw : cases.findSome? caseFlaw? with
  | some flaw =>
    rw [hflaw] at h
    cases h
  | none =>
    rw [hflaw] at h
    cases h
    exact ⟨cases, hdecoded, fun c hc =>
      name_ne_of_caseFlaw? (List.findSome?_eq_none_iff.mp hflaw c hc), rfl⟩

/-- A branch is left by the port for all other cases only if no case matches. -/
theorem LeavesBy.eq_elseCase_iff {scope : Json} {cases : List Case} {port : String}
    (h : LeavesBy scope cases port) (hnames : ∀ c ∈ cases, c.name ≠ elseCase) :
    port = elseCase ↔ ∀ c ∈ cases, ¬ c.Matches scope := by
  cases h with
  | @first before after c _ hc =>
    have hmem : c ∈ before ++ c :: after := by simp
    exact iff_of_false (hnames c hmem) fun hnone => hnone c hmem hc
  | otherwise hnone => exact iff_of_true rfl hnone

/-- A branch is left by the edges of its first case that matches in the parameters of the state
before its step, or else by those of the port for all other cases: by these edges and no others,
whatever its channel held before. -/
theorem branch_first_case {ws : Workshop σ} {g : Description} {site : List String}
    {w : Workflow σ} {n : WorkNode σ} (h : compile ws g site = .ok w) (hn : n ∈ w.nodes)
    {spec : NodeSpec} (hspec : g.node? n.key = some spec)
    (hbranch : ws.makers.resolve spec.typeKey = .ok branchMaker) :
    ∃ cases, branchCases spec = .ok cases ∧
      ∀ ctx s world (store : Store), store.schema = w.schema → ∃ out store' port,
        (n.run ctx s world).1 = .ok out ∧ w.writeUpdate n.key out store = .ok store' ∧
        LeavesBy s.parameters cases port ∧
        (port = elseCase ↔ ∀ c ∈ cases, ¬ c.Matches s.parameters) ∧
        n.route store'.state = .ofTargets (g.edgeTargets (portOf n.key port)) ∧
        ∀ target, target ∈ (n.route store'.state).targets ↔
          .edge (portOf n.key port) target ∈ g.links := by
  obtain ⟨ctx, plan, hplan, rfl, hkey, rfl, hmade⟩ := compile_madeBy h hn hspec hbranch
  obtain ⟨cases, hcases, hnames, rfl⟩ := exists_branchCases hplan
  rw [hkey] at hmade
  refine ⟨cases, hcases, fun nodeCtx s world store hstore => ?_⟩
  have hreflects := compile_reflects h
  obtain ⟨port, hport, hselect⟩ := exists_leavesBy n.key cases s.parameters
  -- The port is written down as a text, and found again as this text.
  let fields : Table Json := [(routerField, .str (portOf n.key port))]
  have hselected : fields.get? routerField = some (.text? (some (portOf n.key port))) := rfl
  have hupdate : (NodeOutput.write (.obj fields)).update = some (.obj fields) := rfl
  obtain ⟨store', hwritten, v, hv, hfield⟩ := hmade.exists_writeUpdate_text? hreflects hn rfl rfl
    rfl hupdate (List.pairwise_singleton _ _) hselected hstore
  have hroute : n.route store'.state = .ofTargets (ctx.graph.edgeTargets (portOf n.key port)) := by
    rw [n.route_eq hmade.navigator_eq]
    exact Navigator.choose_ofPorts (hreflects.key_bare hn) hv hfield
  refine ⟨_, store', port, ?_, hwritten, hport, hport.eq_elseCase_iff hnames, hroute, ?_⟩
  · rw [hmade.run_eq]
    change Except.ok (NodeOutput.write (.obj [(routerField,
      .str (selectCase n.key cases s.parameters))])) = _
    rw [hselect]
  · intro target
    rw [hroute, Route.targets_ofTargets]
    exact mem_edgeTargets_iff_edge

/-- The configuration of a branch whose cases share a port with a separator in its name. -/
def forkedEntity : Json :=
  .obj [("cases", .arr
    [.obj [("caseId", .str "a/b"), ("conditions", .arr
        [.obj [("comparisonOperator", .str "equal"), ("value", .str "1"),
          ("variableSelector", .str "input.x")]])],
      .obj [("caseId", .str "a/b"), ("logicalOperator", .str "or")],
      .obj [("caseId", .str "c")]])]

def forkedSpec : NodeSpec := ⟨"k", .workflow, some "if-else", none, none, forkedEntity⟩

/-- A branch that connections of several kinds leave, from its ports and from itself. -/
def forkedBranch : Description where
  nodes := forkedSpec :: ["x", "y", "z"].map fun key =>
    ⟨key, .workflow, some "start", none, none, .null⟩
  links := [.edge "k/a/b" "x", ⟨"k/c", "z", .agent⟩, .edge "k/c" "y", .edge "k/else" "x",
    .edge "k" "z", .edge "k/c" "x"]
  entry := some "k"

/-- The cases of the branch: the second one never holds, and the third one always does. -/
def forkedCases : List Case :=
  [⟨"a/b", [⟨"input.x", .equal, .str "1"⟩], .all⟩, ⟨"a/b", [], .any⟩, ⟨"c", [], .all⟩]

theorem branchCases_forkedSpec : branchCases forkedSpec = .ok forkedCases := rfl

/-- A state that tells the cases of the branch apart. -/
def forkedState (x : String) : Snapshot :=
  { Snapshot.empty with input := .obj [("x", .str x)] }

/-- The first case matches by its condition, or no case but the last one does, and the channel holds
something else. The branch is left by all edges from the port of this case. -/
theorem branch_first_case_forked :
    ∃ w n, compile standardShop forkedBranch [] = .ok w ∧ n ∈ w.nodes ∧
      forkedBranch.node? n.key = some forkedSpec ∧
      standardShop.makers.resolve forkedSpec.typeKey = .ok branchMaker ∧
      let store : Store :=
        ⟨w.schema, { Snapshot.empty with channels := [("k_channel", .arr [.nat 1])] }⟩
      ∀ x targets, (x, targets) ∈ [("1", ["x"]), ("2", ["y", "x"])] →
        ∃ out store', (n.run (.detached "k") (forkedState x) (.start ())).1 = .ok out ∧
          w.writeUpdate n.key out store = .ok store' ∧
          n.route store'.state = .next targets := by
  have h := eq_ok_of_isOk (x := compile standardShop forkedBranch []) ⟨[], [], []⟩
    (by decide +kernel)
  have hmem : forkedSpec ∈ forkedBranch.nodes := List.mem_cons_self
  obtain ⟨n, hn, hkey, hspec⟩ := compile_exists_node h hmem rfl
  have hbranch : standardShop.makers.resolve forkedSpec.typeKey = .ok branchMaker := rfl
  refine ⟨_, n, h, hn, hspec, hbranch, ?_⟩
  intro store x targets hx
  obtain ⟨cases, hcases, hleaves⟩ := branch_first_case h hn hspec hbranch
  obtain ⟨out, store', port, hrun, hwritten, hport, -, hroute, -⟩ :=
    hleaves (.detached "k") (forkedState x) (.start ()) store rfl
  cases branchCases_forkedSpec.symm.trans hcases
  refine ⟨out, store', hrun, hwritten, ?_⟩
  -- The port is that of the first case that holds, which is known in both states.
  rw [hroute, hkey, ← leavesBy_iff.mp hport]
  obtain ⟨rfl, rfl⟩ | ⟨rfl, rfl⟩ :
      (x = "1" ∧ targets = ["x"]) ∨ (x = "2" ∧ targets = ["y", "x"]) := by
    simpa using hx
  · decide +kernel
  · decide +kernel

end Workgraph
