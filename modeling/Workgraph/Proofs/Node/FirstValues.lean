import Workgraph.Node.FirstSet
import Workgraph.Proofs.Node.Made
import Workgraph.Proofs.State.Tables
/-!
# What is found first

A node that looks for first values writes one for its own selectors, if it has any, and one for each
of its groups, under the name of the group. The names of the groups are told apart when the node is
made, so no group hides another one. But a group may have the name of the field for the node's own
selectors, and then it hides what these have found.

## Main definitions

- `FirstValue`: the first value other than null that selectors lead to
- `Aggregation.Writes`: what is written under a key

## Main statements

- `firstSet_eq_iff`: the value that is found is the first one
- `Aggregation.flaw?_eq_none_iff`: which configurations are accepted
- `aggregation_writes`: a node writes what is found, and nothing else
-/

namespace Workgraph

variable {σ : Type}

/-! ## Selectors -/

/-- The first value other than null that selectors lead to, or null if they all lead to nothing or
to null. -/
inductive FirstValue (s : Snapshot) : List String → Json → Prop
  | found {selector : String} {rest : List String} {v : Json}
      (hv : s.resolve? selector = some v) (hset : v ≠ .null) : FirstValue s (selector :: rest) v
  | unset {selector : String} {rest : List String} {v : Json}
      (hunset : ∀ u, s.resolve? selector = some u → u = .null) (hrest : FirstValue s rest v) :
      FirstValue s (selector :: rest) v
  | missing : FirstValue s [] .null

theorem Json.isNull_iff {v : Json} : v.isNull = true ↔ v = .null := by
  cases v <;> simp [isNull]

section Selectors

variable {s : Snapshot} {selectors rest : List String} {selector : String} {v : Json}

theorem firstSet_of_set (hv : s.resolve? selector = some v) (hset : v ≠ .null) :
    firstSet s (selector :: rest) = v := by
  have hset : v.isNull = false := by rwa [← Bool.not_eq_true, Json.isNull_iff]
  simp [firstSet, hv, hset]

theorem firstSet_of_unset (hunset : ∀ u, s.resolve? selector = some u → u = .null) :
    firstSet s (selector :: rest) = firstSet s rest := by
  unfold firstSet
  cases hv : s.resolve? selector with
  | none => rw [List.filterMap_cons_none hv]
  | some u =>
    have hnull : u = .null := hunset u hv
    rw [List.filterMap_cons_some hv, hnull]
    rfl

variable (s selectors) in
theorem firstValue_firstSet : FirstValue s selectors (firstSet s selectors) := by
  induction selectors with
  | nil => exact .missing
  | cons selector rest ih =>
    by_cases hset : ∃ v, s.resolve? selector = some v ∧ v ≠ .null
    · obtain ⟨v, hv, hset⟩ := hset
      rw [firstSet_of_set hv hset]
      exact .found hv hset
    · have hunset : ∀ u, s.resolve? selector = some u → u = .null := by
        intro u hu
        by_contra hne
        exact hset ⟨u, hu, hne⟩
      rw [firstSet_of_unset hunset]
      exact .unset hunset ih

/-- The value that is found is the first one. -/
theorem firstSet_eq_iff : firstSet s selectors = v ↔ FirstValue s selectors v := by
  constructor
  · rintro rfl
    exact firstValue_firstSet s selectors
  · intro h
    induction h with
    | found hv hset => exact firstSet_of_set hv hset
    | unset hunset _ ih => rw [firstSet_of_unset hunset, ih]
    | missing => rfl

end Selectors

/-! ## Groups -/

/-- A name repeats an earlier one, or one of those seen before. -/
theorem repeatedName?_eq_none_iff {seen names : List String} :
    repeatedName? seen names = none ↔ names.Nodup ∧ ∀ name ∈ names, name ∉ seen := by
  induction names generalizing seen with
  | nil => simp [repeatedName?]
  | cons name rest ih =>
    unfold repeatedName?
    by_cases hseen : name ∈ seen
    · simp [hseen]
    · rw [if_neg (by simpa using hseen), ih, List.nodup_cons]
      simp only [List.mem_cons, forall_eq_or_imp, not_or]
      constructor
      · rintro ⟨hrest, hnew⟩
        exact ⟨⟨fun hmem => (hnew name hmem).1 rfl, hrest⟩, hseen, fun other h => (hnew other h).2⟩
      · rintro ⟨⟨hfirst, hrest⟩, -, hnew⟩
        exact ⟨hrest, fun other h => ⟨fun heq => hfirst (heq ▸ h), hnew other h⟩⟩

namespace Aggregation

variable {a : Aggregation} {s : Snapshot} {key : String} {v : Json}

/-- A configuration is accepted if it has selectors or groups, and its groups have names, all of
them different. -/
theorem flaw?_eq_none_iff : a.flaw? = none ↔ (a.selectors ≠ [] ∨ a.groups ≠ []) ∧
    (∀ g ∈ a.groups, Text.isBlankText g.name = false) ∧ (a.groups.map (·.name)).Nodup := by
  unfold flaw?
  by_cases hempty : a.selectors = [] ∧ a.groups = []
  · simp [hempty.1, hempty.2]
  · rw [if_neg (by simpa using hempty), ← not_and_or]
    cases hblank : a.groups.find? (Text.isBlankText ·.name) with
    | some g =>
      have hg : Text.isBlankText g.name = true := by simpa using List.find?_some hblank
      refine iff_of_false nofun fun h => ?_
      rw [h.2.1 g (List.mem_of_find?_eq_some hblank)] at hg
      cases hg
    | none =>
      have hnames : ∀ g ∈ a.groups, Text.isBlankText g.name = false := by
        simpa using List.find?_eq_none.mp hblank
      simpa [repeatedName?_eq_none_iff, hempty] using fun _ => hnames

/-- What is written under a key: what the node's own selectors have found, unless a group hides it,
or what those of a group have found. -/
inductive Writes (a : Aggregation) (s : Snapshot) : String → Json → Prop
  | plain {v : Json} (hsome : a.selectors ≠ []) (hfree : ∀ g ∈ a.groups, g.name ≠ outputField)
      (hv : FirstValue s a.selectors v) : Writes a s outputField v
  | group {g : SelectorGroup} {v : Json} (hg : g ∈ a.groups) (hv : FirstValue s g.selectors v) :
      Writes a s g.name (.obj [(outputField, v)])

/-- The fields for the groups. -/
def groupResults (a : Aggregation) (s : Snapshot) : List (String × Json) :=
  a.groups.map fun g => (g.name, .obj [(outputField, firstSet s g.selectors)])

theorem get?_groupResults (h : (a.groups.map (·.name)).Nodup) :
    (Table.ofList (a.groupResults s)).get? key = some v ↔
      ∃ g ∈ a.groups, g.name = key ∧ v = .obj [(outputField, firstSet s g.selectors)] := by
  have hkeys : ((a.groupResults s).map (·.1)).Nodup := by
    rw [groupResults, List.map_map]
    exact h
  rw [Table.get?_ofList_of_nodup hkeys, Table.get?_eq_some_iff_of_nodup hkeys, groupResults,
    List.mem_map]
  simp only [Prod.mk.injEq, eq_comm]

theorem get?_groupResults_eq_none_iff (h : (a.groups.map (·.name)).Nodup) :
    (Table.ofList (a.groupResults s)).get? key = none ↔ ∀ g ∈ a.groups, g.name ≠ key := by
  simp only [Option.eq_none_iff_forall_ne_some, ne_eq, get?_groupResults h]
  constructor
  · exact fun hnone g hg hkey => hnone _ ⟨g, hg, hkey, rfl⟩
  · rintro hfree _ ⟨g, hg, hkey, -⟩
    exact hfree g hg hkey

/-- What a group has found hides what the plain selectors have found. -/
theorem get?_results : (Table.ofList (a.results s)).get? key =
    ((Table.ofList (a.groupResults s)).get? key).or
      (if a.selectors = [] then none
        else if key = outputField then some (firstSet s a.selectors) else none) := by
  unfold results groupResults
  rw [Table.get?_ofList_append, Table.get?_ofList_ite]
  simp

/-- What is found under a key is what is written under it. -/
theorem get?_results_eq_some_iff (h : (a.groups.map (·.name)).Nodup) :
    (Table.ofList (a.results s)).get? key = some v ↔ a.Writes s key v := by
  rw [get?_results, Option.or_eq_some_iff]
  constructor
  · rintro (hgroup | ⟨hnone, hplain⟩)
    · obtain ⟨g, hg, rfl, rfl⟩ := (get?_groupResults h).mp hgroup
      exact .group hg (firstValue_firstSet s g.selectors)
    · obtain ⟨hsome, rfl, rfl⟩ : a.selectors ≠ [] ∧ key = outputField ∧
          firstSet s a.selectors = v := by simpa using hplain
      exact .plain hsome ((get?_groupResults_eq_none_iff h).mp hnone)
        (firstValue_firstSet s a.selectors)
  · rintro (⟨hsome, hfree, hv⟩ | ⟨hg, hv⟩)
    · refine .inr ⟨(get?_groupResults_eq_none_iff h).mpr hfree, ?_⟩
      simp [hsome, firstSet_eq_iff.mpr hv]
    · refine .inl ((get?_groupResults h).mpr ⟨_, hg, rfl, ?_⟩)
      rw [firstSet_eq_iff.mpr hv]

end Aggregation

/-- A node that looks for first values writes to its channel, in place of what was there, an object
with the first value of each group under the name of the group, and with that of its own selectors,
if it has any, in the field for the output. Nothing is written besides, and nothing is lost, unless
a group has the name of the field for the output: then it alone is written there. -/
theorem aggregation_writes {ctx : BuildContext σ} {plan : NodePlan σ}
    (h : aggregationMaker ctx = .ok plan) :
    ∃ a : Aggregation, ctx.configuration Aggregation.decoder ⟨[], []⟩ = .ok a ∧
      plan.channel = some (.overwrite (channelName ctx.node.key)) ∧
      ∀ nodeCtx s w, ∃ fields : Table Json,
        plan.run nodeCtx s w = (.ok (.write (.obj fields)), w) ∧ fields.Sorted ∧
          ∀ key v, fields.get? key = some v ↔ a.Writes s key v := by
  obtain ⟨a, ha, hflaw, rfl⟩ := exists_aggregation h
  obtain ⟨-, -, hnames⟩ := Aggregation.flaw?_eq_none_iff.mp hflaw
  refine ⟨a, ha, rfl, fun nodeCtx s w => ?_⟩
  exact ⟨_, rfl, Table.sorted_ofList _, fun key v => Aggregation.get?_results_eq_some_iff hnames⟩

/-- What a node that looks for first values is made from, with selectors of its own and a group. -/
def pickContext (selectors : List String) (group : SelectorGroup) : BuildContext Unit where
  node := ⟨"pick", .workflow, some "variable-aggregator", none, none,
    .obj [
      ("groups", .arr [.obj [("name", .str group.name), ("variables", .texts group.selectors)]]),
      ("variables", .texts selectors)]⟩
  graph := ⟨[], [], none⟩
  services := .none
  middleware := []
  site := ["pick"]
  patience := 0
  planOf := fun n => .error (.invalidConfig n.key "")

/-- A state in which some fields of the input are there, and one of these is null. -/
def pickState : Snapshot :=
  { Snapshot.empty with input := .obj [("a", .null), ("b", .int 1), ("c", .int 2)] }

/-- The first selectors lead to null and to nothing, and those of the group to nothing at all. -/
theorem aggregation_writes_unset :
    ∃ plan, aggregationMaker (pickContext ["input.a", "input.x", "input.b", "input.c"]
        ⟨"group", ["input.x"]⟩) = .ok plan ∧
      ∃ fields : Table Json,
        (plan.run (.detached "pick") pickState (.start ())).1 = .ok (.write (.obj fields)) ∧
        fields.get? "output" = some (.int 1) ∧
        fields.get? "group" = some (.obj [("output", .null)]) := by
  let a : Aggregation := ⟨["input.a", "input.x", "input.b", "input.c"], [⟨"group", ["input.x"]⟩]⟩
  have hmade : aggregationMaker (pickContext a.selectors ⟨"group", ["input.x"]⟩) =
      .ok (.writing (aggregationNode a) (.overwrite (channelName "pick"))) := rfl
  refine ⟨_, hmade, ?_⟩
  obtain ⟨a', ha, -, hruns⟩ := aggregation_writes hmade
  obtain rfl : a = a' := Except.ok.inj ha
  obtain ⟨fields, hrun, -, hfields⟩ := hruns (.detached "pick") pickState (.start ())
  refine ⟨fields, congrArg Prod.fst hrun, (hfields _ _).mpr ?_, (hfields _ _).mpr ?_⟩
  · refine .plain nofun (by simp [a, Aggregation.outputField]) ?_
    exact .unset (by rintro u ⟨⟩; rfl) (.unset nofun (.found rfl nofun))
  · exact .group (g := ⟨"group", ["input.x"]⟩) List.mem_cons_self (.unset nofun .missing)

/-- A group with the name of the field for the output hides what the node's own selectors have
found. -/
theorem group_named_output_hides :
    ∃ plan, aggregationMaker (pickContext ["input.b"] ⟨"output", ["input.c"]⟩) = .ok plan ∧
      FirstValue pickState ["input.b"] (.int 1) ∧
      (plan.run (.detached "pick") pickState (.start ())).1 =
        .ok (.write (.obj [("output", .obj [("output", .int 2)])])) :=
  ⟨_, rfl, .found rfl nofun, rfl⟩

end Workgraph
