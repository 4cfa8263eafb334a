import Workgraph.Node.Entrance
import Workgraph.Proofs.Graph.Distinct
import Workgraph.Proofs.Graph.Endpoint
import Workgraph.Workflow.Compile
/-!
# What compiling establishes

A workflow that comes out of compiling reflects its description: its nodes are the nodes of the
description that run, in order, each under a key of its own, and every edge and every entry leads to
one of them.

## Main definitions

- `Reflects`: how a workflow is related to the description it was compiled from
- `unevenFork`, `unevenWorkflow`: two branches of different lengths that meet in a join

## Main statements

- `compile_reflects`: compiling gives a workflow that reflects the description
-/

namespace Workgraph

variable {σ : Type}

theorem Report.hasErrors_append (a b : Report) :
    Report.hasErrors (a ++ b) = (a.hasErrors || b.hasErrors) := List.any_append

/-- A report without errors has none in any of its parts. -/
theorem Report.append_clean {a b : Report} (h : Report.hasErrors (a ++ b) = false) :
    a.hasErrors = false ∧ b.hasErrors = false := by
  rwa [hasErrors_append, Bool.or_eq_false_iff] at h

/-- Findings that are all errors are absent from a report without errors. -/
theorem Report.eq_nil_of_clean {r : Report} (hr : r.hasErrors = false)
    (he : ∀ i ∈ r, i.isError = true) : r = [] := by
  refine List.eq_nil_iff_forall_not_mem.mpr fun i hi => ?_
  have := List.any_eq_false.mp hr i hi
  exact this (he i hi)

/-! ## The structure of a description -/

/-- Where no key is used a second time, the keys differ from each other. -/
theorem nodup_of_secondUses_eq_nil {seen : List String} {ns : List NodeSpec}
    (hs : seen.Nodup) (h : secondUses seen ns = []) : (seen ++ ns.map (·.key)).Nodup := by
  induction ns generalizing seen with
  | nil => simpa using hs
  | cons n rest ih =>
    rw [secondUses] at h
    by_cases hc : seen.count n.key = 1
    · simp [hc] at h
    · have hn : n.key ∉ seen := fun hm => hc (List.count_eq_one_of_mem hs hm)
      have hs' : (seen ++ [n.key]).Nodup := by
        rw [List.nodup_append]
        refine ⟨hs, by simp, ?_⟩
        intro a ha b hb hab
        rw [List.mem_singleton] at hb
        exact hn (hb ▸ hab ▸ ha)
      have := ih hs' (by simpa [hc] using h)
      simpa using this

/-- What a description has if no structural check finds an error. -/
structure Description.Sound (g : Description) : Prop where
  keys_nodup : (g.nodes.map (·.key)).Nodup
  known : ∀ l ∈ g.links, g.contains l.sourceKey = true ∧ g.contains l.targetKey = true
  touched : ∀ n ∈ g.nodes, n.isAnnotation = false → ∃ l ∈ g.links, l.touches n.key = true

theorem Description.sound_of_clean {g : Description} (h : (checkStructure g).hasErrors = false) :
    g.Sound := by
  unfold checkStructure at h
  obtain ⟨h, -⟩ := Report.append_clean h
  obtain ⟨h, hfree⟩ := Report.append_clean h
  obtain ⟨hdup, hlink⟩ := Report.append_clean h
  have hdup : duplicateKeys g = [] := Report.eq_nil_of_clean hdup (by
    intro i hi
    obtain ⟨n, -, rfl⟩ := List.mem_map.mp hi
    rfl)
  have hlink : danglingLinks g = [] := Report.eq_nil_of_clean hlink (by
    intro i hi
    obtain ⟨l, -, hi⟩ := List.mem_flatMap.mp hi
    obtain ⟨key, -, rfl⟩ := List.mem_map.mp hi
    rfl)
  have hfree : freeNodes g = [] := Report.eq_nil_of_clean hfree (by
    intro i hi
    obtain ⟨n, -, rfl⟩ := List.mem_map.mp hi
    rfl)
  refine ⟨?_, ?_, ?_⟩
  · have := nodup_of_secondUses_eq_nil List.nodup_nil (List.map_eq_nil_iff.mp hdup)
    simpa using this
  · intro l hl
    have hl := List.flatMap_eq_nil_iff.mp hlink l hl
    have hl := List.filter_eq_nil_iff.mp (List.map_eq_nil_iff.mp hl)
    exact ⟨by simpa using hl l.sourceKey (by simp), by simpa using hl l.targetKey (by simp)⟩
  · intro n hn ha
    have := List.filter_eq_nil_iff.mp (List.map_eq_nil_iff.mp hfree) n hn
    simpa [ha] using this

/-- Where all keys differ, a node is found under its key. -/
theorem Description.Sound.node?_eq {g : Description} (h : g.Sound) {n : NodeSpec}
    (hn : n ∈ g.nodes) : g.node? n.key = some n := by
  obtain ⟨before, after, hg⟩ := List.append_of_mem hn
  unfold Description.node?
  rw [List.find?_eq_some_iff_append]
  refine ⟨by simp, before, after, hg, ?_⟩
  intro other ho
  have hnodup := h.keys_nodup
  rw [hg, List.map_append, List.map_cons] at hnodup
  have hne := (List.nodup_append.mp hnodup).2.2 other.key (List.mem_map_of_mem ho) n.key (by simp)
  simpa using hne

/-! ## Drafts -/

namespace Draft

variable {ws : Workshop σ} {g : Description} {site : List String}

variable (ws g site) in
/-- What adding a node can do: nothing, note an error, or add the node that runs. -/
theorem add_cases (d : Draft σ) (n : NodeSpec) :
    (d.contains n.key = true ∧ d.add ws g site n = d) ∨
    (d.contains n.key = false ∧ ∃ i : Issue, i.isError = true ∧ d.add ws g site n = d.note i) ∨
    (d.contains n.key = false ∧ ∃ plan schema, ws.build g site n = .ok plan ∧
      registerChannel d.schema plan.channel = .ok schema ∧
      d.add ws g site n =
        { d with nodes := d.nodes ++ [workNode g n plan], schema := schema }) := by
  unfold add
  by_cases hc : d.contains n.key = true
  · exact .inl ⟨hc, if_pos hc⟩
  · rw [if_neg hc]
    rw [Bool.not_eq_true] at hc
    cases hb : ws.build g site n with
    | error e => exact .inr (.inl ⟨hc, _, rfl, rfl⟩)
    | ok plan =>
      cases hr : registerChannel d.schema plan.channel with
      | error e => exact .inr (.inl ⟨hc, channelIssue n e, rfl, by simp only [hr]⟩)
      | ok schema => exact .inr (.inr ⟨hc, plan, schema, rfl, hr, by simp only [hr]⟩)

/-- Errors are never taken back. -/
theorem clean_of_foldl_clean {ns : List NodeSpec} {d : Draft σ}
    (h : (ns.foldl (fun d n => d.add ws g site n) d).report.hasErrors = false) :
    d.report.hasErrors = false := by
  induction ns generalizing d with
  | nil => exact h
  | cons n rest ih =>
    have h : (d.add ws g site n).report.hasErrors = false := ih h
    obtain ⟨-, ha⟩ | ⟨-, i, -, ha⟩ | ⟨-, plan, schema, -, -, ha⟩ := add_cases ws g site d n
    · rwa [ha] at h
    · rw [ha] at h
      exact (Report.append_clean h).1
    · rwa [ha] at h

/-- Without errors every node is added, in order. -/
theorem foldl_add_keys {ns : List NodeSpec} {d : Draft σ}
    (hn : (d.nodes.map (·.key) ++ ns.map (·.key)).Nodup)
    (h : (ns.foldl (fun d n => d.add ws g site n) d).report.hasErrors = false) :
    (ns.foldl (fun d n => d.add ws g site n) d).nodes.map (·.key) =
      d.nodes.map (·.key) ++ ns.map (·.key) := by
  induction ns generalizing d with
  | nil => simp
  | cons n rest ih =>
    have hclean := clean_of_foldl_clean (d := d.add ws g site n) h
    obtain ⟨hc, -⟩ | ⟨-, i, hi, ha⟩ | ⟨-, plan, schema, -, -, ha⟩ := add_cases ws g site d n
    · -- The key is taken although all keys differ.
      obtain ⟨m, hm, hk⟩ := List.any_eq_true.mp hc
      rw [beq_iff_eq] at hk
      have hmem : n.key ∈ d.nodes.map (·.key) := hk ▸ List.mem_map_of_mem hm
      exact absurd rfl ((List.nodup_append.mp hn).2.2 n.key hmem n.key (by simp))
    · rw [ha] at hclean
      have := (Report.append_clean hclean).2
      simp [Report.hasErrors, hi] at this
    · rw [List.foldl_cons, ih ?_ h]
      · simp [ha, workNode]
      · simpa [ha, workNode] using hn

/-- Every node of a draft comes from a plan. -/
theorem foldl_add_planned {ns : List NodeSpec} {d : Draft σ} {m : WorkNode σ}
    (hm : m ∈ (ns.foldl (fun d n => d.add ws g site n) d).nodes) :
    m ∈ d.nodes ∨ ∃ n ∈ ns, ∃ plan, ws.build g site n = .ok plan ∧ m = workNode g n plan := by
  induction ns generalizing d with
  | nil => exact .inl hm
  | cons n rest ih =>
    obtain hd | ⟨n', hn', plan, hp, he⟩ := ih hm
    · change m ∈ (d.add ws g site n).nodes at hd
      obtain ⟨-, ha⟩ | ⟨-, i, -, ha⟩ | ⟨-, plan, schema, hp, -, ha⟩ := add_cases ws g site d n
      · exact .inl (ha ▸ hd)
      · rw [ha] at hd
        exact .inl hd
      · rw [ha, List.mem_append, List.mem_singleton] at hd
        obtain hd | rfl := hd
        · exact .inl hd
        · exact .inr ⟨n, by simp, plan, hp, rfl⟩
    · exact .inr ⟨n', List.mem_cons_of_mem _ hn', plan, hp, he⟩

end Draft

/-! ## Entries -/

section Entry

variable {g : Description} {nodes : List (WorkNode σ)} {unfit : Bool}

/-- Only nodes that run are begun with. -/
theorem entry_known :
    ∀ key ∈ (resolveEntry g nodes unfit).1, key ∈ nodes.map (·.key) := by
  unfold resolveEntry
  cases g.entry with
  | some entry =>
    dsimp only
    split
    · rename_i hk
      simpa using hk
    · simp
  | none =>
    dsimp only
    split
    · intro key hk
      simp only [startKeys, List.mem_map, List.mem_filter] at hk
      obtain ⟨n, ⟨-, hn⟩, rfl⟩ := hk
      simpa using (Bool.and_eq_true_iff.mp hn).2
    · split
      · simp
      · intro key hk
        simp only [rootKeys, mem_distinct, List.mem_filter] at hk
        exact hk.1

/-- No node is begun with twice. -/
theorem entry_nodup (hg : (g.nodes.map (·.key)).Nodup) :
    (resolveEntry g nodes unfit).1.Nodup := by
  unfold resolveEntry
  cases g.entry with
  | some entry =>
    dsimp only
    split
    · simp
    · simp
  | none =>
    dsimp only
    split
    · exact List.Nodup.sublist (List.filter_sublist.map _) hg
    · split
      · simp
      · exact nodup_distinct _

end Entry

/-! ## Workflows -/

/-- How a workflow is related to the description it was compiled from. -/
structure Reflects (ws : Workshop σ) (g : Description) (site : List String) (w : Workflow σ) :
    Prop where
  sound : g.Sound
  planned : ∀ n ∈ w.nodes, ∃ spec ∈ g.nodes, spec.isExecutable = true ∧
    ∃ plan, ws.build g site spec = .ok plan ∧ n = Draft.workNode g spec plan
  keys_eq : w.keys = (g.nodes.filter (·.isExecutable)).map (·.key)
  edge_known : ∀ l ∈ g.links, l.kind = .edge → l.targetKey ∈ w.keys
  entry_known : ∀ key ∈ w.entry, key ∈ w.keys
  entry_nodup : w.entry.Nodup

theorem compile_reflects {ws : Workshop σ} {g : Description} {site : List String} {w : Workflow σ}
    (h : compile ws g site = .ok w) : Reflects ws g site w := by
  unfold compile entryAndReport at h
  dsimp only at h
  split at h
  · cases h
  · rename_i hclean
    rw [Bool.not_eq_true] at hclean
    injection h with hw
    subst hw
    obtain ⟨hreport, -⟩ := Report.append_clean hclean
    obtain ⟨hdraft, hstray⟩ := Report.append_clean hreport
    have hg : g.Sound := Description.sound_of_clean (Draft.clean_of_foldl_clean hdraft)
    have hkeys : (draftOf ws g site).nodes.map (·.key) =
        (g.nodes.filter (·.isExecutable)).map (·.key) := by
      have hn : ((g.nodes.filter (·.isExecutable)).map (·.key)).Nodup :=
        hg.keys_nodup.sublist (List.filter_sublist.map _)
      simpa [draftOf] using
        Draft.foldl_add_keys (d := ⟨[], [], checkStructure g⟩) (by simpa using hn) hdraft
    refine ⟨hg, ?_, hkeys, ?_, entry_known, entry_nodup hg.keys_nodup⟩
    · intro n hn
      obtain hn | ⟨spec, hs, plan, hp, rfl⟩ := Draft.foldl_add_planned hn
      · simp at hn
      · obtain ⟨hmem, hexec⟩ := List.mem_filter.mp hs
        exact ⟨spec, hmem, hexec, plan, hp, rfl⟩
    · intro l hl hk
      obtain ⟨-, hknown⟩ := hg.known l hl
      obtain ⟨spec, hspec⟩ := Option.isSome_iff_exists.mp hknown
      have hmem := List.mem_of_find?_eq_some hspec
      have hkey : spec.key = l.targetKey := by simpa using List.find?_some hspec
      show l.targetKey ∈ (draftOf ws g site).nodes.map (·.key)
      by_contra hno
      have hexec : spec.isExecutable = false := by
        rw [← Bool.not_eq_true]
        intro he
        rw [hkeys, ← hkey] at hno
        exact hno (List.mem_map_of_mem (List.mem_filter.mpr ⟨hmem, he⟩))
      -- An edge to a node that does not run would have been reported.
      have hnil := Report.eq_nil_of_clean hstray (by
        intro i hi
        obtain ⟨l, -, hi⟩ := List.mem_filterMap.mp hi
        simp only [Option.ite_none_right_eq_some, Option.some.injEq] at hi
        rw [← hi.2]
        rfl)
      have := List.filterMap_eq_nil_iff.mp hnil l (List.mem_filter.mpr ⟨hl, by simp [hk]⟩)
      rw [ite_eq_right_iff] at this
      have hb : ((g.node? l.targetKey).any (!·.isExecutable) &&
          !(draftOf ws g site).nodes.any (·.key == l.targetKey)) = true := by
        rw [hspec]
        simp only [Option.any_some, hexec, Bool.not_false, Bool.true_and, Bool.not_eq_true']
        rw [List.any_eq_false]
        intro m hm he
        rw [beq_iff_eq] at he
        exact hno (he ▸ List.mem_map_of_mem hm)
      cases this hb

/-- A result that is there is the one that is read out of it. -/
theorem eq_ok_of_isOk {ε α : Type} {x : Except ε α} (absent : α) (h : x.isOk = true) :
    x = .ok (match x with | .ok a => a | .error _ => absent) := by
  cases x with
  | ok a => rfl
  | error e => cases h

/-! ## Uneven branches -/

/-- A workshop that makes nodes that publish the input. -/
def inputShop : Workshop Unit := ⟨[(.make .workflow (some "start") none, startMaker)], .none, [], 0⟩

/-- Two branches of different lengths that meet in a join. -/
def unevenFork : Description where
  nodes := ["s", "a", "b", "c", "j"].map fun key =>
    ⟨key, .workflow, some "start", none, none, .null⟩
  links := [.edge "s" "a", .edge "s" "b", .edge "b" "c", .edge "a" "j", .edge "c" "j"]
  entry := some "s"

/-- The workflow of the uneven branches. -/
def unevenWorkflow : Workflow Unit :=
  match compile inputShop unevenFork [] with
  | .ok w => w
  | .error _ => ⟨[], [], []⟩

theorem compile_unevenFork : compile inputShop unevenFork [] = .ok unevenWorkflow :=
  eq_ok_of_isOk ⟨[], [], []⟩ (by decide +kernel)

/-- The nodes of the uneven branches publish the input and follow their plain edges. -/
theorem unevenWorkflow_nodes {n : WorkNode Unit} (hn : n ∈ unevenWorkflow.nodes) :
    n.run = startNode ∧ n.navigator = none := by
  obtain ⟨spec, hspec, -, plan, hplan, rfl⟩ := (compile_reflects compile_unevenFork).planned n hn
  obtain ⟨key, -, rfl⟩ := List.mem_map.mp hspec
  have hmade : inputShop.build unevenFork [] ⟨key, .workflow, some "start", none, none, .null⟩ =
      .ok (.writing startNode (.shallowMerge (channelName key))) := rfl
  cases hmade.symm.trans hplan
  exact ⟨rfl, rfl⟩

end Workgraph
