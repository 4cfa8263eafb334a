import Workgraph.Node.Standard
import Workgraph.Proofs.Workflow.Channels
import Workgraph.Proofs.Workflow.Neighbours
/-!
# Well-formed workflows

Compiling goes through a description in several passes, each of which only notes what it finds. The
outcome is decided at the end, by whether an error is among the findings. So a workflow that comes
out of compiling has none of the faults that a pass can note, and what each of the passes leaves
behind fits together.

## Main definitions

- `findings`: everything that is found while a description is compiled
- `Workflow.WellFormed`: what is known of a workflow that has been compiled
- `loopedStarts`: a description in which a node leads to itself only

## Main statements

- `compile_wellFormed`: compiling fails if and only if an error is found, and otherwise gives a
  well-formed workflow
-/

namespace Workgraph

variable {σ : Type}

/-- Everything that is found while a description is compiled: by the structural checks, in building
the nodes and registering their channels, about edges to nodes that do not run, and about the nodes
to begin with. -/
def findings (ws : Workshop σ) (g : Description) (site : List String) : Report :=
  (entryAndReport g (draftOf ws g site)).2

/-- The nodes that are there to start at, among those that run. -/
def Description.starts (g : Description) : List NodeSpec :=
  g.nodes.filter fun n => n.isExecutable && n.hasSubtype "start"

/-- What is known of a workflow that has been compiled. The nodes to begin with are the declared
one, or else the start nodes, or else those that no connection from another node enters. -/
structure Workflow.WellFormed (g : Description) (w : Workflow σ) : Prop where
  keys_eq : w.keys = (g.nodes.filter (·.isExecutable)).map (·.key)
  keys_nodup : w.keys.Nodup
  keys_bare : ∀ key ∈ w.keys, portSeparator ∉ key.toList
  channels_eq : w.nodes.filterMap (·.channel) = w.schema.names
  channels_nodup : (w.nodes.filterMap (·.channel)).Nodup
  entry_ne_nil : w.entry ≠ []
  entry_nodup : w.entry.Nodup
  entry_known : w.entry ⊆ w.keys
  entry_declared : ∀ entry, g.entry = some entry → w.entry = [entry]
  entry_starts : g.entry = none → g.starts ≠ [] → w.entry = g.starts.map (·.key)
  entry_roots : g.entry = none → g.starts = [] →
    w.entry = w.keys.filter fun key => ∀ l ∈ g.links, l.targetKey = key → l.sourceKey = key
  successors_known : ∀ n ∈ w.nodes, n.successors ⊆ w.keys
  successors_nodup : ∀ n ∈ w.nodes, n.successors.Nodup
  inputs_known : ∀ n ∈ w.nodes, n.inputs ⊆ w.keys
  inputs_nodup : ∀ n ∈ w.nodes, n.inputs.Nodup
  mirrored : ∀ a ∈ w.nodes, ∀ b ∈ w.nodes,
    a.key ∈ b.inputs ↔ a.key ≠ b.key ∧ b.key ∈ a.successors

/-! ## The outcome -/

section Outcome

variable {ws : Workshop σ} {g : Description} {site : List String} {w : Workflow σ}

theorem compile_eq_error_iff {e : CompileError} :
    compile ws g site = .error e ↔
      (findings ws g site).hasErrors = true ∧ e = ⟨findings ws g site⟩ := by
  unfold compile findings
  dsimp only
  split
  · rename_i hbad
    constructor
    · intro h
      exact ⟨hbad, (Except.error.inj h).symm⟩
    · rintro ⟨-, rfl⟩
      rfl
  · rename_i hclean
    exact ⟨nofun, fun h => absurd h.1 hclean⟩

/-- A workflow that comes out of compiling begins with the nodes that the description determines,
and no error is found in determining them. -/
theorem resolveEntry_of_compile (h : compile ws g site = .ok w) :
    resolveEntry g w.nodes false = (w.entry, []) := by
  unfold compile entryAndReport at h
  dsimp only at h
  split at h
  · cases h
  · rename_i hclean
    rw [Bool.not_eq_true] at hclean
    obtain ⟨hreport, hmore⟩ := Report.append_clean hclean
    rw [hreport] at h hmore
    cases h
    have hnil := Report.eq_nil_of_clean hmore (by
      intro i hi
      unfold resolveEntry at hi
      grind [Issue.isError, Issue.error])
    exact Prod.ext rfl hnil

end Outcome

/-! ## The nodes to begin with -/

namespace Reflects

variable {ws : Workshop σ} {g : Description} {site : List String} {w : Workflow σ}

/-- The nodes of a description that have become nodes of the workflow are those that run. -/
theorem any_key_eq (h : Reflects ws g site w) {n : NodeSpec} (hn : n ∈ g.nodes) :
    w.nodes.any (·.key == n.key) = n.isExecutable := by
  have hmem : w.nodes.any (·.key == n.key) = true ↔ n.key ∈ w.keys := by
    simp [Workflow.keys]
  rw [Bool.eq_iff_iff, hmem, h.keys_eq, List.mem_map]
  constructor
  · rintro ⟨m, hm, hkey⟩
    obtain ⟨hm, hexec⟩ := List.mem_filter.mp hm
    have hmn : m = n := List.inj_on_of_nodup_map h.sound.keys_nodup hm hn hkey
    exact hmn ▸ hexec
  · intro hexec
    exact ⟨n, List.mem_filter.mpr ⟨hn, hexec⟩, rfl⟩

theorem startKeys_eq (h : Reflects ws g site w) :
    startKeys g w.nodes = g.starts.map (·.key) := by
  unfold startKeys Description.starts
  congr 1
  refine List.filter_congr fun n hn => ?_
  rw [h.any_key_eq hn, Bool.and_comm]

theorem rootKeys_eq (h : Reflects ws g site w) :
    rootKeys g w.nodes =
      w.keys.filter fun key => ∀ l ∈ g.links, l.targetKey = key → l.sourceKey = key := by
  unfold rootKeys
  refine (distinct_eq_self (h.keys_nodup.filter _)).trans ?_
  refine List.filter_congr fun key _ => ?_
  rw [Bool.eq_iff_iff]
  simp

end Reflects

section Entry

variable {g : Description} {nodes : List (WorkNode σ)} {entry : List String}

theorem entry_of_declared {key : String} (h : resolveEntry g nodes false = (entry, []))
    (hg : g.entry = some key) : entry = [key] := by
  unfold resolveEntry at h
  rw [hg] at h
  dsimp only at h
  split at h
  · exact (Prod.mk.inj h).1.symm
  · cases h

theorem entry_of_starts (h : resolveEntry g nodes false = (entry, [])) (hg : g.entry = none)
    (hs : startKeys g nodes ≠ []) : entry = startKeys g nodes := by
  unfold resolveEntry at h
  rw [hg] at h
  dsimp only at h
  rw [if_pos (by simpa using hs)] at h
  exact (Prod.mk.inj h).1.symm

theorem entry_of_roots (h : resolveEntry g nodes false = (entry, [])) (hg : g.entry = none)
    (hs : startKeys g nodes = []) : rootKeys g nodes ≠ [] ∧ entry = rootKeys g nodes := by
  unfold resolveEntry at h
  rw [hg, hs] at h
  dsimp only at h
  rw [if_neg (by simp)] at h
  split at h
  · cases h
  · rename_i hroots
    exact ⟨by simpa using hroots, (Prod.mk.inj h).1.symm⟩

/-- There is a node to begin with, unless an error is noted. -/
theorem entry_ne_nil (h : resolveEntry g nodes false = (entry, [])) : entry ≠ [] := by
  cases hg : g.entry with
  | some key =>
    rw [entry_of_declared h hg]
    exact List.cons_ne_nil _ _
  | none =>
    by_cases hs : startKeys g nodes = []
    · obtain ⟨hne, rfl⟩ := entry_of_roots h hg hs
      exact hne
    · rw [entry_of_starts h hg hs]
      exact hs

end Entry

/-! ## Well-formedness -/

theorem Reflects.mirrored {ws : Workshop σ} {g : Description} {site : List String}
    {w : Workflow σ} (h : Reflects ws g site w) {a b : WorkNode σ} (ha : a ∈ w.nodes)
    (hb : b ∈ w.nodes) : a.key ∈ b.inputs ↔ a.key ≠ b.key ∧ b.key ∈ a.successors := by
  have hna := h.node?_eq ha
  have hnb := h.node?_eq hb
  constructor
  · intro hin
    refine ⟨?_, ?_⟩
    · rw [h.inputs_eq hb] at hin
      unfold inputsOf at hin
      rw [mem_distinct, List.mem_filter] at hin
      simpa using (Bool.and_eq_true_iff.mp hin.2).1
    · obtain ⟨n, hn, hsucc⟩ := h.leads_of_mem_inputs hnb hin
      cases hna.symm.trans hn
      exact hsucc
  · rintro ⟨hne, hsucc⟩
    exact h.mem_inputs ⟨a, hna, hsucc⟩ hnb hne

theorem wellFormed_of_compile {ws : Workshop σ} {g : Description} {site : List String}
    {w : Workflow σ} (h : compile ws g site = .ok w) : w.WellFormed g := by
  have hr := compile_reflects h
  have hc := compile_ownsChannels h
  have he := resolveEntry_of_compile h
  exact {
    keys_eq := hr.keys_eq
    keys_nodup := hr.keys_nodup
    keys_bare := by
      intro key hkey
      obtain ⟨n, hn, rfl⟩ := List.mem_map.mp hkey
      exact nodeKeyOf_eq_self_iff.mp (hr.key_bare hn)
    channels_eq := hc.names_eq.symm
    channels_nodup := hc.names_eq ▸ hc.names_nodup
    entry_ne_nil := entry_ne_nil he
    entry_nodup := hr.entry_nodup
    entry_known := hr.entry_known
    entry_declared := fun _ hg => entry_of_declared he hg
    entry_starts := by
      intro hg hs
      rw [← hr.startKeys_eq]
      refine entry_of_starts he hg ?_
      rw [hr.startKeys_eq]
      simpa using hs
    entry_roots := by
      intro hg hs
      rw [← hr.rootKeys_eq]
      refine (entry_of_roots he hg ?_).2
      rw [hr.startKeys_eq, hs, List.map_nil]
    successors_known := fun _ hn => hr.successors_known hn
    successors_nodup := by
      intro n hn
      rw [hr.successors_eq hn]
      exact nodup_distinct _
    inputs_known := by
      intro n hn key hkey
      obtain ⟨m, hm, -⟩ := hr.leads_of_mem_inputs (hr.node?_eq hn) hkey
      exact Workflow.mem_keys_of_node? hm
    inputs_nodup := by
      intro n hn
      rw [hr.inputs_eq hn]
      exact nodup_distinct _
    mirrored := fun _ ha _ hb => hr.mirrored ha hb }

/-- Compiling fails if and only if an error is found, and says all that is found. Otherwise it gives
a well-formed workflow. -/
theorem compile_wellFormed (ws : Workshop σ) (g : Description) (site : List String) :
    ((∃ e, compile ws g site = .error e) ↔ ∃ i ∈ findings ws g site, i.isError = true) ∧
    (∀ e, compile ws g site = .error e → e.report = findings ws g site) ∧
    ∀ w, compile ws g site = .ok w → w.WellFormed g := by
  refine ⟨?_, ?_, fun w h => wellFormed_of_compile h⟩
  · have hbad : (findings ws g site).hasErrors = true ↔
        ∃ i ∈ findings ws g site, i.isError = true := List.any_eq_true
    rw [← hbad]
    constructor
    · rintro ⟨e, he⟩
      exact (compile_eq_error_iff.mp he).1
    · intro h
      exact ⟨_, compile_eq_error_iff.mpr ⟨h, rfl⟩⟩
  · intro e he
    obtain ⟨-, rfl⟩ := compile_eq_error_iff.mp he
    rfl

/-- The uneven branches compile to a well-formed workflow; of nothing, it is found that there is
no node to begin with. -/
theorem compile_wellFormed_uneven :
    unevenWorkflow.WellFormed unevenFork ∧
      ∃ e, compile inputShop .empty [] = .error e ∧
        e.report = [.error .noEntryPoint none "no start node could be determined"] := by
  refine ⟨(compile_wellFormed inputShop unevenFork []).2.2 _ compile_unevenFork, ?_⟩
  obtain ⟨hfails, hreport, -⟩ := compile_wellFormed inputShop .empty []
  obtain ⟨e, he⟩ := hfails.mpr ⟨_, List.mem_singleton_self _, rfl⟩
  exact ⟨e, he, hreport e he⟩

/-! ## A node that leads to itself -/

/-- A workshop with the standard makers. -/
def standardShop : Workshop Unit := ⟨standardMakers, .none, [], 0⟩

/-- Two nodes that lead to a third one; the second also leads to itself. -/
def loopedStarts : Description where
  nodes := ["r", "s", "x"].map fun key =>
    ⟨key, .workflow, some "trigger", none, none, .null⟩
  links := [.edge "r" "x", .edge "s" "s", .edge "s" "x"]
  entry := none

/-- A workflow may begin with a node that a connection enters, namely from the node itself: here
only the first node is one that no connection enters. -/
theorem entry_looped : ∃ w, compile standardShop loopedStarts [] = .ok w ∧
    loopedStarts.entry = none ∧ loopedStarts.starts = [] ∧ w.entry = ["r", "s"] ∧
    (w.keys.filter fun key => ∀ l ∈ loopedStarts.links, l.targetKey ≠ key) = ["r"] := by
  have h := eq_ok_of_isOk (x := compile standardShop loopedStarts []) ⟨[], [], []⟩
    (by decide +kernel)
  exact ⟨_, h, rfl, by decide +kernel, by decide +kernel, by decide +kernel⟩

end Workgraph
