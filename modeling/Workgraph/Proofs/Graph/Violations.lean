import Mathlib.Data.List.Forall2
import Mathlib.Data.List.Nodup
import Workgraph.Graph.Structure
import Workgraph.Proofs.Graph.Distinct
import Workgraph.Proofs.State.Tables
/-!
# What the structural checks find

The findings of the structural checks are those that tell of what a description violates: one for
each key that several nodes use, one for each end of a connection that is no node, one for each node
that nothing is connected to, and one for each name that several nodes share. Nothing is reported
twice, and nothing else is reported.

## Main definitions

- `Violation`: what a description can violate, and where
- `Reports`: the finding that tells of a violation
- `Report.Exact`: a report with one finding for each violation of a kind

## Main statements

- `count_secondUses`: a key is noticed once, if several nodes use it
- `get?_groupByName`, `foldl_checkName`: how nodes are grouped by name, and which groups are taken
- `duplicateKeys_exact`, `danglingLinks_exact`, `freeNodes_exact`, `duplicateNames_exact`: what each
  check finds
- `checkStructure_exact`: what they find together
-/

namespace Workgraph

/-- What a description can violate. Connections and nodes are told apart by their places, since one
that stands there twice is a violation twice. -/
inductive Violation where
  | sharedKey (key : String)
  | danglingSource (place : Nat)
  | danglingTarget (place : Nat)
  | freeNode (place : Nat)
  | sharedName (name : String)

/-- The structural check that a violation is for. -/
def Violation.code : Violation → IssueCode
  | sharedKey _ => .duplicateKey
  | danglingSource _ => .danglingConnection
  | danglingTarget _ => .danglingConnection
  | freeNode _ => .freeNodeNotConnected
  | sharedName _ => .duplicateName

/-- What is said of an end of a connection that is no node. -/
def danglingIssue (l : Link) (key : String) : Issue :=
  .error .danglingConnection (some key)
    s!"{l.kind.text} connection {l.source} -> {l.target} references unknown node '{key}'"

/-- What a description violates, and the finding that tells of it. -/
inductive Reports (g : Description) : Violation → Issue → Prop where
  | sharedKey {key : String} (h : 2 ≤ (g.nodes.map (·.key)).count key) :
      Reports g (.sharedKey key)
        (.error .duplicateKey (some key) s!"more than one node uses key '{key}'")
  | danglingSource {place : Nat} {l : Link} (hl : g.links[place]? = some l)
      (h : ∀ n ∈ g.nodes, n.key ≠ l.sourceKey) :
      Reports g (.danglingSource place) (danglingIssue l l.sourceKey)
  | danglingTarget {place : Nat} {l : Link} (hl : g.links[place]? = some l)
      (h : ∀ n ∈ g.nodes, n.key ≠ l.targetKey) :
      Reports g (.danglingTarget place) (danglingIssue l l.targetKey)
  | freeNode {place : Nat} {n : NodeSpec} (hn : g.nodes[place]? = some n)
      (hnote : n.isAnnotation = false)
      (h : ∀ l ∈ g.links, l.sourceKey ≠ n.key ∧ l.targetKey ≠ n.key) :
      Reports g (.freeNode place)
        (.error .freeNodeNotConnected (some n.key)
          s!"node '{n.key}' is not connected to the graph")
  | sharedName {name : String} {group : List NodeSpec} {first second : NodeSpec}
      {rest : List NodeSpec} (hsplit : group = first :: second :: rest)
      (hgroup : group = g.nodes.filter fun n =>
        !n.isAnnotation && n.displayName?.map normalizeName == some name) :
      Reports g (.sharedName name)
        { code := .duplicateName
          severity := if 2 ≤ group.countP (·.kind == .agent) then .error else .warning
          nodeKey := some first.key
          message := "nodes " ++ String.intercalate ", " (group.map (·.key)) ++
            s!" share the name '{name}'" }

/-- A report with one finding for each violation that given checks are for, and no others. -/
def Report.Exact (r : Report) (g : Description) (codes : List IssueCode) : Prop :=
  ∃ vs : List Violation, vs.Nodup ∧ (∀ v, v ∈ vs ↔ v.code ∈ codes ∧ ∃ i, Reports g v i) ∧
    List.Forall₂ (Reports g) vs r

variable {g : Description} {key name : String}

/-- Reports of different checks are put one behind the other. -/
theorem Report.Exact.append {r r' : Report} {codes codes' : List IssueCode}
    (h : r.Exact g codes) (h' : r'.Exact g codes') (hdisjoint : codes.Disjoint codes') :
    Report.Exact (r ++ r') g (codes ++ codes') := by
  obtain ⟨vs, hnodup, hmem, hreports⟩ := h
  obtain ⟨vs', hnodup', hmem', hreports'⟩ := h'
  refine ⟨vs ++ vs', hnodup.append hnodup' ?_, fun v => ?_, List.rel_append hreports hreports'⟩
  · exact fun v hv hv' => hdisjoint ((hmem v).mp hv).1 ((hmem' v).mp hv').1
  · rw [List.mem_append, List.mem_append, hmem, hmem', or_and_right]

/-- A report whose findings and violations are listed together. -/
theorem Report.exact_of_map {α : Type} {as : List α} {issue : α → Issue}
    (violation : α → Violation) {code : IssueCode} (hnodup : (as.map violation).Nodup)
    (hmem : ∀ v i, v.code = code → Reports g v i → ∃ a ∈ as, violation a = v)
    (hreports : ∀ a ∈ as, (violation a).code = code ∧ Reports g (violation a) (issue a)) :
    Report.Exact (as.map issue) g [code] := by
  refine ⟨as.map violation, hnodup, fun v => ?_, ?_⟩
  · rw [List.mem_map, List.mem_singleton]
    constructor
    · rintro ⟨a, ha, rfl⟩
      exact ⟨(hreports a ha).1, _, (hreports a ha).2⟩
    · rintro ⟨hcode, i, hi⟩
      exact hmem v i hcode hi
  · rw [List.forall₂_map_left_iff, List.forall₂_map_right_iff, List.forall₂_same]
    exact fun a ha => (hreports a ha).2

/-! ## Keys -/

/-- The second use of a key is noticed, and no other one. -/
theorem count_secondUses (seen : List String) (ns : List NodeSpec) (key : String) :
    ((secondUses seen ns).map (·.key)).count key =
      if seen.count key ≤ 1 ∧ 2 ≤ seen.count key + (ns.map (·.key)).count key then 1 else 0 := by
  induction ns generalizing seen with
  | nil =>
    simp only [secondUses, List.map_nil, List.count_nil]
    rw [if_neg (by omega)]
  | cons n rest ih =>
    rw [secondUses, List.map_cons, List.count_cons]
    by_cases hkey : n.key = key
    · subst hkey
      have hseen : (seen ++ [n.key]).count n.key = seen.count n.key + 1 := by simp
      rw [if_pos (beq_self_eq_true _)]
      by_cases hone : seen.count n.key = 1
      · rw [if_pos (beq_iff_eq.mpr hone), List.map_cons, List.count_cons_self, ih, hseen,
          if_neg (by omega), if_pos (by omega)]
      · rw [if_neg (by simpa using hone), ih, hseen]
        split_ifs <;> omega
    · have hseen : (seen ++ [n.key]).count key = seen.count key := by simp [hkey]
      have hfirst : ¬(n.key == key) = true := fun h => hkey (eq_of_beq h)
      rw [if_neg hfirst, Nat.add_zero, ← hseen, ← ih]
      split
      · rw [List.map_cons, List.count_cons_of_ne hkey]
      · rfl

theorem duplicateKeys_exact (g : Description) :
    (duplicateKeys g).Exact g [.duplicateKey] := by
  have hcount : ∀ key, ((secondUses [] g.nodes).map (·.key)).count key =
      if 2 ≤ (g.nodes.map (·.key)).count key then 1 else 0 := by
    intro key
    simpa using count_secondUses [] g.nodes key
  refine Report.exact_of_map (fun n => .sharedKey n.key) ?_ ?_ ?_
  · have hkeys : ((secondUses [] g.nodes).map (·.key)).Nodup := by
      refine List.nodup_iff_count_le_one.mpr fun key => ?_
      rw [hcount]
      split_ifs <;> omega
    have := hkeys.map (f := Violation.sharedKey) fun _ _ h => Violation.sharedKey.inj h
    rwa [List.map_map] at this
  · intro v i hcode hi
    cases hi with
    | sharedKey h =>
      rename_i key
      have hpos : 0 < ((secondUses [] g.nodes).map (·.key)).count key := by
        rw [hcount, if_pos h]
        exact Nat.one_pos
      obtain ⟨n, hn, rfl⟩ := List.mem_map.mp (List.count_pos_iff.mp hpos)
      exact ⟨n, hn, rfl⟩
    | _ => cases hcode
  · intro n hn
    refine ⟨rfl, .sharedKey ?_⟩
    have hpos := List.count_pos_iff.mpr (List.mem_map_of_mem (f := NodeSpec.key) hn)
    rw [hcount] at hpos
    by_contra hfew
    rw [if_neg hfew] at hpos
    exact absurd hpos (Nat.lt_irrefl 0)

/-! ## Connections -/

/-- No node has a key that the description does not contain. -/
theorem not_contains_iff : (!g.contains key) = true ↔ ∀ n ∈ g.nodes, n.key ≠ key := by
  unfold Description.contains Description.node?
  rw [Bool.not_eq_true', Option.isSome_eq_false_iff, Option.isNone_iff_eq_none,
    List.find?_eq_none]
  simp

/-- An end of a connection, with what it violates if it is no node. -/
structure LinkEnd where
  link : Link
  violation : Violation
  key : String

/-- The ends of the connections, the source in front of the target. -/
def linkEnds (g : Description) : List LinkEnd :=
  g.links.zipIdx.flatMap fun e =>
    [⟨e.1, .danglingSource e.2, e.1.sourceKey⟩, ⟨e.1, .danglingTarget e.2, e.1.targetKey⟩]

theorem mem_linkEnds {e : LinkEnd} : e ∈ linkEnds g ↔ ∃ l place, g.links[place]? = some l ∧
    (e = ⟨l, .danglingSource place, l.sourceKey⟩ ∨
      e = ⟨l, .danglingTarget place, l.targetKey⟩) := by
  unfold linkEnds
  rw [List.mem_flatMap]
  constructor
  · rintro ⟨⟨l, place⟩, hl, he⟩
    exact ⟨l, place, List.mem_zipIdx_iff_getElem?.mp hl, by simpa using he⟩
  · rintro ⟨l, place, hl, he⟩
    exact ⟨(l, place), List.mem_zipIdx_iff_getElem?.mpr hl, by simpa using he⟩

theorem nodup_linkEnds (g : Description) : ((linkEnds g).map (·.violation)).Nodup := by
  have hplaces : (linkEnds g).map (·.violation) =
      (List.range g.links.length).flatMap fun place =>
        [.danglingSource place, .danglingTarget place] := by
    unfold linkEnds
    rw [List.map_flatMap, List.range_eq_range', ← List.zipIdx_map_snd, List.flatMap_map]
    rfl
  rw [hplaces, List.nodup_flatMap]
  refine ⟨fun place _ => by simp, List.nodup_range.imp fun hne => ?_⟩
  simp [Function.onFun, Ne.symm hne]

theorem danglingLinks_eq (g : Description) : danglingLinks g =
    ((linkEnds g).filter fun e => !g.contains e.key).map fun e => danglingIssue e.link e.key := by
  have hlinks : g.links = g.links.zipIdx.map (·.1) := (List.zipIdx_map_fst 0 g.links).symm
  unfold danglingLinks linkEnds
  conv_lhs => rw [hlinks]
  rw [List.flatMap_map, List.filter_flatMap, List.map_flatMap]
  congr 1
  funext e
  simp only [List.filter_cons, List.filter_nil]
  split_ifs <;> rfl

theorem danglingLinks_exact (g : Description) :
    (danglingLinks g).Exact g [.danglingConnection] := by
  rw [danglingLinks_eq]
  refine Report.exact_of_map LinkEnd.violation ?_ ?_ ?_
  · exact (nodup_linkEnds g).sublist (List.filter_sublist.map _)
  · intro v i hcode hi
    cases hi with
    | danglingSource hl h =>
      exact ⟨_, List.mem_filter.mpr
        ⟨mem_linkEnds.mpr ⟨_, _, hl, .inl rfl⟩, not_contains_iff.mpr h⟩, rfl⟩
    | danglingTarget hl h =>
      exact ⟨_, List.mem_filter.mpr
        ⟨mem_linkEnds.mpr ⟨_, _, hl, .inr rfl⟩, not_contains_iff.mpr h⟩, rfl⟩
    | _ => cases hcode
  · intro e he
    obtain ⟨he, hunknown⟩ := List.mem_filter.mp he
    obtain ⟨l, place, hl, rfl | rfl⟩ := mem_linkEnds.mp he
    · exact ⟨rfl, .danglingSource hl (not_contains_iff.mp hunknown)⟩
    · exact ⟨rfl, .danglingTarget hl (not_contains_iff.mp hunknown)⟩

/-! ## Nodes -/

/-- Whether a node is no note, and at the end of no connection. -/
def standsFree (g : Description) (n : NodeSpec) : Bool :=
  !n.isAnnotation && !g.links.any (·.touches n.key)

theorem standsFree_iff {n : NodeSpec} : standsFree g n = true ↔
    n.isAnnotation = false ∧ ∀ l ∈ g.links, l.sourceKey ≠ n.key ∧ l.targetKey ≠ n.key := by
  simp [standsFree, Link.touches]

theorem freeNodes_exact (g : Description) : (freeNodes g).Exact g [.freeNodeNotConnected] := by
  have hplaces : freeNodes g = ((g.nodes.zipIdx.filter fun e => standsFree g e.1).map fun e =>
      .error .freeNodeNotConnected (some e.1.key)
        s!"node '{e.1.key}' is not connected to the graph") := by
    have hnodes : g.nodes = g.nodes.zipIdx.map (·.1) := (List.zipIdx_map_fst 0 g.nodes).symm
    unfold freeNodes
    conv_lhs => rw [hnodes]
    rw [List.filter_map, List.map_map]
    rfl
  rw [hplaces]
  refine Report.exact_of_map (fun e => .freeNode e.2) ?_ ?_ ?_
  · have hnodup : (g.nodes.zipIdx.map fun e => Violation.freeNode e.2).Nodup := by
      have := (List.nodup_range (n := g.nodes.length)).map (f := Violation.freeNode)
        fun _ _ h => Violation.freeNode.inj h
      rwa [List.range_eq_range', ← List.zipIdx_map_snd, List.map_map] at this
    exact hnodup.sublist (List.filter_sublist.map _)
  · intro v i hcode hi
    cases hi with
    | freeNode hn hnote h =>
      exact ⟨(_, _), List.mem_filter.mpr
        ⟨List.mem_zipIdx_iff_getElem?.mpr hn, standsFree_iff.mpr ⟨hnote, h⟩⟩, rfl⟩
    | _ => cases hcode
  · rintro ⟨n, place⟩ he
    obtain ⟨he, hfree⟩ := List.mem_filter.mp he
    obtain ⟨hnote, h⟩ := standsFree_iff.mp hfree
    exact ⟨rfl, .freeNode (List.mem_zipIdx_iff_getElem?.mp he) hnote h⟩

/-! ## Names -/

/-- The nodes with a given name, notes aside. -/
def namesakes (ns : List NodeSpec) (name : String) : List NodeSpec :=
  ns.filter fun n => !n.isAnnotation && comparedName? n == some name

theorem namesakes_concat (ns : List NodeSpec) (n : NodeSpec) (name : String) :
    namesakes (ns ++ [n]) name = namesakes ns name ++
      if n.isAnnotation = false ∧ comparedName? n = some name then [n] else [] := by
  unfold namesakes
  rw [List.filter_append, List.filter_singleton]
  simp

/-- A node that is no note joins the group of its name. -/
theorem groupByName_concat {ns : List NodeSpec} {n : NodeSpec} (hnote : n.isAnnotation = false)
    (hname : comparedName? n = some name) : groupByName (ns ++ [n]) =
      (groupByName ns).insert name (((groupByName ns).get? name).getD [] ++ [n]) := by
  unfold groupByName
  rw [List.filter_append, List.filter_singleton, hnote, List.foldl_append]
  simp [hname]

/-- Notes and nodes without a name join no group. -/
theorem groupByName_concat_of_not {ns : List NodeSpec} {n : NodeSpec}
    (h : n.isAnnotation = false → comparedName? n = none) :
    groupByName (ns ++ [n]) = groupByName ns := by
  unfold groupByName
  rw [List.filter_append, List.filter_singleton, List.foldl_append]
  cases hnote : n.isAnnotation with
  | true => rfl
  | false => simp [h hnote]

/-- A group holds the nodes of its name. -/
theorem get?_groupByName (ns : List NodeSpec) (name : String) : (groupByName ns).get? name =
    if namesakes ns name = [] then none else some (namesakes ns name) := by
  induction ns using List.reverseRecOn with
  | nil => rfl
  | append_singleton ns n ih =>
    by_cases h : n.isAnnotation = false → comparedName? n = none
    · have hout : ¬(n.isAnnotation = false ∧ comparedName? n = some name) := by
        rintro ⟨hnote, hname⟩
        rw [h hnote] at hname
        cases hname
      rw [groupByName_concat_of_not h, namesakes_concat, if_neg hout, List.append_nil, ih]
    · obtain ⟨hnote, hnamed⟩ := Classical.not_imp.mp h
      obtain ⟨own, hown⟩ := Option.ne_none_iff_exists'.mp hnamed
      rw [groupByName_concat hnote hown, Table.get?_insert, namesakes_concat, hown]
      by_cases heq : name = own
      · subst heq
        have hgroup : ((groupByName ns).get? name).getD [] = namesakes ns name := by
          rw [ih]
          split_ifs with hempty
          · exact hempty.symm
          · rfl
        rw [if_pos rfl, if_pos (And.intro hnote rfl), if_neg (by simp), hgroup]
      · have hother : ¬(n.isAnnotation = false ∧ some own = some name) :=
          fun hand => heq (Option.some.inj hand.2).symm
        rw [if_neg heq, if_neg hother, List.append_nil, ih]

/-- What is reported of the group of a name. -/
def nameIssue? (groups : Table (List NodeSpec)) (name : String) : Option Issue :=
  (groups.get? name).bind fun group =>
    if group.length < 2 then none else some (sharedName name group)

/-- Looking at a node takes the group of its name away, and reports it if it was still there. -/
theorem checkName_of_some (acc : Report × Table (List NodeSpec)) {n : NodeSpec}
    (hname : comparedName? n = some name) :
    (checkName acc n).1 = acc.1 ++ (nameIssue? acc.2 name).toList ∧
      ∀ other, (checkName acc n).2.get? other =
        if other = name then none else acc.2.get? other := by
  cases hgroup : acc.2.get? name with
  | none =>
    have hstep : checkName acc n = acc := by simp [checkName, hname, hgroup]
    rw [hstep]
    refine ⟨by simp [nameIssue?, hgroup], fun other => ?_⟩
    split_ifs with heq
    · rw [heq, hgroup]
    · rfl
  | some group =>
    have hstep : checkName acc n =
        (if group.length < 2 then acc.1 else acc.1 ++ [sharedName name group],
          acc.2.erase name) := by
      simp [checkName, hname, hgroup]
    rw [hstep]
    refine ⟨?_, fun other => ?_⟩
    · unfold nameIssue?
      rw [hgroup, Option.bind_some]
      split_ifs
      · exact (List.append_nil _).symm
      · rfl
    · by_cases heq : other = name
      · rw [if_pos heq, heq, Table.get?_erase_self]
      · rw [if_neg heq, Table.get?_erase_of_ne heq]

/-- Node by node, the group of each name is taken once, where the name appears first. -/
theorem foldl_checkName (groups : Table (List NodeSpec)) (ns : List NodeSpec) :
    (ns.foldl checkName ([], groups)).1 =
        (distinct (ns.filterMap comparedName?)).filterMap (nameIssue? groups) ∧
      ∀ name, (ns.foldl checkName ([], groups)).2.get? name =
        if name ∈ ns.filterMap comparedName? then none else groups.get? name := by
  -- What is left of the groups tells which names have been met, so both are proved together.
  induction ns using List.reverseRecOn with
  | nil => exact ⟨rfl, fun _ => rfl⟩
  | append_singleton ns n ih =>
    obtain ⟨hreport, hleft⟩ := ih
    rw [List.foldl_concat, List.filterMap_append]
    cases hname : comparedName? n with
    | none =>
      have hstep : checkName (ns.foldl checkName ([], groups)) n =
          ns.foldl checkName ([], groups) := by
        unfold checkName
        rw [hname]
      rw [hstep, List.filterMap_cons_none hname, List.filterMap_nil, List.append_nil]
      exact ⟨hreport, hleft⟩
    | some name =>
      obtain ⟨hnext, hleft'⟩ := checkName_of_some (ns.foldl checkName ([], groups)) hname
      rw [List.filterMap_cons_some hname, List.filterMap_nil, distinct_concat]
      constructor
      · have hissue : nameIssue? (ns.foldl checkName ([], groups)).2 name =
            if name ∈ ns.filterMap comparedName? then none else nameIssue? groups name := by
          unfold nameIssue?
          rw [hleft]
          split_ifs <;> rfl
        rw [hnext, hreport, hissue]
        by_cases hseen : name ∈ ns.filterMap comparedName?
        · rw [if_pos hseen, if_pos hseen]
          exact List.append_nil _
        · rw [if_neg hseen, if_neg hseen, List.filterMap_append]
          cases hfirst : nameIssue? groups name with
          | none => simp [hfirst]
          | some issue => simp [hfirst]
      · intro other
        rw [hleft', hleft]
        by_cases heq : other = name <;> simp [heq]

/-- What the walk reports are the names of several nodes. -/
theorem duplicateNames_eq (g : Description) : duplicateNames g =
    ((distinct (g.nodes.filterMap comparedName?)).filter fun name =>
      2 ≤ (namesakes g.nodes name).length).map fun name =>
        sharedName name (namesakes g.nodes name) := by
  have hissue : ∀ name, nameIssue? (groupByName g.nodes) name =
      if 2 ≤ (namesakes g.nodes name).length then
        some (sharedName name (namesakes g.nodes name)) else none := by
    intro name
    unfold nameIssue?
    rw [get?_groupByName]
    by_cases hnone : namesakes g.nodes name = []
    · simp [hnone]
    · rw [if_neg hnone, Option.bind_some]
      split_ifs <;> first | rfl | omega
  unfold duplicateNames
  rw [(foldl_checkName _ _).1, ← List.filterMap_eq_map, List.filterMap_filter]
  congr 1
  funext name
  rw [hissue]
  simp

/-- A name that a node has is among the names that are looked at. -/
theorem mem_names (h : namesakes g.nodes name ≠ []) :
    name ∈ distinct (g.nodes.filterMap comparedName?) := by
  obtain ⟨n, hn⟩ := List.exists_mem_of_ne_nil _ h
  obtain ⟨hmem, hname⟩ := List.mem_filter.mp hn
  rw [Bool.and_eq_true, beq_iff_eq] at hname
  exact mem_distinct.mpr (List.mem_filterMap.mpr ⟨n, hmem, hname.2⟩)

theorem duplicateNames_exact (g : Description) : (duplicateNames g).Exact g [.duplicateName] := by
  rw [duplicateNames_eq]
  refine Report.exact_of_map .sharedName ?_ ?_ ?_
  · refine List.Nodup.map (fun _ _ h => Violation.sharedName.inj h) ?_
    exact (nodup_distinct _).filter _
  · intro v i hcode hi
    cases hi with
    | sharedName hsplit hgroup =>
      have hfound : namesakes g.nodes _ = _ := hgroup.symm.trans hsplit
      refine ⟨_, List.mem_filter.mpr
        ⟨mem_names (by rw [hfound]; exact List.cons_ne_nil _ _), ?_⟩, rfl⟩
      simp [hfound]
    | _ => cases hcode
  · intro name hname
    have hlen : 2 ≤ (namesakes g.nodes name).length :=
      of_decide_eq_true (List.mem_filter.mp hname).2
    obtain ⟨first, second, rest, hsplit⟩ :
        ∃ first second rest, namesakes g.nodes name = first :: second :: rest := by
      match namesakes g.nodes name, hlen with
      | first :: second :: rest, _ => exact ⟨first, second, rest, rfl⟩
    refine ⟨rfl, ?_⟩
    have hissue := Reports.sharedName (g := g) hsplit rfl
    have hhead : ((namesakes g.nodes name).map (·.key)).head? = some first.key := by
      rw [hsplit]
      rfl
    rw [List.countP_eq_length_filter, ← hhead] at hissue
    exact hissue

/-! ## All checks -/

/-- The structural checks find exactly what a description violates: there is one finding for each
violation, which tells of it, and no other finding. -/
theorem checkStructure_exact (g : Description) :
    ∃ vs : List Violation, vs.Nodup ∧ (∀ v, v ∈ vs ↔ ∃ i, Reports g v i) ∧
      List.Forall₂ (Reports g) vs (checkStructure g) := by
  have hexact : (checkStructure g).Exact g
      ([.duplicateKey] ++ [.danglingConnection] ++ [.freeNodeNotConnected] ++ [.duplicateName]) :=
    (((duplicateKeys_exact g).append (danglingLinks_exact g) (by simp)).append
      (freeNodes_exact g) (by simp)).append (duplicateNames_exact g) (by simp)
  obtain ⟨vs, hnodup, hmem, hreports⟩ := hexact
  refine ⟨vs, hnodup, fun v => (hmem v).trans (and_iff_right ?_), hreports⟩
  cases v <;> simp [Violation.code]

end Workgraph
