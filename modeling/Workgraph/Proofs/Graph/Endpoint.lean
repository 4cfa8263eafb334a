import Workgraph.Graph.Description
/-!
# Endpoints and node keys

The key of an endpoint is what stands before its first separator. So a key never contains one, a
text without one is its own key, and a port of such a key leads back to the key.

## Main statements

- `separator_not_mem_nodeKeyOf`, `nodeKeyOf_eq_self_iff`: which texts are keys
- `nodeKeyOf_portOf`, `splitPort_portOf`: the key of a port, and both parts of it
-/

namespace Workgraph

open Text

theorem splitAtFirst?_single_of_not_mem {c : Char} {cs : List Char} (hc : c ∉ cs) :
    splitAtFirst? [c] cs = none := by
  induction cs with
  | nil => simp [splitAtFirst?]
  | cons d rest ih =>
    obtain ⟨hd, hrest⟩ := List.ne_and_not_mem_of_not_mem_cons hc
    simp [splitAtFirst?, List.isPrefixOf, hd, ih hrest]

theorem splitAtFirst?_single_append {c : Char} {before : List Char} (after : List Char)
    (hc : c ∉ before) : splitAtFirst? [c] (before ++ c :: after) = some (before, after) := by
  induction before with
  | nil => simp [splitAtFirst?]
  | cons d rest ih =>
    obtain ⟨hd, hrest⟩ := List.ne_and_not_mem_of_not_mem_cons hc
    simp [splitAtFirst?, List.isPrefixOf, hd, ih hrest]

theorem Text.cut?_of_not_mem {c : Char} {s : String} (h : c ∉ s.toList) : cut? c s = none := by
  rw [cut?, splitAtFirst?_single_of_not_mem h, Option.map_none]

theorem Text.cut?_append {c : Char} {name : String} (rest : String) (h : c ∉ name.toList) :
    cut? c (name ++ c.toString ++ rest) = some (name, rest) := by
  have hchars : (name ++ c.toString ++ rest).toList = name.toList ++ c :: rest.toList := by
    simp [Char.toString]
  rw [cut?, hchars, splitAtFirst?_single_append _ h]
  simp

theorem nodeKeyOf_of_not_mem {e : String} (h : portSeparator ∉ e.toList) : nodeKeyOf e = e := by
  simp [nodeKeyOf, splitPort, cut?, splitAtFirst?_single_of_not_mem h]

theorem nodeKeyOf_of_eq_append {e : String} {before after : List Char}
    (he : e.toList = before ++ portSeparator :: after) (h : portSeparator ∉ before) :
    nodeKeyOf e = String.ofList before := by
  simp [nodeKeyOf, splitPort, cut?, he, splitAtFirst?_single_append after h]

/-- No key contains the separator. -/
theorem separator_not_mem_nodeKeyOf (e : String) : portSeparator ∉ (nodeKeyOf e).toList := by
  by_cases h : portSeparator ∈ e.toList
  · obtain ⟨before, after, he, hb⟩ := List.eq_append_cons_of_mem h
    rw [nodeKeyOf_of_eq_append he hb, String.toList_ofList]
    exact hb
  · rw [nodeKeyOf_of_not_mem h]
    exact h

/-- The texts that are their own keys are those without the separator. -/
theorem nodeKeyOf_eq_self_iff {e : String} : nodeKeyOf e = e ↔ portSeparator ∉ e.toList :=
  ⟨fun h => h ▸ separator_not_mem_nodeKeyOf e, nodeKeyOf_of_not_mem⟩

@[simp] theorem nodeKeyOf_nodeKeyOf (e : String) : nodeKeyOf (nodeKeyOf e) = nodeKeyOf e :=
  nodeKeyOf_of_not_mem (separator_not_mem_nodeKeyOf e)

/-- A port of a key leads back to the key. -/
theorem nodeKeyOf_portOf {key : String} (port : String) (h : nodeKeyOf key = key) :
    nodeKeyOf (portOf key port) = key := by
  have he : (portOf key port).toList = key.toList ++ portSeparator :: port.toList := by
    simp [portOf, portSeparator, Char.toString]
  rw [nodeKeyOf_of_eq_append he (nodeKeyOf_eq_self_iff.mp h), String.ofList_toList]

/-- A port of a key is taken apart into both. -/
theorem splitPort_portOf {key : String} (port : String) (h : nodeKeyOf key = key) :
    splitPort (portOf key port) = (key, some port) := by
  rw [splitPort, portOf, cut?_append port (nodeKeyOf_eq_self_iff.mp h)]

end Workgraph
