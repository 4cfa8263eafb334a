import Mathlib.Data.List.Basic
import Workgraph.Json.Decoder
import Workgraph.Proofs.State.Tables
/-!
# Values and their parts

Induction over the parts of a value, and the properties of values that are inherited by their
parts: which numbers occur in a value, that the keys of its objects increase, and how deep its
brackets are nested.

## Main definitions

- `Json.Numbers`: every number in a value has a property
- `Json.Ordered`: the keys of every object of a value increase, and its numbers have a property
- `Json.HasFields`: a value is an object with given fields, in whatever order
- `Json.depth`: the number of brackets of a value that are open at once

## Main statements

- `Json.induct`: induction over the parts of a value
- `Json.depth_obj_le`: the depth of an object is bounded by that of its fields
-/

namespace Workgraph

namespace Json

/-- Induction over the parts of a value: the items of its arrays and the values of its fields. -/
@[elab_as_elim, induction_eliminator]
theorem induct {motive : Json → Prop} (null : motive .null) (bool : ∀ b, motive (.bool b))
    (num : ∀ n, motive (.num n)) (str : ∀ s, motive (.str s))
    (arr : ∀ items, (∀ v ∈ items, motive v) → motive (.arr items))
    (obj : ∀ fields, (∀ e ∈ fields, motive e.2) → motive (.obj fields)) (v : Json) :
    motive v := by
  refine @Json.rec motive (fun items => ∀ v ∈ items, motive v)
    (fun fields => ∀ e ∈ fields, motive e.2) (fun e => motive e.2)
    null bool num str arr obj ?_ ?_ ?_ ?_ ?_ v
  · exact fun _ h => absurd h List.not_mem_nil
  · exact fun _ _ hv hrest => List.forall_mem_cons.mpr ⟨hv, hrest⟩
  · exact fun _ h => absurd h List.not_mem_nil
  · exact fun _ _ he hrest => List.forall_mem_cons.mpr ⟨he, hrest⟩
  · exact fun _ _ hv => hv

/-- Every number in a value has a property. -/
inductive Numbers (p : Number → Prop) : Json → Prop where
  | null : Numbers p .null
  | bool (b : Bool) : Numbers p (.bool b)
  | num {n : Number} (hn : p n) : Numbers p (.num n)
  | str (s : String) : Numbers p (.str s)
  | arr {items : List Json} (hitems : ∀ v ∈ items, Numbers p v) : Numbers p (.arr items)
  | obj {fields : List (String × Json)} (hfields : ∀ e ∈ fields, Numbers p e.2) :
    Numbers p (.obj fields)

/-- The keys of every object of a value increase, and every number in it has a property. -/
inductive Ordered (p : Number → Prop) : Json → Prop where
  | null : Ordered p .null
  | bool (b : Bool) : Ordered p (.bool b)
  | num {n : Number} (hn : p n) : Ordered p (.num n)
  | str (s : String) : Ordered p (.str s)
  | arr {items : List Json} (hitems : ∀ v ∈ items, Ordered p v) : Ordered p (.arr items)
  | obj {fields : List (String × Json)} (hsorted : Table.Sorted fields)
      (hfields : ∀ e ∈ fields, Ordered p e.2) : Ordered p (.obj fields)

section Ordered

variable {p : Number → Prop}

@[simp] theorem ordered_null : Ordered p .null := .null

@[simp] theorem ordered_bool (b : Bool) : Ordered p (.bool b) := .bool b

@[simp] theorem ordered_str (s : String) : Ordered p (.str s) := .str s

@[simp] theorem ordered_num_iff {n : Number} : Ordered p (.num n) ↔ p n := by
  constructor
  · rintro ⟨⟩
    assumption
  · exact .num

@[simp] theorem ordered_arr_iff {items : List Json} :
    Ordered p (.arr items) ↔ ∀ v ∈ items, Ordered p v := by
  constructor
  · rintro ⟨⟩
    assumption
  · exact .arr

@[simp] theorem ordered_obj_iff {fields : List (String × Json)} :
    Ordered p (.obj fields) ↔ Table.Sorted fields ∧ ∀ e ∈ fields, Ordered p e.2 := by
  constructor
  · rintro ⟨⟩
    constructor <;> assumption
  · rintro ⟨hsorted, hfields⟩
    exact .obj hsorted hfields

end Ordered

namespace Ordered

variable {p q : Number → Prop} {v : Json}

theorem mono (hpq : ∀ n, p n → q n) (h : Ordered p v) : Ordered q v := by
  induction h with
  | null => exact .null
  | bool b => exact .bool b
  | num hn => exact .num (hpq _ hn)
  | str s => exact .str s
  | arr _ ih => exact .arr ih
  | obj hsorted _ ih => exact .obj hsorted ih

theorem numbers (h : Ordered p v) : v.Numbers p := by
  induction h with
  | null => exact .null
  | bool b => exact .bool b
  | num hn => exact .num hn
  | str s => exact .str s
  | arr _ ih => exact .arr ih
  | obj _ _ ih => exact .obj ih

theorem nat {n : Nat} (hn : p (.int n)) : Ordered p (.nat n) := .num hn

theorem arr_map {α : Type} {as : List α} {f : α → Json} (h : ∀ a ∈ as, Ordered p (f a)) :
    Ordered p (.arr (as.map f)) :=
  .arr (List.forall_mem_map.mpr h)

theorem texts (p : Number → Prop) (ss : List String) : Ordered p (.texts ss) :=
  arr_map fun s _ => .str s

theorem text? (p : Number → Prop) (s : Option String) : Ordered p (.text? s) := by
  cases s with
  | none => exact .null
  | some s => exact .str s

/-- An object is ordered whatever the order in which its fields are given. -/
theorem object {fields : List (String × Json)} (h : ∀ e ∈ fields, Ordered p e.2) :
    Ordered p (.object fields) :=
  .obj (Table.sorted_ofList fields) fun e he => h e (Table.mem_of_mem_ofList he)

end Ordered

/-- An array whose items are written for the elements of a list. -/
theorem Numbers.arr_forall₂ {α : Type} {p : Number → Prop} {as : List α} {items : List Json}
    (h : List.Forall₂ (fun _ v => Numbers p v) as items) : Numbers p (.arr items) := by
  refine .arr ?_
  induction h with
  | nil => exact fun _ hv => absurd hv List.not_mem_nil
  | cons hv _ ih => exact List.forall_mem_cons.mpr ⟨hv, ih⟩

/-- A value is an object with the given fields, in whatever order. -/
def HasFields (fields : List (String × Json)) (v : Json) : Prop :=
  ∃ fields', fields'.Perm fields ∧ v = .obj fields'

/-- An object made from fields whose names do not repeat has these fields. -/
theorem hasFields_object {fields : List (String × Json)} (h : (fields.map (·.1)).Nodup) :
    HasFields fields (.object fields) :=
  ⟨_, Table.ofList_perm h, rfl⟩

theorem HasFields.numbers {p : Number → Prop} {fields : List (String × Json)} {v : Json}
    (h : HasFields fields v) (hfields : ∀ e ∈ fields, e.2.Numbers p) : v.Numbers p := by
  obtain ⟨fields', hperm, rfl⟩ := h
  exact .obj fun e he => hfields e (hperm.mem_iff.mp he)

mutual

/-- The number of brackets of a value that are open at once. -/
def depth : Json → Nat
  | null => 0
  | bool _ => 0
  | num _ => 0
  | str _ => 0
  | arr items => depthItems items + 1
  | obj fields => depthFields fields + 1

/-- The greatest depth of the items of an array. -/
def depthItems : List Json → Nat
  | [] => 0
  | v :: rest => max (depth v) (depthItems rest)

/-- The greatest depth of the values of fields. -/
def depthFields : List (String × Json) → Nat
  | [] => 0
  | (_, v) :: rest => max (depth v) (depthFields rest)

end

theorem depthItems_le {items : List Json} {n : Nat} :
    depthItems items ≤ n ↔ ∀ v ∈ items, v.depth ≤ n := by
  induction items with
  | nil => simp [depthItems]
  | cons v rest ih => rw [depthItems, Nat.max_le, ih, List.forall_mem_cons]

theorem depthFields_le {fields : List (String × Json)} {n : Nat} :
    depthFields fields ≤ n ↔ ∀ e ∈ fields, e.2.depth ≤ n := by
  induction fields with
  | nil => simp [depthFields]
  | cons e rest ih =>
    obtain ⟨k, v⟩ := e
    rw [depthFields, Nat.max_le, ih, List.forall_mem_cons]

/-- The items of an array are nested less deep than the array. -/
theorem depth_arr_le {items : List Json} {n : Nat} :
    (arr items).depth ≤ n + 1 ↔ ∀ v ∈ items, v.depth ≤ n := by
  rw [depth, Nat.add_le_add_iff_right, depthItems_le]

/-- The fields of an object are nested less deep than the object. -/
theorem depth_obj_le {fields : List (String × Json)} {n : Nat} :
    (obj fields).depth ≤ n + 1 ↔ ∀ e ∈ fields, e.2.depth ≤ n := by
  rw [depth, Nat.add_le_add_iff_right, depthFields_le]

theorem compactItems_eq_map (items : List Json) : compactItems items = items.map compact := by
  induction items with
  | nil => rfl
  | cons v rest ih => rw [compactItems, ih, List.map_cons]

theorem compactFields_eq_map (fields : List (String × Json)) :
    compactFields fields = fields.map fun e => escaped e.1 ++ ":" ++ e.2.compact := by
  induction fields with
  | nil => rfl
  | cons e rest ih => rw [compactFields, ih, List.map_cons]

/-- Nothing stops those who pass over the tree of a value. -/
theorem skip_toTree (v : Json) : v.toTree.skip = none := by
  induction v with
  | null => rfl
  | bool b => rfl
  | num n => rfl
  | str s => rfl
  | arr items ih =>
    have hitems : Tree.skipItems (toTrees items) = none := by
      induction items with
      | nil => rfl
      | cons v rest ihr =>
        obtain ⟨hv, hrest⟩ := List.forall_mem_cons.mp ih
        rw [toTrees, Tree.skipItems, hv, ihr hrest]
        rfl
    rw [toTree, Tree.skip, hitems]
    rfl
  | obj fields ih =>
    have hfields : Tree.skipFields (toFieldTrees fields) = none := by
      induction fields with
      | nil => rfl
      | cons e rest ihr =>
        obtain ⟨he, hrest⟩ := List.forall_mem_cons.mp ih
        rw [toFieldTrees, Tree.skipFields, he, ihr hrest]
        rfl
    rw [toTree, Tree.skip, hfields]
    rfl

end Json

end Workgraph
