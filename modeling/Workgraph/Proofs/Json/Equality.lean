import Workgraph.Proofs.Json.Values
import Workgraph.State.Reducer
/-!
# Equality of values

Values are compared part by part, and floating point numbers as numbers, so that values with zeros
of different signs are equal without being the same. Each value has a canonical form, in which every
floating point zero is positive; values are equal if they have the same canonical form, so equality
is an equivalence and goes through everything that is done with the parts of a value.

## Main definitions

- `Json.canonical`: a value with positive zeros only

## Main statements

- `Json.beq_iff`: values are equal if their canonical forms are the same
- `Json.canonical_mergeFields`, `Reducer.canonical_apply`: merging and writing go through to
  canonical forms
-/

namespace Workgraph

namespace Number

/-- A number with its zero made positive. -/
def canonical : Number → Number
  | int n => .int n
  | float x => .float (if x.isZero then .zero false else x)

theorem same_iff {a b : Number} : a.same b = true ↔ a.canonical = b.canonical := by
  cases a with
  | int n =>
    cases b with
    | int m => simp [same, canonical]
    | float y => simp [same, canonical]
  | float x =>
    cases b with
    | int m => simp [same, canonical]
    | float y =>
      obtain ⟨negx, rankx, hx⟩ := x
      obtain ⟨negy, ranky, hy⟩ := y
      -- The place on the number line tells the rank, and the sign unless the rank is zero.
      have hplace : (Binary64.mk negx rankx hx).key = (Binary64.mk negy ranky hy).key ↔
          rankx = ranky ∧ (rankx = 0 ∨ negx = negy) := by
        unfold Binary64.key
        cases negx <;> cases negy <;> simp <;> omega
      simp only [same, Binary64.same, beq_iff_eq, hplace, canonical, Binary64.isZero, float.injEq]
      by_cases hzero : rankx = 0
      · subst hzero
        by_cases hzero' : ranky = 0
        · simp [hzero']
        · simp [hzero', Ne.symm hzero', Binary64.zero]
      · by_cases hzero' : ranky = 0
        · simp [hzero, hzero', Binary64.zero]
        · simp [hzero, hzero', and_comm]

end Number

namespace Json

mutual

/-- A value with all its floating point zeros made positive. -/
def canonical : Json → Json
  | null => null
  | bool b => bool b
  | num n => num n.canonical
  | str s => str s
  | arr items => arr (canonicalItems items)
  | obj fields => obj (canonicalFields fields)

def canonicalItems : List Json → List Json
  | [] => []
  | v :: rest => canonical v :: canonicalItems rest

def canonicalFields : List (String × Json) → List (String × Json)
  | [] => []
  | (k, v) :: rest => (k, canonical v) :: canonicalFields rest

end

theorem canonicalItems_eq_map (items : List Json) : canonicalItems items = items.map canonical := by
  induction items with
  | nil => rfl
  | cons v rest ih => rw [canonicalItems, ih, List.map_cons]

theorem canonicalFields_eq_mapValues (fields : Table Json) :
    canonicalFields fields = fields.mapValues canonical := by
  induction fields with
  | nil => rfl
  | cons e rest ih =>
    obtain ⟨k, v⟩ := e
    rw [canonicalFields, ih]
    rfl

/-- Values are equal if their canonical forms are the same. -/
theorem same_iff {v w : Json} : v.same w = true ↔ v.canonical = w.canonical := by
  induction v generalizing w with
  | null => cases w <;> simp [same, canonical]
  | bool b => cases w <;> simp [same, canonical]
  | num n => cases w <;> simp [same, canonical, Number.same_iff]
  | str s => cases w <;> simp [same, canonical]
  | arr items ih =>
    cases w with
    | arr items' =>
      have hitems : sameItems items items' = true ↔
          canonicalItems items = canonicalItems items' := by
        induction items generalizing items' with
        | nil => cases items' <;> simp [sameItems, canonicalItems]
        | cons v rest ihr =>
          obtain ⟨hv, hrest⟩ := List.forall_mem_cons.mp ih
          cases items' with
          | nil => simp [sameItems, canonicalItems]
          | cons v' rest' => simp [sameItems, canonicalItems, hv, ihr hrest]
      simp [same, canonical, hitems]
    | _ => simp [same, canonical]
  | obj fields ih =>
    cases w with
    | obj fields' =>
      have hfields : sameFields fields fields' = true ↔
          canonicalFields fields = canonicalFields fields' := by
        induction fields generalizing fields' with
        | nil => cases fields' <;> simp [sameFields, canonicalFields]
        | cons e rest ihr =>
          obtain ⟨he, hrest⟩ := List.forall_mem_cons.mp ih
          cases fields' with
          | nil => simp [sameFields, canonicalFields]
          | cons e' rest' => simp [sameFields, canonicalFields, he, ihr hrest]
      simp [same, canonical, hfields]
    | _ => simp [same, canonical]

theorem beq_iff {v w : Json} : (v == w) = true ↔ v.canonical = w.canonical := same_iff

instance : EquivBEq Json where
  rfl := beq_iff.mpr rfl
  symm h := beq_iff.mpr (beq_iff.mp h).symm
  trans h h' := beq_iff.mpr ((beq_iff.mp h).trans (beq_iff.mp h'))

theorem isNull_canonical (v : Json) : v.canonical.isNull = v.isNull := by
  cases v <;> rfl

end Json

/-- The fields of equal values are equal. -/
theorem Json.field?_canonical (v : Json) (key : String) :
    v.canonical.field? key = (v.field? key).map canonical := by
  cases v with
  | obj fields =>
    rw [canonical, canonicalFields_eq_mapValues]
    exact Table.get?_mapValues canonical fields key
  | _ => rfl

theorem Reducer.canonical_mergeFields (v w : Json) :
    (mergeFields v w).canonical = mergeFields v.canonical w.canonical := by
  cases v with
  | obj base =>
    cases w with
    | obj patch =>
      simp only [mergeFields, Json.canonical, Json.canonicalFields_eq_mapValues,
        Table.mapValues_merge]
    | _ => rfl
  | _ => cases w <;> rfl

/-- Writing goes through to canonical forms. -/
theorem Reducer.canonical_apply (r : Reducer) (current written : Json) :
    (r.apply current written).canonical = r.apply current.canonical written.canonical := by
  unfold apply
  rw [Json.isNull_canonical]
  cases r with
  | overwrite => split <;> rfl
  | shallowMerge =>
    split
    · rfl
    · exact canonical_mergeFields current written

end Workgraph
