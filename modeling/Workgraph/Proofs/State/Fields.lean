import Workgraph.Proofs.State.Tables
import Workgraph.State.Store
/-!
# The fields of a written value

An object that is written to a channel leaves its fields in the channel, whatever the channel held
before: merging puts them over the fields that are there, and a value that is no object is replaced.
The store does not take over a value that is equal to the one it has, but equal values have equal
fields.

## Main statements

- `Json.exists_field?_of_same`: equal values have equal fields
- `Reducer.field?_apply`: the fields of a written object are those of the value after the write
- `Store.exists_apply_text?`: a text among them is found in the store after the write
-/

namespace Workgraph

namespace Json

variable {x y v w : Json} {name : String}

theorem eq_null_of_same (h : null.same y = true) : y = null := by
  cases y with
  | null => rfl
  | _ => cases h

theorem eq_str_of_same {s : String} (h : (str s).same y = true) : y = str s := by
  cases y with
  | str t => rw [eq_of_beq (show (s == t) = true from h)]
  | _ => cases h

/-- A text that may be absent is equal to itself only. -/
theorem eq_text?_of_same {o : Option String} (h : (text? o).same y = true) : y = text? o := by
  cases o with
  | none => exact eq_null_of_same h
  | some s => exact eq_str_of_same h

theorem exists_get?_of_sameFields {fields fields' : List (String × Json)}
    (h : sameFields fields fields' = true) (hx : Table.get? fields name = some x) :
    ∃ y, Table.get? fields' name = some y ∧ x.same y = true := by
  induction fields generalizing fields' with
  | nil => cases hx
  | cons e rest ih =>
    obtain ⟨k, a⟩ := e
    cases fields' with
    | nil => cases h
    | cons e' rest' =>
      obtain ⟨l, b⟩ := e'
      have h : (k = l ∧ a.same b = true) ∧ sameFields rest rest' = true := by
        simpa [sameFields] using h
      obtain ⟨⟨rfl, hab⟩, hrest⟩ := h
      rw [Table.get?_cons] at hx ⊢
      by_cases hk : k = name
      · rw [if_pos hk] at hx ⊢
        cases hx
        exact ⟨b, rfl, hab⟩
      · rw [if_neg hk] at hx ⊢
        exact ih hrest hx

/-- Equal values have equal fields. -/
theorem exists_field?_of_same (h : v.same w = true) (hx : v.field? name = some x) :
    ∃ y, w.field? name = some y ∧ x.same y = true := by
  cases v with
  | obj fields =>
    cases w with
    | obj fields' => exact exists_get?_of_sameFields h hx
    | _ => cases h
  | _ => cases hx

end Json

/-- The fields of a written object are those of the value after the write. -/
theorem Reducer.field?_apply (r : Reducer) (current : Json) {fields : Table Json}
    (hsorted : fields.Sorted) {name : String} {x : Json} (hx : fields.get? name = some x) :
    (r.apply current (.obj fields)).field? name = some x := by
  cases r with
  | overwrite => exact hx
  | shallowMerge =>
    cases current with
    | obj base =>
      change (Table.merge base fields).get? name = some x
      rw [Table.get?_merge, hsorted.ofList_eq, hx, Option.some_or]
    | _ => exact hx

/-- A text in a field of a written object, or null in its place, is found in the store after the
write, unless the channel has the field from the start. -/
theorem Store.exists_apply_text? {s : Store} {c : Channel} {channel : String}
    (hc : s.schema.get? channel = some c) {fields : Table Json} (hsorted : fields.Sorted)
    {name : String} {o : Option String} (hx : fields.get? name = some (.text? o))
    (hdefault : c.default.field? name = none) :
    ∃ next s', s.apply channel (.obj fields) = .ok (next, s') ∧ ∃ v,
      s'.state.channel? channel = some v ∧ v.field? name = some (.text? o) := by
  let current := (s.state.channel? channel).getD c.default
  let next := c.reducer.apply current (.obj fields)
  have hnext : next.field? name = some (.text? o) := c.reducer.field?_apply current hsorted hx
  have happly : s.apply channel (.obj fields) =
      if next == current then .ok (next, s)
      else .ok (next, { s with state := put s.state channel next }) := by
    unfold apply
    rw [hc]
  by_cases hsame : (next == current) = true
  · -- Nothing is stored, and the value that is there has an equal field.
    rw [if_pos hsame] at happly
    obtain ⟨y, hy, hxy⟩ := Json.exists_field?_of_same hsame hnext
    rw [Json.eq_text?_of_same hxy] at hy
    refine ⟨next, s, happly, ?_⟩
    cases hv : s.state.channel? channel with
    | none =>
      have hd : current = c.default := by simp only [current, hv, Option.getD_none]
      rw [hd, hdefault] at hy
      cases hy
    | some v =>
      have hcurrent : current = v := by simp only [current, hv, Option.getD_some]
      exact ⟨v, rfl, hcurrent ▸ hy⟩
  · rw [if_neg hsame] at happly
    exact ⟨next, _, happly, next, Table.get?_insert_self _ _ _, hnext⟩

end Workgraph
