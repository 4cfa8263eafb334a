import Workgraph.State.Store
/-!
# Whole stores

A store in which every declared channel has a value. Going back to the state of such a store gives
back the store itself, since no channel has to be given its first value.

## Main definitions

- `Store.Whole`: every declared channel has a value

## Main statements

- `Store.restore_whole`: going back to the state of a whole store
- `Store.whole_put`: a write leaves a whole store behind
-/

namespace Workgraph

namespace Table

variable {α : Type}

theorem contains_eq_isSome (t : Table α) (key : String) :
    t.contains key = (t.get? key).isSome := by
  unfold contains get?
  rw [Option.isSome_map, List.isSome_find?]

/-- Writing an entry takes none away. -/
theorem contains_insert {t : Table α} {key other : String} (value : α) :
    (t.insert key value).contains other = (other == key || t.contains other) := by
  rw [contains_eq_isSome, contains_eq_isSome]
  by_cases h : other = key
  · subst h
    simp
  · rw [get?_insert_of_ne value h]
    simp [h]

end Table

namespace Store

/-- Every declared channel has a value. -/
def Whole (s : Store) : Prop := ∀ c ∈ s.schema, s.state.channels.contains c.name = true

theorem Whole.exists_channel? {s : Store} {name : String} {c : Channel} (h : s.Whole)
    (hc : s.schema.get? name = some c) : ∃ v, s.state.channel? name = some v := by
  have hvalue := h c (List.mem_of_find?_eq_some hc)
  have hname : c.name = name := by simpa using List.find?_some hc
  rw [hname, Table.contains_eq_isSome] at hvalue
  exact Option.isSome_iff_exists.mp hvalue

/-- Where every declared channel has a value, none is given its first one. -/
theorem fillDefaults_of_contains {schema : Schema} {channels : Table Json}
    (h : ∀ c ∈ schema, channels.contains c.name = true) :
    fillDefaults schema channels = channels := by
  unfold fillDefaults
  induction schema with
  | nil => rfl
  | cons c rest ih =>
    rw [List.foldl_cons, if_pos (h c List.mem_cons_self)]
    exact ih fun c' hc => h c' (List.mem_cons_of_mem _ hc)

theorem contains_fillDefaults {schema : Schema} {channels : Table Json} {name : String}
    (h : channels.contains name = true ∨ ∃ c ∈ schema, c.name = name) :
    (fillDefaults schema channels).contains name = true := by
  unfold fillDefaults
  induction schema generalizing channels with
  | nil => simpa using h
  | cons c rest ih =>
    rw [List.foldl_cons]
    apply ih
    by_cases hc : channels.contains c.name = true
    · rw [if_pos hc]
      obtain h | ⟨c', hc', rfl⟩ := h
      · exact .inl h
      · obtain rfl | hc' := List.mem_cons.mp hc'
        · exact .inl hc
        · exact .inr ⟨c', hc', rfl⟩
    · rw [if_neg hc, Table.contains_insert]
      obtain h | ⟨c', hc', rfl⟩ := h
      · exact .inl (by rw [h, Bool.or_true])
      · obtain rfl | hc' := List.mem_cons.mp hc'
        · exact .inl (by simp)
        · exact .inr ⟨c', hc', rfl⟩

/-- A store that has been completed is whole. -/
theorem ofState_whole (schema : Schema) (state : Snapshot) : (ofState schema state).Whole :=
  fun c hc => contains_fillDefaults (.inr ⟨c, hc, rfl⟩)

/-- Going back to the state of a whole store gives back the store. -/
theorem restore_whole {s whole : Store} (hs : s.schema = whole.schema) (h : whole.Whole) :
    s.restore whole.state = whole := by
  unfold restore ofState
  rw [hs, fillDefaults_of_contains h]

/-- A write leaves a whole store behind. -/
theorem whole_put {s : Store} (h : s.Whole) (name : String) (value : Json) :
    ({ s with state := put s.state name value } : Store).Whole := by
  intro c hc
  show (s.state.channels.insert name value).contains c.name = true
  rw [Table.contains_insert, h c hc, Bool.or_true]

end Store

end Workgraph
