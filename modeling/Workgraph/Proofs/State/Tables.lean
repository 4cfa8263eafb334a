import Mathlib.Data.List.Sort
import Mathlib.Data.String.Basic
import Workgraph.Table
/-!
# Sorted tables

The operations of tables keep the keys in increasing order. A sorted table is determined by its
entries: it is its own table, and two sorted tables in which the same is found under every key are
the same list.

## Main definitions

- `Table.Sorted`: the keys of a table increase

## Main statements

- `Table.Sorted.insert`, `Table.sorted_ofList`: writing entries keeps a table sorted
- `Table.Sorted.ofList_eq`: a sorted table is made from its entries
- `Table.get?_merge`: what is found in a table with another one written over it
- `Table.ofList_perm`: a table of entries whose keys do not repeat has just these entries
- `Table.Sorted.ext`: sorted tables with the same entries are the same
-/

namespace Workgraph

namespace Table

variable {α β : Type} {t : Table α} {key : String} {value : α}

/-- The keys of a table increase, so that each of them occurs once. -/
def Sorted (t : Table α) : Prop := t.Pairwise fun e e' => e.1 < e'.1

instance : Decidable t.Sorted := inferInstanceAs (Decidable (List.Pairwise _ _))

theorem get?_insert (t : Table α) (key other : String) (value : α) :
    (t.insert key value).get? other = if other = key then some value else t.get? other := by
  by_cases h : other = key
  · rw [if_pos h, h, get?_insert_self]
  · rw [if_neg h, get?_insert_of_ne value h]

theorem get?_cons (e : String × α) (rest : Table α) (key : String) :
    get? (e :: rest) key = if e.1 = key then some e.2 else get? rest key := by
  unfold get?
  by_cases h : e.1 = key
  · simp [h]
  · simp [h]

/-- An entry of a table with one entry written is this one or an earlier one. -/
theorem mem_of_mem_insert {e : String × α} (h : e ∈ t.insert key value) :
    e = (key, value) ∨ e ∈ t := by
  induction t with
  | nil => exact .inl (List.mem_singleton.mp h)
  | cons first rest ih =>
    obtain ⟨k, v⟩ := first
    unfold insert at h
    split at h
    · exact (List.mem_cons.mp h).imp_right (List.mem_cons_of_mem _)
    · split at h
      · exact List.mem_cons.mp h
      · obtain rfl | h := List.mem_cons.mp h
        · exact .inr List.mem_cons_self
        · exact (ih h).imp_right (List.mem_cons_of_mem _)

theorem mem_of_mem_merge {patch : Table α} {e : String × α} (h : e ∈ t.merge patch) :
    e ∈ t ∨ e ∈ patch := by
  unfold Table.merge at h
  induction patch generalizing t with
  | nil => exact .inl h
  | cons first rest ih =>
    obtain h | h := ih h
    · obtain rfl | h := mem_of_mem_insert h
      · exact .inr List.mem_cons_self
      · exact .inl h
    · exact .inr (List.mem_cons_of_mem _ h)

theorem mem_of_mem_ofList {entries : List (String × α)} {e : String × α}
    (h : e ∈ ofList entries) : e ∈ entries :=
  (mem_of_mem_merge (t := []) h).resolve_left List.not_mem_nil

theorem Sorted.insert (h : t.Sorted) (key : String) (value : α) : (t.insert key value).Sorted := by
  induction t with
  | nil => exact List.pairwise_singleton _ _
  | cons first rest ih =>
    obtain ⟨k, v⟩ := first
    obtain ⟨hfirst, hrest⟩ := List.pairwise_cons.mp h
    unfold Table.insert
    by_cases hk : k = key
    · rw [if_pos (by simpa using hk)]
      exact List.pairwise_cons.mpr ⟨fun e he => hk ▸ hfirst e he, hrest⟩
    · rw [if_neg (by simpa using hk)]
      by_cases hlt : key < k
      · rw [if_pos hlt]
        refine List.pairwise_cons.mpr ⟨fun e he => ?_, h⟩
        obtain rfl | he := List.mem_cons.mp he
        · exact hlt
        · exact String.lt_trans hlt (hfirst e he)
      · rw [if_neg hlt]
        have hkey : k < key := lt_of_le_of_ne (not_lt.mp hlt) hk
        refine List.pairwise_cons.mpr ⟨fun e he => ?_, ih hrest⟩
        obtain rfl | he := mem_of_mem_insert he
        · exact hkey
        · exact hfirst e he

theorem Sorted.merge (h : t.Sorted) (patch : Table α) : (t.merge patch).Sorted := by
  unfold Table.merge
  induction patch generalizing t with
  | nil => exact h
  | cons e rest ih => exact ih (h.insert e.1 e.2)

/-- A table made from entries in any order is sorted. -/
theorem sorted_ofList (entries : List (String × α)) : (ofList entries).Sorted :=
  Sorted.merge (t := []) List.Pairwise.nil entries

theorem Sorted.mapValues (h : t.Sorted) (f : α → β) : (t.mapValues f).Sorted :=
  List.pairwise_map.mpr h

theorem Sorted.filter (h : t.Sorted) (p : String × α → Bool) : Sorted (t.filter p) :=
  List.Pairwise.filter p h

theorem Sorted.nodup_keys (h : t.Sorted) : (t.map (·.1)).Nodup :=
  List.pairwise_map.mpr (h.imp fun hlt => ne_of_lt hlt)

/-- An entry behind all others is written at the end. -/
theorem insert_eq_append (h : ∀ e ∈ t, e.1 < key) (value : α) :
    t.insert key value = t ++ [(key, value)] := by
  induction t with
  | nil => rfl
  | cons first rest ih =>
    obtain ⟨k, v⟩ := first
    have hk : k < key := h _ List.mem_cons_self
    unfold insert
    rw [if_neg (by simpa using ne_of_lt hk), if_neg (not_lt.mpr (le_of_lt hk)),
      ih fun e he => h e (List.mem_cons_of_mem _ he)]
    rfl

/-- Entries that continue a table in order are written at its end. -/
theorem merge_eq_append {patch : Table α} (h : Sorted (t ++ patch)) :
    t.merge patch = t ++ patch := by
  unfold merge
  induction patch generalizing t with
  | nil => simp
  | cons e rest ih =>
    obtain ⟨k, v⟩ := e
    have hbefore : ∀ e ∈ t, e.1 < k := fun e he =>
      (List.pairwise_append.mp h).2.2 e he (k, v) List.mem_cons_self
    rw [List.foldl_cons, insert_eq_append hbefore, ih (by simpa using h), List.append_assoc]
    rfl

/-- A sorted table is made from its entries. -/
theorem Sorted.ofList_eq (h : t.Sorted) : ofList t = t :=
  merge_eq_append (t := []) h

/-- In a list of entries in which no key occurs twice, an entry is what is found under its key. -/
theorem get?_eq_some_iff_of_nodup (h : (t.map (·.1)).Nodup) :
    t.get? key = some value ↔ (key, value) ∈ t := by
  induction t with
  | nil => simp [get?]
  | cons first rest ih =>
    obtain ⟨hfirst, hrest⟩ := List.nodup_cons.mp h
    rw [get?_cons, List.mem_cons]
    by_cases hk : first.1 = key
    · -- The key of the first entry is not found again.
      rw [if_pos hk]
      have hnot : (key, value) ∉ rest := fun hm =>
        hfirst (List.mem_map.mpr ⟨_, hm, hk.symm⟩)
      rw [or_iff_left hnot, Option.some.injEq, ← hk]
      constructor
      · rintro rfl
        rfl
      · intro heq
        rw [← heq]
    · rw [if_neg hk, ih hrest, or_iff_right]
      rintro rfl
      exact hk rfl

theorem Sorted.get?_eq_some_iff (h : t.Sorted) : t.get? key = some value ↔ (key, value) ∈ t :=
  get?_eq_some_iff_of_nodup h.nodup_keys

/-- What is found in a list of entries does not depend on their order, if no key occurs twice. -/
theorem get?_perm {t' : Table α} (h : t.Perm t') (hkeys : (t'.map (·.1)).Nodup) (key : String) :
    t.get? key = t'.get? key := by
  have hkeys' : (t.map (·.1)).Nodup := (h.map _).nodup_iff.mpr hkeys
  ext value
  rw [get?_eq_some_iff_of_nodup hkeys', get?_eq_some_iff_of_nodup hkeys]
  exact h.mem_iff

theorem mapValues_id (t : Table α) : t.mapValues id = t := List.map_id t

theorem get?_mapValues (f : α → β) (t : Table α) (key : String) :
    (t.mapValues f).get? key = (t.get? key).map f := by
  unfold get? mapValues
  rw [List.find?_map, Option.map_map, Option.map_map]
  rfl

theorem mapValues_insert (f : α → β) (t : Table α) (key : String) (value : α) :
    (t.insert key value).mapValues f = (t.mapValues f).insert key (f value) := by
  unfold mapValues
  induction t with
  | nil => rfl
  | cons e rest ih =>
    obtain ⟨k, v⟩ := e
    rw [List.map_cons]
    unfold insert
    split_ifs
    · rfl
    · rfl
    · rw [List.map_cons, ih]

theorem mapValues_merge (f : α → β) (t patch : Table α) :
    (t.merge patch).mapValues f = (t.mapValues f).merge (patch.mapValues f) := by
  unfold merge
  induction patch generalizing t with
  | nil => rfl
  | cons e rest ih =>
    rw [List.foldl_cons, ih, mapValues_insert]
    rfl

/-- The entries written over a table hide its own. -/
theorem get?_merge (t patch : Table α) (key : String) :
    (t.merge patch).get? key = ((ofList patch).get? key).or (t.get? key) := by
  induction patch generalizing t with
  | nil => rfl
  | cons e rest ih =>
    have hfirst : (ofList (e :: rest)).get? key =
        ((ofList rest).get? key).or (if key = e.1 then some e.2 else none) :=
      (ih (insert [] e.1 e.2)).trans (by rw [get?_insert]; rfl)
    have hmerge : (t.merge (e :: rest)).get? key =
        ((ofList rest).get? key).or (if key = e.1 then some e.2 else t.get? key) :=
      (ih (t.insert e.1 e.2)).trans (by rw [get?_insert])
    rw [hmerge, hfirst, Option.or_assoc]
    split <;> rfl

@[simp] theorem get?_ofList_nil (key : String) :
    (ofList ([] : List (String × α))).get? key = none :=
  rfl

@[simp] theorem get?_ofList_cons (e : String × α) (rest : List (String × α)) (key : String) :
    (ofList (e :: rest)).get? key =
      ((ofList rest).get? key).or (if key = e.1 then some e.2 else none) := by
  have h := get?_merge (insert [] e.1 e.2) rest key
  rw [get?_insert] at h
  exact h

@[simp] theorem get?_ofList_append (entries more : List (String × α)) (key : String) :
    (ofList (entries ++ more)).get? key =
      ((ofList more).get? key).or ((ofList entries).get? key) := by
  have h := get?_merge (ofList entries) more key
  rwa [merge, ofList, ← List.foldl_append] at h

/-- An entry that may be absent. -/
@[simp] theorem get?_ofList_toList (o : Option β) (name : String) (f : β → α) (key : String) :
    (ofList (o.map fun b => (name, f b)).toList).get? key =
      if key = name then o.map f else none := by
  cases o with
  | none => simp
  | some b => simp

/-- Entries that are left out under a condition. -/
@[simp] theorem get?_ofList_ite (c : Prop) [Decidable c] (entries : List (String × α))
    (key : String) :
    (ofList (if c then [] else entries)).get? key =
      if c then none else (ofList entries).get? key := by
  split <;> rfl

/-- Of entries whose keys do not repeat each is found under its key. -/
theorem get?_ofList_of_nodup {entries : List (String × α)} (h : (entries.map (·.1)).Nodup)
    (key : String) : (ofList entries).get? key = get? entries key := by
  induction entries with
  | nil => rfl
  | cons e rest ih =>
    obtain ⟨hfirst, hrest⟩ := List.nodup_cons.mp h
    rw [get?_ofList_cons, get?_cons, ih hrest]
    by_cases hk : e.1 = key
    · have hnone : get? rest key = none := by
        rw [Option.eq_none_iff_forall_ne_some]
        intro value hvalue
        have hmem := (get?_eq_some_iff_of_nodup hrest).mp hvalue
        exact hfirst (List.mem_map.mpr ⟨_, hmem, hk.symm⟩)
      simp [hk, hnone]
    · simp [hk, Ne.symm hk]

/-- A table made from entries whose keys do not repeat has just these entries. -/
theorem ofList_perm {entries : List (String × α)} (h : (entries.map (·.1)).Nodup) :
    (ofList entries).Perm entries := by
  refine (List.perm_ext_iff_of_nodup ?_ ?_).mpr ?_
  · exact List.Nodup.of_map _ (sorted_ofList entries).nodup_keys
  · exact List.Nodup.of_map _ h
  · rintro ⟨key, value⟩
    rw [← (sorted_ofList entries).get?_eq_some_iff, get?_ofList_of_nodup h,
      get?_eq_some_iff_of_nodup h]

/-- Sorted tables in which the same is found under every key are the same. -/
theorem Sorted.ext {t' : Table α} (h : t.Sorted) (h' : t'.Sorted)
    (hget : ∀ key, t.get? key = t'.get? key) : t = t' := by
  have hperm : t.Perm t' := by
    refine (List.perm_ext_iff_of_nodup ?_ ?_).mpr ?_
    · exact List.Nodup.of_map _ h.nodup_keys
    · exact List.Nodup.of_map _ h'.nodup_keys
    · rintro ⟨key, value⟩
      rw [← h.get?_eq_some_iff, ← h'.get?_eq_some_iff, hget]
  refine hperm.eq_of_pairwise (fun e e' _ _ hlt hgt => ?_) h h'
  exact absurd (String.lt_trans hlt hgt) (lt_irrefl _)

/-- A table made from the entries of a sorted table in another order is this table. -/
theorem Sorted.ofList_eq_of_perm {entries : List (String × α)} (h : t.Sorted)
    (hperm : entries.Perm t) : ofList entries = t := by
  have hkeys : (entries.map (·.1)).Nodup := (hperm.map _).nodup_iff.mpr h.nodup_keys
  refine (sorted_ofList entries).ext h fun key => ?_
  rw [get?_ofList_of_nodup hkeys, get?_perm hperm h.nodup_keys]

end Table

end Workgraph
