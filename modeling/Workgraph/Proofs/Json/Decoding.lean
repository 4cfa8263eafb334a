import Workgraph.Proofs.Json.Texts
/-!
# Written values decoded

A decoder reads a typed value from what is written for it. The readers of lists and tables read what
is written if the readers of their parts do.

## Main definitions

- `Medium.Holds`: the brackets of a value may be opened under the circumstances of reading
- `Decoder.Reads`: a decoder reads a typed value from a written one, in any circumstances

## Main statements

- `Decoder.list_reads`, `Decoder.table_reads`: lists and tables are read if their parts are
- `Decoder.json_reads`: any value is read as it is written
-/

namespace Workgraph

/-- The brackets of a value may be opened under the circumstances of reading. -/
def Medium.Holds : Medium → Json → Prop
  | value, _ => True
  | text levels, v => v.depth ≤ levels

namespace Medium

variable {m : Medium}

/-- A bracket may be opened in front of the items of an array that is held. -/
theorem Holds.enter_arr {items : List Json} (h : m.Holds (.arr items)) :
    ∃ inner, m.enter = .ok inner ∧ ∀ v ∈ items, inner.Holds v := by
  cases m with
  | value => exact ⟨value, rfl, fun _ _ => trivial⟩
  | text levels =>
    cases levels with
    | zero => exact absurd h (Nat.not_succ_le_zero _)
    | succ levels => exact ⟨text levels, rfl, Json.depth_arr_le.mp h⟩

/-- A bracket may be opened in front of the fields of an object that is held. -/
theorem Holds.enter_obj {fields : List (String × Json)} (h : m.Holds (.obj fields)) :
    ∃ inner, m.enter = .ok inner ∧ ∀ e ∈ fields, inner.Holds e.2 := by
  cases m with
  | value => exact ⟨value, rfl, fun _ _ => trivial⟩
  | text levels =>
    cases levels with
    | zero => exact absurd h (Nat.not_succ_le_zero _)
    | succ levels => exact ⟨text levels, rfl, Json.depth_obj_le.mp h⟩

end Medium

namespace Decoder

variable {α β : Type} {d : Decoder α} {a : α}

/-- A decoder reads a typed value from a written one, under all circumstances that hold it. -/
def Reads (d : Decoder α) (a : α) (v : Json) : Prop := ∀ m, m.Holds v → d m v.toTree = .ok a

theorem text_reads (s : String) : Reads text s (.str s) := fun _ _ => rfl

theorem natural_reads (kind : String) {greatest n : Nat} (h : n ≤ greatest) :
    Reads (natural kind greatest) n (.nat n) := by
  intro m _
  have hrange : ((0 : Int) ≤ (n : Int) && (n : Int) ≤ (greatest : Int)) = true := by simp [h]
  change (integer kind 0 greatest m (.num (.int n))).map Int.toNat = _
  rw [integer, if_pos hrange]
  rfl

theorem optional_reads_none (d : Decoder α) : Reads (optional d) none .null := fun _ _ => rfl

theorem Reads.optional {v : Json} (h : Reads d a v) (hv : v ≠ .null) :
    Reads (optional d) (some a) v := by
  intro m hm
  have hsome : (d m v.toTree).map some = .ok (some a) := by
    rw [h m hm]
    rfl
  cases v with
  | null => exact absurd rfl hv
  | _ => exact hsome

/-- A text that may be absent. -/
theorem optional_reads_text? (s : Option String) : Reads (optional text) s (.text? s) := by
  cases s with
  | none => exact optional_reads_none text
  | some s => exact (text_reads s).optional (by simp)

/-- The items of an array are read one after the other. -/
theorem items_reads {m : Medium} {as : List α} {vs : List Json} (h : List.Forall₂ (Reads d) as vs)
    (hm : ∀ v ∈ vs, m.Holds v) : items d m (Json.toTrees vs) = .ok as := by
  induction h with
  | nil => rfl
  | @cons a v as vs ha _ ih =>
    obtain ⟨hv, hvs⟩ := List.forall_mem_cons.mp hm
    rw [Json.toTrees, items, ha m hv, ih hvs]
    rfl

theorem list_reads_forall₂ {as : List α} {vs : List Json} (h : List.Forall₂ (Reads d) as vs) :
    Reads (list d) as (.arr vs) := by
  intro m hm
  obtain ⟨inner, henter, hinner⟩ := hm.enter_arr
  rw [Json.toTree, list, henter]
  change (items d inner _ >>= fun as => finish .closed >>= fun _ => .ok as) = _
  rw [items_reads h hinner]
  rfl

theorem list_reads {as : List α} {f : α → Json} (h : ∀ a ∈ as, Reads d a (f a)) :
    Reads (list d) as (.arr (as.map f)) := by
  refine list_reads_forall₂ ?_
  rw [List.forall₂_map_right_iff, List.forall₂_same]
  exact h

theorem texts_reads (ss : List String) : Reads (list text) ss (.texts ss) :=
  list_reads fun s _ => text_reads s

/-- The entries of an object are read one after the other. -/
theorem entries_reads {m : Medium} {t : Table α} {f : α → Json}
    (h : ∀ e ∈ t, Reads d e.2 (f e.2)) (hm : ∀ e ∈ Table.mapValues f t, m.Holds e.2) :
    entries d m (Json.toFieldTrees (Table.mapValues f t)) = .ok t := by
  induction t with
  | nil => rfl
  | cons e t ih =>
    obtain ⟨he, ht⟩ := List.forall_mem_cons.mp h
    obtain ⟨hme, hmt⟩ := List.forall_mem_cons.mp hm
    rw [Table.mapValues, List.map_cons, Json.toFieldTrees, entries, he m hme]
    change (entries d m (Json.toFieldTrees (Table.mapValues f t)) >>= _) = _
    rw [ih ht hmt]
    rfl

theorem table_reads {t : Table α} {f : α → Json} (hsorted : t.Sorted)
    (h : ∀ e ∈ t, Reads d e.2 (f e.2)) : Reads (table d) t (.obj (Table.mapValues f t)) := by
  intro m hm
  obtain ⟨inner, henter, hinner⟩ := hm.enter_obj
  rw [Json.toTree, table, henter]
  change (entries d inner _ >>= fun as => finish .closed >>= fun _ => .ok (Table.ofList as)) = _
  rw [entries_reads h hinner]
  change Except.ok (Table.ofList t) = _
  rw [hsorted.ofList_eq]

theorem jsonItems_eq (m : Medium) (ts : List Tree) : jsonItems m ts = items json m ts := by
  induction ts with
  | nil => rfl
  | cons t ts ih => rw [jsonItems, items, ih]

theorem jsonFields_eq (m : Medium) (fields : List (Option String × Tree)) :
    jsonFields m fields = entries json m fields := by
  induction fields with
  | nil => rfl
  | cons e fields ih =>
    obtain ⟨_ | k, t⟩ := e
    · rfl
    · rw [jsonFields, entries, ih]

/-- An array is read as a list of values. -/
theorem json_arr (m : Medium) (ts : List Tree) (ending : Ending) :
    json m (.arr ts ending) = (list json m (.arr ts ending)).map .arr := by
  rw [json, list]
  cases m.enter with
  | error e => rfl
  | ok inner =>
    change (jsonItems inner ts >>= fun vs => finish ending >>= fun _ => .ok (Json.arr vs)) =
      (items json inner ts >>= fun as => finish ending >>= fun _ => .ok as).map Json.arr
    rw [jsonItems_eq]
    cases items json inner ts with
    | error e => rfl
    | ok vs => cases finish ending <;> rfl

/-- An object is read as a table of values. -/
theorem json_obj (m : Medium) (fields : List (Option String × Tree)) (ending : Ending) :
    json m (.obj fields ending) = (table json m (.obj fields ending)).map .obj := by
  rw [json, table]
  cases m.enter with
  | error e => rfl
  | ok inner =>
    change (jsonFields inner fields >>= fun vs => finish ending >>= fun _ => .ok (Json.object vs)) =
      (entries json inner fields >>= fun as => finish ending >>= fun _ =>
        .ok (Table.ofList as)).map Json.obj
    rw [jsonFields_eq]
    cases entries json inner fields with
    | error e => rfl
    | ok vs => cases finish ending <;> rfl

/-- Any value is read as it is written, provided that the keys of its objects increase. -/
theorem json_reads {p : Number → Prop} {v : Json} (h : v.Ordered p) : Reads json v v := by
  induction h with
  | null => exact fun _ _ => rfl
  | bool b => exact fun _ _ => rfl
  | num _ => exact fun _ _ => rfl
  | str s => exact fun _ _ => rfl
  | @arr items _ ih =>
    have hlist : Reads (list json) items (.arr (items.map id)) := list_reads ih
    rw [List.map_id] at hlist
    intro m hm
    have hitems := hlist m hm
    rw [Json.toTree] at hitems ⊢
    rw [json_arr, hitems]
    rfl
  | @obj fields hsorted _ ih =>
    have htable : Reads (table json) fields (.obj (Table.mapValues id fields)) :=
      table_reads hsorted ih
    rw [Table.mapValues_id] at htable
    intro m hm
    have hfields := htable m hm
    rw [Json.toTree] at hfields ⊢
    rw [json_obj, hfields]
    rfl

theorem pair_reads {db : Decoder β} {b : β} {v w : Json} (ha : Reads d a v) (hb : Reads db b w) :
    Reads (pair d db) (a, b) (.arr [v, w]) := by
  intro m hm
  obtain ⟨inner, henter, hinner⟩ := hm.enter_arr
  have hv := ha inner (hinner v (by simp))
  have hw := hb inner (hinner w (by simp))
  simp only [Json.toTree, Json.toTrees, pair, henter, bind, Except.bind, hv, hw]
  cases m <;> rfl

theorem enumeration_reads {variants : List (String × α)} {name : String}
    (h : variants.find? (·.1 == name) = some (name, a)) :
    Reads (enumeration variants) a (.str name) := by
  intro m _
  change variant variants name >>= Except.ok = _
  rw [variant, h]
  rfl

end Decoder

end Workgraph
