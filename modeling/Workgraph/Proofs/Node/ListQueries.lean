import Mathlib.Data.List.Basic
import Mathlib.Data.String.Basic
import Workgraph.Proofs.Node.Conditions
import Workgraph.Proofs.Node.Errors
import Workgraph.Proofs.Number.Integers
/-!
# What list queries compute

A list query keeps the items on which its conditions hold, picks one of them, sorts what is left,
and keeps the first few. Each of these stages is described by itself here, and together they say
what comes out.

The order that items are sorted by is one only if their keys are of one kind: values of different
kinds are equal to each other in it, and integers that are too large are equal to their neighbours.

## Main definitions

- `Filter.Sieves`, `Picks`, `Sorting.Sorts`, `Limit.Cuts`: what the stages do
- `Sorting.Uniform`: the keys of items are of one kind
- `ListQuery.Computes`: what a query does
- `pickWithin64?`: an item is picked by arithmetic with signed 64-bit integers

## Main statements

- `pick_picks`, `pickWithin64?_eq`: the item at a position, without overflow
- `Sorting.Uniform.sorts`: sorting items by keys of one kind
- `listQuery_computes`: what a query writes
-/

namespace Workgraph

/-! ## Filters -/

/-- A filter keeps the items on which its conditions hold, in their order, and drops the others. -/
inductive Filter.Sieves (f : Filter) : List Json → List Json → Prop
  | nil : Sieves f [] []
  | keep {item : Json} {items kept : List Json} (h : f.connective.Holds f.conditions item)
      (hrest : Sieves f items kept) : Sieves f (item :: items) (item :: kept)
  | drop {item : Json} {items kept : List Json} (h : ¬ f.connective.Holds f.conditions item)
      (hrest : Sieves f items kept) : Sieves f (item :: items) kept

theorem Filter.sieves_filter (f : Filter) (items : List Json) :
    f.Sieves items (items.filter f.keeps) := by
  induction items with
  | nil => exact .nil
  | cons item items ih =>
    by_cases hkeeps : f.keeps item = true
    · rw [List.filter_cons_of_pos hkeeps]
      exact .keep (evaluateAll_iff.mp hkeeps) ih
    · rw [List.filter_cons_of_neg hkeeps]
      exact .drop (evaluateAll_iff.not.mp hkeeps) ih

/-! ## Positions -/

section Positions

variable {α : Type}

/-- An item stands at a position of a list, where positions count from one. -/
def At (items : List α) (position : Int) (item : α) : Prop :=
  ∃ before after, items = before ++ item :: after ∧ (before.length : Int) + 1 = position

/-- One item is picked, by its position from the front or from the back, or none if there is no such
position. -/
inductive Picks (items : List α) (position : Int) : List α → Prop
  | front {item : α} (hlow : 1 ≤ position) (hhigh : position ≤ items.length)
      (hat : At items position item) : Picks items position [item]
  | back {item : α} (hlow : -(items.length : Int) ≤ position) (hhigh : position ≤ -1)
      (hat : At items (items.length + position + 1) item) : Picks items position [item]
  | nowhere (h : position = 0 ∨ (items.length : Int) < position ∨
      position < -(items.length : Int)) : Picks items position []

theorem exists_at {items : List α} {index : Nat} (h : index < items.length) :
    ∃ item, items[index]? = some item ∧ At items (index + 1) item := by
  refine ⟨items[index], List.getElem?_eq_getElem h, items.take index, items.drop (index + 1),
    ?_, ?_⟩
  · rw [List.getElem_cons_drop, List.take_append_drop]
  · rw [List.length_take, Nat.min_eq_left (Nat.le_of_lt h)]

theorem pick_picks (items : List α) (position : Int) :
    Picks items position (pick items position) := by
  unfold pick
  by_cases hzero : position = 0
  · rw [if_pos hzero]
    exact .nowhere (.inl hzero)
  rw [if_neg hzero]
  by_cases hpos : 0 < position
  · rw [if_pos hpos]
    by_cases hlen : position ≤ items.length
    · obtain ⟨item, hitem, hat⟩ := exists_at (show (position - 1).toNat < items.length by omega)
      rw [hitem]
      refine .front hpos hlen ?_
      rwa [show ((position - 1).toNat : Int) + 1 = position by omega] at hat
    · rw [List.getElem?_eq_none (by omega)]
      exact .nowhere (.inr (.inl (by omega)))
  · rw [if_neg hpos]
    by_cases hlen : -(items.length : Int) ≤ position
    · rw [if_pos hlen]
      obtain ⟨item, hitem, hat⟩ :=
        exists_at (show ((items.length : Int) + position).toNat < items.length by omega)
      rw [hitem]
      refine .back hlen (by omega) ?_
      rwa [show (((items.length : Int) + position).toNat : Int) =
        items.length + position by omega] at hat
    · rw [if_neg hlen]
      exact .nowhere (.inr (.inr (by omega)))

theorem Picks.subset {items picked : List α} {position : Int} (h : Picks items position picked) :
    picked ⊆ items := by
  have hat : ∀ {position : Int} {item : α}, At items position item → [item] ⊆ items := by
    rintro position item ⟨before, after, rfl, -⟩
    simp
  cases h with
  | front _ _ h => exact hat h
  | back _ _ h => exact hat h
  | nowhere _ => exact List.nil_subset items

/-- The result of an operation on signed 64-bit integers, unless it overflows. -/
def within64? (n : Int) : Option Int :=
  if -(maxSigned64 : Int) - 1 ≤ n ∧ n ≤ maxSigned64 then some n else none

/-- An item is picked by operations on signed 64-bit integers; none of them may overflow. -/
def pickWithin64? (items : List α) (position : Int) : Option (List α) := do
  let length ← within64? items.length
  let lowest ← within64? (-length)
  if position = 0 ∨ length < position ∨ position < lowest then return []
  let index ← if position < 0 then within64? (length + position) else within64? (position - 1)
  return (items[index.toNat]?).toList

theorem within64?_eq {n : Int} (hlow : -(maxSigned64 : Int) - 1 ≤ n) (hhigh : n ≤ maxSigned64) :
    within64? n = some n := if_pos ⟨hlow, hhigh⟩

/-- No operation overflows, whatever the position is. -/
theorem pickWithin64?_eq {items : List α} (hlen : items.length ≤ maxSigned64) {position : Int}
    (hlow : -(maxSigned64 : Int) - 1 ≤ position) (hhigh : position ≤ maxSigned64) :
    pickWithin64? items position = some (pick items position) := by
  have hlength : within64? (items.length : Int) = some (items.length : Int) :=
    within64?_eq (by omega) (by omega)
  have hlowest : within64? (-(items.length : Int)) = some (-(items.length : Int)) :=
    within64?_eq (by omega) (by omega)
  unfold pickWithin64? pick
  simp only [hlength, hlowest, Option.bind_eq_bind, Option.bind_some]
  by_cases hnowhere : position = 0 ∨ (items.length : Int) < position ∨
      position < -(items.length : Int)
  · rw [if_pos hnowhere]
    by_cases hzero : position = 0
    · rw [if_pos hzero]
      rfl
    rw [if_neg hzero]
    by_cases hpos : 0 < position
    · rw [if_pos hpos, List.getElem?_eq_none (by omega)]
      rfl
    · rw [if_neg hpos, if_neg (by omega)]
      rfl
  · have hzero : ¬ position = 0 := fun h => hnowhere (.inl h)
    rw [if_neg hnowhere, if_neg hzero]
    by_cases hpos : 0 < position
    · rw [if_pos hpos, if_neg (show ¬ position < 0 by omega), within64?_eq (by omega) (by omega)]
      rfl
    · have hwithin : -(items.length : Int) ≤ position := by omega
      rw [if_neg hpos, if_pos hwithin, if_pos (show position < 0 by omega),
        within64?_eq (by omega) (by omega)]
      rfl

end Positions

/-! ## Sorting -/

section Lists

variable {α : Type} {l : List α} {le : α → α → Bool}

/-- Sorting asks for the order of the items of a list only. -/
theorem mergeSort_attach (l : List α) (le : α → α → Bool) :
    l.mergeSort le = (l.attach.mergeSort fun a b => le a.1 b.1).map (·.1) := by
  rw [List.map_mergeSort (s := le) (fun a _ b _ => rfl), List.attach_map_subtype_val]

variable (htrans : ∀ a ∈ l, ∀ b ∈ l, ∀ c ∈ l, le a b = true → le b c = true → le a c = true)
  (htotal : ∀ a ∈ l, ∀ b ∈ l, (le a b || le b a) = true)
include htrans htotal

theorem pairwise_mergeSort_of_mem : (l.mergeSort le).Pairwise fun a b => le a b = true := by
  rw [mergeSort_attach, List.pairwise_map]
  exact List.pairwise_mergeSort (fun a b c => htrans a.1 a.2 b.1 b.2 c.1 c.2)
    (fun a b => htotal a.1 a.2 b.1 b.2) _

theorem sublist_mergeSort_of_mem {group : List α} (hgroup : group.Sublist l)
    (hsorted : group.Pairwise fun a b => le a b = true) : group.Sublist (l.mergeSort le) := by
  rw [← List.attach_map_subtype_val l, List.sublist_map_iff] at hgroup
  obtain ⟨group', hgroup', rfl⟩ := hgroup
  rw [mergeSort_attach]
  refine List.Sublist.map _ (List.sublist_mergeSort (fun a b c => htrans a.1 a.2 b.1 b.2 c.1 c.2)
    (fun a b => htotal a.1 a.2 b.1 b.2) ?_ hgroup')
  exact List.pairwise_map.mp hsorted

end Lists

/-- In a list in which nothing that has a property stands behind what has it not, what has it comes
first. -/
theorem filter_append_of_pairwise {α : Type} {p : α → Bool} {l : List α}
    (h : l.Pairwise fun a b => p b = true → p a = true) :
    l.filter p ++ l.filter (fun a => !p a) = l := by
  induction h with
  | nil => rfl
  | @cons a l ha h ih =>
    by_cases hp : p a = true
    · rw [List.filter_cons_of_pos hp, List.filter_cons_of_neg (by simp [hp]), List.cons_append, ih]
    · have hnone : l.filter p = [] := List.filter_eq_nil_iff.mpr fun b hb hpb => hp (ha b hb hpb)
      rw [List.filter_cons_of_neg hp, List.filter_cons_of_pos (by simp [hp]), hnone]
      rw [hnone] at ih
      exact congrArg (a :: ·) ih

/-- The order of the values that items can be sorted by: texts by their code points, false before
true, and integers by size. -/
inductive Json.KeyLe : Json → Json → Prop
  | str {a b : String} (h : a ≤ b) : KeyLe (.str a) (.str b)
  | bool {a b : Bool} (h : a ≤ b) : KeyLe (.bool a) (.bool b)
  | int {a b : Int} (h : a ≤ b) : KeyLe (.num (.int a)) (.num (.int b))

theorem Json.KeyLe.trans {x y z : Json} (h : x.KeyLe y) (h' : y.KeyLe z) : x.KeyLe z := by
  cases h with
  | str h => cases h' with | str h' => exact .str (le_trans h h')
  | bool h => cases h' with | bool h' => exact .bool (le_trans h h')
  | int h => cases h' with | int h' => exact .int (le_trans h h')

/-- The kinds of keys that have an order among them. -/
inductive KeyKind where
  | text
  | flag
  | integer

/-- The keys of a kind. The integers are those that floating point numbers tell apart. -/
inductive KeyKind.Has : KeyKind → Json → Prop
  | text (s : String) : Has .text (.str s)
  | flag (b : Bool) : Has .flag (.bool b)
  | integer {n : Int} (h : n.natAbs ≤ exactBound) : Has .integer (.num (.int n))

namespace KeyKind

variable {kind : KeyKind} {x y : Json} (hx : kind.Has x) (hy : kind.Has y)
include hx hy

theorem ascends_iff : Sorting.ascends x y = true ↔ x.KeyLe y := by
  cases hx with
  | text a =>
    cases hy with
    | text b =>
      unfold Sorting.ascends
      rw [Bool.not_eq_true', decide_eq_false_iff_not, not_lt]
      exact ⟨.str, fun | .str h => h⟩
  | flag a =>
    cases hy with
    | flag b =>
      have hle : Sorting.ascends (.bool a) (.bool b) = true ↔ a ≤ b := by
        cases a <;> cases b <;> decide
      rw [hle]
      exact ⟨.bool, fun | .bool h => h⟩
  | @integer a ha =>
    cases hy with
    | @integer b hb =>
      unfold Sorting.ascends Number.toExtended
      dsimp only
      rw [Extended.lt_ofInt hb ha, Bool.not_eq_true', decide_eq_false_iff_not, not_lt]
      exact ⟨.int, fun | .int h => h⟩

theorem keyLe_total : x.KeyLe y ∨ y.KeyLe x := by
  cases hx with
  | text a => cases hy with | text b => exact (le_total a b).imp .str .str
  | flag a => cases hy with | flag b => exact (le_total a b).imp .bool .bool
  | @integer a ha => cases hy with | @integer b hb => exact (le_total a b).imp .int .int

end KeyKind

namespace Sorting

/-- The keys of items are of one kind, as far as items have any. -/
def Uniform (s : Sorting) (items : List Json) : Prop :=
  ∃ kind : KeyKind, ∀ item ∈ items, ∀ key, s.key? item = some key → kind.Has key

/-- Two keys are in the order of a stage that sorts, which may be a decreasing one. -/
def Directed (s : Sorting) (x y : Json) : Prop := if s.descending then y.KeyLe x else x.KeyLe y

/-- Two items have keys, which are in the order of a stage that sorts. -/
def InOrder (s : Sorting) (a b : Json) : Prop :=
  ∃ x y, s.key? a = some x ∧ s.key? b = some y ∧ s.Directed x y

/-- Items are sorted: they are the same items, first those with keys, in the order of their keys,
and then those without, as they were; items with one key stay in their order. -/
structure Sorts (s : Sorting) (items sorted : List Json) : Prop where
  perm : sorted.Perm items
  ordered : ∃ keyed, sorted = keyed ++ items.filter (fun item => (s.key? item).isNone) ∧
    (∀ item ∈ keyed, (s.key? item).isSome) ∧ keyed.Pairwise s.InOrder
  stable : ∀ group : List Json, group.Sublist items →
    (∀ a ∈ group, ∀ b ∈ group, s.key? a = s.key? b) → group.Sublist sorted

variable {s : Sorting} {items : List Json}

theorem precedes_of_none {a b : Json} (h : s.key? b = none) : s.precedes a b = true := by
  unfold precedes
  rw [h]

theorem isSome_of_precedes {a b : Json} (h : s.precedes a b = true)
    (hb : (s.key? b).isSome = true) : (s.key? a).isSome = true := by
  unfold precedes at h
  cases ha : s.key? a with
  | some x => rfl
  | none =>
    cases hb' : s.key? b with
    | some y =>
      rw [ha, hb'] at h
      cases h
    | none =>
      rw [hb'] at hb
      cases hb

theorem Directed.trans {x y z : Json} (h : s.Directed x y) (h' : s.Directed y z) :
    s.Directed x z := by
  unfold Directed at h h' ⊢
  split at h
  · rw [if_pos ‹_›] at h' ⊢
    exact h'.trans h
  · rw [if_neg ‹_›] at h' ⊢
    exact h.trans h'

section Kinds

variable {kind : KeyKind}

theorem directed_total {x y : Json} (hx : kind.Has x) (hy : kind.Has y) :
    s.Directed x y ∨ s.Directed y x := by
  unfold Directed
  split
  · exact KeyKind.keyLe_total hy hx
  · exact KeyKind.keyLe_total hx hy

/-- Items with keys of one kind precede each other as their keys are ordered. -/
theorem precedes_iff {a b x y : Json} (ha : s.key? a = some x) (hb : s.key? b = some y)
    (hx : kind.Has x) (hy : kind.Has y) : s.precedes a b = true ↔ s.Directed x y := by
  unfold precedes Directed
  rw [ha, hb]
  dsimp only
  split
  · exact KeyKind.ascends_iff hy hx
  · exact KeyKind.ascends_iff hx hy

theorem precedes_total {a b : Json} (ha : ∀ key, s.key? a = some key → kind.Has key)
    (hb : ∀ key, s.key? b = some key → kind.Has key) :
    (s.precedes a b || s.precedes b a) = true := by
  rw [Bool.or_eq_true]
  cases hx : s.key? a with
  | none => exact .inr (precedes_of_none hx)
  | some x =>
    cases hy : s.key? b with
    | none => exact .inl (precedes_of_none hy)
    | some y =>
      rw [precedes_iff hx hy (ha x hx) (hb y hy), precedes_iff hy hx (hb y hy) (ha x hx)]
      exact directed_total (ha x hx) (hb y hy)

theorem precedes_trans {a b c : Json} (ha : ∀ key, s.key? a = some key → kind.Has key)
    (hb : ∀ key, s.key? b = some key → kind.Has key)
    (hc : ∀ key, s.key? c = some key → kind.Has key) (hab : s.precedes a b = true)
    (hbc : s.precedes b c = true) : s.precedes a c = true := by
  cases hz : s.key? c with
  | none => exact precedes_of_none hz
  | some z =>
    obtain ⟨y, hy⟩ := Option.isSome_iff_exists.mp (isSome_of_precedes hbc (hz ▸ rfl))
    obtain ⟨x, hx⟩ := Option.isSome_iff_exists.mp (isSome_of_precedes hab (hy ▸ rfl))
    rw [precedes_iff hx hy (ha x hx) (hb y hy)] at hab
    rw [precedes_iff hy hz (hb y hy) (hc z hz)] at hbc
    rw [precedes_iff hx hz (ha x hx) (hc z hz)]
    exact hab.trans hbc

section Sorted

variable (hkind : ∀ item ∈ items, ∀ key, s.key? item = some key → kind.Has key)
include hkind

theorem precedes_total_of_mem : ∀ a ∈ items, ∀ b ∈ items,
    (s.precedes a b || s.precedes b a) = true :=
  fun a ha b hb => precedes_total (hkind a ha) (hkind b hb)

theorem precedes_trans_of_mem : ∀ a ∈ items, ∀ b ∈ items, ∀ c ∈ items, s.precedes a b = true →
    s.precedes b c = true → s.precedes a c = true :=
  fun a ha b hb c hc => precedes_trans (hkind a ha) (hkind b hb) (hkind c hc)

theorem pairwise_precedes :
    (items.mergeSort s.precedes).Pairwise fun a b => s.precedes a b = true :=
  pairwise_mergeSort_of_mem (precedes_trans_of_mem hkind) (precedes_total_of_mem hkind)

/-- Items with one key stay in their order. -/
theorem sublist_of_same_key {group : List Json} (hgroup : group.Sublist items)
    (hsame : ∀ a ∈ group, ∀ b ∈ group, s.key? a = s.key? b) :
    group.Sublist (items.mergeSort s.precedes) := by
  refine sublist_mergeSort_of_mem (precedes_trans_of_mem hkind) (precedes_total_of_mem hkind)
    hgroup ?_
  refine List.pairwise_of_forall_mem_list fun a ha b hb => ?_
  have hself : s.precedes a b = s.precedes b b := by
    unfold precedes
    rw [hsame a ha b hb]
  rw [hself, ← Bool.or_self (s.precedes b b)]
  exact precedes_total_of_mem hkind b (hgroup.subset hb) b (hgroup.subset hb)

/-- Items without a key are a group of their own. -/
theorem filter_isNone_mergeSort :
    (items.mergeSort s.precedes).filter (fun item => (s.key? item).isNone) =
      items.filter fun item => (s.key? item).isNone := by
  have hnone : ∀ a ∈ items.filter (fun item => (s.key? item).isNone), s.key? a = none :=
    fun a ha => Option.isNone_iff_eq_none.mp (List.mem_filter.mp ha).2
  have hgroup := (sublist_of_same_key hkind List.filter_sublist fun a ha b hb =>
    (hnone a ha).trans (hnone b hb).symm).filter fun item => (s.key? item).isNone
  rw [List.filter_filter] at hgroup
  simp only [Bool.and_self] at hgroup
  exact (hgroup.eq_of_length ((List.mergeSort_perm items _).filter _).length_eq.symm).symm

theorem pairwise_inOrder :
    ((items.mergeSort s.precedes).filter fun item => (s.key? item).isSome).Pairwise
      s.InOrder := by
  refine ((pairwise_precedes hkind).filter _).imp_of_mem fun {a b} ha hb hab => ?_
  obtain ⟨ha, hkey⟩ := List.mem_filter.mp ha
  obtain ⟨hb, hkey'⟩ := List.mem_filter.mp hb
  obtain ⟨x, hx⟩ := Option.isSome_iff_exists.mp hkey
  obtain ⟨y, hy⟩ := Option.isSome_iff_exists.mp hkey'
  have hx' := hkind a (List.mem_mergeSort.mp ha) x hx
  have hy' := hkind b (List.mem_mergeSort.mp hb) y hy
  exact ⟨x, y, hx, hy, (precedes_iff hx hy hx' hy').mp hab⟩

end Sorted

end Kinds

/-- Sorting items by keys of one kind. -/
theorem Uniform.sorts (h : s.Uniform items) : s.Sorts items (items.mergeSort s.precedes) := by
  obtain ⟨kind, hkind⟩ := h
  have hsplit := filter_append_of_pairwise ((pairwise_precedes hkind).imp isSome_of_precedes)
  simp only [Option.not_isSome] at hsplit
  rw [filter_isNone_mergeSort hkind] at hsplit
  exact {
    perm := List.mergeSort_perm items s.precedes
    ordered := ⟨_, hsplit.symm, fun item hitem => (List.mem_filter.mp hitem).2,
      pairwise_inOrder hkind⟩
    stable := fun group hgroup hsame => sublist_of_same_key hkind hgroup hsame }

theorem Uniform.of_subset {items' : List Json} (h : s.Uniform items) (hsubset : items' ⊆ items) :
    s.Uniform items' :=
  h.imp fun _ hkind item hitem => hkind item (hsubset hitem)

end Sorting

/-! ## Queries -/

/-- An item is extracted by its position, with operations that do not overflow. -/
structure Pick.Extracts (p : Pick) (items out : List Json) : Prop where
  picks : Picks items p.position out
  fits : items.length ≤ maxSigned64 → -(maxSigned64 : Int) - 1 ≤ p.position →
    p.position ≤ maxSigned64 → pickWithin64? items p.position = some out

/-- The first few items are kept, or all of them if the limit is zero. -/
structure Limit.Cuts (l : Limit) (items out : List Json) : Prop where
  front : out <+: items
  all_of_zero : l.count = 0 → out = items
  length_of_pos : 0 < l.count → out.length = min l.count items.length

theorem Limit.cuts_keep (l : Limit) (items : List Json) : l.Cuts items (l.keep items) := by
  unfold keep
  by_cases hzero : l.count = 0
  · rw [if_pos hzero]
    exact ⟨List.prefix_refl items, fun _ => rfl, fun hpos => absurd hzero (Nat.ne_of_gt hpos)⟩
  · rw [if_neg hzero]
    exact ⟨List.take_prefix _ items, fun h => absurd h hzero, fun _ => List.length_take⟩

/-- A stage that is there and enabled does its work; any other leaves the items as they are. -/
inductive Staged {α : Type} (enabled : α → Bool) (work : α → List Json → List Json → Prop)
    (stage : Option α) (items : List Json) : List Json → Prop
  | on {a : α} {out : List Json} (hstage : stage = some a) (henabled : enabled a = true)
      (hwork : work a items out) : Staged enabled work stage items out
  | off (h : ∀ a, stage = some a → enabled a = false) : Staged enabled work stage items items

namespace ListQuery

/-- What a query does: its stages, one after the other. -/
def Computes (q : ListQuery) (items result : List Json) : Prop :=
  ∃ kept picked sorted, Staged Filter.enabled Filter.Sieves q.filterBy items kept ∧
    Staged Pick.enabled Pick.Extracts q.extractBy kept picked ∧
    Staged Sorting.enabled Sorting.Sorts q.sortBy picked sorted ∧
    Staged Limit.enabled Limit.Cuts q.top sorted result

theorem stage_staged {α : Type} {enabled : α → Bool} {work : α → List Json → List Json → Prop}
    {s : Option α} {f : α → List Json → List Json} {items : List Json}
    (hwork : ∀ a, s = some a → enabled a = true → work a items (f a items)) :
    Staged enabled work s items (stage enabled s f items) := by
  unfold stage
  cases hs : s.filter enabled with
  | some a =>
    obtain ⟨ha, henabled⟩ := Option.filter_eq_some_iff.mp hs
    exact .on ha henabled (hwork a ha henabled)
  | none =>
    refine .off fun a ha => ?_
    simpa using Option.filter_eq_none_iff.mp hs a ha

/-- A stage gives back no items but those that it is given, if its work does not. -/
theorem stage_subset {α : Type} {enabled : α → Bool} {s : Option α}
    {f : α → List Json → List Json} {items : List Json} (h : ∀ a, f a items ⊆ items) :
    stage enabled s f items ⊆ items := by
  unfold stage
  cases s.filter enabled with
  | some a => exact h a
  | none => exact List.Subset.refl items

/-- A query does what its stages do, if the keys that it sorts by are of one kind. -/
theorem computes_apply {q : ListQuery} {items : List Json}
    (hkeys : ∀ sorting, q.sortBy = some sorting → sorting.enabled = true → sorting.Uniform items) :
    q.Computes items (q.apply items) := by
  have hkept : stage Filter.enabled q.filterBy (fun f => List.filter f.keeps) items ⊆ items :=
    stage_subset fun _ => List.filter_sublist.subset
  have hpicked : stage Pick.enabled q.extractBy (fun p items => pick items p.position)
      (stage Filter.enabled q.filterBy (fun f => List.filter f.keeps) items) ⊆ items :=
    List.Subset.trans (stage_subset fun p => (pick_picks _ p.position).subset) hkept
  refine ⟨_, _, _, stage_staged fun f _ _ => f.sieves_filter items,
    stage_staged fun p _ _ => ⟨pick_picks _ p.position, fun hlen => pickWithin64?_eq hlen⟩,
    stage_staged fun sorting hsorting henabled => ?_, stage_staged fun l _ _ => l.cuts_keep _⟩
  exact ((hkeys sorting hsorting henabled).of_subset hpicked).sorts

end ListQuery

variable {σ : Type}

/-- A list query computes what its stages say, one after the other, and writes the list that comes
out, with its first and its last item. -/
theorem listQuery_computes (q : ListQuery) (ctx : NodeContext) (s : Snapshot) (w : World σ)
    {items : List Json} (hlist : (s.resolve? q.input).bind Json.asItems? = some items)
    (hkeys : ∀ sorting, q.sortBy = some sorting → sorting.enabled = true →
      sorting.Uniform items) :
    ∃ (result : List Json) (fields : Table Json), q.Computes items result ∧
      (listQueryNode q ctx s w).1 = .ok (.write (.obj fields)) ∧
      fields.get? "result" = some (.arr result) ∧
      fields.get? "first_record" = some (result.head?.getD .null) ∧
      fields.get? "last_record" = some (result.getLast?.getD .null) := by
  obtain ⟨fields, hfields⟩ : ∃ fields, ListQuery.report (q.apply items) = .obj fields := ⟨_, rfl⟩
  refine ⟨q.apply items, fields, ListQuery.computes_apply hkeys, ?_, ?_⟩
  · rw [listQueryNode_eq, hlist, ← hfields]
  · cases hfields
    simp [Channel.errorField]

def volume (number : Json) (title : String) : Json := .obj [("n", number), ("title", .str title)]

/-- A list in which one item has no key, one has null, and the others have integers. -/
def shelf : List Json :=
  [volume (.int 2) "a", .obj [("title", .str "b")], volume (.int 5) "c", volume (.int (-2)) "d",
    volume .null "e"]

/-- All items but one, sorted down, and no more than three of them. -/
def shelfQuery : ListQuery :=
  ⟨"input.list", some ⟨true, [⟨"title", .notEqual, .str "c"⟩], .all⟩, none,
    some ⟨true, "n", true⟩, some ⟨true, 3⟩⟩

theorem shelfQuery_uniform : ∀ sorting, shelfQuery.sortBy = some sorting →
    sorting.enabled = true → sorting.Uniform shelf := by
  rintro sorting ⟨⟩ -
  refine ⟨.integer, ?_⟩
  unfold shelf
  simp only [List.forall_mem_cons]
  refine ⟨?_, ?_, ?_, ?_, ?_, nofun⟩
  · rintro key ⟨⟩
    exact .integer (by decide)
  · rintro key ⟨⟩
  · rintro key ⟨⟩
    exact .integer (by decide)
  · rintro key ⟨⟩
    exact .integer (by decide)
  · rintro key ⟨⟩

theorem shelfQuery_apply : shelfQuery.apply shelf =
    [volume (.int 2) "a", volume (.int (-2)) "d", .obj [("title", .str "b")]] := by
  let s : Sorting := ⟨true, "n", true⟩
  change ((([volume (.int 2) "a", .obj [("title", .str "b")], volume (.int (-2)) "d",
    volume .null "e"] : List Json).mergeSort s.precedes).take 3) = _
  have hab : s.precedes (volume (.int 2) "a") (.obj [("title", .str "b")]) = true := by
    decide +kernel
  have had : s.precedes (volume (.int 2) "a") (volume (.int (-2)) "d") = true := by decide +kernel
  have hde : s.precedes (volume (.int (-2)) "d") (volume .null "e") = true := by decide +kernel
  have hbd : s.precedes (.obj [("title", .str "b")]) (volume (.int (-2)) "d") = false := by
    decide +kernel
  have hbe : s.precedes (.obj [("title", .str "b")]) (volume .null "e") = true := by
    decide +kernel
  simp [List.mergeSort, List.MergeSort.Internal.splitInTwo, hab, hde, had, hbd, hbe]

/-- Of the items that are kept, those without a key stand behind those with one, though the order is
decreasing. -/
theorem listQuery_computes_shelf :
    let s := Iteration.listState shelf
    (s.resolve? shelfQuery.input).bind Json.asItems? = some shelf ∧
      (∀ sorting, shelfQuery.sortBy = some sorting → sorting.enabled = true →
        sorting.Uniform shelf) ∧
      ∃ fields : Table Json,
        (listQueryNode shelfQuery (.detached "k") s (.start ())).1 = .ok (.write (.obj fields)) ∧
        shelfQuery.Computes shelf
          [volume (.int 2) "a", volume (.int (-2)) "d", .obj [("title", .str "b")]] ∧
        fields.get? "first_record" = some (volume (.int 2) "a") ∧
        fields.get? "last_record" = some (.obj [("title", .str "b")]) := by
  intro s
  have hlist : (s.resolve? shelfQuery.input).bind Json.asItems? = some shelf := rfl
  refine ⟨hlist, shelfQuery_uniform, ?_⟩
  obtain ⟨result, fields, hcomputes, hrun, hresult, hfirst, hlast⟩ :=
    listQuery_computes shelfQuery (.detached "k") s (.start ()) hlist shelfQuery_uniform
  have hsame : result = shelfQuery.apply shelf := by
    have hout := hrun
    rw [listQueryNode_eq, hlist] at hout
    have hfields := Json.obj.inj (Option.some.inj (congrArg NodeOutput.update (Except.ok.inj hout)))
    rw [← hfields] at hresult
    simpa [Channel.errorField] using hresult.symm
  rw [hsame, shelfQuery_apply] at hcomputes hfirst hlast
  exact ⟨fields, hrun, hcomputes, hfirst, hlast⟩

end Workgraph
