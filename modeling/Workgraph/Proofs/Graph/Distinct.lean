import Mathlib.Data.List.Induction
import Mathlib.Data.List.Nodup
import Workgraph.Graph.Description
/-!
# Lists without repetition

`appendNew` joins two lists as sets are joined, and keeps a list free of repetition. These are the
laws by which frontiers, entries and neighbours are known to name each node once, and in which
order.

## Main statements

- `mem_appendNew`, `nodup_appendNew`: the elements of joined lists, each of them once
- `pairwise_distinct_filterMap`: elements stand in the order of their first occurrence
-/

namespace Workgraph

variable {α : Type} [BEq α] [LawfulBEq α]

@[simp] theorem mem_appendNew {base more : List α} {a : α} :
    a ∈ appendNew base more ↔ a ∈ base ∨ a ∈ more := by
  unfold appendNew
  induction more generalizing base with
  | nil => simp
  | cons b rest ih =>
    rw [List.foldl_cons, ih]
    by_cases hb : b ∈ base
    · rw [if_pos (List.contains_iff_mem.mpr hb)]
      grind
    · rw [if_neg (by simpa using hb)]
      grind

theorem nodup_appendNew {base : List α} (more : List α) (hb : base.Nodup) :
    (appendNew base more).Nodup := by
  unfold appendNew
  induction more generalizing base with
  | nil => exact hb
  | cons b rest ih =>
    rw [List.foldl_cons]
    by_cases hm : b ∈ base
    · rw [if_pos (List.contains_iff_mem.mpr hm)]
      exact ih hb
    · rw [if_neg (by simpa using hm)]
      refine ih (List.nodup_append.mpr ⟨hb, by simp, ?_⟩)
      intro a ha c hc heq
      rw [List.mem_singleton] at hc
      exact hm (hc ▸ heq ▸ ha)

@[simp] theorem mem_distinct {as : List α} {a : α} : a ∈ distinct as ↔ a ∈ as := by
  simp [distinct]

theorem nodup_distinct (as : List α) : (distinct as).Nodup := nodup_appendNew as List.nodup_nil

theorem distinct_concat (as : List α) (a : α) :
    distinct (as ++ [a]) = if a ∈ as then distinct as else distinct as ++ [a] := by
  unfold distinct appendNew
  rw [List.foldl_concat]
  change (if (distinct as).contains a then distinct as else distinct as ++ [a]) = _
  by_cases ha : a ∈ as
  · rw [if_pos ha, if_pos (List.contains_iff_mem.mpr (mem_distinct.mpr ha))]
    rfl
  · rw [if_neg ha, if_neg fun hc => ha (mem_distinct.mp (List.contains_iff_mem.mp hc))]
    rfl

/-- Lists that have nothing in common and do not repeat themselves are joined as they are. -/
theorem appendNew_eq_append {base more : List α} (h : (base ++ more).Nodup) :
    appendNew base more = base ++ more := by
  induction more generalizing base with
  | nil => simp [appendNew]
  | cons a rest ih =>
    have ha : a ∉ base := fun hm => (List.nodup_append.mp h).2.2 a hm a (by simp) rfl
    have hrest : appendNew (base ++ [a]) rest = base ++ [a] ++ rest := ih (by simpa using h)
    unfold appendNew at hrest ⊢
    rw [List.foldl_cons, if_neg (by simpa using ha), hrest, List.append_assoc,
      List.singleton_append]

/-- A list that does not repeat itself is its own list of first occurrences. -/
theorem distinct_eq_self {as : List α} (h : as.Nodup) : distinct as = as :=
  appendNew_eq_append h

/-- What is read off the elements of a list is listed in the order of the elements that it is first
read off. -/
theorem pairwise_distinct_filterMap {β : Type} (f : β → Option α) (bs : List β) :
    (distinct (bs.filterMap f)).Pairwise fun a a' =>
      bs.findIdx (fun b => f b == some a) < bs.findIdx fun b => f b == some a' := by
  induction bs using List.reverseRecOn with
  | nil => exact List.Pairwise.nil
  | append_singleton bs b ih =>
    -- One more element makes no difference to what has been read off already.
    have hfound : ∀ a ∈ distinct (bs.filterMap f), bs.findIdx (fun b => f b == some a) < bs.length ∧
        (bs ++ [b]).findIdx (fun b => f b == some a) = bs.findIdx fun b => f b == some a := by
      intro a ha
      obtain ⟨b', hb', hfb'⟩ := List.mem_filterMap.mp (mem_distinct.mp ha)
      have hlt : bs.findIdx (fun b => f b == some a) < bs.length :=
        List.findIdx_lt_length.mpr ⟨b', hb', beq_iff_eq.mpr hfb'⟩
      exact ⟨hlt, by rw [List.findIdx_append, if_pos hlt]⟩
    have hold : (distinct (bs.filterMap f)).Pairwise fun a a' =>
        (bs ++ [b]).findIdx (fun b => f b == some a) <
          (bs ++ [b]).findIdx fun b => f b == some a' := by
      refine ih.imp_of_mem fun {a a'} ha ha' h => ?_
      rw [(hfound a ha).2, (hfound a' ha').2]
      exact h
    cases hfb : f b with
    | none =>
      rwa [List.filterMap_append, List.filterMap_cons_none hfb, List.filterMap_nil, List.append_nil]
    | some c =>
      rw [List.filterMap_append, List.filterMap_cons_some hfb, List.filterMap_nil, distinct_concat]
      by_cases hc : c ∈ bs.filterMap f
      · rwa [if_pos hc]
      · rw [if_neg hc]
        refine List.pairwise_append.mpr ⟨hold, List.pairwise_singleton _ _, ?_⟩
        intro a ha c' hc'
        obtain rfl := List.mem_singleton.mp hc'
        have hnew : ¬∃ b' ∈ bs, (f b' == some c') = true := fun ⟨b', hb', hfb'⟩ =>
          hc (List.mem_filterMap.mpr ⟨b', hb', beq_iff_eq.mp hfb'⟩)
        have hlast : bs.length ≤ (bs ++ [b]).findIdx fun b => f b == some c' := by
          rw [List.findIdx_append, if_neg (mt List.findIdx_lt_length.mp hnew)]
          exact Nat.le_add_left _ _
        rw [(hfound a ha).2]
        exact Nat.lt_of_lt_of_le (hfound a ha).1 hlast

end Workgraph
