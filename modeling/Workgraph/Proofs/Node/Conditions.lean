import Workgraph.Condition
import Workgraph.Proofs.Text.Templates
/-!
# What conditions say

Conditions that are combined hold as their connective test. The comparisons that a single condition
can make come in pairs, of which one holds if the other one does not: every value is empty or not,
and a text is equal to the expected one or not, and contains it or not. Whether a value counts as
true can be asked of any value but a text and a number; a number is refused, whatever is asked.

## Main definitions

- `Connective.Holds`: what it means that conditions hold together

## Main statements

- `evaluateAll_iff`: conditions are evaluated as their connective test
- `Text.contains_iff`: a text contains another one if the other one occurs in it
- `comparisons_paired`: which comparisons are opposites of each other
-/

namespace Workgraph

/-! ## Combined conditions -/

/-- Conditions hold in a scope, all of them or at least one, as a connective combines them. -/
def Connective.Holds (connective : Connective) (conditions : List Condition) (scope : Json) :
    Prop :=
  match connective with
  | .all => ∀ condition ∈ conditions, condition.evaluate scope = true
  | .any => ∃ condition ∈ conditions, condition.evaluate scope = true

/-- Conditions are evaluated as their connective test. -/
theorem evaluateAll_iff {conditions : List Condition} {connective : Connective} {scope : Json} :
    evaluateAll conditions connective scope = true ↔ connective.Holds conditions scope := by
  unfold evaluateAll Connective.Holds
  cases connective with
  | all => exact List.all_eq_true
  | any => exact List.any_eq_true

/-! ## Comparisons -/

theorem Text.contains_iff {s needle : String} :
    Text.contains s needle = true ↔ needle.toList <:+: s.toList := by
  unfold Text.contains
  rw [← not_iff_not, ← splitAtFirst?_eq_none_iff, Option.not_isSome_iff_eq_none]

section Holds

variable (v expected : Json) (s : String) (n : Number)

/-- Of every kind of value it can be asked whether it is empty. -/
theorem holds_empty : holds v .empty expected = v.isEmpty := by
  cases v <;> rfl

theorem holds_notEmpty : holds v .notEmpty expected = !v.isEmpty := by
  cases v <;> rfl

theorem holds_str_equal_iff :
    holds (.str s) .equal expected = true ↔ s = expected.plainText :=
  beq_iff_eq

theorem holds_str_contains_iff :
    holds (.str s) .contains expected = true ↔ expected.plainText.toList <:+: s.toList :=
  Text.contains_iff

/-- A number is compared with the number that is expected, and not taken for true or false. -/
theorem holds_num_isTrue : holds (.num n) .isTrue expected = false := by
  change numberHolds n .isTrue expected = false
  unfold numberHolds
  cases expected.asNumber? <;> rfl

theorem holds_num_isFalse : holds (.num n) .isFalse expected = false := by
  change numberHolds n .isFalse expected = false
  unfold numberHolds
  cases expected.asNumber? <;> rfl

end Holds

/-- Which comparisons are opposites of each other, when a condition is evaluated in a scope. Every
value is either empty or not. A text is either equal to the text of what is expected or not, and
either contains it or not. A value that is neither a text nor a number is either true or false, and
it is true if it counts as true. But a number is neither. -/
theorem comparisons_paired (scope expected : Json) (selector : String) :
    let v := (scope.select? selector).getD .null
    let test (op : Comparison) : Bool := Condition.evaluate ⟨selector, op, expected⟩ scope
    test .empty = v.isEmpty ∧ test .notEmpty = !test .empty ∧
      match v with
      | .str s =>
        (test .equal = true ↔ s = expected.plainText) ∧ test .notEqual = !test .equal ∧
          (test .contains = true ↔ expected.plainText.toList <:+: s.toList) ∧
          test .notContains = !test .contains
      | .num _ => test .isTrue = false ∧ test .isFalse = false
      | v => test .isTrue = v.isTruthy ∧ test .isFalse = !test .isTrue := by
  intro v test
  have htest : ∀ op, test op = holds v op expected := fun _ => rfl
  simp only [htest]
  refine ⟨holds_empty v expected, ?_, ?_⟩
  · rw [holds_empty, holds_notEmpty]
  · clear_value v
    cases v with
    | str s =>
      exact ⟨holds_str_equal_iff expected s, rfl, holds_str_contains_iff expected s, rfl⟩
    | num n => exact ⟨holds_num_isTrue expected n, holds_num_isFalse expected n⟩
    | null => exact ⟨rfl, rfl⟩
    | bool b => exact ⟨rfl, rfl⟩
    | arr items => exact ⟨rfl, rfl⟩
    | obj fields => exact ⟨rfl, rfl⟩

/-- A number other than zero counts as true, but a condition takes it neither for true nor for
false. -/
theorem number_neither_true_nor_false :
    let scope := Json.obj [("n", .int 5)]
    let test (op : Comparison) : Bool := Condition.evaluate ⟨"n", op, .null⟩ scope
    scope.select? "n" = some (.int 5) ∧ (Json.int 5).isTruthy = true ∧ test .isTrue = false ∧
      test .isFalse = false :=
  ⟨rfl, rfl, rfl, rfl⟩

end Workgraph
