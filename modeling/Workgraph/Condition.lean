import Workgraph.Json.Decoder
import Workgraph.Selector
/-!
# Conditions

A condition compares the value that a selector resolves to with an expected value. Which comparisons
make sense depends on the kind of the actual value: numbers are compared as numbers, texts as texts,
and of other values one can only ask whether they are empty or count as true.

## Main definitions

- `Comparison`, `Connective`, `Condition`: comparisons, ways to combine, conditions
- `holds`: whether a comparison of two values holds
- `Condition.evaluate`, `evaluateAll`: conditions in a scope
-/

namespace Workgraph

/-- The comparisons a condition can make. -/
inductive Comparison where
  | equal
  | notEqual
  | gt
  | lt
  | ge
  | le
  | contains
  | notContains
  | startsWith
  | endsWith
  | empty
  | notEmpty
  | isTrue
  | isFalse
deriving DecidableEq

namespace Comparison

def names : List (String × Comparison) :=
  [("equal", equal), ("not_equal", notEqual), ("gt", gt), ("lt", lt), ("ge", ge), ("le", le),
    ("contains", contains), ("not_contains", notContains), ("starts_with", startsWith),
    ("ends_with", endsWith), ("empty", empty), ("not_empty", notEmpty), ("is_true", isTrue),
    ("is_false", isFalse)]

def text : Comparison → String
  | equal => "equal"
  | notEqual => "not_equal"
  | gt => "gt"
  | lt => "lt"
  | ge => "ge"
  | le => "le"
  | contains => "contains"
  | notContains => "not_contains"
  | startsWith => "starts_with"
  | endsWith => "ends_with"
  | empty => "empty"
  | notEmpty => "not_empty"
  | isTrue => "is_true"
  | isFalse => "is_false"

end Comparison

/-- How several conditions are combined. -/
inductive Connective where
  | all
  | any
deriving DecidableEq

def Connective.names : List (String × Connective) := [("and", .all), ("or", .any)]

/-- A comparison of the value under a selector with an expected value. -/
structure Condition where
  selector : String
  comparison : Comparison
  expected : Json

/-- The number that an expected value stands for: itself, or what a text reads as. -/
def Json.asNumber? : Json → Option Extended
  | .num n => some n.toExtended
  | .str s => readNumber? s
  | _ => none

/-- Whether a comparison of a number with an expected number holds. -/
def Extended.holds (a : Extended) (op : Comparison) (b : Extended) : Bool :=
  match op with
  | .equal => a.eq b
  | .notEqual => !a.eq b
  | .gt => b.lt a
  | .lt => a.lt b
  | .ge => b.le a
  | .le => a.le b
  | _ => false

/-- Whether a comparison of a number with an expected value holds. A number is never empty, and
anything else is refused if the expected value is no number. -/
def numberHolds (n : Number) (op : Comparison) (expected : Json) : Bool :=
  match op with
  | .empty => false
  | .notEmpty => true
  | op =>
    match expected.asNumber? with
    | some b => n.toExtended.holds op b
    | none => false

/-- Whether a comparison of two texts holds. -/
def textHolds (s : String) (op : Comparison) (t : String) : Bool :=
  match op with
  | .equal => s == t
  | .notEqual => s != t
  | .contains => Text.contains s t
  | .notContains => !Text.contains s t
  | .startsWith => Text.startsWith s t
  | .endsWith => Text.endsWith s t
  | .empty => s.isEmpty
  | .notEmpty => !s.isEmpty
  | .isTrue => Text.lowercase s == "true"
  | .isFalse => Text.lowercase s == "false"
  | .gt => false
  | .lt => false
  | .ge => false
  | .le => false

/-- Whether a comparison of a value that is neither number nor text holds. -/
def plainHolds (v : Json) (op : Comparison) : Bool :=
  match op with
  | .empty => v.isEmpty
  | .notEmpty => !v.isEmpty
  | .isTrue => v.isTruthy
  | .isFalse => !v.isTruthy
  | _ => false

/-- Whether a comparison of an actual with an expected value holds. -/
def holds (actual : Json) (op : Comparison) (expected : Json) : Bool :=
  match actual with
  | .num n => numberHolds n op expected
  | .str s => textHolds s op expected.plainText
  | other => plainHolds other op

namespace Condition

/-- The value that a condition is about; a selector that does not resolve gives null. -/
def actual (c : Condition) (scope : Json) : Json := (scope.select? c.selector).getD .null

/-- Whether a condition holds in a scope. -/
def evaluate (c : Condition) (scope : Json) : Bool :=
  holds (c.actual scope) c.comparison c.expected

def toJson (c : Condition) : Json :=
  .object [("variableSelector", .str c.selector), ("comparisonOperator", .str c.comparison.text),
    ("value", c.expected)]

def decoder : Decoder Condition :=
  Record.decoder "Condition" <|
    Condition.mk
      <$> Record.required "variableSelector" Decoder.text ["variable_selector"]
      <*> Record.required "comparisonOperator" (Decoder.enumeration Comparison.names)
        ["comparison_operator"]
      <*> Record.defaulted "value" Decoder.json .null

end Condition

/-- Whether conditions hold together. No conditions at all hold under `all` and fail under
`any`. -/
def evaluateAll (conditions : List Condition) (connective : Connective) (scope : Json) : Bool :=
  match connective with
  | .all => conditions.all (·.evaluate scope)
  | .any => conditions.any (·.evaluate scope)

end Workgraph
