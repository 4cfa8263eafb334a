import Workgraph.Json.Value
import Workgraph.Text.Search
/-!
# Selectors

A selector is a dotted path into a value: its parts name the fields of objects and count the items
of arrays. The empty selector stands for the whole value.

## Main definitions

- `readIndex?`: the index that a part of a selector stands for
- `Json.step?`: one part of a selector
- `Json.follow?`: all parts, one after the other
- `Json.select?`: the value that a selector resolves to
-/

namespace Workgraph

/-- The index that a part of a selector stands for: digits with an optional plus sign. What is
larger than an unsigned 64-bit integer is no index. -/
def readIndex? (part : String) : Option Nat :=
  let digits :=
    match part.toList with
    | '+' :: rest => rest
    | cs => cs
  if digits.isEmpty || !digits.all Text.isDigit then none
  else
    let n := Text.digitsValue 0 (digits.filterMap Text.digitValue?)
    if n ≤ maxUnsigned64 then some n else none

/-- The parts of a selector. -/
def selectorParts (selector : String) : List String := Text.splitOn '.' selector

namespace Json

/-- Resolves one part of a selector: a field of an object, an item of an array. -/
def step? (v : Json) (part : String) : Option Json :=
  match v with
  | obj fields => Table.get? fields part
  | arr items => (readIndex? part).bind fun i => items[i]?
  | _ => none

/-- Resolves the parts of a selector one after the other. -/
def follow? (v : Json) : List String → Option Json
  | [] => some v
  | part :: rest => (v.step? part).bind fun w => follow? w rest

/-- The value that a selector resolves to. -/
def select? (v : Json) (selector : String) : Option Json :=
  if selector.isEmpty then some v else v.follow? (selectorParts selector)

end Json

end Workgraph
