import Workgraph.Json.Value
/-!
# Reducers

How a write changes the value of a channel. Null means that nothing is written.

## Main definitions

- `Reducer`: the two rules for writes
- `Reducer.apply`: the value after a write
-/

namespace Workgraph

/-- A rule for writes: replace the value, or merge the fields of objects one level deep. -/
inductive Reducer where
  | overwrite
  | shallowMerge
deriving DecidableEq

namespace Reducer

def text : Reducer → String
  | overwrite => "Overwrite"
  | shallowMerge => "ShallowMerge"

/-- Puts the fields of one object over those of another; where one side is no object, the new value
replaces the old one. -/
def mergeFields : Json → Json → Json
  | .obj base, .obj patch => .obj (Table.merge base patch)
  | _, v => v

/-- The value of a channel after a write. -/
def apply (r : Reducer) (current written : Json) : Json :=
  if written.isNull then current
  else
    match r with
    | overwrite => written
    | shallowMerge => mergeFields current written

/-- Writing null changes nothing. -/
@[simp] theorem apply_null (r : Reducer) (current : Json) : r.apply current .null = current := by
  simp [apply, Json.isNull]

end Reducer

end Workgraph
