import Workgraph.Run.Error
import Workgraph.Workflow.Basic
/-!
# Frontiers

Which nodes run next. The nodes of a step send the run to candidates. A join among the candidates is
held back as long as one of its inputs is still to come, so that it runs once and sees what all of
its inputs have written.

## Main definitions

- `Workflow.targets`: where the run continues behind one node
- `Workflow.candidates`: where it continues behind the nodes of a step
- `Workflow.reachable`: the nodes that can still come, without passing through a given one
- `Workflow.awaitsInput`, `Workflow.holdJoins`: which joins are held back
-/

namespace Workgraph

namespace Workflow

variable {σ : Type}

/-- The transfer that a node asked for. -/
def handoffFrom? (handoffs : List (String × Handoff)) (key : String) : Option Handoff :=
  (handoffs.find? (·.1 == key)).map (·.2)

/-- Where the run continues behind a node: at the target of its transfer, or else where the node
routes to. -/
def targets (w : Workflow σ) (handoffs : List (String × Handoff)) (s : Snapshot) (key : String) :
    Except RunError (List String) :=
  match handoffFrom? handoffs key with
  | some h => .ok [h.target]
  | none =>
    match w.node? key with
    | some n => .ok (n.route s).targets
    | none => .error (.unknownNode key key)

/-- The targets of a node, all of which must be nodes. -/
def knownTargets (w : Workflow σ) (handoffs : List (String × Handoff)) (s : Snapshot)
    (key : String) : Except RunError (List String) := do
  let ts ← w.targets handoffs s key
  match ts.find? fun t => !w.contains t with
  | some t => .error (.unknownNode t key)
  | none => .ok ts

/-- Where the run continues behind the nodes of a step, each candidate once. -/
def candidates (w : Workflow σ) (ran : List String) (handoffs : List (String × Handoff))
    (s : Snapshot) : Except RunError (List String) := do
  let ts ← ran.mapM (w.knownTargets handoffs s)
  .ok (distinct ts.flatten)

/-- The successors of a node, without a given one. -/
def successorsAvoiding (w : Workflow σ) (avoided key : String) : List String :=
  match w.node? key with
  | some n => n.successors.filter (· != avoided)
  | none => []

/-- The nodes that can be reached from given ones in at most a number of steps, without passing
through one that is avoided. -/
def spread (w : Workflow σ) (avoided : String) : Nat → List String → List String
  | 0, keys => keys
  | steps + 1, keys =>
    w.spread avoided steps (appendNew keys (keys.flatMap (w.successorsAvoiding avoided)))

/-- The nodes that can be reached from given ones without passing through one that is avoided. No
path needs more steps than there are nodes. -/
def reachable (w : Workflow σ) (avoided : String) (keys : List String) : List String :=
  w.spread avoided w.nodes.length (distinct (keys.filter (· != avoided)))

/-- Whether an input of a join is among the candidates or can be reached from them without passing
through the join. -/
def awaitsInput (w : Workflow σ) (join : WorkNode σ) (candidates : List String) : Bool :=
  (w.reachable join.key candidates).any join.inputs.contains

/-- Whether a candidate is a join that waits for an input. -/
def isHeld (w : Workflow σ) (candidates : List String) (key : String) : Bool :=
  (w.node? key).any fun n => n.isJoin && w.awaitsInput n candidates

/-- The candidates that run next and the joins that are held back. If every candidate is a join that
waits, they all run. -/
def holdJoins (w : Workflow σ) (candidates : List String) : List String × List String :=
  let ready := candidates.filter fun key => !w.isHeld candidates key
  if ready.isEmpty then (candidates, []) else (ready, candidates.filter (w.isHeld candidates))

end Workflow

end Workgraph
