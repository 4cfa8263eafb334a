import Workgraph.Agent.Build
import Workgraph.Node.Branch
import Workgraph.Node.DocumentStage
import Workgraph.Node.Entrance
import Workgraph.Node.FirstSet
import Workgraph.Node.Iteration
import Workgraph.Node.ListQuery
/-!
# Standard nodes

The makers that every workshop starts with.

## Main definitions

- `standardMakers`: the makers by the types of nodes
-/

namespace Workgraph

variable {σ : Type}

/-- The type of workflow nodes with a given subtype. -/
def workflowType (subtype : String) : TypeKey := .make .workflow (some subtype) none

/-- The makers of the standard nodes. -/
def standardMakers : Registry (Maker σ) :=
  [(.make .agent none none, agentMaker),
    (workflowType "start", startMaker),
    (workflowType "trigger", triggerMaker),
    (workflowType "if-else", branchMaker),
    (workflowType "list-operator", listQueryMaker),
    (workflowType "variable-aggregator", aggregationMaker),
    (workflowType Iteration.subtype, iterationMaker),
    (workflowType "source", sourceMaker),
    (workflowType "chunker", splitterMaker),
    (workflowType "processor", transformerMaker)]

end Workgraph
