import Workgraph.Condition
import Workgraph.Node.Plan
/-!
# Branches

A branch looks at its cases in order, selects the port of the first one that holds, and sends the
run through that port.

## Main definitions

- `Case`: conditions and the name of a port
- `selectCase`: the port of the first case that holds
- `branchMaker`: makes the nodes
-/

namespace Workgraph

/-- A case of a branch. -/
structure Case where
  name : String
  conditions : List Condition
  connective : Connective

namespace Case

def decoder : Decoder Case :=
  Record.decoder "Case" <|
    Case.mk
      <$> Record.required "caseId" Decoder.text ["case_id"]
      <*> Record.defaulted "conditions" (Decoder.list Condition.decoder) []
      <*> Record.defaulted "logicalOperator" (Decoder.enumeration Connective.names) .all
        ["logical_operator"]

/-- Whether a case holds in a scope. -/
def holds (c : Case) (scope : Json) : Bool := evaluateAll c.conditions c.connective scope

end Case

/-- The cases of a branch from their written form. -/
def branchDecoder : Decoder (List Case) :=
  Record.decoder "IfElseEntity" (Record.defaulted "cases" (Decoder.list Case.decoder) [])

/-- The field in which a branch writes the selected port. -/
def routerField : String := "router"

/-- The port that is selected if no case holds. -/
def elseCase : String := "else"

/-- The port of the first case that holds. -/
def selectCase (key : String) (cases : List Case) (scope : Json) : String :=
  match cases.find? (·.holds scope) with
  | some c => portOf key c.name
  | none => portOf key elseCase

variable {σ : Type}

/-- Selects a port and writes it down. -/
def branchNode (key : String) (cases : List Case) : Node σ := fun ctx s => do
  let selected := selectCase key cases s.parameters
  ctx.say ("selected " ++ selected)
  return .ok (.write (.obj [(routerField, .str selected)]))

/-- What is wrong with the name of a case. -/
def caseFlaw? (c : Case) : Option String :=
  if Text.isBlankText c.name then some "router case has an empty caseId"
  else if c.name == elseCase then some "caseId 'else' is reserved"
  else none

/-- Makes branches. -/
def branchMaker : Maker σ := fun ctx => do
  let cases ← ctx.configuration branchDecoder []
  if let some flaw := cases.findSome? caseFlaw? then throw (ctx.invalid flaw)
  let key := ctx.node.key
  return .routing (branchNode key cases) (.shallowMerge (channelName key))
    (.ofPorts ctx.graph key routerField)

end Workgraph
