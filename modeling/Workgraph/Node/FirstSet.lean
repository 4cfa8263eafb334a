import Workgraph.Node.Plan
/-!
# First values

A node that picks the first set value among several selectors, by itself and in named groups. Behind
a branch this finds the result of whichever node has run.

## Main definitions

- `firstSet`: the first value that is not null
- `SelectorGroup`, `Aggregation`: what is looked for
- `aggregationMaker`: makes the nodes
-/

namespace Workgraph

/-- The first value other than null that one of the selectors resolves to, or else null. -/
def firstSet (s : Snapshot) (selectors : List String) : Json :=
  ((selectors.filterMap s.resolve?).find? fun v => !v.isNull).getD .null

/-- Selectors under a name. -/
structure SelectorGroup where
  name : String
  selectors : List String

def SelectorGroup.decoder : Decoder SelectorGroup :=
  Record.decoder "AggregatorGroup" <|
    SelectorGroup.mk
      <$> Record.required "name" Decoder.text
      <*> Record.defaulted "variables" (Decoder.list Decoder.text) []

/-- What a node looks for. -/
structure Aggregation where
  selectors : List String
  groups : List SelectorGroup

namespace Aggregation

/-- What a node looks for, from its written form. -/
def decoder : Decoder Aggregation :=
  Record.decoder "AggregatorEntity" <|
    Aggregation.mk
      <$> Record.defaulted "variables" (Decoder.list Decoder.text) []
      <*> Record.defaulted "groups" (Decoder.list SelectorGroup.decoder) []

/-- The field for a value that was found. -/
def outputField : String := "output"

/-- The fields that are written in a state: the value of the plain selectors, if there are any, then
an object for each group. -/
def results (a : Aggregation) (s : Snapshot) : List (String × Json) :=
  (if a.selectors.isEmpty then [] else [(outputField, firstSet s a.selectors)]) ++
    a.groups.map fun g => (g.name, .obj [(outputField, firstSet s g.selectors)])

/-- What is wrong with a configuration. -/
def flaw? (a : Aggregation) : Option String :=
  if a.selectors.isEmpty && a.groups.isEmpty then
    some "variable aggregator needs variables or groups"
  else
    match a.groups.find? (Text.isBlankText ·.name) with
    | some g =>
      some ("aggregator group with variables " ++ Text.quotedList g.selectors ++ " has no name")
    | none =>
      (repeatedName? [] (a.groups.map (·.name))).map fun name =>
        s!"duplicate aggregator group '{name}'"

end Aggregation

variable {σ : Type}

/-- Writes what is found. -/
def aggregationNode (a : Aggregation) : Node σ := fun _ s =>
  pure (.ok (.write (.object (a.results s))))

/-- Makes nodes that look for first values. Nothing of an earlier write remains in the channel. -/
def aggregationMaker : Maker σ := fun ctx => do
  let a ← ctx.configuration Aggregation.decoder ⟨[], []⟩
  if let some flaw := a.flaw? then throw (ctx.invalid flaw)
  return .writing (aggregationNode a) (.overwrite (channelName ctx.node.key))

end Workgraph
