import Workgraph.Node.Plan
/-!
# Entrances

The nodes through which the input of a run comes into a graph: as it is, or parameter by parameter.

## Main definitions

- `startNode`: publishes the input
- `triggerNode`: publishes the declared parameters of the input
-/

namespace Workgraph

variable {σ : Type}

/-- Publishes the input of the run. -/
def startNode : Node σ := fun _ s => pure (.ok (.write s.input))

/-- Makes nodes that publish the input. -/
def startMaker : Maker σ := fun ctx =>
  .ok (.writing startNode (.shallowMerge (channelName ctx.node.key)))

/-- The names of parameters from their written form. -/
def parameterDecoder : Decoder String :=
  Record.decoder "TriggerParameter" (Record.required "name" Decoder.text)

def triggerDecoder : Decoder (List String) :=
  Record.decoder "TriggerEntity" (Record.defaulted "parameters" (Decoder.list parameterDecoder) [])

/-- The fields of the input with the given names, as far as they are there. -/
def declaredFields (input : Json) (names : List String) : Json :=
  .object (names.filterMap fun name => (input.field? name).map fun v => (name, v))

/-- Publishes the declared parameters of the input. -/
def triggerNode (names : List String) : Node σ := fun _ s =>
  pure (.ok (.write (declaredFields s.input names)))

/-- Makes nodes that publish parameters. -/
def triggerMaker : Maker σ := fun ctx => do
  let names ← ctx.configuration triggerDecoder []
  if let some blank := names.find? Text.isBlankText then
    throw (ctx.invalid s!"trigger parameter name '{blank}' is blank")
  return .writing (triggerNode names) (.shallowMerge (channelName ctx.node.key))

end Workgraph
