import Workgraph.Node.Plan
/-!
# Iterations

A node that runs another node once for each element of a list. Each element sees a copy of the state
in which only the input differs. Since no element sees what another one does, it does not matter in
which order they run; the results are put in the order of the list.

## Main definitions

- `Iteration`: what is iterated over and how
- `Iteration.elementState`, `Iteration.project`: the state for an element, and what is kept of it
- `ElementFailure`, `Iteration.collect`: how elements fail, and what is written for all of them
- `Iteration.runInOrder`: the results of the elements, which run in a given order
- `iterationMaker`: makes the nodes
-/

namespace Workgraph

/-- A value under one name that is passed on under another. -/
structure ParameterMapping where
  name : String
  variableName : String

def ParameterMapping.decoder : Decoder ParameterMapping :=
  Record.decoder "ParamMapping" <|
    ParameterMapping.mk
      <$> Record.required "name" Decoder.text
      <*> Record.required "variable" Decoder.text

/-- What becomes of an element that fails: it ends the node, it leaves null, or it is left out. -/
inductive ErrorMode where
  | terminate
  | ignore
  | remove
deriving DecidableEq

def ErrorMode.names : List (String × ErrorMode) :=
  [("terminate", .terminate), ("ignore", .ignore), ("remove", .remove)]

/-- What is iterated over and how. -/
structure Iteration where
  input : String
  inputs : List ParameterMapping
  outputs : List ParameterMapping
  parallel : Bool
  maximum : Option Nat
  errorMode : ErrorMode

/-- How an element fails. -/
inductive ElementFailure where
  | cancelled
  | failed (message : String)
deriving DecidableEq

/-- The result of an element. -/
abbrev ElementResult := Except ElementFailure Json

namespace Iteration

def decoder : Decoder Iteration :=
  Record.decoder "IteratingEntity" <|
    Iteration.mk
      <$> Record.defaulted "inputVariable" Decoder.text "" ["input_variable"]
      <*> Record.defaulted "inputParams" (Decoder.list ParameterMapping.decoder) []
        ["input_params"]
      <*> Record.defaulted "outputParams" (Decoder.list ParameterMapping.decoder) []
        ["output_params"]
      <*> Record.defaulted "parallel" Decoder.bool false
      <*> Record.defaulted "maximum" (Decoder.optional Decoder.size) none
      <*> Record.defaulted "errorMode" (Decoder.enumeration ErrorMode.names) .terminate
        ["error_mode"]

/-- The iteration over nothing. -/
def blank : Iteration := ⟨"", [], [], false, none, .terminate⟩

/-- The number of elements that may run at once. -/
def width (it : Iteration) : Nat := if it.parallel then max (it.maximum.getD 2) 1 else 1

/-- The name for the index of an element. -/
def indexName : String := "index"

/-- The name for an element. -/
def itemName : String := "item"

/-- The fields of an object; other values have none. -/
def fieldsOf : Json → Table Json
  | .obj fields => fields
  | _ => []

/-- The fields of a table together with the index and the element. -/
def withElement (t : Table Json) (index : Nat) (item : Json) : Table Json :=
  (t.insert indexName (.nat index)).insert itemName item

/-- What input mappings can read: the parameters of the state, hidden by the fields of the element,
hidden by the index and the element. -/
def scope (s : Snapshot) (index : Nat) (item : Json) : Json :=
  .obj (withElement (Table.merge (fieldsOf s.parameters) (fieldsOf item)) index item)

/-- The input that an element sees: the input of the state with the index, the element and all
mapped values put over it. -/
def elementInput (it : Iteration) (s : Snapshot) (index : Nat) (item : Json) : Json :=
  let values := it.inputs.map fun p =>
    (p.variableName, ((scope s index item).select? p.name).getD .null)
  .obj (Table.merge (withElement (fieldsOf s.input) index item) values)

/-- The state that an element sees. -/
def elementState (it : Iteration) (s : Snapshot) (index : Nat) (item : Json) : Snapshot :=
  { s with input := it.elementInput s index item }

/-- What is kept of the state behind an element: an object with a field for each output mapping, or
the value of the first one under the name of elements. -/
def project (it : Iteration) (s : Snapshot) : Json :=
  let value (p : ParameterMapping) : Json := (s.resolve? p.variableName).getD .null
  match it.outputs.find? (·.name == itemName) with
  | some p => value p
  | none => .object (it.outputs.map fun p => (p.name, value p))

/-- The failure that an update reports; null reports none. -/
def reported? (update : Json) : Option String :=
  match (update.field? Channel.errorField).filter fun e => !e.isNull with
  | some (.str s) => some s
  | some e => some e.compact
  | none => none

/-- The state with the update of the child written to the channel of the child. -/
def withUpdate (s : Snapshot) (channel : Option Channel) (update : Json) : Snapshot :=
  match channel with
  | none => s
  | some c =>
    let current := (s.channel? c.name).getD c.default
    { s with channels := s.channels.insert c.name (c.reducer.apply current update) }

/-- The result of an element, from what the child gave back. -/
def resultOf (it : Iteration) (channel : Option Channel) (s : Snapshot) :
    Except NodeError NodeOutput → ElementResult
  | .error .cancelled => .error .cancelled
  | .error e => .error (.failed e.message)
  | .ok out =>
    if out.interrupt.isSome then
      .error (.failed "interrupts are not supported inside an iteration")
    else
      let update := out.update.getD .null
      match reported? update with
      | some message => .error (.failed message)
      | none => .ok (it.project (withUpdate s channel update))

/-- The text of an output in the joined text of all. -/
def outputText : Json → String
  | .str s => s
  | v => v.pretty

/-- What is written for the outputs. -/
def report (outputs : List Json) : Json :=
  .object [("output", .arr outputs),
    ("output_str", .str (String.intercalate "\n" (outputs.map outputText))),
    (Channel.errorField, .null)]

/-- The outcome of all elements: the outputs, the message of the failure that ends the node, or
cancellation, whichever stands first. `index` elements came before. -/
def collect (mode : ErrorMode) (index : Nat) :
    List ElementResult → Except ElementFailure (List Json)
  | [] => .ok []
  | .ok v :: rest => (collect mode (index + 1) rest).map (v :: ·)
  | .error .cancelled :: _ => .error .cancelled
  | .error (.failed message) :: rest =>
    match mode with
    | .terminate => .error (.failed s!"item {index} failed: {message}")
    | .ignore => (collect mode (index + 1) rest).map (.null :: ·)
    | .remove => collect mode (index + 1) rest

/-- What is reported if there is no list. -/
def notAList : String := "The input value of Iterating must be an array."

variable {σ : Type}

/-- The node that runs for each element, with its channel. -/
structure Child (σ : Type) where
  key : String
  run : Node σ
  channel : Option Channel

/-- The context in which an element runs. -/
def elementContext (ctx : NodeContext) (key : String) (index : Nat) : NodeContext :=
  { ctx with nodeKey := key, elements := ctx.elements ++ [index] }

/-- Runs one element. -/
def runElement (it : Iteration) (child : Child σ) (ctx : NodeContext) (s : Snapshot) (index : Nat)
    (item : Json) : Activity σ ElementResult := do
  if ← Activity.isCancelled then return .error .cancelled
  let s := it.elementState s index item
  let out ← child.run (elementContext ctx child.key index) s
  return it.resultOf child.channel s out

/-- Runs the elements with the given indices, one after the other. Each result comes with the index
of its element. -/
def arrivals (it : Iteration) (child : Child σ) (ctx : NodeContext) (s : Snapshot)
    (items : List Json) : List Nat → Activity σ (List (Nat × ElementResult))
  | [] => return []
  | index :: rest => do
    match items[index]? with
    | none => arrivals it child ctx s items rest
    | some item => do
      let r ← it.runElement child ctx s index item
      let more ← arrivals it child ctx s items rest
      return (index, r) :: more

/-- The results in the order of the elements. -/
def arranged (count : Nat) (results : List (Nat × ElementResult)) : List ElementResult :=
  (List.range count).filterMap fun index => (results.find? (·.1 == index)).map (·.2)

/-- The outcome of the node, whose elements run in a given order. -/
def runInOrder (it : Iteration) (child : Child σ) (order : List Nat) (ctx : NodeContext)
    (s : Snapshot) (items : List Json) : Activity σ (Except NodeError NodeOutput) := do
  let results ← it.arrivals child ctx s items order
  match collect it.errorMode 0 (arranged items.length results) with
  | .ok outputs => return .ok (.write (report outputs))
  | .error .cancelled => return .error .cancelled
  | .error (.failed message) =>
    ctx.say message
    return .ok (.failure message)

/-- Iterates over a list, element by element. -/
def node (it : Iteration) (child : Child σ) : Node σ := fun ctx s => do
  match (s.resolve? it.input).bind Json.asItems? with
  | some items => it.runInOrder child (List.range items.length) ctx s items
  | none =>
    ctx.say notAList
    return .ok (.failure notAList)

/-- The subtype of iterating nodes. -/
def subtype : String := "iterating"

/-- The node that an iterating node runs. -/
def onlyChild (ctx : BuildContext σ) : Except BuildError NodeSpec :=
  let key := ctx.node.key
  match (ctx.graph.outgoing key .agent).filterMap fun l => ctx.graph.node? l.targetKey with
  | [child] =>
    if child.hasSubtype subtype then
      .error (ctx.invalid "an iterating node cannot iterate another iterating node")
    else if child.key != key && child.isExecutable then .ok child
    else .error (ctx.invalid "iterating child must be another executable node")
  | [] => .error (ctx.invalid "iterating node has no child node")
  | _ => .error (ctx.invalid "iterating node supports exactly one child node")

/-- What is wrong with a configuration. -/
def flaw? (it : Iteration) : Option String :=
  if Text.isBlankText it.input then some "iterating needs an input variable"
  else if it.inputs.isEmpty then some "iterating needs at least one input parameter"
  else if it.outputs.isEmpty then some "iterating needs at least one output parameter"
  else none

end Iteration

/-- Makes iterating nodes. Nothing of an earlier write remains in the channel. -/
def iterationMaker {σ : Type} : Maker σ := fun ctx => do
  let it ← ctx.configuration Iteration.decoder .blank
  if let some flaw := it.flaw? then throw (ctx.invalid flaw)
  let child ← Iteration.onlyChild ctx
  let plan ← ctx.planOf child
  let key := ctx.node.key
  return .routing (it.node ⟨child.key, plan.run, plan.channel⟩) (.overwrite (channelName key))
    (.ofErrors ctx.graph key)

end Workgraph
