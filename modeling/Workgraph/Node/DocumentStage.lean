import Workgraph.Node.Plan
/-!
# Document stages

The stages of a pipeline for documents: loading them, splitting them, transforming them. The work
itself is done by services of the host.

## Main definitions

- `DocumentStage`: a stage with its service
- `documentsOf`: the documents that an input stands for
- `sourceMaker`, `splitterMaker`, `transformerMaker`: make the nodes
-/

namespace Workgraph

/-- A stage of a pipeline: it loads documents, or it makes others from those that it is given. -/
inductive DocumentStage (σ : Type) where
  | load (source : DocumentSource σ)
  | change (f : DocumentMap σ)

/-- The configuration of a stage. -/
structure StageSetup where
  input : Option String
  config : Json

def StageSetup.decoder : Decoder StageSetup :=
  Record.decoder "KnowledgeEntity" <|
    StageSetup.mk
      <$> Record.defaulted "input" (Decoder.optional Decoder.text) none
      <*> Record.defaulted "config" Decoder.json .null

/-- The documents that an input stands for: none, a text as a document of its own, one document, or
a list of them. -/
def documentsOf : Json → Except DecodeError (List Document)
  | .null => .ok []
  | .str s => .ok [⟨s, .null⟩]
  | .obj fields => (decodeValue Document.decoder (.obj fields)).map fun d => [d]
  | v => decodeValue (Decoder.list Document.decoder) v

variable {σ : Type}

/-- The work of a stage. -/
def DocumentStage.process (stage : DocumentStage σ) (config input : Json) :
    Activity σ (Except NodeError (Except ProviderError (List Document))) := do
  match stage with
  | load source => return .ok (← source config input)
  | change f =>
    match documentsOf input with
    | .error e => return .error (.decoding e)
    | .ok documents => return .ok (← f documents config)

/-- What is written for documents. -/
def documentReport (documents : List Document) : Json :=
  .object [("documents", .arr (documents.map Document.toJson)), (Channel.errorField, .null)]

/-- Works on the documents of an input. -/
def stageNode (stage : DocumentStage σ) (provider : String) (setup : StageSetup) : Node σ :=
  fun ctx s => do
    let input := (setup.input.bind s.resolve?).getD .null
    match ← stage.process setup.config input with
    | .error e => return .error e
    | .ok (.error e) => return .ok (.failure e.message)
    | .ok (.ok documents) =>
      ctx.say s!"{provider} produced {documents.length} documents"
      return .ok (.write (documentReport documents))

/-- Makes the nodes of a stage. `stageOf` looks up the service of the provider that the node names;
`needsInput` holds the name of a stage that cannot do without an input. -/
def stageMaker (stageOf : Services σ → String → Except ProviderError (DocumentStage σ))
    (needsInput : Option String) : Maker σ := fun ctx => do
  let provider ← ctx.requireProvider
  let stage ← (stageOf ctx.services provider).mapError (.ofProvider ctx.node.typeKey)
  let setup ← ctx.configuration StageSetup.decoder ⟨none, .null⟩
  if let (some name, none) := (needsInput, setup.input) then
    throw (ctx.invalid s!"{name} node needs an input selector")
  let key := ctx.node.key
  return .routing (stageNode stage provider setup) (.shallowMerge (channelName key))
    (.ofErrors ctx.graph key)

/-- Makes nodes that load documents. -/
def sourceMaker : Maker σ :=
  stageMaker (fun s name => (Services.lookup s.sources "source" name).map .load) none

/-- Makes nodes that split documents. -/
def splitterMaker : Maker σ :=
  stageMaker (fun s name => (Services.lookup s.splitters "splitter" name).map .change)
    (some "chunker")

/-- Makes nodes that transform documents. -/
def transformerMaker : Maker σ :=
  stageMaker (fun s name => (Services.lookup s.transformers "transformer" name).map .change)
    (some "processor")

end Workgraph
