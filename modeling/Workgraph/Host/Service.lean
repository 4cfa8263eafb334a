import Workgraph.Node.Activity
/-!
# Services of the host

Models, tools and document stores are not part of a workflow. They are reached under names, through
narrow interfaces.

## Main definitions

- `ProviderError`, `ToolError`: how services fail
- `ModelRequest`, `Model`: models
- `Tool`, `ToolContext`, `ToolOutput`: tools
- `Document`: a piece of content
- `Services`: everything a host offers, by name
-/

namespace Workgraph

/-- Why a service could not be found or used. -/
inductive ProviderError where
  | notFound (kind name : String)
  | invocation (provider message : String)
  | invalidConfig (message : String)
deriving DecidableEq

namespace ProviderError

def message : ProviderError → String
  | notFound kind name => s!"no {kind} provider named '{name}'"
  | invocation provider message => provider ++ " failed: " ++ message
  | invalidConfig message => "invalid provider configuration: " ++ message

def fault (e : ProviderError) : Fault :=
  match e with
  | notFound _ _ =>
    .advised "NotFound" e.message "agentweave::providers::not_found"
      "Register the provider in the ProviderRegistry before compiling."
  | invocation _ _ => .coded "Invocation" e.message "agentweave::providers::invocation"
  | invalidConfig _ => .coded "InvalidConfig" e.message "agentweave::providers::invalid_config"

end ProviderError

/-- Why a tool call failed. -/
inductive ToolError where
  | notFound (tool : String)
  | invalidArguments (tool message : String)
  | execution (tool message : String)
deriving DecidableEq

namespace ToolError

def message : ToolError → String
  | notFound tool => "unknown tool: " ++ tool
  | invalidArguments tool message => "invalid arguments for " ++ tool ++ ": " ++ message
  | execution tool message => tool ++ " failed: " ++ message

def fault (e : ToolError) : Fault :=
  match e with
  | notFound _ => .coded "NotFound" e.message "agentweave::tools::not_found"
  | invalidArguments _ _ =>
    .coded "InvalidArguments" e.message "agentweave::tools::invalid_arguments"
  | execution _ _ => .coded "Execution" e.message "agentweave::tools::execution"

end ToolError

/-- How a tool is described to a model. -/
structure ToolSpec where
  name : String
  description : String
  inputSchema : Json

def ToolSpec.toJson (t : ToolSpec) : Json :=
  .object [("name", .str t.name), ("description", .str t.description),
    ("input_schema", t.inputSchema)]

/-- The schema of a tool that takes an object without particular fields. -/
def noParameters : Json := .object [("type", .str "object"), ("properties", .obj [])]

/-- A call of a model. -/
structure ModelRequest where
  model : String
  messages : List Message
  tools : List ToolSpec

def ModelRequest.hasTool (r : ModelRequest) (name : String) : Bool := r.tools.any (·.name == name)

/-- A model answers with a message, which may ask for tools. -/
abbrev Model (σ : Type) := ModelRequest → Activity σ (Except ProviderError Message)

/-- Where a tool is called from. -/
structure ToolContext where
  nodeKey : String
  step : Nat
  state : Snapshot

/-- What a tool gives back: a text for the model, or control to another agent. -/
inductive ToolOutput where
  | content (text : String)
  | handoff (signal : Handoff)

/-- A tool: its description and what it does. -/
structure Tool (σ : Type) where
  spec : ToolSpec
  invoke : ToolCall → ToolContext → Activity σ (Except ToolError ToolOutput)

def Tool.name {σ : Type} (t : Tool σ) : String := t.spec.name

/-- A piece of content with whatever is known about it. -/
structure Document where
  content : String
  metadata : Json

namespace Document

def toJson (d : Document) : Json :=
  .object [("pageContent", .str d.content), ("metadata", d.metadata)]

def decoder : Decoder Document :=
  Record.decoder "Document" <|
    Document.mk
      <$> Record.required "pageContent" Decoder.text ["page_content"]
      <*> Record.defaulted "metadata" Decoder.json .null

end Document

/-- Makes the tools of a toolset from its configuration. -/
abbrev Toolset (σ : Type) := Json → Except ProviderError (List (Tool σ))

/-- Loads documents, given a configuration and an input. -/
abbrev DocumentSource (σ : Type) := Json → Json → Activity σ (Except ProviderError (List Document))

/-- Turns documents into others, given a configuration. -/
abbrev DocumentMap (σ : Type) :=
  List Document → Json → Activity σ (Except ProviderError (List Document))

/-- Everything a host offers. -/
structure Services (σ : Type) where
  model : Option (Model σ)
  toolsets : Table (Toolset σ)
  sources : Table (DocumentSource σ)
  splitters : Table (DocumentMap σ)
  transformers : Table (DocumentMap σ)

namespace Services

variable {σ α : Type}

/-- The host that offers nothing. -/
def none : Services σ := ⟨.none, [], [], [], []⟩

/-- Looks up a service of some kind. -/
def lookup (services : Table α) (kind name : String) : Except ProviderError α :=
  match services.get? name with
  | some a => .ok a
  | .none => .error (.notFound kind name)

end Services

end Workgraph
