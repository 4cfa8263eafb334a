import Workgraph.Text.Lowercase
import Workgraph.Text.Search
/-!
# Names in a graph

How the nodes of a graph, their ports and their channels are named, and the keys under which the
makers of nodes are registered.

## Main definitions

- `channelName`: the channel that belongs to a node key
- `failPort`, `splitPort`, `nodeKeyOf`: endpoints of connections, with or without a port
- `NodeKind`, `LinkKind`: the kinds of nodes and connections
- `TypeKey`: kind, subtype and provider of a node
-/

namespace Workgraph

/-- The name of the channel that belongs to a node: its key in lower case with a fixed ending. -/
def channelName (key : String) : String := Text.lowercase key ++ "_channel"

/-- The character between a node key and a port. -/
def portSeparator : Char := '/'

/-- The endpoint of a named port of a node. -/
def portOf (key port : String) : String := key ++ portSeparator.toString ++ port

/-- The endpoint from which the connections for failures leave a node. -/
def failPort (key : String) : String := portOf key "fail"

/-- The node key and the port of an endpoint. -/
def splitPort (endpoint : String) : String × Option String :=
  match Text.cut? portSeparator endpoint with
  | some (key, port) => (key, some port)
  | none => (endpoint, none)

/-- The node key of an endpoint. -/
def nodeKeyOf (endpoint : String) : String := (splitPort endpoint).1

/-- The kinds of nodes. Agents and workflow nodes run; the others are resources. -/
inductive NodeKind where
  | agent
  | workflow
  | toolset
  | knowledge
  | expert
deriving DecidableEq

namespace NodeKind

def names : List (String × NodeKind) :=
  [("agent", agent), ("workflow", workflow), ("toolset", toolset), ("knowledge", knowledge),
    ("xpert", expert)]

def text : NodeKind → String
  | agent => "agent"
  | workflow => "workflow"
  | toolset => "toolset"
  | knowledge => "knowledge"
  | expert => "xpert"

end NodeKind

/-- The kinds of connections: control flow, use of tools, handing off to an agent, consulting an
expert, and augmenting an agent. -/
inductive LinkKind where
  | edge
  | toolset
  | agent
  | expert
  | workflow
deriving DecidableEq

namespace LinkKind

def names : List (String × LinkKind) :=
  [("edge", edge), ("toolset", toolset), ("agent", agent), ("xpert", expert),
    ("workflow", workflow)]

def text : LinkKind → String
  | edge => "edge"
  | toolset => "toolset"
  | agent => "agent"
  | expert => "xpert"
  | workflow => "workflow"

end LinkKind

/-- The key under which the maker of a node is registered. There is a provider only where there is
a subtype. -/
structure TypeKey where
  kind : NodeKind
  subtype : Option String
  provider : Option String
deriving DecidableEq

namespace TypeKey

/-- The key for a kind, a subtype and a provider; a provider without a subtype is dropped. -/
def make (kind : NodeKind) (subtype provider : Option String) : TypeKey :=
  ⟨kind, subtype, subtype.bind fun _ => provider⟩

/-- The key without its provider, if it has one. -/
def generic? (k : TypeKey) : Option TypeKey :=
  k.provider.map fun _ => { k with provider := none }

/-- The written form: the parts that are present, with colons between them. -/
def text (k : TypeKey) : String :=
  match k.subtype, k.provider with
  | none, _ => k.kind.text
  | some s, none => k.kind.text ++ ":" ++ s
  | some s, some p => k.kind.text ++ ":" ++ s ++ ":" ++ p

end TypeKey

end Workgraph
