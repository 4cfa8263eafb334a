import Workgraph.Graph.Name
import Workgraph.Json.Decoder
import Workgraph.Text.Blank
/-!
# Graph descriptions

A workflow as it is written down: nodes with keys, connections between them, and possibly a node to
begin with. Descriptions may contradict themselves; checking them is another matter.

## Main definitions

- `NodeSpec`, `Link`, `Description`: nodes, connections, descriptions
- `NodeSpec.isExecutable`: which nodes a run visits
- `Description.edgeTargets`: where the edges from an endpoint lead
- `Description.collaborators`, `Description.partners`, `Description.supervisor?`: the relations
  between agents
- `Description.decoder`, `Description.toJson`: the written form
-/

namespace Workgraph

/-- A node of a description. The entity is the configuration of the node. -/
structure NodeSpec where
  key : String
  kind : NodeKind
  subtype : Option String
  provider : Option String
  title : Option String
  entity : Json

namespace NodeSpec

/-- A node of a kind, with nothing else stated. -/
def plain (key : String) (kind : NodeKind) : NodeSpec := ⟨key, kind, none, none, none, .null⟩

/-- The key under which the maker of the node is registered. -/
def typeKey (n : NodeSpec) : TypeKey := .make n.kind n.subtype n.provider

/-- Whether a node has a given subtype. -/
def hasSubtype (n : NodeSpec) (subtype : String) : Bool := n.subtype == some subtype

/-- Notes are part of the description only. -/
def isAnnotation (n : NodeSpec) : Bool := n.kind == .workflow && n.hasSubtype "note"

/-- Middleware augments the agents it is attached to. -/
def isMiddleware (n : NodeSpec) : Bool := n.kind == .workflow && n.hasSubtype "middleware"

/-- Whether a run visits the node. -/
def isExecutable (n : NodeSpec) : Bool :=
  match n.kind with
  | .agent => true
  | .workflow => !n.isAnnotation && !n.isMiddleware
  | .toolset => false
  | .knowledge => false
  | .expert => false

/-- The name under which people know the node: the name in its configuration or its title, unless
that is blank. -/
def displayName? (n : NodeSpec) : Option String :=
  let name := ((n.entity.field? "name").bind Json.asText?).or n.title
  name.filter fun s => !Text.isBlankText s

/-- The name of the node, or its key if it has no name. -/
def displayName (n : NodeSpec) : String := n.displayName?.getD n.key

/-- The written form of a node; what is absent is left out. -/
def toJson (n : NodeSpec) : Json :=
  .object <|
    [("key", .str n.key), ("type", .str n.kind.text), ("entity", n.entity)] ++
      (n.subtype.map fun s => ("subtype", Json.str s)).toList ++
      (n.provider.map fun s => ("provider", Json.str s)).toList ++
      (n.title.map fun s => ("title", Json.str s)).toList

def decoder : Decoder NodeSpec :=
  Record.decoder "GraphNode" <|
    NodeSpec.mk
      <$> Record.required "key" Decoder.text
      <*> Record.required "type" (Decoder.enumeration NodeKind.names)
      <*> Record.defaulted "subtype" (Decoder.optional Decoder.text) none
      <*> Record.defaulted "provider" (Decoder.optional Decoder.text) none
      <*> Record.defaulted "title" (Decoder.optional Decoder.text) none
      <*> Record.defaulted "entity" Decoder.json .null

end NodeSpec

/-- A connection of a description. Both ends may name a port of a node. -/
structure Link where
  source : String
  target : String
  kind : LinkKind
deriving DecidableEq

namespace Link

def edge (source target : String) : Link := ⟨source, target, .edge⟩

/-- The key of the node that the connection leaves. -/
def sourceKey (l : Link) : String := nodeKeyOf l.source

/-- The port that the connection leaves, if it names one. -/
def sourcePort? (l : Link) : Option String := (splitPort l.source).2

/-- The key of the node that the connection enters. -/
def targetKey (l : Link) : String := nodeKeyOf l.target

/-- Whether a node is at one of the ends. -/
def touches (l : Link) (key : String) : Bool := l.sourceKey == key || l.targetKey == key

def toJson (l : Link) : Json :=
  .object [("from", .str l.source), ("to", .str l.target), ("type", .str l.kind.text)]

def decoder : Decoder Link :=
  Record.decoder "Connection" <|
    Link.mk
      <$> Record.required "from" Decoder.text
      <*> Record.required "to" Decoder.text
      <*> Record.defaulted "type" (Decoder.enumeration LinkKind.names) .edge

end Link

/-- A workflow as it is written down. -/
structure Description where
  nodes : List NodeSpec
  links : List Link
  entry : Option String

/-- Adds the elements of a list behind another, leaving out those that are there already. -/
def appendNew {α : Type} [BEq α] (base more : List α) : List α :=
  more.foldl (fun acc a => if acc.contains a then acc else acc ++ [a]) base

/-- The elements of a list in the order of their first occurrence. -/
def distinct {α : Type} [BEq α] (as : List α) : List α := appendNew [] as

namespace Description

/-- The description of nothing. -/
def empty : Description := ⟨[], [], none⟩

/-- The first node with a given key. -/
def node? (g : Description) (key : String) : Option NodeSpec := g.nodes.find? (·.key == key)

/-- Whether there is a node with a given key. -/
def contains (g : Description) (key : String) : Bool := (g.node? key).isSome

/-- The connections of a kind that leave a node, from whatever port. -/
def outgoing (g : Description) (key : String) (kind : LinkKind) : List Link :=
  g.links.filter fun l => l.kind == kind && l.sourceKey == key

/-- The connections of a kind that enter a node. -/
def incoming (g : Description) (key : String) (kind : LinkKind) : List Link :=
  g.links.filter fun l => l.kind == kind && l.targetKey == key

/-- The targets of the edges that leave exactly the given endpoint, each once, in the order of the
description. -/
def edgeTargets (g : Description) (endpoint : String) : List String :=
  distinct ((g.links.filter fun l => l.kind == .edge && l.source == endpoint).map (·.target))

/-- The agents that a node may hand off to. -/
def collaborators (g : Description) (key : String) : List NodeSpec :=
  ((g.outgoing key .agent).filterMap fun l => g.node? l.targetKey).filter fun n => n.kind == .agent

/-- The nodes connected to a node by agent connections in both directions. -/
def partners (g : Description) (key : String) : List String :=
  ((g.outgoing key .agent).map (·.targetKey)).filter fun partner =>
    (g.outgoing partner .agent).any (·.targetKey == key)

/-- The agent that delegates to a node without being delegated to by it. -/
def supervisor? (g : Description) (key : String) : Option NodeSpec :=
  let partners := g.partners key
  let sources := ((g.incoming key .agent).map (·.sourceKey)).filter fun s => !partners.contains s
  (sources.filterMap g.node?).find? fun n => n.kind == .agent

def toJson (g : Description) : Json :=
  .object <|
    [("nodes", .arr (g.nodes.map NodeSpec.toJson)),
      ("connections", .arr (g.links.map Link.toJson))] ++
    (g.entry.map fun e => ("entry", Json.str e)).toList

def decoder : Decoder Description :=
  Record.decoder "GraphDescriptor" <|
    Description.mk
      <$> Record.defaulted "nodes" (Decoder.list NodeSpec.decoder) []
      <*> Record.defaulted "connections" (Decoder.list Link.decoder) []
      <*> Record.defaulted "entry" (Decoder.optional Decoder.text) none

/-- Reads the text of a description. -/
def ofText (s : String) : Except DecodeError Description := decodeText decoder s

end Description

end Workgraph
