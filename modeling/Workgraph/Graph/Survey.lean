import Workgraph.Agent.Middleware
/-!
# Surveys

What can be said about the nodes of a description without compiling it, in written form.

## Main definitions

- `NodeSpec.survey`: what a node is
- `Description.survey`: what stands around a node
-/

namespace Workgraph

/-- What a node is. -/
def NodeSpec.survey (n : NodeSpec) : Json :=
  .object [("key", .str n.key), ("type_key", .str n.typeKey.text), ("name", .text? n.displayName?),
    ("annotation", .bool n.isAnnotation), ("middleware", .bool n.isMiddleware),
    ("executable", .bool n.isExecutable)]

namespace Description

/-- The ends of the connections of a kind that leave and enter a node, if there are any. -/
def linksAround? (g : Description) (key : String) (kind : LinkKind) : Option Json :=
  let targets := (g.outgoing key kind).map (·.target)
  let sources := (g.incoming key kind).map (·.source)
  if targets.isEmpty && sources.isEmpty then none
  else some (.object [("out", .texts targets), ("in", .texts sources)])

/-- What stands around a node. -/
def survey (g : Description) (key : String) : Json :=
  .object [("contains", .bool (g.contains key)),
    ("links", .object (LinkKind.names.filterMap fun (name, kind) =>
      (g.linksAround? key kind).map fun v => (name, v))),
    ("edges", .texts (g.edgeTargets key)),
    ("collaborators", .texts ((g.collaborators key).map (·.key))),
    ("partners", .texts (g.partners key)),
    ("supervisor", .text? ((g.supervisor? key).map (·.key))),
    ("middlewares",
      ((g.node? key).map fun n => Json.arr ((attachments g n).map Attachment.toJson)).getD .null)]

end Description

end Workgraph
