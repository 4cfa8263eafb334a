import Workgraph.Graph.Structure
import Workgraph.Workflow.Basic
/-!
# Compiling descriptions

A description is compiled by making a plan for each node that runs. All findings are collected
before the outcome is decided, so that everything wrong with a description is reported at once.

## Main definitions

- `successorsOf`, `inputsOf`: the surroundings of a node
- `Draft`, `Draft.add`: what has been compiled so far, and one more node
- `strayEdges`, `resolveEntry`: edges that lead to nodes that do not run; the nodes to begin with
- `compile`: the workflow of a description, or everything that is wrong with it
-/

namespace Workgraph

/-- A description that is not fit to run, with all findings. -/
structure CompileError where
  report : Report

namespace CompileError

def message (e : CompileError) : String :=
  s!"graph failed validation with {e.report.errors.length} error(s):\n{e.report.text}"

def fault (e : CompileError) : Fault :=
  .advised "CompileError" e.message "agentweave::graphs::validation"
    "Fix the listed issues in the graph descriptor and compile again."

def toJson (e : CompileError) : Json := .object (("report", e.report.toJson) :: e.fault.fields)

end CompileError

/-- The nodes that an edge from any port of a node leads to, each once. -/
def successorsOf (g : Description) (key : String) : List String :=
  distinct ((g.outgoing key .edge).map (·.targetKey))

/-- The other nodes that run and have an edge into a node, each once. -/
def inputsOf (g : Description) (key : String) : List String :=
  distinct <| ((g.incoming key .edge).map (·.sourceKey)).filter fun source =>
    source != key && (g.node? source).any (·.isExecutable)

variable {σ : Type}

/-- What has been compiled so far. -/
structure Draft (σ : Type) where
  nodes : List (WorkNode σ)
  schema : Schema
  report : Report

namespace Draft

/-- Whether a node with a given key has been compiled. -/
def contains (d : Draft σ) (key : String) : Bool := d.nodes.any (·.key == key)

def note (d : Draft σ) (i : Issue) : Draft σ := { d with report := d.report ++ [i] }

/-- The finding for a node that cannot be built. -/
def buildIssue (n : NodeSpec) (e : BuildError) : Issue :=
  .error (if e.isMissing then .missingStrategy else .invalidNodeConfig) (some n.key) e.message

/-- The finding for a node whose channel is taken. -/
def channelIssue (n : NodeSpec) (e : ChannelError) : Issue :=
  .error .channelConflict (some n.key) <|
    match e with
    | .duplicate name => s!"channel '{name}' is already written by another node"
    | .unknown _ => e.message

/-- Registers the channel of a plan, if it has one. -/
def registerChannel (schema : Schema) : Option Channel → Except ChannelError Schema
  | none => .ok schema
  | some c => schema.register c

/-- The node that runs, from its plan. -/
def workNode (g : Description) (n : NodeSpec) (plan : NodePlan σ) : WorkNode σ where
  key := n.key
  run := plan.run
  navigator := plan.navigator
  channel := plan.channel.map (·.name)
  handoffTargets := plan.handoffTargets
  edges := g.edgeTargets n.key
  successors := successorsOf g n.key
  inputs := inputsOf g n.key

/-- Compiles one more node, unless there is one with its key. -/
def add (w : Workshop σ) (g : Description) (site : List String) (d : Draft σ) (n : NodeSpec) :
    Draft σ :=
  if d.contains n.key then d
  else
    match w.build g site n with
    | .error e => d.note (buildIssue n e)
    | .ok plan =>
      match registerChannel d.schema plan.channel with
      | .error e => d.note (channelIssue n e)
      | .ok schema => { d with nodes := d.nodes ++ [workNode g n plan], schema := schema }

end Draft

/-- A finding for each edge that leads to a node that does not run. -/
def strayEdges (g : Description) (nodes : List (WorkNode σ)) : Report :=
  (g.links.filter (·.kind == .edge)).filterMap fun l =>
    let target := l.targetKey
    if (g.node? target).any (!·.isExecutable) && !nodes.any (·.key == target) then
      some (.error .danglingConnection (some target)
        s!"edge {l.source} -> {l.target} targets a non-executable node")
    else none

/-- The nodes at which workflows start. -/
def startKeys (g : Description) (nodes : List (WorkNode σ)) : List String :=
  (g.nodes.filter fun n => n.hasSubtype "start" && nodes.any (·.key == n.key)).map (·.key)

/-- The nodes that no connection from another node enters. -/
def rootKeys (g : Description) (nodes : List (WorkNode σ)) : List String :=
  distinct <| (nodes.map (·.key)).filter fun key =>
    !g.links.any fun l => l.targetKey == key && l.sourceKey != key

/-- The nodes to begin with, and what is wrong with them: the declared node, or else the start
nodes, or else the nodes that no connection enters. A description that is not fit to run anyway need
not have any. -/
def resolveEntry (g : Description) (nodes : List (WorkNode σ)) (unfit : Bool) :
    List String × Report :=
  match g.entry with
  | some entry =>
    if nodes.any (·.key == entry) then ([entry], [])
    else
      ([], [.error .noEntryPoint (some entry)
        s!"declared entry '{entry}' is not an executable node"])
  | none =>
    let starts := startKeys g nodes
    if !starts.isEmpty then (starts, [])
    else
      let roots := rootKeys g nodes
      if roots.isEmpty && !unfit then
        ([], [.error .noEntryPoint none "no start node could be determined"])
      else (roots, [])

/-- Compiles the nodes that run. -/
def draftOf (w : Workshop σ) (g : Description) (site : List String) : Draft σ :=
  (g.nodes.filter (·.isExecutable)).foldl (fun d n => d.add w g site n) ⟨[], [], checkStructure g⟩

/-- The entry of a description and all findings. -/
def entryAndReport (g : Description) (d : Draft σ) : List String × Report :=
  let report := d.report ++ strayEdges g d.nodes
  let (entry, more) := resolveEntry g d.nodes report.hasErrors
  (entry, report ++ more)

/-- The workflow of a description, or everything that is wrong with it. -/
def compile (w : Workshop σ) (g : Description) (site : List String) :
    Except CompileError (Workflow σ) :=
  let draft := draftOf w g site
  let (entry, report) := entryAndReport g draft
  if report.hasErrors then .error ⟨report⟩ else .ok ⟨draft.nodes, draft.schema, entry⟩

end Workgraph
