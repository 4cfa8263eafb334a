import Workgraph.Conversation.AgentName
import Workgraph.Fault
import Workgraph.Graph.Description
/-!
# Structural checks

What can be found wrong with a description by looking at it alone. No check stops at the first
finding, and each lists its findings in the order of the description.

## Main definitions

- `Issue`, `Report`: findings, and all findings of one description
- `duplicateKeys`, `danglingLinks`, `freeNodes`, `duplicateNames`: the four checks
- `checkStructure`: all four, one after the other
-/

namespace Workgraph

/-- The rules that a description can break. -/
inductive IssueCode where
  | danglingConnection
  | freeNodeNotConnected
  | duplicateKey
  | duplicateName
  | missingStrategy
  | invalidNodeConfig
  | channelConflict
  | noEntryPoint
deriving DecidableEq

def IssueCode.text : IssueCode → String
  | danglingConnection => "DANGLING_CONNECTION"
  | freeNodeNotConnected => "FREE_NODE_NOT_CONNECTED"
  | duplicateKey => "DUPLICATE_KEY"
  | duplicateName => "DUPLICATE_NAME"
  | missingStrategy => "MISSING_STRATEGY"
  | invalidNodeConfig => "INVALID_NODE_CONFIG"
  | channelConflict => "CHANNEL_CONFLICT"
  | noEntryPoint => "NO_ENTRY_POINT"

/-- Whether a finding keeps the description from being used. -/
inductive Severity where
  | error
  | warning
deriving DecidableEq

def Severity.text : Severity → String
  | error => "error"
  | warning => "warning"

/-- A finding. -/
structure Issue where
  code : IssueCode
  severity : Severity
  nodeKey : Option String
  message : String
deriving DecidableEq

namespace Issue

/-- A finding that keeps the description from being used. -/
def error (code : IssueCode) (nodeKey : Option String) (message : String) : Issue :=
  ⟨code, .error, nodeKey, message⟩

def text (i : Issue) : String :=
  let start := i.severity.text ++ " [" ++ i.code.text ++ "] "
  match i.nodeKey with
  | some key => start ++ key ++ ": " ++ i.message
  | none => start ++ i.message

def isError (i : Issue) : Bool := i.severity == .error

def toJson (i : Issue) : Json :=
  .object [("code", .str i.code.text), ("severity", .str i.severity.text),
    ("node_key", .text? i.nodeKey), ("message", .str i.message)]

end Issue

/-- All findings of a description, in order. -/
abbrev Report := List Issue

namespace Report

/-- Whether a finding is an error. -/
def hasErrors (r : Report) : Bool := r.any (·.isError)

def errors (r : Report) : List Issue := r.filter (·.isError)

def warnings (r : Report) : List Issue := r.filter (·.severity == .warning)

def mentions (r : Report) (code : IssueCode) : Bool := r.any (·.code == code)

/-- The wording of a report, a line for each finding. -/
def text (r : Report) : String := String.intercalate "\n" (r.map Issue.text)

def toJson (r : Report) : Json :=
  .object [("issues", .arr (r.map Issue.toJson)), ("text", .str r.text),
    ("errors", .nat r.errors.length), ("warnings", .nat r.warnings.length)]

end Report

/-- The nodes that are the second ones with their key; `seen` are the keys so far. -/
def secondUses (seen : List String) : List NodeSpec → List NodeSpec
  | [] => []
  | n :: rest =>
    if seen.count n.key == 1 then n :: secondUses (seen ++ [n.key]) rest
    else secondUses (seen ++ [n.key]) rest

/-- A finding for each key that several nodes share. -/
def duplicateKeys (g : Description) : Report :=
  (secondUses [] g.nodes).map fun n =>
    .error .duplicateKey (some n.key) s!"more than one node uses key '{n.key}'"

/-- A finding for each end of a connection that is no node. -/
def danglingLinks (g : Description) : Report :=
  g.links.flatMap fun l =>
    ([l.sourceKey, l.targetKey].filter fun key => !g.contains key).map fun key =>
      .error .danglingConnection (some key)
        s!"{l.kind.text} connection {l.source} -> {l.target} references unknown node '{key}'"

/-- A finding for each node without a connection, notes aside. -/
def freeNodes (g : Description) : Report :=
  (g.nodes.filter fun n => !n.isAnnotation && !g.links.any (·.touches n.key)).map fun n =>
    .error .freeNodeNotConnected (some n.key) s!"node '{n.key}' is not connected to the graph"

/-- The name that is compared with those of other nodes. -/
def comparedName? (n : NodeSpec) : Option String := n.displayName?.map normalizeName

/-- The nodes by name, notes aside, those of one name in the order of the description. -/
def groupByName (ns : List NodeSpec) : Table (List NodeSpec) :=
  (ns.filter fun n => !n.isAnnotation).foldl
    (fun groups n =>
      match comparedName? n with
      | some name => groups.insert name ((groups.get? name).getD [] ++ [n])
      | none => groups) []

/-- A finding for a name that several nodes share. It is an error if two of them are agents. -/
def sharedName (name : String) (group : List NodeSpec) : Issue :=
  let keys := group.map (·.key)
  let agents := (group.filter fun n => n.kind == .agent).length
  { code := .duplicateName
    severity := if 2 ≤ agents then .error else .warning
    nodeKey := keys.head?
    message := "nodes " ++ String.intercalate ", " keys ++ s!" share the name '{name}'" }

/-- Looks at one more node. The group of its name, unless it has been taken away before, is taken
away, and reported if it has several nodes. -/
def checkName (acc : Report × Table (List NodeSpec)) (n : NodeSpec) :
    Report × Table (List NodeSpec) :=
  match comparedName? n with
  | none => acc
  | some name =>
    match acc.2.get? name with
    | none => acc
    | some group =>
      (if group.length < 2 then acc.1 else acc.1 ++ [sharedName name group], acc.2.erase name)

/-- A finding for each name that several nodes share, in the order in which the names appear. -/
def duplicateNames (g : Description) : Report :=
  (g.nodes.foldl checkName ([], groupByName g.nodes)).1

/-- The findings of all structural checks. -/
def checkStructure (g : Description) : Report :=
  duplicateKeys g ++ danglingLinks g ++ freeNodes g ++ duplicateNames g

end Workgraph
