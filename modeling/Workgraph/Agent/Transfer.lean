import Workgraph.Conversation.AgentName
import Workgraph.Host.Service
/-!
# Transfers between agents

An agent hands control to another one by calling a tool that is named after the other agent. The
tool does nothing by itself; its output asks for the transfer. An agent that returns control to the
agent it works for leaves a pair of messages of the same form.

## Main definitions

- `TransferTool`, `transferTool`: the tool for one other agent
- `TransferTool.signal`: the transfer that a call asks for
- `returnMessages`: the record of a return
-/

namespace Workgraph

/-- The name of the tool that transfers to an agent. -/
def transferToolName (agentName : String) : String := "transfer_to_" ++ normalizeName agentName

/-- The name of the tool that stands for a return to an agent. -/
def returnToolName (agentName : String) : String := "transfer_back_to_" ++ normalizeName agentName

/-- A tool that transfers control to one agent. -/
structure TransferTool where
  name : String
  description : String
  agentKey : String
  agentName : String
deriving DecidableEq

/-- The tool for an agent. Title and description of the agent only shape the text that the model
sees. -/
def transferTool (agentKey agentName : String) (title description : Option String) :
    TransferTool where
  name := transferToolName agentName
  description :=
    let label := title.getD agentName
    match description.filter fun can => !Text.isBlankText can with
    | some can => s!"Transfer user to the {label} assistant, that can {can}"
    | none => s!"Ask agent '{label}' for help"
  agentKey := agentKey
  agentName := agentName

namespace TransferTool

/-- The transfer that a call asks for, with the answer to the call. -/
def signal (t : TransferTool) (call : ToolCall) : Handoff :=
  ⟨t.agentKey, [.tool ("Successfully transferred to " ++ t.agentName) call.id t.name]⟩

/-- How the tool is described to a model. -/
def spec (t : TransferTool) : ToolSpec := ⟨t.name, t.description, noParameters⟩

/-- The tool as models call it. -/
def toTool {σ : Type} (t : TransferTool) : Tool σ where
  spec := t.spec
  invoke := fun call _ => pure (.ok (.handoff (t.signal call)))

end TransferTool

/-- The name that stands for an agent without a name. -/
def defaultSupervisorName : String := "general_agent"

/-- The record that an agent returned control: a request and the answer to it. -/
def returnMessages (callId agentName : String) (supervisorName : Option String) :
    Message × Message :=
  let supervisor := supervisorName.getD defaultSupervisorName
  let toolName := returnToolName supervisor
  let request :=
    { Message.calling ("Transferring back to " ++ supervisor) [⟨callId, toolName, .obj []⟩] with
      name := some agentName }
  (request, .tool ("Successfully transferred back to " ++ supervisor) callId toolName)

end Workgraph
