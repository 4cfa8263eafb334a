import Mathlib.Data.List.InsertIdx
import Workgraph.Proofs.Node.Made
/-!
# Layers that change nothing

Layers that keep everything as it is can be put anywhere into the chain of an agent: nobody can tell
the difference. The hooks run one after the other as if the new ones were not there, the calls of
the model and of the tools pass through the new layers, and these offer no tools. So the agent makes
the same requests, calls the same tools and gives back the same, and the other layers see the same.

## Main definitions

- `Chain.Alike`: chains with the same tools whose hooks and wrappers do the same
- `Chain.inserting`: a chain with passing layers put into it
- `Agent.layered`: an agent with tools of its own and the layers of a chain
- `Sighting`: what there is to see of an agent
- `Model.noting`, `Tool.noting`, `Middleware.noting`: models, tools and layers that note what they
  see

## Main statements

- `Chain.inserting_alike`: a chain behaves as it does without its passing layers
- `Agent.node_eq_of_alike`: an agent does the same with a chain that behaves as its own
- `passing_layers_invisible`: nobody notices passing layers
-/

namespace Workgraph

variable {σ : Type}

namespace Chain

/-- Chains that offer the same tools, whose hooks do the same, and through which the same becomes of
calls of models and tools. -/
structure Alike (c c' : Chain σ) : Prop where
  tools : c.tools = c'.tools
  beforeAgent : c.beforeAgent = c'.beforeAgent
  beforeModel : c.beforeModel = c'.beforeModel
  afterModel : c.afterModel = c'.afterModel
  afterAgent : c.afterAgent = c'.afterAgent
  callModel : c.callModel = c'.callModel
  callTool : c.callTool = c'.callTool

theorem Alike.refl (c : Chain σ) : c.Alike c := ⟨rfl, rfl, rfl, rfl, rfl, rfl, rfl⟩

theorem Alike.trans {c c' c'' : Chain σ} (h : c.Alike c') (h' : c'.Alike c'') : c.Alike c'' where
  tools := h.tools.trans h'.tools
  beforeAgent := h.beforeAgent.trans h'.beforeAgent
  beforeModel := h.beforeModel.trans h'.beforeModel
  afterModel := h.afterModel.trans h'.afterModel
  afterAgent := h.afterAgent.trans h'.afterAgent
  callModel := h.callModel.trans h'.callModel
  callTool := h.callTool.trans h'.callTool

/-- A hook that does nothing may be left out, wherever it stands. -/
theorem runHooks_idle (front back : List (Hook σ)) :
    runHooks (front ++ Hook.idle :: back) = runHooks (front ++ back) := by
  induction front with
  | nil => rfl
  | cons h front ih =>
    funext s
    simp only [List.cons_append, runHooks, ih]

section Hooks

variable {name : String} {hook : Middleware σ → Hook σ} (hidle : hook (.passing name) = .idle)
include hidle

/-- The hook of a passing layer may be left out, wherever the layer stands. -/
theorem runHooks_passing (front back : Chain σ) :
    runHooks ((front ++ .passing name :: back).map hook) = runHooks ((front ++ back).map hook) := by
  rw [List.map_append, List.map_cons, hidle, List.map_append]
  exact runHooks_idle _ _

/-- So may it if the innermost layer comes first. -/
theorem runHooks_reverse_passing (front back : Chain σ) :
    runHooks ((front ++ .passing name :: back).reverse.map hook) =
      runHooks ((front ++ back).reverse.map hook) := by
  rw [List.reverse_append, List.reverse_cons, List.append_assoc, List.singleton_append,
    List.reverse_append]
  exact runHooks_passing hidle _ _

end Hooks

/-- A passing layer may be left out, wherever it stands. -/
theorem alike_passing (front back : Chain σ) (name : String) :
    Alike (front ++ .passing name :: back) (front ++ back) where
  tools := by simp [tools, Middleware.passing]
  beforeAgent := runHooks_passing rfl front back
  beforeModel := runHooks_passing rfl front back
  afterModel := runHooks_reverse_passing rfl front back
  afterAgent := runHooks_reverse_passing rfl front back
  callModel := by
    funext model
    simp only [callModel, List.foldr_append, List.foldr_cons]
    rfl
  callTool := by
    funext tool ctx
    simp only [callTool, List.foldr_append, List.foldr_cons]
    rfl

/-- A chain with passing layers put into it, one after the other: each comes with the number of
layers that are to stand in front of it. -/
def inserting (c : Chain σ) (insertions : List (Nat × String)) : Chain σ :=
  insertions.foldl (fun c i => c.insertIdx i.1 (.passing i.2)) c

theorem insertIdx_alike (c : Chain σ) (i : Nat) (name : String) :
    Alike (c.insertIdx i (.passing name)) c := by
  by_cases hi : i ≤ c.length
  · obtain ⟨front, back, hc, -, hinsert⟩ :=
      List.exists_of_modifyTailIdx (List.cons (.passing name)) hi
    rw [List.insertIdx, hinsert, hc]
    exact alike_passing front back name
  · rw [List.insertIdx_of_length_lt (by omega)]
    exact .refl c

/-- A chain behaves as it does without passing layers. -/
theorem inserting_alike (c : Chain σ) (insertions : List (Nat × String)) :
    (c.inserting insertions).Alike c := by
  induction insertions generalizing c with
  | nil => exact .refl c
  | cons i rest ih => exact (ih _).trans (insertIdx_alike c i.1 i.2)

end Chain

namespace Agent

section Alike

variable {a : Agent σ} {c : Chain σ} (h : c.Alike a.chain)
include h

theorem runCall_eq_of_alike : ({ a with chain := c } : Agent σ).runCall = a.runCall := by
  funext ctx toolCtx call
  simp only [runCall, h.callTool]
  rfl

theorem runCalls_eq_of_alike : ({ a with chain := c } : Agent σ).runCalls = a.runCalls := by
  funext ctx toolCtx calls
  induction calls with
  | nil => rfl
  | cons call rest ih => simp only [runCalls, runCall_eq_of_alike h, ih]

theorem toolsTurn_eq_of_alike : ({ a with chain := c } : Agent σ).toolsTurn = a.toolsTurn := by
  funext ctx toolCtx s
  simp only [toolsTurn, runCalls_eq_of_alike h]

theorem callModel_eq_of_alike : ({ a with chain := c } : Agent σ).callModel = a.callModel := by
  funext system s
  simp only [callModel, h.callModel]
  rfl

theorem afterReply_eq_of_alike : ({ a with chain := c } : Agent σ).afterReply = a.afterReply := by
  funext s
  simp only [afterReply, h.afterModel]

theorem modelTurn_eq_of_alike : ({ a with chain := c } : Agent σ).modelTurn = a.modelTurn := by
  funext system s
  simp only [modelTurn, h.beforeModel, callModel_eq_of_alike h, afterReply_eq_of_alike h]

theorem turn_eq_of_alike : ({ a with chain := c } : Agent σ).turn = a.turn := by
  funext system ctx toolCtx jump s
  simp only [turn, toolsTurn_eq_of_alike h, modelTurn_eq_of_alike h]

theorem loop_eq_of_alike : ({ a with chain := c } : Agent σ).loop = a.loop := by
  funext system ctx toolCtx turns
  induction turns with
  | zero => rfl
  | succ turns ih =>
    funext jump s
    simp only [loop, turn_eq_of_alike h, ih]

theorem run_eq_of_alike : ({ a with chain := c } : Agent σ).run = a.run := by
  funext patience system ctx toolCtx s
  simp only [run, h.beforeAgent, loop_eq_of_alike h]

theorem conclude_eq_of_alike : ({ a with chain := c } : Agent σ).conclude = a.conclude := by
  funext ctx inherited signal s
  simp only [conclude, h.afterAgent]
  rfl

/-- An agent does the same with a chain that behaves as its own. -/
theorem node_eq_of_alike : ({ a with chain := c } : Agent σ).node = a.node := by
  funext patience ctx s
  simp only [node, run_eq_of_alike h, conclude_eq_of_alike h]
  rfl

end Alike

/-- An agent with tools of its own and the layers of a chain, which add their tools. -/
def layered (a : Agent σ) (own : List (Tool σ)) (c : Chain σ) : Agent σ :=
  { a with tools := own ++ c.tools, chain := c }

/-- Every agent that is made for a description is layered like this. -/
theorem MadeFrom.layered {a : Agent σ} {ctx : BuildContext σ} (h : a.MadeFrom ctx) :
    ∃ own, a.layered own a.chain = a := by
  obtain ⟨tools, -, htools⟩ := h.tools
  exact ⟨_, by rw [Agent.layered, ← htools]⟩

theorem layered_node_eq_of_alike {c c' : Chain σ} (h : c.Alike c') (a : Agent σ)
    (own : List (Tool σ)) : (a.layered own c).node = (a.layered own c').node := by
  rw [layered, h.tools]
  exact node_eq_of_alike (a := a.layered own c') h

end Agent

/-! ### What there is to see -/

/-- The four points at which layers look at the conversation. -/
inductive HookPoint where
  | beforeAgent
  | beforeModel
  | afterModel
  | afterAgent

/-- What there is to see of an agent: a request comes to the model, a call to a tool, a hook of a
layer is called, or a call of the model or of a tool comes to a layer. -/
inductive Sighting where
  | request (r : ModelRequest)
  | invocation (tool : String) (call : ToolCall) (ctx : ToolContext)
  | hook (layer : String) (point : HookPoint) (s : AgentState)
  | modelCall (layer : String) (r : ModelRequest)
  | toolCall (layer tool : String) (call : ToolCall) (ctx : ToolContext)

section Noting

variable (note : Sighting → σ → σ)

/-- An activity that begins with a note of what there is to see. -/
def Activity.noting {α : Type} (x : Sighting) (act : Activity σ α) : Activity σ α := do
  Activity.onHost fun host => ((), note x host)
  act

/-- A model that notes what it is asked. -/
def Model.noting (model : Model σ) : Model σ := fun r => Activity.noting note (.request r) (model r)

/-- A tool that notes what it is called with. -/
def Tool.noting (tool : Tool σ) : Tool σ :=
  { tool with
    invoke := fun call ctx =>
      Activity.noting note (.invocation tool.name call ctx) (tool.invoke call ctx) }

/-- A hook that notes what it sees. -/
def Hook.noting (layer : String) (point : HookPoint) (hook : Hook σ) : Hook σ := fun s =>
  Activity.noting note (.hook layer point s) (hook s)

/-- A layer that notes what it sees, and its tools too. -/
def Middleware.noting (m : Middleware σ) : Middleware σ where
  name := m.name
  tools := m.tools.map (Tool.noting note)
  beforeAgent := m.beforeAgent.noting note m.name .beforeAgent
  beforeModel := m.beforeModel.noting note m.name .beforeModel
  afterModel := m.afterModel.noting note m.name .afterModel
  afterAgent := m.afterAgent.noting note m.name .afterAgent
  wrapModel := fun inner r => Activity.noting note (.modelCall m.name r) (m.wrapModel inner r)
  wrapTool := fun tool ctx inner call =>
    Activity.noting note (.toolCall m.name tool call ctx) (m.wrapTool tool ctx inner call)

/-- A chain whose layers note what they see. -/
def Chain.noting (c : Chain σ) : Chain σ := c.map (Middleware.noting note)

end Noting

/-- Nobody notices passing layers, wherever they are put into the chain of an agent. The agent does
the same, to the host and in its messages and events, and gives back the same. And if the model, all
tools and all other layers take notes of what they see, in whatever form, the same notes are taken:
the same requests come to the model and the same calls to the tools and layers, the same hooks see
the same conversation, and all of it happens in the same order. -/
theorem passing_layers_invisible (a : Agent σ) (own : List (Tool σ)) (c : Chain σ)
    (insertions : List (Nat × String)) :
    (a.layered own (c.inserting insertions)).node = (a.layered own c).node ∧
      ∀ note : Sighting → σ → σ,
        let watched : Agent σ := { a with model := Model.noting note a.model }
        let tools := own.map (Tool.noting note)
        (watched.layered tools ((c.noting note).inserting insertions)).node =
          (watched.layered tools (c.noting note)).node :=
  ⟨a.layered_node_eq_of_alike (c.inserting_alike insertions) own, fun note =>
    Agent.layered_node_eq_of_alike ((c.noting note).inserting_alike insertions) _ _⟩

/-- A model that asks for a tool once, behind a layer that takes notes. The same notes are taken
with two passing layers around this one. -/
example :
    let note (x : Sighting) (notes : List String) : List String :=
      notes ++ [match x with
        | .request _ => "request"
        | .invocation tool _ _ => "call of " ++ tool
        | .hook layer _ _ => "hook of " ++ layer
        | .modelCall layer _ => "request through " ++ layer
        | .toolCall layer tool _ _ => "call of " ++ tool ++ " through " ++ layer]
    let model : Model (List String) := fun r => pure (.ok (
      if r.messages.any (·.hasRole Role.tool) then .assistant "It is raining."
      else .calling "" [⟨"call_1", "look", .null⟩]))
    let look : Tool (List String) :=
      ⟨⟨"look", "", noParameters⟩, fun _ _ => pure (.ok (.content "rain"))⟩
    let a : Agent (List String) :=
      ⟨"Ada", "", Model.noting note model, none, some "How is the weather?", 3, [], [], none⟩
    let c := Chain.noting note [.passing "m"]
    let notes (c : Chain (List String)) : List String :=
      ((a.layered [look.noting note] c).node 9 (.detached "ada") .empty (.start [])).2.host
    notes c =
      ["hook of m", "hook of m", "request through m", "request", "hook of m",
        "call of look through m", "call of look", "hook of m", "request through m", "request",
        "hook of m", "hook of m"] ∧
      notes (c.inserting [(1, "inner"), (0, "outer")]) = notes c := by
  decide +kernel

end Workgraph
