import Workgraph.Proofs.Node.Made
import Workgraph.Proofs.Run.Writing
/-!
# Silent nodes

What is known of the results of nodes, whatever they find in the world. Of the standard nodes only
agents take part in the conversation and hand off; all others write to their channel and nothing
else.

## Main definitions

- `Activity.Gives`: what is known of the result of an activity
- `Node.Silent`: nodes that give back a write and nothing else

## Main statements

- `BuildContext.Makes.silent`: a standard node that is not an agent is silent
-/

namespace Workgraph

variable {σ α β : Type}

namespace Activity

/-- Whatever the world, the result has a property. -/
def Gives (x : Activity σ α) (post : α → Prop) : Prop := ∀ world, post (x world).1

theorem Gives.pure {post : α → Prop} {a : α} (h : post a) :
    Gives (Pure.pure a : Activity σ α) post := fun _ => h

theorem Gives.bind {post : α → Prop} {post' : β → Prop} {x : Activity σ α} {f : α → Activity σ β}
    (hx : x.Gives post) (hf : ∀ a, post a → (f a).Gives post') : (x >>= f).Gives post' :=
  fun world => hf _ (hx world) _

/-- An activity whose result does not matter goes before another. -/
theorem Gives.after {post : β → Prop} (x : Activity σ α) {f : α → Activity σ β}
    (hf : ∀ a, (f a).Gives post) : (x >>= f).Gives post := fun _ => hf _ _

theorem Gives.mono {post post' : α → Prop} {x : Activity σ α} (hx : x.Gives post)
    (h : ∀ a, post a → post' a) : x.Gives post' := fun world => h _ (hx world)

/-- What is known of the result holds of the result in a certain world. -/
theorem Gives.of_eq {post : α → Prop} {x : Activity σ α} (hx : x.Gives post) {w w' : World σ}
    {a : α} (h : x w = (a, w')) : post a := by
  have hpost := hx w
  rwa [h] at hpost

end Activity

open Activity

/-- A node that gives back a write to its channel and nothing else, or fails. -/
def Node.Silent (run : Node σ) : Prop :=
  ∀ ctx s, (run ctx s).Gives fun result => ∀ out, result = .ok out → ∃ u, out = .write u

theorem silent_write {update : Json} {x : Except NodeError NodeOutput}
    (h : x = .ok (.write update)) : ∀ out, x = .ok out → ∃ u, out = .write u := by
  rintro out hout
  cases h.symm.trans hout
  exact ⟨update, rfl⟩

/-! ## The nodes -/

theorem startNode_silent : Node.Silent (startNode : Node σ) :=
  fun _ _ => .pure (silent_write rfl)

theorem triggerNode_silent (names : List String) : Node.Silent (triggerNode names : Node σ) :=
  fun _ _ => .pure (silent_write rfl)

theorem aggregationNode_silent (a : Aggregation) : Node.Silent (aggregationNode a : Node σ) :=
  fun _ _ => .pure (silent_write rfl)

theorem branchNode_silent (key : String) (cases : List Case) :
    Node.Silent (branchNode key cases : Node σ) :=
  fun _ _ => .after _ fun _ => .pure (silent_write rfl)

theorem listQueryNode_silent (q : ListQuery) : Node.Silent (listQueryNode q : Node σ) := by
  intro ctx s
  unfold listQueryNode
  cases (s.resolve? q.input).bind Json.asItems? with
  | some items => exact .pure (silent_write rfl)
  | none => exact .after _ fun _ => .pure (silent_write rfl)

theorem stageNode_silent (stage : DocumentStage σ) (provider : String) (setup : StageSetup) :
    Node.Silent (stageNode stage provider setup) := by
  intro ctx s
  refine .after _ ?_
  rintro (e | e | documents)
  · exact .pure nofun
  · exact .pure (silent_write rfl)
  · exact .after _ fun _ => .pure (silent_write rfl)

/-- An iterating node keeps to itself whatever its child says. -/
theorem iteration_silent (it : Iteration) (child : Iteration.Child σ) :
    Node.Silent (it.node child) := by
  intro ctx s
  unfold Iteration.node
  cases (s.resolve? it.input).bind Json.asItems? with
  | none => exact .after _ fun _ => .pure (silent_write rfl)
  | some items =>
    refine .after _ fun results => ?_
    cases Iteration.collect it.errorMode 0 (Iteration.arranged items.length results) with
    | ok outputs => exact .pure (silent_write rfl)
    | error e =>
      cases e with
      | cancelled => exact .pure nofun
      | failed message => exact .after _ fun _ => .pure (silent_write rfl)

/-- A standard node that is not an agent is silent. -/
theorem BuildContext.Makes.silent {ctx : BuildContext σ} {plan : NodePlan σ}
    (h : ctx.Makes plan) : Node.Silent plan.run := by
  cases h with
  | start => exact startNode_silent
  | trigger names => exact triggerNode_silent names
  | branch cases => exact branchNode_silent _ cases
  | listQuery q => exact listQueryNode_silent q
  | aggregation a => exact aggregationNode_silent a
  | iteration it => exact iteration_silent it _
  | stage provider setup => exact stageNode_silent _ provider setup

end Workgraph
