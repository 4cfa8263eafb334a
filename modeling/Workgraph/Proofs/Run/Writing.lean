import Workgraph.Proofs.Run.Move
/-!
# Writing

What writing the outputs of a step does to the store. An update changes one declared channel or
nothing, and the messages of a node and of its transfer are added behind the conversation.

## Main definitions

- `NodeOutput.said`: the messages that an output adds to the conversation
- `Workflow.Writable`: an output that can be written

## Main statements

- `Workflow.writeOutput_cases`: what writing one output does
- `Workflow.writeOutputs_error`: the errors that writing the outputs of a step has
- `Workflow.writeOutputs_induct`: what writing every output keeps is kept by a step
- `Workflow.exists_writeOutputs`: outputs that can be written are written
-/

namespace Workgraph

variable {σ : Type}

/-- The messages that an output adds to the conversation: those of the node, and then those of its
transfer. -/
def NodeOutput.said (out : NodeOutput) : List Message :=
  out.messages.getD [] ++ (out.handoff.map (·.messages)).getD []

namespace Store

@[simp] theorem append_schema (s : Store) (ms : List Message) : (s.append ms).schema = s.schema :=
  rfl

theorem append_append (s : Store) (ms more : List Message) :
    (s.append ms).append more = s.append (ms ++ more) := by
  simp [append]

/-- A write changes a declared channel, or nothing at all. -/
theorem apply_cases {s s' : Store} {name : String} {written next : Json}
    (h : s.apply name written = .ok (next, s')) :
    s.schema.contains name = true ∧ (s' = s ∨ s' = { s with state := put s.state name next }) := by
  unfold apply at h
  unfold Schema.contains
  cases hc : s.schema.get? name with
  | none =>
    rw [hc] at h
    cases h
  | some c =>
    rw [hc] at h
    refine ⟨rfl, ?_⟩
    dsimp only at h
    split at h
    · cases h
      exact .inl rfl
    · cases h
      exact .inr rfl

theorem exists_apply {s : Store} {name : String} (h : s.schema.contains name = true)
    (written : Json) : ∃ next s', s.apply name written = .ok (next, s') := by
  obtain ⟨c, hc⟩ := Option.isSome_iff_exists.mp h
  unfold apply
  rw [hc]
  dsimp only
  split
  · exact ⟨_, _, rfl⟩
  · exact ⟨_, _, rfl⟩

end Store

namespace Workflow

variable {w : Workflow σ} {key : String} {out : NodeOutput} {store store' : Store}

/-- The update of a node changes a declared channel, or nothing at all. -/
theorem writeUpdate_cases (h : w.writeUpdate key out store = .ok store') :
    store' = store ∨ ∃ name value, store.schema.contains name = true ∧
      store' = { store with state := Store.put store.state name value } := by
  unfold writeUpdate at h
  cases hu : out.update.filter fun u => !u.isNull with
  | none =>
    rw [hu] at h
    exact .inl (Except.ok.inj h).symm
  | some u =>
    rw [hu] at h
    dsimp only at h
    cases ha : store.apply (w.channelOf key) u with
    | error e =>
      rw [ha] at h
      cases h
    | ok written =>
      obtain ⟨next, s'⟩ := written
      rw [ha] at h
      cases h
      obtain ⟨hc, hs⟩ := Store.apply_cases ha
      exact hs.imp_right fun hs => ⟨_, _, hc, hs⟩

/-- Writing an output writes its update, adds its messages, and goes through only if its transfer is
allowed. -/
theorem writeOutput_cases (h : w.writeOutput key out store = (store', none)) :
    (∃ mid, w.writeUpdate key out store = .ok mid ∧ store' = mid.append out.said) ∧
      ∀ handoff, out.handoff = some handoff → w.allowsHandoff key handoff.target = true := by
  unfold writeOutput at h
  cases hu : w.writeUpdate key out store with
  | error e =>
    rw [hu] at h
    cases h
  | ok mid =>
    rw [hu] at h
    unfold NodeOutput.said
    cases hh : out.handoff with
    | none =>
      rw [hh] at h
      cases h
      exact ⟨⟨mid, rfl, by simp⟩, by simp⟩
    | some handoff =>
      rw [hh] at h
      dsimp only at h
      by_cases ha : w.allowsHandoff key handoff.target = true
      · rw [if_pos ha] at h
        cases h
        refine ⟨⟨mid, rfl, Store.append_append _ _ _⟩, ?_⟩
        intro other ho
        cases ho
        exact ha
      · rw [if_neg ha] at h
        cases h

theorem writeOutput_schema (h : w.writeOutput key out store = (store', none)) :
    store'.schema = store.schema := by
  obtain ⟨⟨mid, hu, rfl⟩, -⟩ := writeOutput_cases h
  rw [Store.append_schema]
  obtain rfl | ⟨name, value, -, rfl⟩ := writeUpdate_cases hu
  · rfl
  · rfl

/-- Writing an output adds what it says to the conversation. -/
theorem writeOutput_messages (h : w.writeOutput key out store = (store', none)) :
    store'.state.messages = store.state.messages ++ out.said := by
  obtain ⟨⟨mid, hu, rfl⟩, -⟩ := writeOutput_cases h
  obtain rfl | ⟨name, value, -, rfl⟩ := writeUpdate_cases hu
  · rfl
  · rfl

/-- What cannot be written goes to an unknown channel, or asks for a transfer that is not allowed.
-/
theorem writeOutput_error {e : RunError} (h : w.writeOutput key out store = (store', some e)) :
    (∃ reason, e = .channel key reason) ∨ ∃ target, e = .invalidHandoff key target := by
  unfold writeOutput at h
  cases hu : w.writeUpdate key out store with
  | error reason =>
    rw [hu] at h
    cases h
    exact .inl ⟨reason, rfl⟩
  | ok mid =>
    rw [hu] at h
    cases hh : out.handoff with
    | none =>
      rw [hh] at h
      cases h
    | some handoff =>
      rw [hh] at h
      dsimp only at h
      split at h
      · cases h
      · cases h
        exact .inr ⟨handoff.target, rfl⟩

/-! ## The outputs of a step -/

/-- Outputs are written if the first one is, and then the others. -/
theorem writeOutputs_cons_iff {rest : List (String × NodeOutput)} :
    w.writeOutputs store ((key, out) :: rest) = (store', none) ↔
      ∃ mid, w.writeOutput key out store = (mid, none) ∧
        w.writeOutputs mid rest = (store', none) := by
  rw [writeOutputs]
  obtain ⟨mid, e, ho⟩ : ∃ mid e, w.writeOutput key out store = (mid, e) := ⟨_, _, rfl⟩
  rw [ho]
  cases e with
  | none => simp
  | some e => simp

/-- Writing the outputs of a step fails as writing one of them does. -/
theorem writeOutputs_error {outputs : List (String × NodeOutput)} {e : RunError}
    (h : w.writeOutputs store outputs = (store', some e)) :
    (∃ key reason, e = .channel key reason) ∨ ∃ key target, e = .invalidHandoff key target := by
  induction outputs generalizing store with
  | nil => cases h
  | cons output rest ih =>
    obtain ⟨key, out⟩ := output
    unfold writeOutputs at h
    obtain ⟨mid, first, ho⟩ : ∃ mid first, w.writeOutput key out store = (mid, first) :=
      ⟨_, _, rfl⟩
    rw [ho] at h
    cases first with
    | none => exact ih h
    | some e' =>
      cases h
      exact (writeOutput_error ho).imp (fun h => ⟨key, h⟩) fun h => ⟨key, h⟩

/-- What writing every output keeps is kept by a step. -/
theorem writeOutputs_induct {motive : Store → Prop} {outputs : List (String × NodeOutput)}
    (hstep : ∀ p ∈ outputs, ∀ store store', w.writeOutput p.1 p.2 store = (store', none) →
      motive store → motive store')
    (h : w.writeOutputs store outputs = (store', none)) (hs : motive store) : motive store' := by
  induction outputs generalizing store with
  | nil =>
    cases h
    exact hs
  | cons output rest ih =>
    obtain ⟨mid, ho, hrest⟩ := writeOutputs_cons_iff.mp h
    refine ih (fun p hp => hstep p (List.mem_cons_of_mem _ hp)) hrest ?_
    exact hstep output List.mem_cons_self store mid ho hs

/-- Where a step has been written, each of its outputs has. -/
theorem exists_writeOutput_of_mem {outputs : List (String × NodeOutput)}
    (h : w.writeOutputs store outputs = (store', none)) {p : String × NodeOutput}
    (hp : p ∈ outputs) : ∃ before after, w.writeOutput p.1 p.2 before = (after, none) := by
  induction outputs generalizing store with
  | nil => cases hp
  | cons output rest ih =>
    obtain ⟨mid, ho, hrest⟩ := writeOutputs_cons_iff.mp h
    obtain rfl | hp := List.mem_cons.mp hp
    · exact ⟨store, mid, ho⟩
    · exact ih hrest hp

/-- A step adds what its nodes said, in the order of the frontier. -/
theorem writeOutputs_messages {outputs : List (String × NodeOutput)}
    (h : w.writeOutputs store outputs = (store', none)) :
    store'.state.messages = store.state.messages ++ outputs.flatMap (·.2.said) := by
  induction outputs generalizing store with
  | nil =>
    cases h
    simp
  | cons output rest ih =>
    obtain ⟨mid, ho, hrest⟩ := writeOutputs_cons_iff.mp h
    rw [ih hrest, writeOutput_messages ho, List.flatMap_cons, List.append_assoc]

theorem writeOutputs_schema {outputs : List (String × NodeOutput)}
    (h : w.writeOutputs store outputs = (store', none)) : store'.schema = store.schema :=
  writeOutputs_induct (motive := fun s => s.schema = store.schema)
    (fun _ _ _ _ ho hs => (writeOutput_schema ho).trans hs) h rfl

/-- An output can be written if its update goes to a channel of the workflow and its transfer is
allowed. -/
def Writable (w : Workflow σ) (key : String) (out : NodeOutput) : Prop :=
  (∀ u, out.update = some u → u.isNull = false → w.schema.contains (w.channelOf key) = true) ∧
    ∀ handoff, out.handoff = some handoff → w.allowsHandoff key handoff.target = true

theorem exists_writeOutput (h : w.Writable key out) (hs : store.schema = w.schema) :
    ∃ store', w.writeOutput key out store = (store', none) := by
  obtain ⟨mid, hu⟩ : ∃ mid, w.writeUpdate key out store = .ok mid := by
    unfold writeUpdate
    cases hu : out.update.filter fun u => !u.isNull with
    | none => exact ⟨store, rfl⟩
    | some u =>
      obtain ⟨hu, hn⟩ := Option.filter_eq_some_iff.mp hu
      obtain ⟨next, s', ha⟩ := Store.exists_apply (s := store)
        (by rw [hs]; exact h.1 u hu (by simpa using hn)) u
      exact ⟨s', by dsimp only; rw [ha]; rfl⟩
  unfold writeOutput
  rw [hu]
  cases hh : out.handoff with
  | none => exact ⟨_, rfl⟩
  | some handoff =>
    dsimp only
    rw [if_pos (h.2 handoff hh)]
    exact ⟨_, rfl⟩

/-- Outputs that can be written are written. -/
theorem exists_writeOutputs {outputs : List (String × NodeOutput)}
    (h : ∀ p ∈ outputs, w.Writable p.1 p.2) (hs : store.schema = w.schema) :
    ∃ store', w.writeOutputs store outputs = (store', none) := by
  induction outputs generalizing store with
  | nil => exact ⟨store, rfl⟩
  | cons output rest ih =>
    obtain ⟨key, out⟩ := output
    obtain ⟨mid, ho⟩ := exists_writeOutput (h (key, out) List.mem_cons_self) hs
    obtain ⟨store', hrest⟩ := ih (fun p hp => h p (List.mem_cons_of_mem _ hp))
      ((writeOutput_schema ho).trans hs)
    exact ⟨store', writeOutputs_cons_iff.mpr ⟨mid, ho, hrest⟩⟩

end Workflow

end Workgraph
