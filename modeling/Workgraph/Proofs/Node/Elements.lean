import Mathlib.Data.List.Induction
import Workgraph.Proofs.Node.Made
import Workgraph.Proofs.Run.Concurrency
import Workgraph.Proofs.State.Tables
/-!
# The elements of an iteration

An iterating node runs its child once for each element, for several at a time if it may. If what
the child gives back depends on nothing but the state that it sees and the index of the element,
then the order in which the elements run and finish makes no difference, and no element makes one
to another: what the node gives back can be read off what each element gives back on its own, in
the order of the list.

## Main definitions

- `Iteration.Fails`: what counts as the failure of an element, with its message
- `Iteration.Child.Depends`: children that depend on the state and the index only
- `Iteration.alone`: what an element gives back on its own
- `Iteration.GivesBack`, `Iteration.Arrives`: what can arrive of elements that run at the same time
- `Iteration.Scanned`: what the results of the elements come to

## Main statements

- `Iteration.resultOf_eq_failed_iff`: when an element fails
- `Iteration.Arrives.arranged_eq`: whatever arrives, it is arranged in the order of the list
- `Iteration.Uncancelled.collect_scanned`: how the results are summed up
- `iteration_elementwise`: an iteration is a map over the elements that keeps their order
-/

namespace Workgraph

variable {σ : Type}

namespace Iteration

/-! ## Failures -/

/-- The text of what an update reports as its failure. -/
def reportText : Json → String
  | .str s => s
  | value => value.compact

/-- How an element fails, by what its child gives back: with an error, with an interrupt, or with an
update that reports a failure. -/
inductive Fails : Except NodeError NodeOutput → String → Prop
  | error {e : NodeError} (h : e ≠ .cancelled) : Fails (.error e) e.message
  | interrupted {out : NodeOutput} (h : out.interrupt.isSome = true) :
      Fails (.ok out) "interrupts are not supported inside an iteration"
  | reported {out : NodeOutput} {value : Json} (h : out.interrupt.isSome = false)
      (hvalue : (out.update.getD .null).field? Channel.errorField = some value)
      (hnull : value.isNull = false) : Fails (.ok out) (reportText value)

theorem reported?_eq_some_iff {update : Json} {message : String} :
    reported? update = some message ↔ ∃ value, update.field? Channel.errorField = some value ∧
      value.isNull = false ∧ reportText value = message := by
  unfold reported?
  cases update.field? Channel.errorField with
  | none => simp
  | some value =>
    cases value <;> simp [Option.filter, Json.isNull, reportText]

variable {it : Iteration} {channel : Option Channel} {s : Snapshot}
  {x : Except NodeError NodeOutput} {message : String}

/-- An element fails exactly as its child does. -/
theorem resultOf_eq_failed_iff :
    it.resultOf channel s x = .error (.failed message) ↔ Fails x message := by
  constructor
  · intro h
    unfold resultOf at h
    split at h
    · cases h
    · next e hcancelled =>
      cases h
      exact .error hcancelled
    · next out =>
      split at h
      · next hinterrupt =>
        cases h
        exact .interrupted hinterrupt
      · next hinterrupt =>
        dsimp only at h
        split at h
        · next hreport =>
          cases h
          obtain ⟨value, hvalue, hnull, rfl⟩ := reported?_eq_some_iff.mp hreport
          exact .reported (Bool.not_eq_true _ ▸ hinterrupt) hvalue hnull
        · cases h
  · intro h
    unfold resultOf
    cases h with
    | @error e hcancelled =>
      cases e <;> first | rfl | exact absurd rfl hcancelled
    | interrupted hinterrupt => simp only [hinterrupt, if_pos]
    | reported hinterrupt hvalue hnull =>
      have hreport := reported?_eq_some_iff.mpr ⟨_, hvalue, hnull, rfl⟩
      simp only [hinterrupt, hreport, Bool.false_eq_true, if_false]

/-! ## Elements that run at the same time -/

/-- What the child gives back depends on nothing but the state that it sees and the index of the
element, and it does not cancel the run. What it does to the host, to the log and to the time may
depend on anything. -/
def Child.Depends (child : Child σ) (ctx : NodeContext)
    (f : Nat → Snapshot → Except NodeError NodeOutput) : Prop :=
  ∀ index s (w : World σ), w.cancelled = false →
    (child.run (elementContext ctx child.key index) s w).1 = f index s ∧
      (child.run (elementContext ctx child.key index) s w).2.cancelled = false

/-- What an element gives back on its own: its child sees a copy of the state before the step in
which only the input differs, and writes to that copy. -/
def alone (it : Iteration) (channel : Option Channel)
    (f : Nat → Snapshot → Except NodeError NodeOutput) (s : Snapshot) (index : Nat) (item : Json) :
    ElementResult :=
  let seen := { s with input := it.elementInput s index item }
  it.resultOf channel seen (f index seen)

/-- What the element at an index gives back in some world: other elements may have left anything in
it, but the run is not cancelled. -/
def GivesBack (it : Iteration) (child : Child σ) (ctx : NodeContext) (s : Snapshot)
    (items : List Json) (p : Nat × ElementResult) : Prop :=
  ∃ item, ∃ w : World σ, items[p.1]? = some item ∧ w.cancelled = false ∧
    (it.runElement child ctx s p.1 item w).1 = p.2

/-- What can arrive of elements that run at the same time, no more of them than may run at once.
They finish in some order, and each gives back what it does in some world. -/
def Arrives (it : Iteration) (child : Child σ) (ctx : NodeContext) (s : Snapshot)
    (items : List Json) (arrived : List (Nat × ElementResult)) : Prop :=
  Finishes (some it.width) items.length (arrived.map (·.1)) ∧
    ∀ p ∈ arrived, it.GivesBack child ctx s items p

/-- What the node gives back for what has arrived. -/
def concluded (it : Iteration) (ctx : NodeContext) (count : Nat)
    (arrived : List (Nat × ElementResult)) : Activity σ (Except NodeError NodeOutput) := do
  match collect it.errorMode 0 (arranged count arrived) with
  | .ok outputs => return .ok (.write (report outputs))
  | .error .cancelled => return .error .cancelled
  | .error (.failed message) =>
    ctx.say message
    return .ok (.failure message)

theorem runInOrder_eq (it : Iteration) (child : Child σ) (order : List Nat) (ctx : NodeContext)
    (s : Snapshot) (items : List Json) : it.runInOrder child order ctx s items =
      it.arrivals child ctx s items order >>= it.concluded ctx items.length := rfl

section Arrivals

variable {child : Child σ} {ctx : NodeContext} {f : Nat → Snapshot → Except NodeError NodeOutput}
  {items : List Json} {arrived : List (Nat × ElementResult)} {w : World σ}

variable (it s) in
theorem runElement_eq (hchild : child.Depends ctx f) (hw : w.cancelled = false) (index : Nat)
    (item : Json) :
    (it.runElement child ctx s index item w).1 = it.alone child.channel f s index item ∧
      (it.runElement child ctx s index item w).2.cancelled = false := by
  obtain ⟨hresult, hcancelled⟩ := hchild index (it.elementState s index item) w hw
  have hrun : it.runElement child ctx s index item w =
      (it.resultOf child.channel (it.elementState s index item)
        (child.run (elementContext ctx child.key index) (it.elementState s index item) w).1,
      (child.run (elementContext ctx child.key index) (it.elementState s index item) w).2) := by
    unfold runElement
    change (if w.cancelled = true then _ else _ : Activity σ ElementResult) w = _
    rw [if_neg (Bool.not_eq_true _ ▸ hw)]
    rfl
  rw [hrun, hresult]
  exact ⟨rfl, hcancelled⟩

theorem arrivals_cons {index : Nat} {item : Json} (hitem : items[index]? = some item)
    (rest : List Nat) (w : World σ) : (it.arrivals child ctx s items (index :: rest) w).1 =
      (index, (it.runElement child ctx s index item w).1) ::
        (it.arrivals child ctx s items rest (it.runElement child ctx s index item w).2).1 := by
  conv_lhs => rw [arrivals, hitem]
  rfl

variable (it) in
theorem arrivals_givesBack (hchild : child.Depends ctx f) {order : List Nat}
    (horder : ∀ index ∈ order, index < items.length) (hw : w.cancelled = false) :
    (it.arrivals child ctx s items order w).1.map (·.1) = order ∧
      ∀ p ∈ (it.arrivals child ctx s items order w).1, it.GivesBack child ctx s items p := by
  -- Each element leaves a world to the next one in which the run is not cancelled.
  induction order generalizing w with
  | nil => exact ⟨rfl, nofun⟩
  | cons index rest ih =>
    obtain ⟨hindex, hrest⟩ := List.forall_mem_cons.mp horder
    have hitem : items[index]? = some items[index] := List.getElem?_eq_getElem hindex
    obtain ⟨hindices, hresults⟩ := ih hrest (runElement_eq it s hchild hw index items[index]).2
    rw [arrivals_cons hitem]
    refine ⟨by rw [List.map_cons, hindices], List.forall_mem_cons.mpr ⟨?_, hresults⟩⟩
    exact ⟨items[index], w, hitem, hw, rfl⟩

/-- Elements that run one after the other give back what elements can that run at the same time. -/
theorem arrivals_arrives (hchild : child.Depends ctx f) (hw : w.cancelled = false)
    {order : List Nat} (horder : Finishes (some it.width) items.length order) :
    it.Arrives child ctx s items (it.arrivals child ctx s items order w).1 := by
  have hwithin : ∀ index ∈ order, index < items.length := fun index hindex =>
    List.mem_range.mp ((finishes_iff.mp horder).mem_iff.mp hindex)
  obtain ⟨hindices, hresults⟩ := it.arrivals_givesBack hchild hwithin hw
  exact ⟨hindices.symm ▸ horder, hresults⟩

theorem range_filterMap_getElem? {α β : Type} (g : Nat → α → β) (l : List α) :
    (List.range l.length).filterMap (fun index => l[index]?.map (g index)) = l.mapIdx g := by
  induction l using List.reverseRecOn with
  | nil => rfl
  | append_singleton l a ih =>
    have hfront : (List.range l.length).filterMap (fun index => (l ++ [a])[index]?.map (g index)) =
        (List.range l.length).filterMap fun index => l[index]?.map (g index) :=
      List.filterMap_congr fun index hindex => by
        rw [List.getElem?_append_left (List.mem_range.mp hindex)]
    rw [List.length_append, List.length_singleton, List.range_succ, List.filterMap_append, hfront,
      ih, List.mapIdx_concat]
    simp

/-- Whatever arrives, and in whatever order, in the order of the list it is what the elements give
back on their own. -/
theorem Arrives.arranged_eq (h : it.Arrives child ctx s items arrived)
    (hchild : child.Depends ctx f) : arranged items.length arrived =
      items.mapIdx fun index item => it.alone child.channel f s index item := by
  obtain ⟨hfinishes, hresults⟩ := h
  have hindices := finishes_iff.mp hfinishes
  rw [← range_filterMap_getElem?]
  unfold arranged
  refine List.filterMap_congr fun index hindex => ?_
  have hmem : index ∈ arrived.map (·.1) := hindices.mem_iff.mpr hindex
  obtain ⟨p, hp, rfl⟩ := List.mem_map.mp hmem
  obtain ⟨q, hq⟩ : ∃ q, arrived.find? (·.1 == p.1) = some q :=
    Option.isSome_iff_exists.mp (List.find?_isSome.mpr ⟨p, hp, beq_self_eq_true _⟩)
  obtain ⟨item, w, hitem, hw, hresult⟩ := hresults q (List.mem_of_find?_eq_some hq)
  have hsame : q.1 = p.1 := by simpa only [beq_iff_eq] using List.find?_some hq
  rw [hq, ← hsame, hitem, Option.map_some, Option.map_some, ← hresult,
    (runElement_eq it s hchild hw q.1 item).1]

end Arrivals

/-! ## What the results come to -/

/-- What the results of the elements come to: the outputs, or the report of a failure. The first
element that fails ends the node, or all that fail leave null, or are left out. -/
def Scanned (mode : ErrorMode) (results : List ElementResult) :
    Except String (List Json) → Prop
  | .ok outputs =>
    match mode with
    | .terminate => results = outputs.map .ok
    | .ignore => outputs = results.map fun r => r.toOption.getD .null
    | .remove => outputs = results.filterMap Except.toOption
  | .error text => mode = .terminate ∧ ∃ (values : List Json) (message : String) (rest : _),
      results = values.map .ok ++ .error (.failed message) :: rest ∧
      text = s!"item {values.length} failed: {message}"

/-- Results of which none is a cancellation. -/
inductive Uncancelled : List ElementResult → Prop
  | nil : Uncancelled []
  | value (v : Json) {rest : List ElementResult} (h : Uncancelled rest) :
      Uncancelled (.ok v :: rest)
  | failed (message : String) {rest : List ElementResult} (h : Uncancelled rest) :
      Uncancelled (.error (.failed message) :: rest)

theorem uncancelled_of_forall {results : List ElementResult}
    (h : ∀ r ∈ results, r ≠ .error .cancelled) : Uncancelled results := by
  induction results with
  | nil => exact .nil
  | cons r rest ih =>
    obtain ⟨hr, hrest⟩ := List.forall_mem_cons.mp h
    obtain (_ | message) | v := r
    · exact absurd rfl hr
    · exact .failed message (ih hrest)
    · exact .value v (ih hrest)

theorem collect_values (mode : ErrorMode) (index : Nat) (values : List Json) :
    collect mode index (values.map .ok) = .ok values := by
  induction values generalizing index with
  | nil => rfl
  | cons v values ih => rw [List.map_cons, collect, ih]; rfl

theorem collect_terminate (index : Nat) (values : List Json) (message : String)
    (rest : List ElementResult) :
    collect .terminate index (values.map .ok ++ .error (.failed message) :: rest) =
      .error (.failed s!"item {index + values.length} failed: {message}") := by
  induction values generalizing index with
  | nil => rfl
  | cons v values ih =>
    rw [List.map_cons, List.cons_append, collect, ih, List.length_cons, Nat.add_assoc,
      Nat.add_comm 1]
    rfl

section Results

variable {results : List ElementResult} (h : Uncancelled results)
include h

/-- The results up to the first failure. -/
theorem Uncancelled.values_or_failed :
    (∃ values : List Json, results = values.map .ok) ∨
      ∃ (values : List Json) (message : String) (rest : List ElementResult),
        results = values.map .ok ++ .error (.failed message) :: rest := by
  induction h with
  | nil => exact .inl ⟨[], rfl⟩
  | value v h ih =>
    obtain ⟨values, rfl⟩ | ⟨values, message, rest, rfl⟩ := ih
    · exact .inl ⟨v :: values, rfl⟩
    · exact .inr ⟨v :: values, message, rest, rfl⟩
  | @failed message rest h ih => exact .inr ⟨[], message, rest, rfl⟩

theorem Uncancelled.collect_ignore (index : Nat) :
    collect .ignore index results = .ok (results.map fun r => r.toOption.getD .null) := by
  induction h generalizing index with
  | nil => rfl
  | value v h ih => rw [collect, ih]; rfl
  | failed message h ih => rw [collect, ih]; rfl

theorem Uncancelled.collect_remove (index : Nat) :
    collect .remove index results = .ok (results.filterMap Except.toOption) := by
  induction h generalizing index with
  | nil => rfl
  | value v h ih => rw [collect, ih]; rfl
  | failed message h ih => rw [collect, ih]; rfl

/-- The results are summed up as the mode says. -/
theorem Uncancelled.collect_scanned (mode : ErrorMode) : ∃ outcome, Scanned mode results outcome ∧
    collect mode 0 results = outcome.mapError .failed := by
  cases mode with
  | terminate =>
    obtain ⟨values, rfl⟩ | ⟨values, message, rest, rfl⟩ := h.values_or_failed
    · exact ⟨.ok values, rfl, collect_values .terminate 0 values⟩
    · refine ⟨.error s!"item {values.length} failed: {message}", ⟨rfl, _, _, _, rfl, rfl⟩, ?_⟩
      rw [collect_terminate, Nat.zero_add]
      rfl
  | ignore => exact ⟨.ok _, rfl, h.collect_ignore 0⟩
  | remove => exact ⟨.ok _, rfl, h.collect_remove 0⟩

end Results

/-- Nothing is written if an element that counts was cancelled. -/
theorem uncancelled_of_collect {mode : ErrorMode} {index : Nat} {results : List ElementResult}
    {outputs : List Json} (h : collect mode index results = .ok outputs) : Uncancelled results := by
  induction results generalizing index outputs with
  | nil => exact .nil
  | cons r rest ih =>
    obtain (_ | message) | v := r
    · cases h
    · cases mode with
      | terminate => cases h
      | ignore =>
        obtain ⟨outputs', hrest, -⟩ := exists_of_map_eq_ok h
        exact .failed message (ih hrest)
      | remove => exact .failed message (ih h)
    · obtain ⟨outputs', hrest, -⟩ := exists_of_map_eq_ok h
      exact .value v (ih hrest)

theorem collect_eq_ok_iff {mode : ErrorMode} {results : List ElementResult} {outputs : List Json} :
    collect mode 0 results = .ok outputs ↔
      Uncancelled results ∧ Scanned mode results (.ok outputs) := by
  constructor
  · intro h
    have hgoes := uncancelled_of_collect h
    obtain ⟨outcome, hscanned, hcollect⟩ := hgoes.collect_scanned mode
    rw [h] at hcollect
    cases outcome with
    | error text => cases hcollect
    | ok outputs' =>
      cases hcollect
      exact ⟨hgoes, hscanned⟩
  · rintro ⟨hgoes, hscanned⟩
    cases mode with
    | terminate =>
      cases hscanned
      exact collect_values .terminate 0 outputs
    | ignore =>
      cases hscanned
      exact hgoes.collect_ignore 0
    | remove =>
      cases hscanned
      exact hgoes.collect_remove 0

/-- Only the first element that fails ends the node, and only in the mode that says so. -/
theorem exists_failed_of_collect {mode : ErrorMode} {index : Nat} {results : List ElementResult}
    {text : String} (h : collect mode index results = .error (.failed text)) :
    mode = .terminate ∧ ∃ (values : List Json) (message : String) (rest : List ElementResult),
      results = values.map .ok ++ .error (.failed message) :: rest ∧
      text = s!"item {index + values.length} failed: {message}" := by
  induction results generalizing index with
  | nil => cases h
  | cons r rest ih =>
    obtain (_ | message) | v := r
    · cases h
    · cases mode with
      | terminate =>
        cases h
        exact ⟨rfl, [], message, rest, rfl, rfl⟩
      | ignore => cases (ih (eq_error_of_map h)).1
      | remove => cases (ih h).1
    · obtain ⟨hmode, values, message, rest', rfl, rfl⟩ := ih (eq_error_of_map h)
      refine ⟨hmode, v :: values, message, rest', rfl, ?_⟩
      rw [List.length_cons, Nat.add_assoc, Nat.add_comm 1]

theorem collect_eq_failed_iff {mode : ErrorMode} {results : List ElementResult} {text : String} :
    collect mode 0 results = .error (.failed text) ↔ Scanned mode results (.error text) := by
  constructor
  · intro h
    obtain ⟨hmode, values, message, rest, hresults, htext⟩ := exists_failed_of_collect h
    exact ⟨hmode, values, message, rest, hresults, by rw [htext, Nat.zero_add]⟩
  · rintro ⟨rfl, values, message, rest, rfl, rfl⟩
    rw [collect_terminate, Nat.zero_add]

/-- What the node gives back for what the elements come to. -/
def written : Except String (List Json) → NodeOutput
  | .ok outputs => .write (report outputs)
  | .error text => .failure text

/-- The fields of what is written for the outputs, in order. -/
theorem report_fields (outputs : List Json) : report outputs = .obj
    [("error", .null), ("output", .arr outputs),
      ("output_str", .str (String.intercalate "\n" (outputs.map outputText)))] := by
  have hkeys : ["error", "output", "output_str"].Pairwise (· < ·) := by decide
  have hsorted : Table.Sorted [("error", Json.null), ("output", Json.arr outputs),
      ("output_str", Json.str (String.intercalate "\n" (outputs.map outputText)))] :=
    List.pairwise_map.mp hkeys
  exact congrArg Json.obj (hsorted.ofList_eq_of_perm (List.perm_append_singleton _ [_, _]))

/-- The fields of what the node gives back: the outputs, their texts line by line and no error, or
the error and nothing else. -/
theorem written_fields (outcome : Except String (List Json)) : ∃ fields : Table Json,
    written outcome = .write (.obj fields) ∧
      (∀ outputs, outcome = .ok outputs → fields =
        [("error", .null), ("output", .arr outputs),
          ("output_str", .str (String.intercalate "\n" (outputs.map outputText)))]) ∧
      ∀ text, outcome = .error text → fields = [("error", .str text)] := by
  cases outcome with
  | ok outputs =>
    refine ⟨_, congrArg NodeOutput.write (report_fields outputs), fun outputs' h => ?_, nofun⟩
    cases h
    rfl
  | error text =>
    refine ⟨_, rfl, nofun, fun text' h => ?_⟩
    cases h
    rfl

theorem resultOf_ne_cancelled (h : x ≠ .error .cancelled) :
    it.resultOf channel s x ≠ .error .cancelled := by
  unfold resultOf
  split
  · exact absurd rfl h
  · nofun
  · split
    · nofun
    · dsimp only
      split <;> nofun

section Conclusions

variable {child : Child σ} {ctx : NodeContext} {f : Nat → Snapshot → Except NodeError NodeOutput}
  {items : List Json} {outcome : Except String (List Json)} {w : World σ}
  (hchild : child.Depends ctx f)
  (hcollect : collect it.errorMode 0 (items.mapIdx fun index item =>
    it.alone child.channel f s index item) = outcome.mapError .failed)
include hchild hcollect

theorem Arrives.concluded_eq {arrived : List (Nat × ElementResult)}
    (h : it.Arrives child ctx s items arrived) (w : World σ) :
    (it.concluded ctx items.length arrived w).1 = .ok (written outcome) := by
  unfold concluded
  rw [h.arranged_eq hchild, hcollect]
  cases outcome with
  | ok outputs => rfl
  | error text => rfl

theorem runInOrder_written (hw : w.cancelled = false) {order : List Nat}
    (horder : Finishes (some it.width) items.length order) :
    (it.runInOrder child order ctx s items w).1 = .ok (written outcome) := by
  rw [runInOrder_eq]
  exact (arrivals_arrives hchild hw horder).concluded_eq hchild hcollect _

theorem node_written (hlist : (s.resolve? it.input).bind Json.asItems? = some items)
    (hw : w.cancelled = false) : (it.node child ctx s w).1 = .ok (written outcome) := by
  unfold Iteration.node
  rw [hlist]
  exact runInOrder_written hchild hcollect hw (finishes_iff.mpr (.refl _))

end Conclusions

end Iteration

open Iteration

/-- An iteration is a map over its elements that keeps their order. The child gives back what
depends on nothing but the state that it sees and the index of the element, and does not cancel
anything. Then what the node writes can be read off what the elements give back on their own, each
from a copy of the state in which only the input differs, whatever the order in which they run and
finish: the outputs with their texts, or the error. -/
theorem iteration_elementwise (it : Iteration) (child : Iteration.Child σ) (ctx : NodeContext)
    (s : Snapshot) (items : List Json) (f : Nat → Snapshot → Except NodeError NodeOutput)
    (hlist : (s.resolve? it.input).bind Json.asItems? = some items) (hchild : child.Depends ctx f)
    (hgoes : ∀ index s, f index s ≠ .error .cancelled) :
    ∃ (outcome : Except String (List Json)) (fields : Table Json), Scanned it.errorMode
        (items.mapIdx fun index item => it.alone child.channel f s index item) outcome ∧
      (∀ index item message, it.alone child.channel f s index item = .error (.failed message) ↔
        Fails (f index { s with input := it.elementInput s index item }) message) ∧
      (∀ outputs, outcome = .ok outputs → fields =
        [("error", .null), ("output", .arr outputs),
          ("output_str", .str (String.intercalate "\n" (outputs.map outputText)))]) ∧
      (∀ text, outcome = .error text → fields = [("error", .str text)]) ∧
      (∀ arrived, it.Arrives child ctx s items arrived → ∀ w : World σ,
        (it.concluded ctx items.length arrived w).1 = .ok (.write (.obj fields))) ∧
      ∀ w, w.cancelled = false → (it.node child ctx s w).1 = .ok (.write (.obj fields)) ∧
        ∀ order, Finishes (some it.width) items.length order →
          (it.runInOrder child order ctx s items w).1 = .ok (.write (.obj fields)) := by
  have hresults : Uncancelled
      (items.mapIdx fun index item => it.alone child.channel f s index item) := by
    refine uncancelled_of_forall fun r hr => ?_
    obtain ⟨index, hindex, rfl⟩ := List.mem_mapIdx.mp hr
    exact resultOf_ne_cancelled (hgoes _ _)
  obtain ⟨outcome, hscanned, hcollect⟩ := hresults.collect_scanned it.errorMode
  obtain ⟨fields, hwritten, houtputs, herror⟩ := written_fields outcome
  refine ⟨outcome, fields, hscanned, fun _ _ _ => resultOf_eq_failed_iff, houtputs, herror, ?_, ?_⟩
  · rw [← hwritten]
    exact fun arrived h w => h.concluded_eq hchild hcollect w
  · rw [← hwritten]
    exact fun w hw => ⟨node_written hchild hcollect hlist hw, fun order horder =>
      runInOrder_written hchild hcollect hw horder⟩

namespace Iteration

/-- What a child gives back that fails in every way that there is. -/
def unevenResponse : Nat → Snapshot → Except NodeError NodeOutput
  | 1, _ => .error (.validation "exploded")
  | 2, _ => .ok { update := none, messages := none, handoff := none,
                  interrupt := some (.plain "child" "approval") }
  | 3, _ => .ok (.failure "not now")
  | _, s => .ok (.write (.obj [("output", (s.input.field? "text").getD .null)]))

def unevenChild : Child Unit where
  key := "child"
  run := fun ctx s => pure (unevenResponse (ctx.elements.getLast?.getD 0) s)
  channel := some (.shallowMerge "child_channel")

theorem unevenChild_depends (ctx : NodeContext) : unevenChild.Depends ctx unevenResponse := by
  intro index s w hw
  have hindex : ((elementContext ctx unevenChild.key index).elements.getLast?.getD 0) = index := by
    simp [elementContext]
  refine ⟨?_, hw⟩
  change unevenResponse ((elementContext ctx unevenChild.key index).elements.getLast?.getD 0) s = _
  rw [hindex]

theorem unevenResponse_goes (index : Nat) (s : Snapshot) :
    unevenResponse index s ≠ .error .cancelled := by
  unfold unevenResponse
  split <;> nofun

/-- Three elements run at once, and those that fail leave null. -/
def uneven : Iteration :=
  ⟨"input.list", [⟨"item", "text"⟩], [⟨"item", "child_channel.output"⟩], true, some 3, .ignore⟩

/-- The variable that is kept of each element does not exist. -/
def unmapped : Iteration := { uneven with outputs := [⟨"item", "input.nowhere"⟩] }

/-- A state in which there is a list. -/
def listState (items : List Json) : Snapshot :=
  { Snapshot.empty with input := .obj [("list", .arr items)] }

end Iteration

/-- Five elements, of which three fail. They finish in some order, and the outputs are in theirs. -/
theorem iteration_elementwise_uneven :
    let items : List Json := [.str "a", .str "b", .str "c", .str "d", .str "e"]
    Finishes (some 3) items.length [3, 0, 4, 2, 1] ∧
      (uneven.runInOrder unevenChild [3, 0, 4, 2, 1] (.detached "loop") (listState items) items
          (.start ())).1 = .ok (.write (.obj
            [("error", .null), ("output", .arr [.str "a", .null, .null, .null, .str "e"]),
              ("output_str", .str "a\nnull\nnull\nnull\ne")])) := by
  intro items
  have horder : Finishes (some 3) items.length [3, 0, 4, 2, 1] := finishes_iff.mpr (by decide)
  obtain ⟨outcome, fields, hscanned, -, houtputs, -, -, hruns⟩ := iteration_elementwise uneven
    unevenChild (.detached "loop") (listState items) items unevenResponse rfl
    (unevenChild_depends (.detached "loop")) unevenResponse_goes
  have hwritten := (hruns (.start ()) rfl).2 [3, 0, 4, 2, 1] horder
  have hresults : (items.mapIdx fun index item =>
      uneven.alone unevenChild.channel unevenResponse (listState items) index item) =
        [.ok (.str "a"), .error (.failed (NodeError.validation "exploded").message),
          .error (.failed "interrupts are not supported inside an iteration"),
          .error (.failed "not now"), .ok (.str "e")] := by
    simp only [items, List.mapIdx_cons, List.mapIdx_nil]
    rfl
  rw [hresults] at hscanned
  refine ⟨horder, ?_⟩
  rw [hwritten]
  cases outcome with
  | error text => cases hscanned.1
  | ok outputs =>
    cases hscanned
    rw [houtputs _ rfl]
    rfl

/-- Null does not stand for failures only: what is kept of an element that did not fail may be null
as well. Here the variable that is kept does not exist. -/
theorem null_without_failure :
    let items : List Json := [.str "a", .str "b"]
    let s := listState items
    unmapped.errorMode = .ignore ∧ unevenChild.Depends (.detached "loop") unevenResponse ∧
      (∀ index s, unevenResponse index s ≠ .error .cancelled) ∧
      (unmapped.node unevenChild (.detached "loop") s (.start ())).1 =
        .ok (.write (report [.null, .null])) ∧
      ¬ ∀ index item, items[index]? = some item →
        (([.null, .null] : List Json)[index]? = some .null ↔ ∃ message,
          Fails (unevenResponse index { s with input := unmapped.elementInput s index item })
            message) := by
  have hfirst : unmapped.alone unevenChild.channel unevenResponse
      (listState [.str "a", .str "b"]) 0 (.str "a") = .ok .null := rfl
  have hsecond : unmapped.alone unevenChild.channel unevenResponse
      (listState [.str "a", .str "b"]) 1 (.str "b") =
        .error (.failed (NodeError.validation "exploded").message) := rfl
  have hcollect : collect unmapped.errorMode 0 ([.str "a", .str "b"].mapIdx fun index item =>
      unmapped.alone unevenChild.channel unevenResponse (listState [.str "a", .str "b"]) index
        item) = (Except.ok [.null, .null] : Except String (List Json)).mapError .failed := by
    rw [List.mapIdx_cons, List.mapIdx_cons, List.mapIdx_nil, hfirst, hsecond]
    rfl
  refine ⟨rfl, unevenChild_depends _, unevenResponse_goes,
    node_written (unevenChild_depends _) hcollect rfl rfl, fun h => ?_⟩
  obtain ⟨message, hfails⟩ := (h 0 (.str "a") rfl).mp rfl
  have hfailed : unmapped.alone unevenChild.channel unevenResponse
      (listState [.str "a", .str "b"]) 0 (.str "a") = .error (.failed message) :=
    resultOf_eq_failed_iff.mpr hfails
  rw [hfirst] at hfailed
  cases hfailed

end Workgraph
