import Workgraph.Checkpoint.Persisted
import Workgraph.Proofs.Json.Records
/-!
# Conversations and step records decoded

Messages, transfers, pauses and the records of steps are read back from what is written for them.
What is left out of the written form because it is empty or null has this very value as its
default.

## Main definitions

- `Message.Ordered`, `Handoff.Ordered`, `StepRecord.Ordered`: the values in a message, a transfer or
  a record are written with increasing keys, and their numbers have a property

## Main statements

- `ToolCall.reads`, `Message.reads`, `Handoff.reads`, `Interrupt.reads`, `StepRecord.reads`: what is
  written is read back
-/

namespace Workgraph

variable {p : Number → Prop}

/-- The arguments of the calls in a message are ordered, and their numbers have a property. -/
def Message.Ordered (p : Number → Prop) (m : Message) : Prop :=
  ∀ c ∈ m.toolCalls, c.args.Ordered p

/-- The messages of a transfer are ordered, and their numbers have a property. -/
def Handoff.Ordered (p : Number → Prop) (h : Handoff) : Prop := ∀ m ∈ h.messages, m.Ordered p

/-- The values in a record are ordered, and their numbers have a property. -/
structure StepRecord.Ordered (p : Number → Prop) (r : StepRecord) : Prop where
  handoffs : ∀ h ∈ r.handoffs, h.2.Ordered p
  interrupt : ∀ i ∈ r.interrupt, i.value.Ordered p

theorem Json.eq_null_of_isNull {v : Json} (h : v.isNull = true) : v = .null := by
  cases v with
  | null => rfl
  | _ => cases h

namespace Decoder

variable {α : Type} {d : Decoder α}

/-- Null is written for nothing. -/
theorem optional_reads_getD {o : Option α} {f : α → Json} (h : ∀ a ∈ o, d.Reads a (f a))
    (hf : ∀ a, f a ≠ .null) : (optional d).Reads o ((o.map f).getD .null) := by
  cases o with
  | none => exact optional_reads_none d
  | some a => exact (h a rfl).optional (hf a)

end Decoder

theorem ToolCall.reads {c : ToolCall} (h : c.args.Ordered p) :
    ToolCall.decoder.Reads c c.toJson := by
  refine (((Record.Reads.map ?_ ToolCall.mk).seq ?_).seq ?_).decoder (Table.sorted_ofList _) _
  · exact Record.required_reads (by simp) (Decoder.text_reads c.id)
  · exact Record.required_reads (by simp) (Decoder.text_reads c.name)
  · exact Record.defaulted_reads_of_get? (by simp) (Decoder.json_reads h)

theorem Message.reads {m : Message} (h : m.Ordered p) : Message.decoder.Reads m m.toJson := by
  refine (((((Record.Reads.map ?_ Message.mk).seq ?_).seq ?_).seq ?_).seq ?_).decoder
    (Table.sorted_ofList _) _
  · exact Record.required_reads (by simp) (Decoder.text_reads m.role)
  · exact Record.required_reads (by simp) (Decoder.text_reads m.content)
  · exact Record.optionalText_reads (by simp)
  · exact Record.optionalList_reads (by simp) fun c hc => ToolCall.reads (h c hc)
  · exact Record.optionalText_reads (by simp)

theorem Message.list_reads {ms : List Message} (h : ∀ m ∈ ms, m.Ordered p) :
    (Decoder.list Message.decoder).Reads ms (Message.listToJson ms) :=
  Decoder.list_reads fun m hm => Message.reads (h m hm)

theorem Handoff.reads {handoff : Handoff} (h : handoff.Ordered p) :
    Handoff.decoder.Reads handoff handoff.toJson := by
  refine ((Record.Reads.map ?_ Handoff.mk).seq ?_).decoder (Table.sorted_ofList _) _
  · exact Record.required_reads (by simp) (Decoder.text_reads handoff.target)
  · exact Record.optionalList_reads (by simp [Message.listToJson])
      fun m hm => Message.reads (h m hm)

theorem Interrupt.reads {i : Interrupt} (h : i.value.Ordered p) :
    Interrupt.decoder.Reads i i.toJson := by
  refine (((Record.Reads.map ?_ Interrupt.mk).seq ?_).seq ?_).decoder (Table.sorted_ofList _) _
  · exact Record.required_reads (by simp) (Decoder.text_reads i.node)
  · exact Record.required_reads (by simp) (Decoder.text_reads i.reason)
  · by_cases hnull : i.value.isNull
    · refine Record.defaulted_reads (fun v hv => ?_) fun _ => (Json.eq_null_of_isNull hnull).symm
      simp [hnull] at hv
    · exact Record.defaulted_reads_of_get? (by simp [hnull]) (Decoder.json_reads h)

theorem StepRecord.handoffToJson_reads {h : String × Handoff} (hordered : h.2.Ordered p) :
    (Decoder.pair Decoder.text Handoff.decoder).Reads h (handoffToJson h) :=
  Decoder.pair_reads (Decoder.text_reads h.1) (Handoff.reads hordered)

theorem CheckpointSource.reads (source : CheckpointSource) :
    (Decoder.enumeration CheckpointSource.names).Reads source (.str source.text) :=
  Decoder.enumeration_reads (by cases source <;> rfl)

/-- The record of a step is read back, provided that its number fits 64 bits. -/
theorem StepRecord.reads {r : StepRecord} (h : r.Ordered p) (hstep : r.step ≤ maxUnsigned64) :
    StepRecord.decoder.Reads r r.toJson := by
  refine ((((((((Record.Reads.map ?_ StepRecord.mk).seq ?_).seq ?_).seq ?_).seq ?_).seq ?_).seq
    ?_).seq ?_).decoder (Table.sorted_ofList _) _
  · exact Record.required_reads (by simp) (Decoder.text_reads r.graphId)
  · exact Record.required_reads (by simp) (Decoder.natural_reads _ hstep)
  · exact Record.required_reads (by simp) (CheckpointSource.reads r.source)
  · exact Record.defaulted_reads_of_get? (by simp) (Decoder.texts_reads r.ranNodes)
  · exact Record.defaulted_reads_of_get? (by simp)
      (Decoder.list_reads fun handoff hh => handoffToJson_reads (h.handoffs handoff hh))
  · exact Record.defaulted_reads_of_get? (by simp) (Decoder.texts_reads r.pending)
  · exact Record.defaulted_reads_of_get? (by simp) (Decoder.texts_reads r.deferred)
  · exact Record.defaulted_reads_of_get? (by simp)
      (Decoder.optional_reads_getD (fun i hi => Interrupt.reads (h.interrupt i hi)) nofun)

/-! ### The written forms are ordered -/

theorem ToolCall.toJson_ordered {c : ToolCall} (h : c.args.Ordered p) : c.toJson.Ordered p :=
  .object (by simp [h])

theorem Message.toJson_ordered {m : Message} (h : m.Ordered p) : m.toJson.Ordered p := by
  have hcalls : Json.Ordered p (.arr (m.toolCalls.map ToolCall.toJson)) :=
    .arr_map fun c hc => ToolCall.toJson_ordered (h c hc)
  refine .object fun e he => ?_
  simp only [List.mem_append, List.mem_cons, List.not_mem_nil, or_false, Option.mem_toList,
    Option.map_eq_some_iff] at he
  obtain (((rfl | rfl) | ⟨name, -, rfl⟩) | he) | ⟨id, -, rfl⟩ := he
  · exact .str _
  · exact .str _
  · exact .str _
  · split at he
    · cases he
    · obtain rfl := List.mem_singleton.mp he
      exact hcalls
  · exact .str _

theorem Message.listToJson_ordered {ms : List Message} (h : ∀ m ∈ ms, m.Ordered p) :
    (Message.listToJson ms).Ordered p :=
  .arr_map fun m hm => Message.toJson_ordered (h m hm)

theorem Handoff.toJson_ordered {handoff : Handoff} (h : handoff.Ordered p) :
    handoff.toJson.Ordered p := by
  refine .object fun e he => ?_
  obtain rfl | he := List.mem_cons.mp he
  · exact .str _
  · split at he
    · cases he
    · obtain rfl := List.mem_singleton.mp he
      exact Message.listToJson_ordered h

theorem Interrupt.toJson_ordered {i : Interrupt} (h : i.value.Ordered p) : i.toJson.Ordered p := by
  refine .object fun e he => ?_
  obtain he | he := List.mem_append.mp he
  · simp only [List.mem_cons, List.not_mem_nil, or_false] at he
    obtain rfl | rfl := he <;> exact .str _
  · split at he
    · cases he
    · obtain rfl := List.mem_singleton.mp he
      exact h

/-- The record of a step is ordered, provided that its number has the property. -/
theorem StepRecord.toJson_ordered {r : StepRecord} (h : r.Ordered p) (hstep : p (.int r.step)) :
    r.toJson.Ordered p := by
  have hhandoffs : Json.Ordered p (.arr (r.handoffs.map handoffToJson)) :=
    .arr_map fun handoff hh =>
      .arr (by simp [Handoff.toJson_ordered (h.handoffs handoff hh)])
  have hinterrupt : Json.Ordered p ((r.interrupt.map Interrupt.toJson).getD .null) := by
    cases hi : r.interrupt with
    | none => exact .null
    | some i => exact Interrupt.toJson_ordered (h.interrupt i hi)
  exact .object (by simp [Json.Ordered.texts, Json.Ordered.nat hstep, hhandoffs,
    hinterrupt])

end Workgraph
