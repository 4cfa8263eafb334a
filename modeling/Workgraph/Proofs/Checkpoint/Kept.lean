import Workgraph.Proofs.Checkpoint.Written
import Workgraph.Proofs.Run.Versions
/-!
# Kept checkpoints

A checkpoint that is kept as text is read back as it was. The versions of a state are kept with its
channels, so a state is read back if its versions belong to channels and are positive.

## Main definitions

- `Snapshot.Ordered`: the values in a state are ordered, and their numbers have a property
- `Checkpoint.Keepable`: what a checkpoint must be for its text to hold all of it

## Main statements

- `PersistedState.toState_ofState`: nothing of a state is lost in what is kept of it
- `PersistedState.reads`, `PersistedCheckpoint.reads`: what is kept is read back
- `checkpoint_read_back`: a checkpoint is read back from its text
-/

namespace Workgraph

variable {p : Number → Prop}

/-- The values in a state are ordered, and their numbers have a property. -/
structure Snapshot.Ordered (p : Number → Prop) (s : Snapshot) : Prop where
  channels : ∀ e ∈ s.channels, e.2.Ordered p
  messages : ∀ m ∈ s.messages, m.Ordered p
  input : s.input.Ordered p
  environment : s.environment.Ordered p

/-- The greatest version that is kept. -/
def maxVersion : Nat := Nat.pow 2 32 - 1

namespace PersistedState

variable {s : Snapshot}

theorem sorted_ofState (h : s.channels.Sorted) : (ofState s).channels.Sorted :=
  List.pairwise_map.mpr h

/-- What is kept of the versions is what is kept with the channels. -/
theorem versions_ofState (h : s.Versioned) : (ofState s).toState.versions = s.versions := by
  have hsorted : (ofState s).toState.versions.Sorted :=
    ((sorted_ofState h.channels).filter _).mapValues _
  refine hsorted.ext h.versions fun key => Option.ext fun n => ?_
  rw [hsorted.get?_eq_some_iff, h.versions.get?_eq_some_iff]
  constructor
  · intro hmem
    obtain ⟨⟨name, c⟩, hc, heq⟩ := List.mem_map.mp hmem
    obtain ⟨hc, hpositive⟩ := List.mem_filter.mp hc
    obtain ⟨⟨name', value⟩, -, hchannel⟩ := List.mem_map.mp hc
    cases hchannel
    cases heq
    exact h.mem_versions (of_decide_eq_true hpositive)
  · intro hmem
    obtain ⟨⟨name, value⟩, hchannel, hname⟩ := List.any_eq_true.mp (h.known _ hmem)
    obtain rfl : name = key := of_decide_eq_true hname
    have hversion := h.version_eq hmem
    have hpos : 0 < n := h.positive _ hmem
    have hkept : (name, PersistedChannel.mk n value) ∈ (ofState s).channels :=
      hversion ▸ List.mem_map.mpr ⟨(name, value), hchannel, rfl⟩
    exact List.mem_map.mpr ⟨_, List.mem_filter.mpr ⟨hkept, decide_eq_true hpos⟩, rfl⟩

/-- Nothing of a state is lost in what is kept of it. -/
theorem toState_ofState (h : s.Versioned) : (ofState s).toState = s := by
  have hchannels : (ofState s).toState.channels = s.channels := by
    change (s.channels.map _).map _ = _
    rw [List.map_map]
    exact List.map_id _
  change Snapshot.mk (ofState s).toState.channels s.messages s.environment s.input
    (ofState s).toState.versions = s
  rw [hchannels, versions_ofState h]

end PersistedState

/-- What is kept is read back from its text. -/
theorem Decoder.Reads.readPersisted {α : Type} {d : Decoder α} {a : α} {v : Json} (h : d.Reads a v)
    (hordered : v.Ordered Number.ReadsBack) (hdepth : v.depth ≤ maxDepth) (what : String) :
    Workgraph.readPersisted d what v.compact = .ok a := by
  unfold Workgraph.readPersisted
  rw [h.decodeText hordered.numbers hdepth]
  rfl

theorem PersistedChannel.reads {c : PersistedChannel} (hversion : c.version ≤ maxVersion)
    (hvalue : c.value.Ordered p) : PersistedChannel.decoder.Reads c c.toJson := by
  refine ((Record.Reads.map ?_ PersistedChannel.mk).seq ?_).decoder (Table.sorted_ofList _) _
  · exact Record.required_reads (by simp) (Decoder.natural_reads _ hversion)
  · exact Record.required_reads (by simp) (Decoder.json_reads hvalue)

/-- The values in a kept state are ordered, their numbers have a property, and its versions fit 32
bits. -/
structure PersistedState.Ordered (p : Number → Prop) (k : PersistedState) : Prop where
  sorted : k.channels.Sorted
  versions : ∀ e ∈ k.channels, e.2.version ≤ maxVersion
  values : ∀ e ∈ k.channels, e.2.value.Ordered p
  messages : ∀ m ∈ k.messages, m.Ordered p
  input : k.input.Ordered p
  environment : k.environment.Ordered p

namespace PersistedState

variable {s : Snapshot} {k : PersistedState}

/-- A kept state is read back. -/
theorem reads (h : k.Ordered p) : PersistedState.decoder.Reads k k.toJson := by
  refine ((((Record.Reads.map ?_ PersistedState.mk).seq ?_).seq ?_).seq ?_).decoder
    (Table.sorted_ofList _) _
  · have hchannels : ∀ e ∈ k.channels, PersistedChannel.decoder.Reads e.2 e.2.toJson :=
      fun e he => PersistedChannel.reads (h.versions e he) (h.values e he)
    exact Record.defaulted_reads_of_get? (by simp) (Decoder.table_reads h.sorted hchannels)
  · exact Record.defaulted_reads_of_get? (by simp) (Message.list_reads h.messages)
  · exact Record.defaulted_reads_of_get? (by simp) (Decoder.json_reads h.input)
  · exact Record.defaulted_reads_of_get? (by simp) (Decoder.json_reads h.environment)

/-- The written form of a kept state is ordered, provided that versions have the property of its
numbers. -/
theorem toJson_ordered (h : k.Ordered p) (hnumbers : ∀ n : Nat, n ≤ maxUnsigned64 → p (.int n)) :
    k.toJson.Ordered p := by
  have hchannels : Json.Ordered p (.obj (Table.mapValues PersistedChannel.toJson k.channels)) := by
    refine .obj (h.sorted.mapValues _) (List.forall_mem_map.mpr fun e he => ?_)
    have hnumber : p (.int e.2.version) :=
      hnumbers _ (le_trans (h.versions e he) (by decide : maxVersion ≤ maxUnsigned64))
    exact .object (by simp [Json.Ordered.nat hnumber, h.values e he])
  exact .object (by
    simp [hchannels, Message.listToJson_ordered h.messages, h.input, h.environment])

/-- What is kept of a state is ordered if the state is. -/
theorem ordered_ofState (hversioned : s.Versioned) (h : s.Ordered p)
    (hfits : ∀ e ∈ s.versions, e.2 ≤ maxVersion) : (ofState s).Ordered p where
  sorted := sorted_ofState hversioned.channels
  versions := List.forall_mem_map.mpr fun e _ => hversioned.version_le hfits e.1
  values := List.forall_mem_map.mpr h.channels
  messages := h.messages
  input := h.input
  environment := h.environment

end PersistedState

namespace PersistedCheckpoint

variable {k : PersistedCheckpoint}

/-- A kept checkpoint is read back. -/
theorem reads (hstate : k.state.Ordered p) (hrecord : k.record.Ordered p)
    (hstep : k.record.step ≤ maxUnsigned64) : PersistedCheckpoint.decoder.Reads k k.toJson := by
  refine (((((((Record.Reads.map ?_ PersistedCheckpoint.mk).seq ?_).seq ?_).seq ?_).seq ?_).seq
    ?_).seq ?_).decoder (Table.sorted_ofList _) _
  · exact Record.required_reads (by simp) (Decoder.text_reads k.threadId)
  · exact Record.required_reads (by simp) (Decoder.text_reads k.checkpointNs)
  · exact Record.required_reads (by simp) (Decoder.text_reads k.id)
  · exact Record.nullable_reads (by simp) (Decoder.optional_reads_text? k.parentId)
  · exact Record.required_reads (by simp) (PersistedState.reads hstate)
  · exact Record.required_reads (by simp) (StepRecord.reads hrecord hstep)
  · exact Record.required_reads (by simp) (Decoder.text_reads k.createdAt)

theorem toJson_ordered (hstate : k.state.Ordered p) (hrecord : k.record.Ordered p)
    (hstep : k.record.step ≤ maxUnsigned64)
    (hnumbers : ∀ n : Nat, n ≤ maxUnsigned64 → p (.int n)) : k.toJson.Ordered p := by
  have hstate' := PersistedState.toJson_ordered hstate hnumbers
  have hrecord' := StepRecord.toJson_ordered hrecord (hnumbers _ hstep)
  exact .object (by simp [Json.Ordered.text?, hstate', hrecord'])

end PersistedCheckpoint

/-- What a checkpoint must be for its text to hold all of it: it has an identifier, the versions of
its state belong to channels, the numbers in its values have a property, its own numbers have the
width of their fields, and the text of its time stands for this time. -/
structure Checkpoint.Keepable (p : Number → Prop) (c : Checkpoint) : Prop where
  named : c.id ≠ ""
  versioned : c.state.Versioned
  versions : ∀ e ∈ c.state.versions, e.2 ≤ maxVersion
  state : c.state.Ordered p
  record : c.record.Ordered p
  step : c.record.step ≤ maxUnsigned64
  time : Timestamp.ofText c.createdAt.offsetText = .ok c.createdAt

namespace Checkpoint.Keepable

variable {c : Checkpoint}

theorem keptState (h : c.Keepable p) : (PersistedState.ofState c.state).Ordered p :=
  PersistedState.ordered_ofState h.versioned h.state h.versions

/-- Nothing of a checkpoint is lost in what is kept of it. -/
theorem toCheckpoint_ofCheckpoint (h : c.Keepable p) :
    (PersistedCheckpoint.ofCheckpoint c).toCheckpoint = .ok c := by
  have hnamed : ¬(PersistedCheckpoint.ofCheckpoint c).id.isEmpty = true := fun hempty =>
    h.named (String.isEmpty_iff.mp hempty)
  have htime : Timestamp.ofText (PersistedCheckpoint.ofCheckpoint c).createdAt = .ok c.createdAt :=
    h.time
  have hstate : (PersistedCheckpoint.ofCheckpoint c).state.toState = c.state :=
    PersistedState.toState_ofState h.versioned
  unfold PersistedCheckpoint.toCheckpoint
  rw [if_neg hnamed, htime, hstate]
  rfl

end Checkpoint.Keepable

/-- Keeping a checkpoint as text loses nothing of it. -/
theorem checkpoint_read_back {c : Checkpoint} (h : c.Keepable Number.Integral)
    (hdepth : (PersistedCheckpoint.ofCheckpoint c).toJson.depth ≤ maxDepth) (what : String) :
    (readPersisted PersistedCheckpoint.decoder what
      (PersistedCheckpoint.ofCheckpoint c).toJson.compact >>= PersistedCheckpoint.toCheckpoint) =
        .ok c := by
  have hordered : (PersistedCheckpoint.ofCheckpoint c).toJson.Ordered Number.ReadsBack :=
    (PersistedCheckpoint.toJson_ordered h.keptState h.record h.step
      fun _ => Number.integral_nat).mono fun _ => Number.Integral.readsBack
  rw [(PersistedCheckpoint.reads h.keptState h.record h.step).readPersisted hordered hdepth]
  exact h.toCheckpoint_ofCheckpoint

/-- A paused checkpoint that has all its parts, and null among its values. -/
def fullCheckpoint : Checkpoint where
  threadId := "thread"
  checkpointNs := "inner"
  id := "4"
  parentId := some "3"
  state :=
    { channels := [("branch", .null),
        ("writer", .obj [("draft", .str "a \"b\"\n"), ("score", .num (.int (-3)))])]
      messages := [.user "hello",
        .calling "" [⟨"call", "search", .arr [.num (.int 7), .bool true]⟩],
        .tool "found" "call" "search"]
      environment := .obj []
      input := .null
      versions := [("writer", 2)] }
  record :=
    { graphId := "flow"
      step := 4
      source := .pause
      ranNodes := ["writer"]
      handoffs := [("writer", ⟨"editor", [.user "take over"]⟩)]
      pending := ["editor"]
      deferred := ["join"]
      interrupt := some ⟨"editor", "ask", .arr []⟩ }
  createdAt := ⟨1700000000, 250000000⟩

theorem fullCheckpoint_keepable (hp : ∀ n : Number, n.Integral → p n) :
    fullCheckpoint.Keepable p where
  named := by decide
  versioned := ⟨by decide, by decide, by decide, by decide⟩
  versions := by decide
  state :=
    { channels := by
        refine List.forall_mem_cons.mpr ⟨.null, List.forall_mem_singleton.mpr ?_⟩
        exact .obj (by decide) (by simpa using hp (.int (-3)) (by decide))
      messages := by
        have hseven : p (.int 7) := hp _ (by decide)
        simp [fullCheckpoint, Message.Ordered, Message.user, Message.plain, Message.calling,
          Message.assistant, Message.tool, hseven]
      input := .null
      environment := .obj .nil nofun }
  record :=
    { handoffs := by
        simp [fullCheckpoint, Handoff.Ordered, Message.Ordered, Message.user, Message.plain]
      interrupt := by simp [fullCheckpoint] }
  step := by decide
  time := rfl

theorem checkpoint_read_back_full :
    fullCheckpoint.Keepable Number.Integral ∧
      (PersistedCheckpoint.ofCheckpoint fullCheckpoint).toJson.depth ≤ maxDepth ∧
      (readPersisted PersistedCheckpoint.decoder "checkpoint"
        (PersistedCheckpoint.ofCheckpoint fullCheckpoint).toJson.compact >>=
          PersistedCheckpoint.toCheckpoint) = .ok fullCheckpoint := by
  have hdepth : (PersistedCheckpoint.ofCheckpoint fullCheckpoint).toJson.depth ≤ maxDepth := by
    decide +kernel
  have hkeepable := fullCheckpoint_keepable fun _ h => h
  exact ⟨hkeepable, hdepth, checkpoint_read_back hkeepable hdepth "checkpoint"⟩

end Workgraph
