import Workgraph.Graph.Description
import Workgraph.Proofs.Json.Records
/-!
# Descriptions read back

A description is read back from what is written for it, in whatever order the fields of its nodes
and connections and its own are written. What is left out of the written form because it is absent
is read as absent; a configuration that is null is written as null, and the kind of a connection is
always written.

## Main definitions

- `NodeSpec.Ordered`, `Description.Ordered`: the configurations of nodes are written with increasing
  keys, and their numbers have a property
- `NodeSpec.Written`, `Link.Written`, `Description.Written`: a value is written for a node, a
  connection or a description

## Main statements

- `NodeSpec.Written.reads`, `Link.Written.reads`, `Description.Written.reads`: what is written is
  read back
- `description_read_back`: a description is read back from its text
-/

namespace Workgraph

variable {p : Number → Prop} {v : Json}

/-- A text that is left out if it is absent has no numbers. -/
theorem Json.Numbers.optionalText {name : String} {o : Option String} {e : String × Json}
    (h : e ∈ (o.map fun s => (name, Json.str s)).toList) : e.2.Numbers p := by
  obtain ⟨s, -, rfl⟩ := Option.map_eq_some_iff.mp (Option.mem_toList.mp h)
  exact .str s

/-! ### Nodes -/

namespace NodeSpec

variable {n : NodeSpec}

/-- The configuration of a node is ordered, and its numbers have a property. -/
def Ordered (p : Number → Prop) (n : NodeSpec) : Prop := n.entity.Ordered p

/-- The fields of a node; what is absent has none. -/
def fields (n : NodeSpec) : List (String × Json) :=
  [("key", .str n.key), ("type", .str n.kind.text), ("entity", n.entity)] ++
    (n.subtype.map fun s => ("subtype", Json.str s)).toList ++
    (n.provider.map fun s => ("provider", Json.str s)).toList ++
    (n.title.map fun s => ("title", Json.str s)).toList

theorem fields_nodup (n : NodeSpec) : (n.fields.map (·.1)).Nodup := by
  obtain ⟨key, kind, subtype, provider, title, entity⟩ := n
  cases subtype <;> cases provider <;> cases title <;> simp [fields]

/-- A value is written for a node: it has the node's fields, in whatever order. -/
def Written (n : NodeSpec) (v : Json) : Prop := Json.HasFields n.fields v

theorem written_toJson (n : NodeSpec) : n.Written n.toJson := Json.hasFields_object n.fields_nodup

end NodeSpec

theorem NodeKind.reads (kind : NodeKind) :
    (Decoder.enumeration NodeKind.names).Reads kind (.str kind.text) :=
  Decoder.enumeration_reads (by cases kind <;> rfl)

theorem NodeSpec.Written.reads {n : NodeSpec} (hv : n.Written v) (h : n.Ordered p) :
    NodeSpec.decoder.Reads n v := by
  refine ((((((Record.Reads.map ?_ NodeSpec.mk).seq ?_).seq ?_).seq ?_).seq ?_).seq
    ?_).decoder_hasFields n.fields_nodup hv _
  · exact Record.required_reads (by simp [fields]) (Decoder.text_reads n.key)
  · exact Record.required_reads (by simp [fields]) (NodeKind.reads n.kind)
  · exact Record.optionalText_reads (by simp [fields])
  · exact Record.optionalText_reads (by simp [fields])
  · exact Record.optionalText_reads (by simp [fields])
  · exact Record.defaulted_reads_of_get? (by simp [fields]) (Decoder.json_reads h)

theorem NodeSpec.Written.numbers {n : NodeSpec} (hv : n.Written v) (h : n.Ordered p) :
    v.Numbers p := by
  refine Json.HasFields.numbers hv fun e he => ?_
  simp only [fields, List.mem_append, List.mem_cons, List.not_mem_nil, or_false] at he
  obtain (((rfl | rfl | rfl) | he) | he) | he := he
  · exact .str _
  · exact .str _
  · exact h.numbers
  · exact .optionalText he
  · exact .optionalText he
  · exact .optionalText he

/-! ### Connections -/

namespace Link

/-- The fields of a connection. -/
def fields (l : Link) : List (String × Json) :=
  [("from", .str l.source), ("to", .str l.target), ("type", .str l.kind.text)]

theorem fields_nodup (l : Link) : (l.fields.map (·.1)).Nodup := by simp [fields]

/-- A value is written for a connection: it has the connection's fields, in whatever order. -/
def Written (l : Link) (v : Json) : Prop := Json.HasFields l.fields v

theorem written_toJson (l : Link) : l.Written l.toJson := Json.hasFields_object l.fields_nodup

end Link

theorem LinkKind.reads (kind : LinkKind) :
    (Decoder.enumeration LinkKind.names).Reads kind (.str kind.text) :=
  Decoder.enumeration_reads (by cases kind <;> rfl)

theorem Link.Written.reads {l : Link} (hv : l.Written v) : Link.decoder.Reads l v := by
  refine (((Record.Reads.map ?_ Link.mk).seq ?_).seq ?_).decoder_hasFields l.fields_nodup hv _
  · exact Record.required_reads (by simp [fields]) (Decoder.text_reads l.source)
  · exact Record.required_reads (by simp [fields]) (Decoder.text_reads l.target)
  · exact Record.defaulted_reads_of_get? (by simp [fields]) (LinkKind.reads l.kind)

theorem Link.Written.numbers {l : Link} (hv : l.Written v) : v.Numbers p := by
  refine Json.HasFields.numbers hv ?_
  simp [fields, Json.Numbers.str]

/-! ### Descriptions -/

namespace Description

/-- The configurations of all nodes are ordered, and their numbers have a property. -/
def Ordered (p : Number → Prop) (g : Description) : Prop := ∀ n ∈ g.nodes, n.Ordered p

/-- The fields of a description with given values for its nodes and connections. -/
def fields (g : Description) (nodes links : List Json) : List (String × Json) :=
  [("nodes", .arr nodes), ("connections", .arr links)] ++
    (g.entry.map fun e => ("entry", Json.str e)).toList

theorem fields_nodup (g : Description) (nodes links : List Json) :
    ((g.fields nodes links).map (·.1)).Nodup := by
  obtain ⟨_, _, entry⟩ := g
  cases entry <;> simp [fields]

/-- A value is written for a description: it has the description's fields, in whatever order, with a
value written for each node and for each connection. -/
def Written (g : Description) (v : Json) : Prop :=
  ∃ nodes links, List.Forall₂ NodeSpec.Written g.nodes nodes ∧
    List.Forall₂ Link.Written g.links links ∧ Json.HasFields (g.fields nodes links) v

theorem written_toJson (g : Description) : g.Written g.toJson := by
  refine ⟨g.nodes.map NodeSpec.toJson, g.links.map Link.toJson, ?_, ?_,
    Json.hasFields_object (g.fields_nodup _ _)⟩
  · rw [List.forall₂_map_right_iff, List.forall₂_same]
    exact fun n _ => n.written_toJson
  · rw [List.forall₂_map_right_iff, List.forall₂_same]
    exact fun l _ => l.written_toJson

variable {g : Description}

/-- Each value for a node is written for a node whose configuration is ordered. -/
theorem Ordered.nodes (h : g.Ordered p) {nodes : List Json}
    (hnodes : List.Forall₂ NodeSpec.Written g.nodes nodes) :
    List.Forall₂ (fun n v => n.Ordered p ∧ n.Written v) g.nodes nodes :=
  (List.forall₂_and_left _ _).mpr ⟨h, hnodes⟩

theorem Written.reads (hv : g.Written v) (h : g.Ordered p) : Description.decoder.Reads g v := by
  obtain ⟨nodes, links, hnodes, hlinks, hv⟩ := hv
  have hreadNodes : (Decoder.list NodeSpec.decoder).Reads g.nodes (.arr nodes) :=
    Decoder.list_reads_forall₂ ((h.nodes hnodes).imp fun _ _ hn => hn.2.reads hn.1)
  have hreadLinks : (Decoder.list Link.decoder).Reads g.links (.arr links) :=
    Decoder.list_reads_forall₂ (hlinks.imp fun _ _ hl => hl.reads)
  refine (((Record.Reads.map ?_ Description.mk).seq ?_).seq ?_).decoder_hasFields
    (g.fields_nodup nodes links) hv _
  · exact Record.defaulted_reads_of_get? (by simp [fields]) hreadNodes
  · exact Record.defaulted_reads_of_get? (by simp [fields]) hreadLinks
  · exact Record.optionalText_reads (by simp [fields])

theorem Written.numbers (hv : g.Written v) (h : g.Ordered p) : v.Numbers p := by
  obtain ⟨nodes, links, hnodes, hlinks, hv⟩ := hv
  refine Json.HasFields.numbers hv fun e he => ?_
  simp only [fields, List.mem_append, List.mem_cons, List.not_mem_nil, or_false] at he
  obtain (rfl | rfl) | he := he
  · exact .arr_forall₂ ((h.nodes hnodes).imp fun _ _ hn => hn.2.numbers hn.1)
  · exact .arr_forall₂ (hlinks.imp fun _ _ hl => hl.numbers)
  · exact .optionalText he

end Description

/-- Nothing of a description is lost in its text, provided that the numbers in its configurations
are integers of 64 bits and its brackets are not nested too deep. It does not matter in which order
the fields are written. -/
theorem description_read_back {g : Description} (h : g.Ordered Number.Integral) :
    g.Written g.toJson ∧
      ∀ v, g.Written v → v.depth ≤ maxDepth → Description.ofText v.compact = .ok g := by
  refine ⟨g.written_toJson, fun v hv hdepth => ?_⟩
  have hreadsBack : g.Ordered Number.ReadsBack := fun n hn =>
    (h n hn).mono fun _ => Number.Integral.readsBack
  exact (hv.reads hreadsBack).decodeText (hv.numbers hreadsBack) hdepth

/-- The configuration of an agent with values of every kind but floating point numbers. -/
def fullEntity : Json :=
  .obj [("maxIterations", .num (.int (-3))), ("options", .obj []),
    ("parts", .arr [.null, .bool true, .num (.int 18446744073709551615), .str "\n"])]

/-- A description with nodes and connections of every kind, of which some have all their parts and
others none, and null among its configurations. -/
def fullDescription : Description where
  nodes :=
    [.plain "start" .workflow, ⟨"Writer", .agent, none, none, some "The \"writer\"", fullEntity⟩,
      ⟨"tools", .toolset, some "", some "basic", none, .str "x"⟩,
      ⟨"notes", .knowledge, some "note", none, some "", .arr []⟩,
      ⟨"other", .expert, none, some "remote", none, .null⟩]
  links :=
    [.edge "start/ok" "Writer", ⟨"Writer", "tools", .toolset⟩, ⟨"Writer", "Writer", .agent⟩,
      ⟨"Writer", "other", .expert⟩, ⟨"Writer", "notes/", .workflow⟩]
  entry := some "start"

theorem fullEntity_ordered : fullEntity.Ordered Number.Integral := by
  have hleast : Number.Integral (.int (-3)) := by decide
  have hgreatest : Number.Integral (.int 18446744073709551615) := by decide
  exact .obj (by decide) (by simp [hleast, hgreatest, Table.Sorted])

theorem fullDescription_ordered : fullDescription.Ordered Number.Integral := by
  simp [Description.Ordered, NodeSpec.Ordered, fullDescription, NodeSpec.plain, fullEntity_ordered]

theorem description_read_back_full :
    fullDescription.Ordered Number.Integral ∧ fullDescription.toJson.depth ≤ maxDepth ∧
      Description.ofText fullDescription.toJson.compact = .ok fullDescription := by
  have hdepth : fullDescription.toJson.depth ≤ maxDepth := by decide +kernel
  obtain ⟨hwritten, hread⟩ := description_read_back fullDescription_ordered
  exact ⟨fullDescription_ordered, hdepth, hread _ hwritten hdepth⟩

end Workgraph
