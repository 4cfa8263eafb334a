import Workgraph.Proofs.Json.Decoding
/-!
# Written structures decoded

A structure is read from an object that has its fields. What has to be known of each field is what
is written under its name: a value that the field's decoder reads, or nothing where the field has a
default.

## Main definitions

- `Record.Reads`: the fields of a structure are read from those of an object

## Main statements

- `Record.Reads.map`, `Record.Reads.seq`: structures are made from their fields
- `Record.Reads.decoder`, `Record.Reads.decoder_hasFields`: a structure is read from an object with
  its fields, in whatever order
- `Decoder.Reads.decodeText`: a typed value is read from the compact form of what is written for it
-/

namespace Workgraph

namespace Record

variable {α β : Type} {fields : Table Json}

/-- The fields of a structure are read from those of an object: no field has a second name, what is
written for a field passes its check, and the structure is made from what is written. -/
structure Reads (r : Record α) (a : α) (fields : Table Json) : Prop where
  plain : ∀ rule ∈ r.rules, rule.aliases = []
  checked : ∀ rule ∈ r.rules, ∀ v, fields.get? rule.name = some v →
    ∀ m, m.Holds v → rule.check m v.toTree = .ok ()
  built : ∀ m found, (∀ name v, fields.get? name = some v → m.Holds v) →
    (∀ rule ∈ r.rules, found rule.name = (fields.get? rule.name).map Json.toTree) →
    r.build m found = .ok a

theorem reads_pure (a : α) (fields : Table Json) : (pure a : Record α).Reads a fields where
  plain := fun _ h => absurd h List.not_mem_nil
  checked := fun _ h => absurd h List.not_mem_nil
  built := fun _ _ _ _ => rfl

theorem Reads.seq {f : Record (α → β)} {g : α → β} {r : Record α} {a : α} (hf : f.Reads g fields)
    (hr : r.Reads a fields) : (f <*> r).Reads (g a) fields where
  plain := List.forall_mem_append.mpr ⟨hf.plain, hr.plain⟩
  checked := List.forall_mem_append.mpr ⟨hf.checked, hr.checked⟩
  built := by
    intro m found hm hfound
    obtain ⟨hfoundf, hfoundr⟩ := List.forall_mem_append.mp hfound
    change (f.build m found >>= fun g => r.build m found >>= fun a => .ok (g a)) = _
    rw [hf.built m found hm hfoundf, hr.built m found hm hfoundr]
    rfl

theorem Reads.map {r : Record α} {a : α} (h : r.Reads a fields) (f : α → β) :
    (f <$> r).Reads (f a) fields :=
  (reads_pure f fields).seq h

section Fields

variable {name : String} {d : Decoder α} {a : α}

/-- What a decoder reads passes the check of its field. -/
theorem rule_checked {v : Json} (hread : d.Reads a v) (omissible : Bool) {m : Medium}
    (hm : m.Holds v) : (rule name [] d omissible).check m v.toTree = .ok () := by
  change (d m v.toTree).map (fun _ => ()) = _
  rw [hread m hm]
  rfl

theorem required_reads {v : Json} (hget : fields.get? name = some v) (hread : d.Reads a v) :
    (required name d).Reads a fields where
  plain := List.forall_mem_singleton.mpr rfl
  checked := by
    refine List.forall_mem_singleton.mpr fun w hw m hm => ?_
    obtain rfl : v = w := Option.some.inj (hget.symm.trans hw)
    exact rule_checked hread false hm
  built := by
    intro m found hm hfound
    have hname : found name = (fields.get? name).map Json.toTree := hfound _ List.mem_cons_self
    rw [hget] at hname
    simp only [required, hname]
    exact hread m (hm name v hget)

/-- A field with a default is read from what is written for it, if anything is. -/
theorem defaulted_reads {default : α} (hread : ∀ v, fields.get? name = some v → d.Reads a v)
    (hdefault : fields.get? name = none → default = a) :
    (defaulted name d default).Reads a fields where
  plain := List.forall_mem_singleton.mpr rfl
  checked := List.forall_mem_singleton.mpr fun v hv _ hm => rule_checked (hread v hv) true hm
  built := by
    intro m found hm hfound
    have hname : found name = (fields.get? name).map Json.toTree := hfound _ List.mem_cons_self
    cases hget : fields.get? name with
    | none =>
      rw [hget] at hname
      simp only [defaulted, hname, Option.map_none, hdefault hget]
    | some v =>
      rw [hget] at hname
      simp only [defaulted, hname, Option.map_some]
      exact hread v hget m (hm name v hget)

theorem defaulted_reads_of_get? {default : α} {v : Json} (hget : fields.get? name = some v)
    (hread : d.Reads a v) : (defaulted name d default).Reads a fields := by
  refine defaulted_reads (fun w hw => ?_) fun hnone => ?_
  · rwa [← Option.some.inj (hget.symm.trans hw)]
  · rw [hget] at hnone
    cases hnone

theorem nullable_reads {o : Option α} {v : Json} (hget : fields.get? name = some v)
    (hread : (Decoder.optional d).Reads o v) : (nullable name d).Reads o fields where
  plain := (required_reads hget hread).plain
  checked := (required_reads hget hread).checked
  built := by
    intro m found hm hfound
    have hname : found name = (fields.get? name).map Json.toTree := hfound _ List.mem_cons_self
    rw [hget] at hname
    simp only [nullable, hname]
    exact hread m (hm name v hget)

/-- A text that is left out if it is absent. -/
theorem optionalText_reads {o : Option String} (hget : fields.get? name = o.map Json.str) :
    (defaulted name (Decoder.optional Decoder.text) none).Reads o fields := by
  refine defaulted_reads (fun v hv => ?_) fun hnone => ?_
  · rw [hget] at hv
    obtain ⟨s, rfl, rfl⟩ := Option.map_eq_some_iff.mp hv
    exact (Decoder.text_reads s).optional (by simp)
  · rw [hget] at hnone
    exact (Option.map_eq_none_iff.mp hnone).symm

/-- A list that is left out if it is empty. -/
theorem optionalList_reads {as : List α} {f : α → Json}
    (hget : fields.get? name = if as.isEmpty then none else some (.arr (as.map f)))
    (hread : ∀ a ∈ as, d.Reads a (f a)) :
    (defaulted name (Decoder.list d) []).Reads as fields := by
  refine defaulted_reads (fun v hv => ?_) fun hnone => ?_
  · rw [hget] at hv
    split at hv
    · cases hv
    · cases hv
      exact Decoder.list_reads hread
  · rw [hget] at hnone
    split at hnone
    · rename_i hempty
      exact (List.isEmpty_iff.mp hempty).symm
    · cases hnone

end Fields

theorem FoundFields.tree?_append (found : FoundFields) (key : String) (t : Tree) (name : String) :
    FoundFields.tree? (found ++ [(key, t)]) name =
      (found.tree? name).or (if key = name then some t else none) := by
  unfold FoundFields.tree?
  rw [List.find?_append]
  by_cases h : key = name
  · cases found.find? (·.1 == name) <;> simp [h]
  · cases found.find? (·.1 == name) <;> simp [h]

/-- A field without a rule is passed over. -/
theorem readFields_unnamed {rules : List FieldRule} {m : Medium} {found : FoundFields}
    {key : String} {v : Json} {rest : List (Option String × Tree)}
    (hfind : rules.find? (·.named key) = none) :
    readFields rules m found ((some key, v.toTree) :: rest) = readFields rules m found rest := by
  rw [readFields, hfind]
  dsimp only
  rw [Json.skip_toTree]

/-- A field is found under the name of its rule. -/
theorem readFields_named {rules : List FieldRule} {m : Medium} {found : FoundFields} {key : String}
    {t : Tree} {rest : List (Option String × Tree)} {r : FieldRule}
    (hfind : rules.find? (·.named key) = some r) (hfree : found.tree? r.name = none)
    (hcheck : r.check m t = .ok ()) :
    readFields rules m found ((some key, t) :: rest) =
      readFields rules m (found ++ [(r.name, t)]) rest := by
  rw [readFields, hfind]
  dsimp only
  rw [hfree, hcheck]
  rfl

/-- The trees of an object's fields are found under the names of the rules. -/
theorem readFields_found {rules : List FieldRule} {m : Medium} {found : FoundFields}
    (hplain : ∀ rule ∈ rules, rule.aliases = [])
    (hchecked : ∀ rule ∈ rules, ∀ v, fields.get? rule.name = some v →
      rule.check m v.toTree = .ok ())
    (hkeys : (fields.map (·.1)).Nodup) (hnew : ∀ e ∈ fields, found.tree? e.1 = none) :
    ∃ found', readFields rules m found (Json.toFieldTrees fields) = .ok found' ∧
      ∀ rule ∈ rules, found'.tree? rule.name =
        (found.tree? rule.name).or ((fields.get? rule.name).map Json.toTree) := by
  induction fields generalizing found with
  | nil => exact ⟨found, rfl, fun rule _ => by simp [Table.get?]⟩
  | cons e rest ih =>
    obtain ⟨key, v⟩ := e
    obtain ⟨hfirst, hrest⟩ := List.nodup_cons.mp hkeys
    obtain ⟨hkey, hnewRest⟩ := List.forall_mem_cons.mp hnew
    have hne : ∀ e ∈ rest, key ≠ e.1 := fun e he heq =>
      hfirst (List.mem_map.mpr ⟨e, he, heq.symm⟩)
    have hcheckedRest : ∀ rule ∈ rules, ∀ w, Table.get? rest rule.name = some w →
        rule.check m w.toTree = .ok () := by
      intro rule hrule w hw
      refine hchecked rule hrule w ?_
      have hmem := (Table.get?_eq_some_iff_of_nodup hrest).mp hw
      rw [Table.get?_cons, if_neg (hne _ hmem), hw]
    rw [Json.toFieldTrees]
    cases hfind : rules.find? (·.named key) with
    | none =>
      obtain ⟨found', hread, htrees⟩ := ih hcheckedRest hrest hnewRest
      refine ⟨found', (readFields_unnamed hfind).trans hread, fun rule hrule => ?_⟩
      have hname : ¬key = rule.name := by
        intro heq
        have hnot := List.find?_eq_none.mp hfind rule hrule
        simp [FieldRule.named, heq] at hnot
      rw [htrees rule hrule, Table.get?_cons, if_neg hname]
    | some r =>
      have hr : r ∈ rules := List.mem_of_find?_eq_some hfind
      have hname : r.name = key := by
        have hnamed := List.find?_some hfind
        simpa [FieldRule.named, hplain r hr] using hnamed
      have hcheck : r.check m v.toTree = .ok () :=
        hchecked r hr v (by rw [Table.get?_cons, if_pos hname.symm])
      have hnew' : ∀ e ∈ rest, FoundFields.tree? (found ++ [(r.name, v.toTree)]) e.1 = none := by
        intro e he
        rw [FoundFields.tree?_append, hnewRest e he, if_neg (hname ▸ hne e he)]
        rfl
      obtain ⟨found', hread, htrees⟩ := ih hcheckedRest hrest hnew'
      refine ⟨found', (readFields_named hfind (hname ▸ hkey) hcheck).trans hread,
        fun rule hrule => ?_⟩
      rw [htrees rule hrule, FoundFields.tree?_append, Table.get?_cons, hname]
      by_cases hrule : key = rule.name
      · rw [if_pos hrule, if_pos hrule, ← hrule, hkey]
        rfl
      · rw [if_neg hrule, if_neg hrule, Option.or_none]

/-- How a structure is made depends only on what is found under the names of its fields. -/
theorem Reads.congr {fields' : Table Json} {r : Record α} {a : α} (h : r.Reads a fields)
    (hget : ∀ key, fields'.get? key = fields.get? key) : r.Reads a fields' where
  plain := h.plain
  checked := by
    simp only [hget]
    exact h.checked
  built := by
    simp only [hget]
    exact h.built

/-- A structure is read from an object with its fields, if no name occurs twice. -/
theorem Reads.decoder_of_nodup {r : Record α} {a : α} (h : r.Reads a fields)
    (hkeys : (fields.map (·.1)).Nodup) (name : String) :
    (Record.decoder name r).Reads a (.obj fields) := by
  intro m hm
  obtain ⟨inner, henter, hinner⟩ := hm.enter_obj
  have hholds : ∀ name v, fields.get? name = some v → inner.Holds v := fun name v hv =>
    hinner (name, v) ((Table.get?_eq_some_iff_of_nodup hkeys).mp hv)
  have hnew : ∀ e ∈ fields, FoundFields.tree? [] e.1 = none := fun _ _ => rfl
  obtain ⟨found, hread, htrees⟩ := readFields_found h.plain
    (fun rule hrule v hv => h.checked rule hrule v hv inner (hholds _ v hv)) hkeys hnew
  rw [Json.toTree, Record.decoder, henter]
  change (readFields r.rules inner [] (Json.toFieldTrees fields) >>= fun found =>
    Decoder.finish .closed >>= fun _ => r.build inner found.tree?) = _
  rw [hread]
  exact h.built inner found.tree? hholds htrees

theorem Reads.decoder {r : Record α} {a : α} (h : r.Reads a fields) (hsorted : fields.Sorted)
    (name : String) : (Record.decoder name r).Reads a (.obj fields) :=
  h.decoder_of_nodup hsorted.nodup_keys name

/-- A structure is read from an object with its fields in whatever order. -/
theorem Reads.decoder_hasFields {r : Record α} {a : α} {entries : List (String × Json)} {v : Json}
    (h : r.Reads a (Table.ofList entries)) (hkeys : (entries.map (·.1)).Nodup)
    (hv : Json.HasFields entries v) (name : String) : (Record.decoder name r).Reads a v := by
  obtain ⟨fields', hperm, rfl⟩ := hv
  refine Reads.decoder_of_nodup (h.congr fun key => ?_) ((hperm.map _).nodup_iff.mpr hkeys) name
  rw [Table.get?_perm hperm hkeys, Table.get?_ofList_of_nodup hkeys]

end Record

/-- A typed value is read from the compact form of what is written for it. -/
theorem Decoder.Reads.decodeText {α : Type} {d : Decoder α} {a : α} {v : Json} (h : d.Reads a v)
    (hnumbers : v.Numbers Number.ReadsBack) (hdepth : v.depth ≤ maxDepth) :
    Workgraph.decodeText d v.compact = .ok a := by
  have hread : d (.text maxDepth) v.toTree = .ok a := h (.text maxDepth) hdepth
  unfold Workgraph.decodeText
  rw [JsonDocument.ofText_compact hnumbers]
  change d (.text maxDepth) v.toTree >>= _ = _
  rw [hread]
  rfl

end Workgraph
