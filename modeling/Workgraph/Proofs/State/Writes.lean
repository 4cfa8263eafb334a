import Mathlib.Data.List.Induction
import Workgraph.Proofs.Json.Equality
import Workgraph.Proofs.State.Whole
/-!
# Writes to the channels of a store

A channel holds what its rule makes of the writes to it, one after the other, beginning with its
first value. A store keeps the value that it has where a write makes an equal one of it, and so the
version of a channel counts the writes that change its value. As long as a rule does not tell equal
values apart, this cannot be seen in the values either; but a rule that notices the sign of a zero
goes on from the zero that was kept. Writes to one channel leave everything else alone, and the
state of a store can be gone back to from any later one.

## Main definitions

- `WriteRule`, `WriteRule.Respects`: what channels make of writes, without telling equal values
  apart
- `WriteRule.takeOver`: what a store makes of a write by such a rule
- `Snapshot.AgreesOn`: states in which a channel has the same value and the same version
- `Store.applyBy`, `Store.afterWrites`: writing where each channel has a rule of its own
- `Store.ChangesOnly`: stores that differ in one channel at most
- `writesTo`, `Store.changes`: the writes that reach a channel, and how many change its value

## Main statements

- `Store.apply_eq_applyBy`, `Reducer.respects`: stores write by their reducers, which are such rules
- `Store.value_afterWrites`, `Store.version_afterWrites`: what becomes of a channel
- `field?_foldl_shallowMerge`: a merged field is that of the last write that has it
- `Store.channels_fold_writes`: what a store holds after writes to a fresh one
-/

namespace Workgraph

/-- What a channel makes of its value and a write to it. -/
abbrev WriteRule := Json → Json → Json

/-- A rule that makes equal values of equal values. -/
def WriteRule.Respects (rule : WriteRule) : Prop :=
  ∀ v v' written, (v == v') = true → (rule v written == rule v' written) = true

namespace WriteRule

variable {rule : WriteRule}

/-- What a rule makes of a value, unless it is equal to the value. -/
def takeOver (rule : WriteRule) (current written : Json) : Json :=
  if rule current written == current then current else rule current written

/-- As long as a rule does not tell equal values apart, it makes no difference which of them is
kept. -/
theorem Respects.foldl_takeOver (h : rule.Respects) {v v' : Json} (hv : (v == v') = true)
    (ps : List Json) : (ps.foldl rule.takeOver v == ps.foldl rule v') = true := by
  induction ps generalizing v v' with
  | nil => exact hv
  | cons p rest ih =>
    refine ih ?_
    have hstep : (rule v p == rule v' p) = true := h v v' p hv
    unfold takeOver
    split
    · rename_i hsame
      exact BEq.trans (BEq.symm hsame) hstep
    · exact hstep

end WriteRule

theorem Reducer.respects (r : Reducer) : WriteRule.Respects r.apply := by
  intro v v' written h
  rw [Json.beq_iff] at h ⊢
  rw [r.canonical_apply, r.canonical_apply, h]

/-- Two states agree on a channel if it has the same value and the same version in both. -/
def Snapshot.AgreesOn (name : String) (s s' : Snapshot) : Prop :=
  s'.channel? name = s.channel? name ∧ s'.version name = s.version name

namespace Snapshot.AgreesOn

variable {name : String} {s s' s'' : Snapshot}

theorem rfl : AgreesOn name s s := ⟨Eq.refl _, Eq.refl _⟩

theorem trans (h : AgreesOn name s s') (h' : AgreesOn name s' s'') : AgreesOn name s s'' :=
  ⟨h'.1.trans h.1, h'.2.trans h.2⟩

/-- A write leaves the other channels alone. -/
theorem put {written : String} (value : Json) (hne : written ≠ name) :
    AgreesOn name s (Store.put s written value) := by
  constructor
  · exact Table.get?_insert_of_ne _ (Ne.symm hne)
  · exact congrArg (·.getD 0) (Table.get?_insert_of_ne _ (Ne.symm hne))

end Snapshot.AgreesOn

/-- The writes that reach a channel: those to its name that are not null. -/
def writesTo (name : String) (writes : List (String × Json)) : List Json :=
  (writes.filter fun w => w.1 == name && !w.2.isNull).map (·.2)

namespace Store

variable {s s' : Store} {rule : Channel → WriteRule} {name : String} {c : Channel}
  {w : String × Json}

/-- Writes to a declared channel, where each channel has a rule of its own for writes that are not
null. -/
def applyBy (rule : Channel → WriteRule) (s : Store) (name : String) (written : Json) :
    Except ChannelError (Json × Store) :=
  match s.schema.get? name with
  | none => .error (.unknown name)
  | some c =>
    let current := (s.state.channel? name).getD c.default
    if written.isNull then .ok (current, s)
    else
      let next := rule c current written
      if next == current then .ok (next, s)
      else .ok (next, { s with state := put s.state name next })

theorem applyBy_of_none (h : s.schema.get? name = none) (written : Json) :
    s.applyBy rule name written = .error (.unknown name) := by
  unfold applyBy
  rw [h]

theorem applyBy_null (h : s.schema.get? name = some c) :
    s.applyBy rule name .null = .ok ((s.state.channel? name).getD c.default, s) := by
  unfold applyBy
  rw [h]
  rfl

/-- The rules of a store are the reducers of its channels. -/
theorem apply_eq_applyBy (s : Store) (name : String) (written : Json) :
    s.apply name written = s.applyBy (fun c => c.reducer.apply) name written := by
  unfold apply applyBy
  cases s.schema.get? name with
  | none => rfl
  | some c =>
    dsimp only
    by_cases hnull : written.isNull = true
    · have hkept : c.reducer.apply ((s.state.channel? name).getD c.default) written =
          (s.state.channel? name).getD c.default := by
        unfold Reducer.apply
        exact if_pos hnull
      rw [hkept, if_pos (BEq.refl _), if_pos hnull]
    · rw [if_neg hnull]

/-- The store after a write; a write that is refused changes nothing. -/
def afterWrite (rule : Channel → WriteRule) (s : Store) (w : String × Json) : Store :=
  match s.applyBy rule w.1 w.2 with
  | .ok (_, s') => s'
  | .error _ => s

/-- The store after a sequence of writes. -/
def afterWrites (rule : Channel → WriteRule) (s : Store) (writes : List (String × Json)) : Store :=
  writes.foldl (afterWrite rule) s

theorem afterWrites_concat (s : Store) (writes : List (String × Json)) (w : String × Json) :
    s.afterWrites rule (writes ++ [w]) = (s.afterWrites rule writes).afterWrite rule w :=
  List.foldl_concat ..

theorem put_channel? (s : Snapshot) (name : String) (value : Json) :
    (put s name value).channel? name = some value :=
  Table.get?_insert_self _ _ _

theorem put_version (s : Snapshot) (name : String) (value : Json) :
    (put s name value).version name = s.version name + 1 :=
  congrArg (·.getD 0) (Table.get?_insert_self _ _ _)

/-- Stores that differ in the value and the version of one channel at most. -/
structure ChangesOnly (name : String) (s s' : Store) : Prop where
  schema : s'.schema = s.schema
  messages : s'.state.messages = s.state.messages
  input : s'.state.input = s.state.input
  environment : s'.state.environment = s.state.environment
  others : ∀ other, other ≠ name → Snapshot.AgreesOn other s.state s'.state

/-! ### One write -/

/-- What a write can do to a store: a write to an unknown channel is refused, null and a value that
is equal to the one that is there are dropped, and every other value is stored. -/
inductive Writes (rule : Channel → WriteRule) (s : Store) (name : String) (written : Json) :
    Except ChannelError (Json × Store) → Prop where
  | refused (h : s.schema.get? name = none) : Writes rule s name written (.error (.unknown name))
  | null {c : Channel} (hc : s.schema.get? name = some c) (hnull : written.isNull = true) :
    Writes rule s name written (.ok ((s.state.channel? name).getD c.default, s))
  | kept {c : Channel} {next : Json} (hc : s.schema.get? name = some c)
    (hnull : written.isNull = false)
    (hnext : next = rule c ((s.state.channel? name).getD c.default) written)
    (hsame : (next == (s.state.channel? name).getD c.default) = true) :
    Writes rule s name written (.ok (next, s))
  | stored {c : Channel} {next : Json} (hc : s.schema.get? name = some c)
    (hnull : written.isNull = false)
    (hnext : next = rule c ((s.state.channel? name).getD c.default) written)
    (hnew : ¬(next == (s.state.channel? name).getD c.default) = true) :
    Writes rule s name written (.ok (next, { s with state := put s.state name next }))

theorem applyBy_writes (rule : Channel → WriteRule) (s : Store) (name : String) (written : Json) :
    Writes rule s name written (s.applyBy rule name written) := by
  unfold applyBy
  cases hc : s.schema.get? name with
  | none => exact .refused hc
  | some c =>
    dsimp only
    by_cases hnull : written.isNull = true
    · rw [if_pos hnull]
      exact .null hc hnull
    · rw [if_neg hnull]
      rw [Bool.not_eq_true] at hnull
      split
      · rename_i hsame
        exact .kept hc hnull rfl hsame
      · rename_i hnew
        exact .stored hc hnull rfl hnew

theorem applyBy_changesOnly {written next : Json}
    (h : s.applyBy rule name written = .ok (next, s')) : s.ChangesOnly name s' := by
  have hwrites := applyBy_writes rule s name written
  rw [h] at hwrites
  cases hwrites with
  | null => exact ⟨rfl, rfl, rfl, rfl, fun _ _ => .rfl⟩
  | kept => exact ⟨rfl, rfl, rfl, rfl, fun _ _ => .rfl⟩
  | stored => exact ⟨rfl, rfl, rfl, rfl, fun _ hne => .put next (Ne.symm hne)⟩

theorem afterWrite_changesOnly (rule : Channel → WriteRule) (s : Store) (w : String × Json) :
    s.ChangesOnly w.1 (s.afterWrite rule w) := by
  unfold afterWrite
  cases h : s.applyBy rule w.1 w.2 with
  | error e => exact ⟨rfl, rfl, rfl, rfl, fun _ _ => .rfl⟩
  | ok written => exact applyBy_changesOnly h

/-- What becomes of the value of a channel. -/
theorem value_afterWrite (hc : s.schema.get? name = some c) (w : String × Json) :
    ((s.afterWrite rule w).state.channel? name).getD c.default =
      (writesTo name [w]).foldl (rule c).takeOver ((s.state.channel? name).getD c.default) := by
  obtain ⟨target, p⟩ := w
  by_cases htarget : target = name
  · subst htarget
    have hwrites := applyBy_writes rule s target p
    unfold afterWrite
    dsimp only
    generalize s.applyBy rule target p = result at hwrites ⊢
    cases hwrites with
    | refused h =>
      rw [h] at hc
      cases hc
    | null _ hnull => simp [writesTo, hnull]
    | kept hc' hnull hnext hsame =>
      cases hc.symm.trans hc'
      rw [hnext] at hsame
      simp [writesTo, hnull, WriteRule.takeOver, hsame]
    | stored hc' hnull hnext hnew =>
      cases hc.symm.trans hc'
      rw [hnext] at hnew
      have hreaches : writesTo target [(target, p)] = [p] := by simp [writesTo, hnull]
      rw [hreaches, List.foldl_cons, List.foldl_nil, WriteRule.takeOver, if_neg hnew, put_channel?,
        hnext, Option.getD_some]
  · have hothers := (afterWrite_changesOnly rule s (target, p)).others name (Ne.symm htarget)
    have hnone : writesTo name [(target, p)] = [] := by simp [writesTo, htarget]
    rw [hothers.1, hnone, List.foldl_nil]

/-- The version of a channel counts a write that changes its value. -/
theorem version_afterWrite (s : Store) (name : String) (w : String × Json) :
    (s.afterWrite rule w).state.version name = s.state.version name +
      if s.state.channel? name == (s.afterWrite rule w).state.channel? name then 0 else 1 := by
  obtain ⟨target, p⟩ := w
  by_cases htarget : target = name
  · subst htarget
    have hwrites := applyBy_writes rule s target p
    unfold afterWrite
    dsimp only
    generalize s.applyBy rule target p = result at hwrites ⊢
    cases hwrites with
    | refused => simp
    | null => simp
    | kept => simp
    | @stored c next hc hnull hnext hnew =>
      have hchanged : ¬(s.state.channel? target == some next) = true := by
        intro hsame
        apply hnew
        cases hvalue : s.state.channel? target with
        | none =>
          rw [hvalue] at hsame
          cases hsame
        | some v =>
          rw [hvalue] at hsame
          exact BEq.symm hsame
      rw [put_channel?, put_version, if_neg hchanged]
  · have hothers := (afterWrite_changesOnly rule s (target, p)).others name (Ne.symm htarget)
    rw [hothers.1, hothers.2, if_pos (BEq.refl _), Nat.add_zero]

/-! ### A sequence of writes -/

theorem afterWrites_induct {motive : Store → Prop} (hs : motive s)
    (hstep : ∀ s w, motive s → motive (s.afterWrite rule w)) (writes : List (String × Json)) :
    motive (s.afterWrites rule writes) := by
  induction writes using List.reverseRecOn with
  | nil => exact hs
  | append_singleton writes w ih =>
    rw [afterWrites_concat]
    exact hstep _ w ih

theorem schema_afterWrites (rule : Channel → WriteRule) (s : Store)
    (writes : List (String × Json)) : (s.afterWrites rule writes).schema = s.schema :=
  afterWrites_induct (motive := fun s' => s'.schema = s.schema) rfl
    (fun s' w h => (afterWrite_changesOnly rule s' w).schema.trans h) writes

/-- Every channel still has a value. -/
theorem whole_afterWrites (h : s.Whole) (rule : Channel → WriteRule)
    (writes : List (String × Json)) : (s.afterWrites rule writes).Whole := by
  refine afterWrites_induct h (fun s w hs => ?_) writes
  have hwrites := applyBy_writes rule s w.1 w.2
  unfold afterWrite
  generalize s.applyBy rule w.1 w.2 = result at hwrites ⊢
  cases hwrites with
  | refused => exact hs
  | null => exact hs
  | kept => exact hs
  | stored => exact whole_put hs _ _

/-- The conversation and the inputs stay as they are. -/
theorem inputs_afterWrites (rule : Channel → WriteRule) (s : Store)
    (writes : List (String × Json)) :
    (s.afterWrites rule writes).state.messages = s.state.messages ∧
      (s.afterWrites rule writes).state.input = s.state.input ∧
      (s.afterWrites rule writes).state.environment = s.state.environment := by
  refine afterWrites_induct (motive := fun s' => s'.state.messages = s.state.messages ∧
    s'.state.input = s.state.input ∧ s'.state.environment = s.state.environment)
    ⟨rfl, rfl, rfl⟩ ?_ writes
  rintro s' w ⟨hmessages, hinput, henvironment⟩
  have h := afterWrite_changesOnly rule s' w
  exact ⟨h.messages.trans hmessages, h.input.trans hinput, h.environment.trans henvironment⟩

theorem writesTo_concat (name : String) (writes : List (String × Json)) (w : String × Json) :
    writesTo name (writes ++ [w]) = writesTo name writes ++ writesTo name [w] := by
  unfold writesTo
  rw [List.filter_append, List.map_append]

/-- What becomes of the value of a channel. -/
theorem value_afterWrites (hc : s.schema.get? name = some c) (writes : List (String × Json)) :
    ((s.afterWrites rule writes).state.channel? name).getD c.default =
      (writesTo name writes).foldl (rule c).takeOver ((s.state.channel? name).getD c.default) := by
  induction writes using List.reverseRecOn with
  | nil => rfl
  | append_singleton writes w ih =>
    have hc' : (s.afterWrites rule writes).schema.get? name = some c := by
      rwa [schema_afterWrites]
    rw [afterWrites_concat, value_afterWrite hc', ih, writesTo_concat, List.foldl_append]

/-- The number of writes that change the value of a channel. -/
def changes (rule : Channel → WriteRule) (s : Store) (name : String)
    (writes : List (String × Json)) : Nat :=
  (List.range writes.length).countP fun i =>
    (s.afterWrites rule (writes.take i)).state.channel? name !=
      (s.afterWrites rule (writes.take (i + 1))).state.channel? name

theorem changes_concat (s : Store) (name : String) (writes : List (String × Json))
    (w : String × Json) : s.changes rule name (writes ++ [w]) = s.changes rule name writes +
      if (s.afterWrites rule writes).state.channel? name ==
        ((s.afterWrites rule writes).afterWrite rule w).state.channel? name then 0 else 1 := by
  have hearlier : (List.range writes.length).countP (fun i =>
      (s.afterWrites rule ((writes ++ [w]).take i)).state.channel? name !=
        (s.afterWrites rule ((writes ++ [w]).take (i + 1))).state.channel? name) =
      s.changes rule name writes := by
    refine List.countP_congr fun i hi => ?_
    have hlt : i < writes.length := List.mem_range.mp hi
    rw [List.take_append_of_le_length (Nat.le_of_lt hlt), List.take_append_of_le_length hlt]
  have hwhole : (writes ++ [w]).take (writes.length + 1) = writes ++ [w] :=
    List.take_of_length_le (by simp)
  rw [changes, List.length_append, List.length_singleton, List.range_succ, List.countP_append,
    hearlier, List.countP_singleton, List.take_left', hwhole, afterWrites_concat]
  · congr 1
    by_cases hsame : ((s.afterWrites rule writes).state.channel? name ==
        ((s.afterWrites rule writes).afterWrite rule w).state.channel? name) = true
    · simp [bne, hsame]
    · simp [bne, hsame]
  · rfl

/-- The version of a channel counts the writes that change its value. -/
theorem version_afterWrites (s : Store) (name : String) (writes : List (String × Json)) :
    (s.afterWrites rule writes).state.version name =
      s.state.version name + s.changes rule name writes := by
  induction writes using List.reverseRecOn with
  | nil => rfl
  | append_singleton writes w ih =>
    rw [afterWrites_concat, version_afterWrite, ih, changes_concat, Nat.add_assoc]

end Store

/-! ### Merging -/

/-- A value is an object, the keys of which increase. -/
def Json.IsObject (v : Json) : Prop := ∃ fields : Table Json, fields.Sorted ∧ v = .obj fields

/-- The fields of an object are put over those of the value that it is merged into. -/
theorem field?_shallowMerge {p : Json} (hp : p.IsObject) (v : Json) (key : String) :
    (Reducer.shallowMerge.apply v p).field? key = (p.field? key).or (v.field? key) := by
  obtain ⟨fields, hsorted, rfl⟩ := hp
  cases v with
  | obj base =>
    change (Table.merge base fields).get? key = _
    rw [Table.get?_merge, hsorted.ofList_eq]
    rfl
  | _ => exact (Option.or_none).symm

/-- What a key holds after merging: the value of the last object that has it, or else what it held
from the start. -/
def lastField (key : String) (first : Json) (ps : List Json) : Option Json :=
  (ps.reverse.findSome? (·.field? key)).or (first.field? key)

theorem field?_foldl_shallowMerge {ps : List Json} (hps : ∀ p ∈ ps, p.IsObject) (v : Json)
    (key : String) : (ps.foldl Reducer.shallowMerge.apply v).field? key = lastField key v ps := by
  induction ps using List.reverseRecOn with
  | nil => rfl
  | append_singleton ps p ih =>
    obtain ⟨hearlier, hp⟩ := List.forall_mem_append.mp hps
    rw [List.foldl_concat, field?_shallowMerge (hp p (List.mem_singleton_self p)), ih hearlier]
    unfold lastField
    rw [List.reverse_concat, List.findSome?_cons]
    cases p.field? key with
    | none => rfl
    | some x => rfl

theorem Json.field?_beq {v w : Json} (h : (v == w) = true) (key : String) :
    (v.field? key == w.field? key) = true := by
  have hfields := congrArg (fun x => x.field? key) (beq_iff.mp h)
  simp only [field?_canonical] at hfields
  cases hv : v.field? key with
  | none =>
    cases hw : w.field? key with
    | none => rfl
    | some y => simp [hv, hw] at hfields
  | some x =>
    cases hw : w.field? key with
    | none => simp [hv, hw] at hfields
    | some y =>
      rw [hv, hw] at hfields
      exact beq_iff.mpr (Option.some.inj hfields)

namespace Store

/-! ### Writes to a fresh store -/

theorem get?_fillDefaults (schema : Schema) (channels : Table Json) (name : String) :
    (fillDefaults schema channels).get? name =
      (channels.get? name).or ((schema.get? name).map (·.default)) := by
  unfold fillDefaults Schema.get?
  induction schema generalizing channels with
  | nil => simp
  | cons c rest ih =>
    rw [List.foldl_cons, ih, List.find?_cons]
    by_cases hname : c.name = name
    · subst hname
      rw [Table.contains_eq_isSome]
      cases hvalue : channels.get? c.name with
      | none => simp
      | some v => simp [hvalue]
    · have hother : (c.name == name) = false := by simpa using hname
      rw [hother]
      split
      · rfl
      · rw [Table.get?_insert_of_ne _ (Ne.symm hname)]

/-- A store in which nothing has been written to the channels yet. -/
def begun (schema : Schema) (messages : List Message) (input environment : Json) : Store :=
  ((fresh schema).withInputs input environment).append messages

theorem begun_channel? {schema : Schema} (h : schema.get? name = some c)
    (messages : List Message) (input environment : Json) :
    (begun schema messages input environment).state.channel? name = some c.default := by
  change (fillDefaults schema []).get? name = some c.default
  rw [get?_fillDefaults, h]
  rfl

theorem begun_whole (schema : Schema) (messages : List Message) (input environment : Json) :
    (begun schema messages input environment).Whole :=
  ofState_whole schema .empty

/-- After any writes to a fresh store, a declared channel holds what its rule makes of the writes
that reach it, one after the other, beginning with its first value, where a value is kept if an
equal one is made of it. If the rule makes equal values of equal values, as every reducer does, this
is equal to what the rule alone makes of the writes; if it merges and the writes are objects, every
key holds the value of the last one that has it. The version of a channel counts the writes that
change its value. A write to an unknown channel is refused, and like null it changes nothing; one that goes
through leaves all other channels, the conversation and the inputs alone. Any later store goes back
to this one by its state. -/
theorem channels_fold_writes (schema : Schema) (rule : Channel → WriteRule)
    (messages : List Message) (input environment : Json) (writes : List (String × Json)) :
    let start := begun schema messages input environment
    let s := start.afterWrites rule writes
    (∀ name c, schema.get? name = some c → ∃ v, s.state.channel? name = some v ∧
      v = (writesTo name writes).foldl (rule c).takeOver c.default ∧
      ((rule c).Respects → (v == (writesTo name writes).foldl (rule c) c.default) = true) ∧
      (rule c = Reducer.shallowMerge.apply → (∀ p ∈ writesTo name writes, p.IsObject) →
        ∀ key, (v.field? key == lastField key c.default (writesTo name writes)) = true)) ∧
    (∀ name, s.state.version name = start.changes rule name writes) ∧
    (∀ name p, schema.get? name = none → s.applyBy rule name p = .error (.unknown name) ∧
      start.afterWrites rule (writes ++ [(name, p)]) = s) ∧
    (∀ name c, schema.get? name = some c → ∃ v, s.applyBy rule name .null = .ok (v, s)) ∧
    (∀ name p next s', s.applyBy rule name p = .ok (next, s') → s.ChangesOnly name s') ∧
    (s.state.messages = messages ∧ s.state.input = input ∧ s.state.environment = environment) ∧
    (∀ later : Store, later.schema = schema → later.restore s.state = s) ∧
    (∀ (s : Store) name p, s.apply name p = s.applyBy (fun c => c.reducer.apply) name p) ∧
    ∀ c : Channel, WriteRule.Respects c.reducer.apply := by
  intro start s
  have hschema : s.schema = schema := schema_afterWrites rule start writes
  have hwhole : s.Whole :=
    whole_afterWrites (begun_whole schema messages input environment) rule writes
  refine ⟨?_, ?_, ?_, ?_, fun _ _ _ _ => applyBy_changesOnly,
    inputs_afterWrites rule start writes,
    fun later h => restore_whole (h.trans hschema.symm) hwhole, apply_eq_applyBy,
    fun c => c.reducer.respects⟩
  · intro name c hc
    obtain ⟨v, hv⟩ := hwhole.exists_channel? (hschema ▸ hc)
    have hvalue : v = (writesTo name writes).foldl (rule c).takeOver c.default := by
      have h : (s.state.channel? name).getD c.default = _ := value_afterWrites hc writes
      rwa [begun_channel? hc, hv] at h
    have hfold : (rule c).Respects →
        (v == (writesTo name writes).foldl (rule c) c.default) = true := by
      intro hrule
      rw [hvalue]
      exact hrule.foldl_takeOver (BEq.refl _) _
    refine ⟨v, hv, hvalue, hfold, fun hmerge hobjects key => ?_⟩
    have hsame := Json.field?_beq (hfold (hmerge ▸ Reducer.shallowMerge.respects)) key
    rwa [hmerge, field?_foldl_shallowMerge hobjects] at hsame
  · exact fun name => (version_afterWrites start name writes).trans (Nat.zero_add _)
  · intro name p hname
    rw [← hschema] at hname
    refine ⟨applyBy_of_none hname p, ?_⟩
    rw [afterWrites_concat, afterWrite, applyBy_of_none hname p]
  · exact fun name c hc => ⟨_, applyBy_null (hschema ▸ hc)⟩

/-- A channel that merges, and one that begins with a negative zero and keeps the last write. -/
def mixedSchema : Schema :=
  [.shallowMerge "a", ⟨"b", .overwrite, .num (.float (.zero true))⟩]

/-- Writes to both channels and to an unknown one, among them null, a second write of the same
field, and a zero of the other sign. -/
def mixedWrites : List (String × Json) :=
  [("a", .obj [("x", .nat 1)]), ("c", .nat 1), ("a", .null), ("b", .num (.float (.zero false))),
    ("a", .obj [("x", .nat 1)]), ("b", .nat 2), ("a", .obj [("y", .nat 2)])]

/-- Neither null nor the unknown channel, neither the repeated field nor the zero of the other sign
leaves a trace. -/
theorem channels_fold_writes_mixed :
    let s := (begun mixedSchema [] .null .null).afterWrites (fun c => c.reducer.apply) mixedWrites
    s.state.version "a" = 2 ∧ s.state.version "b" = 1 ∧
      s.apply "c" .null = .error (.unknown "c") ∧
      (∃ v, s.state.channel? "b" = some v ∧ (v == .nat 2) = true) ∧
      ∃ v, s.state.channel? "a" = some v ∧ (v.field? "x" == some (.nat 1)) = true := by
  intro s
  obtain ⟨hvalue, hversion, hrefused, -, -, -, -, happly, hrespects⟩ :=
    channels_fold_writes mixedSchema (fun c => c.reducer.apply) [] .null .null mixedWrites
  have hobjects : ∀ p ∈ writesTo "a" mixedWrites, p.IsObject := by
    have hreach : writesTo "a" mixedWrites =
        [.obj [("x", .nat 1)], .obj [("x", .nat 1)], .obj [("y", .nat 2)]] := rfl
    rw [hreach]
    simp only [List.forall_mem_cons]
    exact ⟨⟨_, by decide, rfl⟩, ⟨_, by decide, rfl⟩, ⟨_, by decide, rfl⟩, nofun⟩
  refine ⟨(hversion "a").trans (by decide +kernel), (hversion "b").trans (by decide +kernel), ?_,
    ?_, ?_⟩
  · rw [happly]
    exact (hrefused "c" .null rfl).1
  · obtain ⟨v, hv, -, hfold, -⟩ := hvalue "b" _ rfl
    exact ⟨v, hv, BEq.trans (hfold (hrespects _)) (by decide +kernel)⟩
  · obtain ⟨v, hv, -, -, hmerged⟩ := hvalue "a" _ rfl
    have hx := hmerged rfl hobjects "x"
    exact ⟨v, hv, hx⟩

/-- A rule that tells the two zeros apart: true makes a negative zero of any value, and whatever
else is written tells the sign of the number that was there. -/
def signRule : WriteRule
  | v, .null => v
  | _, .bool true => .num (.float (.zero true))
  | .num (.float x), _ => .bool x.negative
  | v, _ => v

/-- The negative zero is dropped, for it is equal to the zero that is there, and the next write is
told the sign of the zero that was kept. -/
theorem kept_zero_noticed :
    let c : Channel := ⟨"c", .overwrite, .num (.float (.zero false))⟩
    let writes := [("c", .bool true), ("c", .bool false)]
    let s := (begun [c] [] .null .null).afterWrites (fun _ => signRule) writes
    (∀ v, signRule v .null = v) ∧ s.state.channel? "c" = some (.bool false) ∧
      (writesTo "c" writes).foldl signRule c.default = .bool true ∧
      ((.bool false : Json) == .bool true) = false :=
  ⟨fun v => by cases v <;> rfl, rfl, rfl, rfl⟩

end Store

end Workgraph
