import Mathlib.Data.String.Basic
import Workgraph.Proofs.Run.Writing
/-!
# Writes that commute

Writes to different channels go through in either order and leave the same store, so it does not
matter in which order the outputs of a step are written if each of them writes a channel of its own
and nothing else.

## Main definitions

- `Workflow.Separate`: outputs that write different channels and nothing else

## Main statements

- `Table.insert_comm`, `Store.apply_comm`: writes to different places commute
- `Workflow.Separate.writeOutputs_perm`: the order of the outputs of a step makes no difference
-/

namespace Workgraph

variable {σ α : Type}

/-- Entries of different keys can be written in either order. -/
theorem Table.insert_comm (t : Table α) {a b : String} (hne : a ≠ b) (x y : α) :
    (t.insert a x).insert b y = (t.insert b y).insert a x := by
  induction t with
  | nil =>
    obtain hlt | heq | hgt := lt_trichotomy a b
    · simp [insert, hne, hne.symm, hlt, String.lt_asymm hlt]
    · exact absurd heq hne
    · simp [insert, hne, hne.symm, hgt, String.lt_asymm hgt]
  | cons e rest ih =>
    obtain ⟨k, v⟩ := e
    -- Each key replaces the first entry, goes in front of it, or goes into the rest.
    by_cases ha : k = a
    · subst ha
      by_cases hb : b < k
      · simp [insert, hne, hne.symm, hb, String.lt_asymm hb]
      · simp [insert, hne, hb]
    · by_cases hb : k = b
      · subst hb
        by_cases hlt : a < k
        · simp [insert, hne, hne.symm, hlt, String.lt_asymm hlt]
        · simp [insert, hne.symm, hlt]
      · by_cases hak : a < k
        · by_cases hbk : b < k
          · obtain hlt | heq | hgt := lt_trichotomy a b
            · simp [insert, ha, hb, hak, hbk, hne, hne.symm, hlt, String.lt_asymm hlt]
            · exact absurd heq hne
            · simp [insert, ha, hb, hak, hbk, hne, hne.symm, hgt, String.lt_asymm hgt]
          · have hba : ¬ b < a := fun h => hbk (String.lt_trans h hak)
            simp [insert, ha, hb, hak, hbk, hne, hba]
        · by_cases hbk : b < k
          · have hab : ¬ a < b := fun h => hak (String.lt_trans h hbk)
            simp [insert, ha, hb, hak, hbk, hne.symm, hab]
          · simp [insert, ha, hb, hak, hbk, ih]

namespace Store

theorem apply_eq_ok_iff {s s' : Store} {name : String} {written next : Json} :
    s.apply name written = .ok (next, s') ↔ ∃ c, s.schema.get? name = some c ∧
      next = c.reducer.apply ((s.state.channel? name).getD c.default) written ∧
      s' = if next == (s.state.channel? name).getD c.default then s
        else { s with state := put s.state name next } := by
  unfold apply
  cases s.schema.get? name with
  | none => simp
  | some c =>
    dsimp only
    constructor
    · intro h
      refine ⟨c, rfl, ?_⟩
      split at h
      · rename_i heq
        cases h
        exact ⟨rfl, (if_pos heq).symm⟩
      · rename_i heq
        cases h
        exact ⟨rfl, (if_neg heq).symm⟩
    · rintro ⟨c', hc, rfl, rfl⟩
      cases hc
      split <;> rfl

theorem put_channel?_of_ne {s : Snapshot} {name other : String} (value : Json)
    (hne : other ≠ name) : (put s name value).channel? other = s.channel? other :=
  Table.get?_insert_of_ne value hne

theorem put_comm (s : Snapshot) {a b : String} (hne : a ≠ b) (x y : Json) :
    put (put s a x) b y = put (put s b y) a x := by
  have hversion : ∀ {c d : String} (v : Json), c ≠ d → (put s d v).version c = s.version c := by
    intro c d v hcd
    exact congrArg (·.getD 0) (Table.get?_insert_of_ne _ hcd)
  show Snapshot.mk _ _ _ _ _ = Snapshot.mk _ _ _ _ _
  rw [hversion x hne.symm, hversion y hne]
  congr 1
  · exact Table.insert_comm _ hne _ _
  · exact Table.insert_comm _ hne _ _

/-- Writes to different channels go through in either order. -/
theorem apply_comm {s s₁ s₂ : Store} {a b : String} {u v x y : Json} (hne : a ≠ b)
    (ha : s.apply a u = .ok (x, s₁)) (hb : s₁.apply b v = .ok (y, s₂)) :
    ∃ s₁', s.apply b v = .ok (y, s₁') ∧ s₁'.apply a u = .ok (x, s₂) := by
  obtain ⟨c, hc, hx, hs₁⟩ := apply_eq_ok_iff.mp ha
  obtain ⟨d, hd, hy, hs₂⟩ := apply_eq_ok_iff.mp hb
  -- Neither write changes what the other one finds.
  have hschema : s₁.schema = s.schema := by
    rw [hs₁]
    split <;> rfl
  have hfound : s₁.state.channel? b = s.state.channel? b := by
    rw [hs₁]
    split
    · rfl
    · exact put_channel?_of_ne x hne.symm
  rw [hschema] at hd
  rw [hfound] at hy hs₂
  have hfirst := apply_eq_ok_iff.mpr ⟨d, hd, hy, rfl⟩
  refine ⟨_, hfirst, apply_eq_ok_iff.mpr ⟨c, ?_, ?_, ?_⟩⟩
  · rw [← hc]
    split <;> rfl
  · rw [hx]
    split
    · rfl
    · rw [put_channel?_of_ne y hne]
  · rw [hs₂, hs₁]
    by_cases hysame : (y == (s.state.channel? b).getD d.default) = true
    · rw [if_pos hysame, if_pos hysame]
    · rw [if_neg hysame, if_neg hysame]
      dsimp only
      rw [put_channel?_of_ne y hne]
      split
      · rfl
      · rw [put_comm _ hne]

end Store

namespace Workflow

variable {w : Workflow σ} {store store' : Store}

/-- A write to the channel of a node and nothing else goes through if it is null or can be
applied. -/
theorem writeOutput_write_iff {key : String} {u : Json} :
    w.writeOutput key (.write u) store = (store', none) ↔
      u.isNull = true ∧ store' = store ∨
        u.isNull = false ∧ ∃ next, store.apply (w.channelOf key) u = .ok (next, store') := by
  have hsaid : ∀ s : Store, s.append [] = s := by
    intro s
    simp [Store.append]
  unfold writeOutput writeUpdate NodeOutput.write
  dsimp only
  cases hn : u.isNull with
  | true =>
    rw [show (some u).filter (fun u => !u.isNull) = none by simp [hn]]
    simp [hsaid, eq_comm]
  | false =>
    rw [show (some u).filter (fun u => !u.isNull) = some u by simp [hn]]
    cases ha : store.apply (w.channelOf key) u with
    | error e => simp [Except.map, ha]
    | ok written =>
      obtain ⟨next, s⟩ := written
      simp [Except.map, ha, hsaid]

theorem writeOutput_comm {mid : Store} {a b : String} {u v : Json}
    (hne : w.channelOf a ≠ w.channelOf b)
    (ha : w.writeOutput a (.write u) store = (mid, none))
    (hb : w.writeOutput b (.write v) mid = (store', none)) :
    ∃ mid', w.writeOutput b (.write v) store = (mid', none) ∧
      w.writeOutput a (.write u) mid' = (store', none) := by
  simp only [writeOutput_write_iff] at ha hb ⊢
  obtain ⟨hu, rfl⟩ | ⟨hu, x, ha⟩ := ha
  · exact ⟨store', hb, .inl ⟨hu, rfl⟩⟩
  · obtain ⟨hv, rfl⟩ | ⟨hv, y, hb⟩ := hb
    · exact ⟨store, .inl ⟨hv, rfl⟩, .inr ⟨hu, x, ha⟩⟩
    · obtain ⟨mid', hb', ha'⟩ := Store.apply_comm hne ha hb
      exact ⟨mid', .inr ⟨hv, y, hb'⟩, .inr ⟨hu, x, ha'⟩⟩

/-- Outputs that write different channels and nothing else. -/
structure Separate (w : Workflow σ) (outputs : List (String × NodeOutput)) : Prop where
  writes : ∀ p ∈ outputs, ∃ u, p.2 = .write u
  channels : outputs.Pairwise fun p q => w.channelOf p.1 ≠ w.channelOf q.1

theorem Separate.perm {outputs outputs' : List (String × NodeOutput)} (h : w.Separate outputs)
    (hperm : outputs.Perm outputs') : w.Separate outputs' where
  writes := fun p hp => h.writes p (hperm.mem_iff.mpr hp)
  channels := (hperm.pairwise_iff fun hne => hne.symm).mp h.channels

theorem Separate.handoff_eq_none {outputs : List (String × NodeOutput)} (h : w.Separate outputs) :
    ∀ p ∈ outputs, p.2.handoff = none := by
  intro p hp
  obtain ⟨u, hu⟩ := h.writes p hp
  rw [hu]
  rfl

theorem Separate.interrupt_eq_none {outputs : List (String × NodeOutput)}
    (h : w.Separate outputs) : ∀ p ∈ outputs, p.2.interrupt = none := by
  intro p hp
  obtain ⟨u, hu⟩ := h.writes p hp
  rw [hu]
  rfl

/-- Such outputs can be written in any order. -/
theorem Separate.writeOutputs_perm {outputs outputs' : List (String × NodeOutput)}
    (h : w.Separate outputs) (hperm : outputs.Perm outputs')
    (hw : w.writeOutputs store outputs = (store', none)) :
    w.writeOutputs store outputs' = (store', none) := by
  induction hperm generalizing store with
  | nil => exact hw
  | @cons p rest rest' _ ih =>
    obtain ⟨key, out⟩ := p
    obtain ⟨mid, hfirst, hrest⟩ := writeOutputs_cons_iff.mp hw
    refine writeOutputs_cons_iff.mpr ⟨mid, hfirst, ih ⟨?_, ?_⟩ hrest⟩
    · exact fun p hp => h.writes p (List.mem_cons_of_mem _ hp)
    · exact (List.pairwise_cons.mp h.channels).2
  | swap p q rest =>
    obtain ⟨a, out⟩ := p
    obtain ⟨b, out'⟩ := q
    obtain ⟨v, rfl⟩ := h.writes (b, out') List.mem_cons_self
    obtain ⟨u, rfl⟩ := h.writes (a, out) (List.mem_cons_of_mem _ List.mem_cons_self)
    have hne := (List.pairwise_cons.mp h.channels).1 (a, .write u) List.mem_cons_self
    obtain ⟨mid, hb, hw⟩ := writeOutputs_cons_iff.mp hw
    obtain ⟨mid', ha, hrest⟩ := writeOutputs_cons_iff.mp hw
    obtain ⟨before, ha', hb'⟩ := writeOutput_comm hne hb ha
    exact writeOutputs_cons_iff.mpr ⟨before, ha', writeOutputs_cons_iff.mpr ⟨mid', hb', hrest⟩⟩
  | trans hfirst _ ih ih' => exact ih' (h.perm hfirst) (ih h hw)

end Workflow

end Workgraph
