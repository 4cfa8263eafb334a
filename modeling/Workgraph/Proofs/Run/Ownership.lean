import Workgraph.Proofs.Run.Failure
import Workgraph.Proofs.State.Writes
import Workgraph.Proofs.Workflow.Channels
/-!
# Who writes a channel

A channel changes only in the move that completes a step, and only by the update of a node of that
step: of the node that registered it, or else of a node that has no channel and is named after it.
The latter is possible since several keys have the same name in lower case, and since a channel may
be registered under any name.

## Main definitions

- `NodeOutput.Updates`: outputs with an update
- `Stage.state?`: the state at a stage of a run

## Main statements

- `Workflow.writeOutputs_agrees`: what writing the outputs of a step changes
- `Runner.Move.agrees`: what a move changes
- `channels_single_writer`: who writes a channel
- `channel_written_by_capital`: a node may write the channel of another one
-/

namespace Workgraph

variable {σ τ : Type}

/-- An output has an update if it has one that is not null. -/
def NodeOutput.Updates (out : NodeOutput) : Prop := ∃ u, out.update = some u ∧ u.isNull = false

namespace Workflow

variable {w : Workflow σ} {key : String} {out : NodeOutput} {store store' : Store}
  {e : Option RunError}

/-- The update of a node changes the declared channel that the node writes, and no other. -/
theorem writeUpdate_agrees (h : w.writeUpdate key out store = .ok store') (name : String) :
    Snapshot.AgreesOn name store.state store'.state ∨
      out.Updates ∧ w.channelOf key = name ∧ store.schema.contains name = true := by
  unfold writeUpdate at h
  cases hu : out.update.filter fun u => !u.isNull with
  | none =>
    rw [hu] at h
    cases h
    exact .inl .rfl
  | some u =>
    rw [hu] at h
    dsimp only at h
    obtain ⟨hupdate, hnull⟩ := Option.filter_eq_some_iff.mp hu
    cases ha : store.apply (w.channelOf key) u with
    | error e =>
      rw [ha] at h
      cases h
    | ok written =>
      obtain ⟨next, s'⟩ := written
      rw [ha] at h
      cases h
      obtain ⟨hcontains, rfl | rfl⟩ := Store.apply_cases ha
      · exact .inl .rfl
      · by_cases hname : w.channelOf key = name
        · exact .inr ⟨⟨u, hupdate, by simpa using hnull⟩, hname, hname ▸ hcontains⟩
        · exact .inl (.put next hname)

/-- So does an output, whether or not all of it can be written. -/
theorem writeOutput_agrees (h : w.writeOutput key out store = (store', e)) (name : String) :
    Snapshot.AgreesOn name store.state store'.state ∨
      out.Updates ∧ w.channelOf key = name ∧ store.schema.contains name = true := by
  unfold writeOutput at h
  cases hu : w.writeUpdate key out store with
  | error reason =>
    rw [hu] at h
    cases h
    exact .inl .rfl
  | ok mid =>
    rw [hu] at h
    have hmid := writeUpdate_agrees hu name
    cases hh : out.handoff with
    | none =>
      rw [hh] at h
      cases h
      exact hmid
    | some handoff =>
      rw [hh] at h
      dsimp only at h
      split at h
      · cases h
        exact hmid
      · cases h
        exact hmid

/-- Where the outputs of a step change a channel, one of them has an update and is by a node that
writes this channel, whether or not all of them can be written. -/
theorem writeOutputs_agrees {outputs : List (String × NodeOutput)}
    (h : w.writeOutputs store outputs = (store', e)) (name : String) :
    Snapshot.AgreesOn name store.state store'.state ∨
      ∃ p ∈ outputs, p.2.Updates ∧ w.channelOf p.1 = name ∧
        store.schema.contains name = true := by
  induction outputs generalizing store with
  | nil =>
    cases h
    exact .inl .rfl
  | cons output rest ih =>
    obtain ⟨key, out⟩ := output
    unfold writeOutputs at h
    obtain ⟨mid, first, ho⟩ : ∃ mid first, w.writeOutput key out store = (mid, first) :=
      ⟨_, _, rfl⟩
    rw [ho] at h
    obtain hagrees | hwrites := writeOutput_agrees ho name
    · cases first with
      | some e' =>
        cases h
        exact .inl hagrees
      | none =>
        obtain hrest | ⟨p, hp, hupdates, hchannel, hcontains⟩ := ih h
        · exact .inl (hagrees.trans hrest)
        · rw [writeOutput_schema ho] at hcontains
          exact .inr ⟨p, List.mem_cons_of_mem _ hp, hupdates, hchannel, hcontains⟩
    · exact .inr ⟨(key, out), List.mem_cons_self, hwrites⟩

end Workflow

/-- The state at a stage of a run, once the run has begun. -/
def Stage.state? : Stage → Option Snapshot
  | .waiting _ => none
  | .ready c | .running c _ | .accepted c _ => some c.store.state
  | .ended o => some o.state

namespace Runner

variable {r : Runner σ τ} {stage stage' : Stage}

/-- A move changes a channel only if it completes a step, and then by the update of a node of this
step that writes this channel. -/
theorem Move.agrees {world world' : RunWorld σ τ} (h : r.Move stage world stage' world')
    {s s' : Snapshot} (hs : stage.state? = some s) (hs' : stage'.state? = some s')
    (name : String) :
    s.AgreesOn name s' ∨ ∃ c outputs, stage = .accepted c outputs ∧
      ∃ p ∈ c.frontier.zip outputs, p.2.Updates ∧ r.workflow.channelOf p.1 = name ∧
        c.store.schema.contains name = true := by
  have hwrites : ∀ {c : Cursor} {outputs : List NodeOutput} {store : Store} {e : Option RunError},
      r.workflow.writeOutputs c.store (c.frontier.zip outputs) = (store, e) →
      some c.store.state = some s → some store.state = some s' →
      s.AgreesOn name s' ∨ ∃ c' outputs', Stage.accepted c outputs = .accepted c' outputs' ∧
        ∃ p ∈ c'.frontier.zip outputs', p.2.Updates ∧ r.workflow.channelOf p.1 = name ∧
          c'.store.schema.contains name = true := by
    intro c outputs store e ho hc hstore
    cases hc
    cases hstore
    exact (Workflow.writeOutputs_agrees ho name).imp_right fun hp => ⟨c, outputs, rfl, hp⟩
  cases h with
  | begun => cases hs
  | beginRefused => cases hs
  | resumed => cases hs
  | resumeFailed => cases hs
  | writeFailed log ho => exact hwrites ho hs hs'
  | stepRefused log ho => exact hwrites ho hs hs'
  | routeFailed log ho => exact hwrites ho hs hs'
  | settled log ho => exact hwrites ho hs hs'
  | pausedBehind log log' ho => exact hwrites ho hs hs'
  | pauseBehindRefused log log' ho => exact hwrites ho hs hs'
  | _ =>
    cases hs
    cases hs'
    exact .inl .rfl

/-- Every move keeps the schema. -/
theorem Move.schema_eq {world world' : RunWorld σ τ} (h : r.Move stage world stage' world')
    (hs : ∀ c, stage.cursor? = some c → c.store.schema = r.workflow.schema) :
    ∀ c, stage'.cursor? = some c → c.store.schema = r.workflow.schema := by
  cases h with
  | begun =>
    rintro c hc
    cases hc
    rfl
  | @resumed _ cp input _ log hcursor =>
    rintro c hc
    cases hc
    obtain ⟨split, -, rfl⟩ := r.resumedCursor_eq_ok_iff.mp hcursor
    cases input <;> rfl
  | @dispatched _ c =>
    rintro c' hc
    cases hc
    exact hs c rfl
  | accepted =>
    rintro c hc
    cases hc
    exact hs _ rfl
  | settled log ho =>
    rintro c hc
    cases hc
    exact (Workflow.writeOutputs_schema ho).trans (hs _ rfl)
  | rested => exact hs
  | _ => exact nofun

/-- Wherever a run comes, its results come from its nodes and its schema is that of its workflow. -/
theorem Reaches.performed {start : RunStart} {world : RunWorld σ (τ × List Checkpoint)}
    (h : r.Reaches start stage world) :
    r.Performed stage ∧ ∀ c, stage.cursor? = some c → c.store.schema = r.workflow.schema := by
  refine h.induct (motive := fun stage _ => r.recording.Performed stage ∧
    ∀ c, stage.cursor? = some c → c.store.schema = r.workflow.schema) ⟨trivial, nofun⟩ ?_
  rintro stage world stage' world' ⟨hp, hschema⟩ hmove
  exact ⟨hmove.performed hp, Move.schema_eq (r := r.recording) hmove hschema⟩

end Runner

/-- A channel has been registered by one node. In a run of a compiled workflow it changes only in a
move that completes a step, and only if a node of this step has given back an update that has
registered the channel, or has registered none and is named after it. -/
theorem channels_single_writer {ws : Workshop σ} {g : Description} {site : List String}
    {w : Workflow σ} (hw : compile ws g site = .ok w) {r : Runner σ τ} (hr : r.workflow = w)
    {start : RunStart} {stage : Stage} {world : RunWorld σ (τ × List Checkpoint)}
    (h : r.Reaches start stage world) {s s' : Snapshot} (hs : stage.state? = some s)
    (hs' : (r.recording.advance stage world).1.state? = some s') {name : String}
    (hchange : ¬ s.AgreesOn name s') :
    ∃ owner ∈ w.nodes, owner.channel = some name ∧
      (∀ n ∈ w.nodes, n.channel = some name → n = owner) ∧
      ∃ c outputs out, ∃ n ∈ w.nodes, stage = .accepted c outputs ∧
        (n.key, out) ∈ c.frontier.zip outputs ∧ r.GivenBy c n (.ok out) ∧ out.Updates ∧
        (n = owner ∨ n.channel = none ∧ channelName n.key = name) := by
  subst hr
  obtain ⟨hperformed, hschema⟩ := h.performed
  have howns := compile_ownsChannels hw
  obtain hagrees | ⟨c, outputs, rfl, ⟨key, out⟩, hp, hupdates, hchannel, hcontains⟩ :=
    Runner.Move.agrees (r.recording.advance_move stage world) hs hs' name
  · exact absurd hagrees hchange
  · rw [hschema c rfl] at hcontains
    obtain ⟨owner, howner, howned⟩ := howns.contains_iff.mp hcontains
    have hsingle : ∀ n ∈ r.workflow.nodes, n.channel = some name → n = owner :=
      fun n hn hc => howns.eq_of_channel hn howner hc howned
    obtain ⟨n, hn, hgiven⟩ := hperformed.2 _ hp
    obtain ⟨hmem, rfl⟩ := Workflow.node?_eq_some hn
    refine ⟨owner, howner, howned, hsingle, c, outputs, out, n, hmem, rfl, hp, hgiven, hupdates, ?_⟩
    change ((r.workflow.node? n.key).bind (·.channel)).getD (channelName n.key) = name at hchannel
    rw [hn, Option.bind_some] at hchannel
    cases hnc : n.channel with
    | none =>
      rw [hnc] at hchannel
      exact .inr ⟨rfl, hchannel⟩
    | some own =>
      rw [hnc] at hchannel
      exact .inl (hsingle n hmem (hnc.trans (congrArg some hchannel)))

/-- Where the run through the uneven branches stands before its first step is completed. -/
def unevenStep : Stage × RunWorld Unit (Chains × List Checkpoint) :=
  unevenRunner.recording.moves 3 (.waiting tornStart) ⟨.start (), ([], [])⟩

theorem channels_single_writer_uneven :
    compile inputShop unevenFork [] = .ok unevenWorkflow ∧
      unevenRunner.Reaches tornStart unevenStep.1 unevenStep.2 ∧
      ∃ s s', unevenStep.1.state? = some s ∧
        (unevenRunner.recording.advance unevenStep.1 unevenStep.2).1.state? = some s' ∧
        ¬ s.AgreesOn "s_channel" s' ∧
        ∃ owner ∈ unevenWorkflow.nodes, owner.channel = some "s_channel" ∧
          (∀ n ∈ unevenWorkflow.nodes, n.channel = some "s_channel" → n = owner) ∧
          ∃ c outputs out, ∃ n ∈ unevenWorkflow.nodes, unevenStep.1 = .accepted c outputs ∧
            (n.key, out) ∈ c.frontier.zip outputs ∧ unevenRunner.GivenBy c n (.ok out) ∧
            out.Updates ∧ (n = owner ∨ n.channel = none ∧ channelName n.key = "s_channel") := by
  have hreach : unevenRunner.Reaches tornStart unevenStep.1 unevenStep.2 :=
    Runner.Reaches.moves (.waiting rfl) _
  have hbefore : unevenStep.1.state?.map (·.version "s_channel") = some 0 := by decide +kernel
  have hafter : (unevenRunner.recording.advance unevenStep.1 unevenStep.2).1.state?.map
      (·.version "s_channel") = some 1 := by decide +kernel
  obtain ⟨s, hs, hversion⟩ := Option.map_eq_some_iff.mp hbefore
  obtain ⟨s', hs', hversion'⟩ := Option.map_eq_some_iff.mp hafter
  have hchange : ¬ s.AgreesOn "s_channel" s' := by
    rintro ⟨-, hsame⟩
    rw [hversion, hversion'] at hsame
    cases hsame
  exact ⟨compile_unevenFork, hreach, s, s', hs, hs', hchange,
    channels_single_writer compile_unevenFork rfl hreach hs hs' hchange⟩

/-! ## Two keys that differ in their letters only -/

/-- A node that writes although it owns no channel, and behind it one whose key is the same in lower
case and that publishes the input. -/
def capitalPair : Description where
  nodes := [⟨"A", .workflow, some "mute", none, none, .null⟩,
    ⟨"a", .workflow, some "start", none, none, .null⟩]
  links := [.edge "A" "a"]
  entry := some "A"

/-- The workflow of the two keys. -/
def capitalWorkflow : Workflow Unit :=
  match compile tornShop capitalPair [] with
  | .ok w => w
  | .error _ => ⟨[], [], []⟩

theorem compile_capitalPair : compile tornShop capitalPair [] = .ok capitalWorkflow :=
  eq_ok_of_isOk ⟨[], [], []⟩ (by decide +kernel)

/-- A run through the two keys. -/
def capitalRunner : Runner Unit Chains :=
  { unevenRunner with graphId := "capital", workflow := capitalWorkflow }

/-- Where the run through the two keys stands before its first step is completed. -/
def capitalStep : Stage × RunWorld Unit (Chains × List Checkpoint) :=
  capitalRunner.recording.moves 3 (.waiting tornStart) ⟨.start (), ([], [])⟩

/-- A node that has registered no channel may write that of another node: in the first step only the
node `A` runs, which has none, and the channel of the node `a` changes. -/
theorem channel_written_by_capital :
    compile tornShop capitalPair [] = .ok capitalWorkflow ∧
      capitalRunner.Reaches tornStart capitalStep.1 capitalStep.2 ∧
      (∀ n ∈ capitalWorkflow.nodes, n.key = "A" → n.channel = none) ∧
      (∀ n ∈ capitalWorkflow.nodes, n.channel = some "a_channel" ↔ n.key = "a") ∧
      ∃ c outputs s s', capitalStep.1 = .accepted c outputs ∧ c.frontier = ["A"] ∧
        capitalStep.1.state? = some s ∧
        (capitalRunner.recording.advance capitalStep.1 capitalStep.2).1.state? = some s' ∧
        ¬ s.AgreesOn "a_channel" s' := by
  refine ⟨compile_capitalPair, Runner.Reaches.moves (.waiting rfl) _, ?_, ?_, ?_⟩
  · have hall : capitalWorkflow.nodes.all
        (fun n => n.key != "A" || n.channel == none) = true := by decide +kernel
    intro n hn hkey
    simpa [hkey] using List.all_eq_true.mp hall n hn
  · have hall : capitalWorkflow.nodes.all
        (fun n => (n.channel == some "a_channel") == (n.key == "a")) = true := by decide +kernel
    intro n hn
    simpa using Bool.eq_iff_iff.mp (beq_iff_eq.mp (List.all_eq_true.mp hall n hn))
  · have hstep : (match capitalStep.1 with
        | .accepted c _ => some (c.frontier, c.store.state.version "a_channel")
        | _ => none) = some (["A"], 0) := by decide +kernel
    have hafter : (capitalRunner.recording.advance capitalStep.1 capitalStep.2).1.state?.map
        (·.version "a_channel") = some 1 := by decide +kernel
    obtain ⟨s', hs', hversion'⟩ := Option.map_eq_some_iff.mp hafter
    cases hstage : capitalStep.1 with
    | accepted c outputs =>
      rw [hstage] at hstep hs'
      obtain ⟨hfrontier, hversion⟩ := Prod.mk.inj (Option.some.inj hstep)
      refine ⟨c, outputs, c.store.state, s', rfl, hfrontier, rfl, hs', ?_⟩
      rintro ⟨-, hsame⟩
      rw [hversion, hversion'] at hsame
      cases hsame
    | _ =>
      rw [hstage] at hstep
      cases hstep

end Workgraph
