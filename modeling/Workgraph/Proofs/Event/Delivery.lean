import Mathlib.Data.List.Basic
import Workgraph.Event.Bus
/-!
# Delivery of events

A bus that many use at once. Emitters have events accepted, sinks are added, and a listener takes
events out of the queue and hands them to the sinks. To stop it one asks, and waits until it has
ended: when the listener notices, it takes all that is left in the queue, delivers it and ends. A
stop that finds no listener, because none was started or another stop is about to end it, returns at
once and leaves everything where it is. Anything may go on between two steps of the listener, also
while it has events in its hands. The next listener is started when the stop of the last one has
returned. Each event is handed to all sinks at once, for they cannot be changed meanwhile; a sink
that fails is passed over.

## Main definitions

- `StopStage`: how far the stop of a listener has come
- `StopReturn`: a stop that has returned, whether or not it has found a listener
- `BusSession`: a bus in use, with what has been accepted, delivered and flushed so far
- `BusAction`, `BusSession.act`, `BusSession.run`: what can happen, in any order
- `BusSession.Orderly`: nothing is lost, repeated or moved, and no stop of a listener returns too
  early

## Main statements

- `BusSession.take_deliver`, `BusSession.stop_at_once`, `BusSession.stop_unlistened`: delivery and
  stop of the bus are those steps of the listener with nothing in between
- `BusSession.askStop_returned_iff`: which stops do not return at once
- `BusSession.Orderly.act`, `BusSession.Orderly.run`: a bus in use stays orderly
- `events_delivered_in_order`: what a full queue, the sinks and the stops can be relied on for
-/

namespace Workgraph

variable {σ : Type}

/-- How far the stop of a listener has come: there is none under way, it has been asked for, the
listener has noticed, or the listener has ended. It comes with the events that had been accepted
when it was asked for. -/
inductive StopStage where
  | idle
  | asked (before : List Event)
  | flushing (before : List Event)
  | ended (before : List Event)

namespace StopStage

/-- Whether no stop is under way. -/
def isIdle : StopStage → Bool
  | idle => true
  | _ => false

/-- Whether the listener still takes events one by one. -/
def isUnnoticed : StopStage → Bool
  | idle => true
  | asked _ => true
  | _ => false

/-- How many events the listener may have in its hands: one, or all that fit into the queue while it
flushes it. -/
def hands (capacity : Nat) : StopStage → Nat
  | flushing _ => capacity
  | ended _ => 0
  | _ => 1

end StopStage

/-- A stop that has returned: whether it has found a listener to stop, the events that had been
accepted when it was asked for, and those that had been delivered when it returned. -/
structure StopReturn where
  found : Bool
  before : List Event
  delivered : List Event

/-- A bus in use: the events that the listener has in its hands, how far the stop of the listener
has come, all events that have been accepted and all that have been delivered, each sink as it was
added with the number of events delivered until then, and every stop that has returned. -/
structure BusSession (σ : Type) where
  bus : Bus σ
  underway : List Event
  stop : StopStage
  accepted : List Event
  delivered : List Event
  joined : List (σ × Nat)
  returned : List StopReturn

/-- What can happen: somebody emits an event, adds a sink, starts the listener or asks it to stop;
the listener takes the first event out of the queue, delivers the first event in its hands to every
sink, notices that it is to stop and takes all events out of the queue, or ends; the stop
returns. -/
inductive BusAction (σ : Type) where
  | emit (e : Event)
  | addSink (s : σ)
  | listen
  | askStop
  | take
  | deliver
  | flush
  | finish
  | stopReturns

/-- What becomes of a sink that is given an event. It may fail, which nobody minds. -/
def receiving (handle : Event → σ → Except String Unit × σ) (e : Event) (s : σ) : σ :=
  (handle e s).2

/-- What becomes of a sink that is given one event after the other. -/
def receivingAll (handle : Event → σ → Except String Unit × σ) (es : List Event) (s : σ) : σ :=
  es.foldl (fun s e => receiving handle e s) s

/-- A bus with something else in its queue. -/
def Bus.withQueue (b : Bus σ) (queue : List Event) : Bus σ := { b with queue := queue }

namespace BusSession

/-- A new bus. -/
def start (capacity : Nat) (sinks : List σ) : BusSession σ where
  bus := .start capacity sinks
  underway := []
  stop := .idle
  accepted := []
  delivered := []
  joined := sinks.map fun s => (s, 0)
  returned := []

/-- Whether the listener runs and has nothing in its hands. -/
def isFree (s : BusSession σ) : Bool := s.bus.listening && s.underway.isEmpty

/-- What happens to a bus in use. What cannot happen at the moment changes nothing: a listener is
started when none is being stopped. A stop takes charge of the listener; if none runs, or another
stop has taken charge of it, the stop returns at once. -/
def act (handle : Event → σ → Except String Unit × σ) (s : BusSession σ) :
    BusAction σ → BusSession σ
  | .emit e =>
    match s.bus.emit e with
    | .ok bus => { s with bus := bus, accepted := s.accepted ++ [e] }
    | .error _ => s
  | .addSink sink =>
    { s with
      bus := s.bus.addSink sink
      joined := s.joined ++ [(sink, s.delivered.length)] }
  | .listen => if s.stop.isIdle then { s with bus := s.bus.listen } else s
  | .askStop =>
    if s.bus.listening && s.stop.isIdle then { s with stop := .asked s.accepted }
    else { s with returned := s.returned ++ [⟨false, s.accepted, s.delivered⟩] }
  | .take =>
    if s.isFree && s.stop.isUnnoticed then
      { s with bus := s.bus.withQueue s.bus.queue.tail, underway := s.bus.queue.take 1 }
    else s
  | .deliver =>
    { s with
      bus := ((s.bus.withQueue s.underway).deliver (receiving handle)).withQueue s.bus.queue
      underway := s.underway.tail
      delivered := s.delivered ++ s.underway.take 1 }
  | .flush =>
    match s.stop with
    | .asked before =>
      if s.isFree then
        { s with bus := s.bus.withQueue [], underway := s.bus.queue, stop := .flushing before }
      else s
    | _ => s
  | .finish =>
    match s.stop with
    | .flushing before =>
      if s.isFree then { s with bus := { s.bus with listening := false }, stop := .ended before }
      else s
    | _ => s
  | .stopReturns =>
    match s.stop with
    | .ended before =>
      { s with stop := .idle, returned := s.returned ++ [⟨true, before, s.delivered⟩] }
    | _ => s

/-- One thing happens after the other. -/
def run (handle : Event → σ → Except String Unit × σ) (s : BusSession σ)
    (actions : List (BusAction σ)) : BusSession σ :=
  actions.foldl (act handle) s

end BusSession

section Sinks

variable {handle : Event → σ → Except String Unit × σ}

@[simp] theorem receivingAll_nil : receivingAll handle [] = id := rfl

theorem receivingAll_append (es more : List Event) (s : σ) :
    receivingAll handle (es ++ more) s = receivingAll handle more (receivingAll handle es s) :=
  List.foldl_append

/-- A sink that is there receives what is delivered next. -/
theorem receivingAll_drop_snoc {es : List Event} {n : Nat} (h : n ≤ es.length) (e : Event) (s : σ) :
    receivingAll handle ((es ++ [e]).drop n) s =
      receiving handle e (receivingAll handle (es.drop n) s) := by
  rw [List.drop_append_of_le_length h, receivingAll_append]
  rfl

end Sinks

namespace StopStage

theorem eq_idle_of_isIdle {stage : StopStage} (h : stage.isIdle = true) : stage = .idle := by
  cases stage with
  | idle => rfl
  | _ => cases h

theorem hands_of_isUnnoticed {stage : StopStage} (h : stage.isUnnoticed = true) (capacity : Nat) :
    stage.hands capacity = 1 := by
  cases stage with
  | idle => rfl
  | asked before => rfl
  | flushing before => cases h
  | ended before => cases h

/-- What had been accepted when the stop was asked for has come as far as the stop: it has been
accepted, it is out of the queue, or it has been delivered. -/
def Covered (delivered underway queue : List Event) : StopStage → Prop
  | idle => True
  | asked before => before <+: delivered ++ underway ++ queue
  | flushing before => before <+: delivered ++ underway
  | ended before => before <+: delivered

variable {stage : StopStage} {delivered underway queue : List Event}

/-- A stop that nobody has noticed does not mind what the listener takes. -/
theorem Covered.of_isUnnoticed (h : stage.Covered delivered [] queue)
    (hunnoticed : stage.isUnnoticed = true) {taken rest : List Event}
    (hqueue : queue = taken ++ rest) : stage.Covered delivered taken rest := by
  subst hqueue
  cases stage with
  | idle => trivial
  | asked before => simpa [Covered] using h
  | flushing before => cases hunnoticed
  | ended before => cases hunnoticed

/-- A stop goes on to cover what it covers while more is accepted. -/
theorem Covered.accept (h : stage.Covered delivered underway queue) (e : Event) :
    stage.Covered delivered underway (queue ++ [e]) := by
  cases stage with
  | idle => trivial
  | asked before =>
    rw [Covered, ← List.append_assoc]
    exact List.IsPrefix.trans h (List.prefix_append _ _)
  | flushing before => exact h
  | ended before => exact h

/-- A stop goes on to cover what it covers while events are delivered. -/
theorem Covered.deliver {e : Event} {rest : List Event}
    (h : stage.Covered delivered (e :: rest) queue) :
    stage.Covered (delivered ++ [e]) rest queue := by
  cases stage with
  | idle => trivial
  | asked before => simpa [Covered] using h
  | flushing before => simpa [Covered] using h
  | ended before => exact List.IsPrefix.trans h (List.prefix_append _ _)

end StopStage

/-- A stop has kept its word: what it says has been delivered was so; if it has found a listener,
all that had been accepted when it was asked for had been delivered when it returned; and if it has
found none, it has not waited for anything. -/
structure StopReturn.Kept (r : StopReturn) (delivered : List Event) : Prop where
  delivered : r.delivered <+: delivered
  found : r.found = true → r.before <+: r.delivered
  unfound : r.found = false → r.delivered <+: r.before

/-- What is delivered later does not matter to a stop that has returned. -/
theorem StopReturn.Kept.deliver {r : StopReturn} {delivered : List Event} (h : r.Kept delivered)
    (e : Event) : r.Kept (delivered ++ [e]) where
  delivered := h.delivered.trans (List.prefix_append _ _)
  found := h.found
  unfound := h.unfound

namespace BusSession

variable {handle : Event → σ → Except String Unit × σ} {capacity : Nat} {s : BusSession σ}

/-! ### The operations of the bus -/

/-- The bus delivers an event if the listener takes it and delivers it with nothing in between. -/
theorem take_deliver (hfree : s.isFree = true) (hstop : s.stop.isUnnoticed = true) :
    (s.run handle [.take, .deliver]).bus = s.bus.deliver (receiving handle) := by
  obtain ⟨⟨_, queue, sinks, _, _⟩, _, _, _, _, _, _⟩ := s
  simp only [run, List.foldl_cons, List.foldl_nil, act, hfree, hstop, Bool.and_self, if_true]
  cases queue <;> rfl

theorem act_deliver_nil (h : s.underway = []) : s.act handle .deliver = s := by
  obtain ⟨bus, underway, _, _, _, _, _⟩ := s
  subst h
  simp [act, Bus.withQueue, Bus.deliver]

theorem act_deliver_cons {e : Event} {rest : List Event} (h : s.underway = e :: rest) :
    s.act handle .deliver =
      { s with
        bus := { s.bus with sinks := s.bus.sinks.map (receiving handle e) }
        underway := rest
        delivered := s.delivered ++ [e] } := by
  obtain ⟨bus, underway, _, _, _, _, _⟩ := s
  subst h
  rfl

/-- Everything in the hands of the listener is delivered. -/
theorem run_deliver {es : List Event} (h : s.underway = es) :
    s.run handle (List.replicate es.length .deliver) =
      { s with
        bus := { s.bus with sinks := s.bus.sinks.map (receivingAll handle es) }
        underway := []
        delivered := s.delivered ++ es } := by
  induction es generalizing s with
  | nil =>
    obtain ⟨bus, underway, _, _, _, _, _⟩ := s
    subst h
    simp [run]
  | cons e rest ih =>
    rw [List.length_cons, List.replicate_succ, run, List.foldl_cons, act_deliver_cons h]
    have hrest := ih (s := { s with
      bus := { s.bus with sinks := s.bus.sinks.map (receiving handle e) }
      underway := rest
      delivered := s.delivered ++ [e] }) rfl
    simp only [List.map_map, List.append_assoc, List.singleton_append] at hrest
    exact hrest

theorem run_append (s : BusSession σ) (actions more : List (BusAction σ)) :
    s.run handle (actions ++ more) = (s.run handle actions).run handle more :=
  List.foldl_append

/-- The bus is stopped if the listener is asked to, notices, delivers everything and ends with
nothing in between. -/
theorem stop_at_once (hfree : s.isFree = true) (hstop : s.stop = .idle) :
    (s.run handle ([.askStop, .flush] ++ List.replicate s.bus.queue.length .deliver ++
      [.finish, .stopReturns])).bus = s.bus.stop (receiving handle) := by
  have hlistening : s.bus.listening = true := (Bool.and_eq_true_iff.mp hfree).1
  have hask : s.act handle .askStop = { s with stop := .asked s.accepted } :=
    if_pos (by simp [hlistening, hstop, StopStage.isIdle])
  have hflush : ({ s with stop := .asked s.accepted } : BusSession σ).act handle .flush =
      { s with
        bus := s.bus.withQueue []
        underway := s.bus.queue
        stop := .flushing s.accepted } := if_pos hfree
  have hbegin : s.run handle [.askStop, .flush] =
      { s with
        bus := s.bus.withQueue []
        underway := s.bus.queue
        stop := .flushing s.accepted } := by
    rw [run, List.foldl_cons, hask, List.foldl_cons, hflush, List.foldl_nil]
  rw [run_append, run_append, hbegin, run_deliver rfl, Bus.stop, if_pos hlistening]
  simp only [run, act, List.foldl_cons, List.foldl_nil, isFree, Bus.withQueue, hlistening]
  rfl

/-- A bus without a listener is stopped at once. -/
theorem stop_unlistened (hlistening : s.bus.listening = false) :
    (s.act handle .askStop).bus = s.bus.stop (receiving handle) := by
  simp [act, Bus.stop, hlistening]

/-- Every stop returns at once, except for one that takes charge of a listener. -/
theorem askStop_returned_iff : (s.act handle .askStop).returned = s.returned ↔
    s.bus.listening = true ∧ s.stop = .idle := by
  simp only [act]
  by_cases hcan : (s.bus.listening && s.stop.isIdle) = true
  · obtain ⟨hlistening, hidle⟩ := Bool.and_eq_true_iff.mp hcan
    rw [if_pos hcan]
    exact iff_of_true rfl ⟨hlistening, StopStage.eq_idle_of_isIdle hidle⟩
  · rw [if_neg hcan]
    refine iff_of_false (fun h => List.cons_ne_nil _ _ (List.append_right_eq_self.mp h)) ?_
    rintro ⟨hlistening, hidle⟩
    exact hcan (by rw [hlistening, hidle]; rfl)

/-! ### What is kept by everything that happens -/

/-- A bus in use is orderly: every accepted event has been delivered, is in the hands of the
listener or waits in the queue, in the order of acceptance; the queue is not longer than it may be,
and the listener has no more in its hands than it may; each sink has received what has been
delivered since it was added; the stop under way has come as far as it says; and every stop that has
returned has kept its word. -/
structure Orderly (handle : Event → σ → Except String Unit × σ) (capacity : Nat)
    (s : BusSession σ) : Prop where
  accepted : s.accepted = s.delivered ++ s.underway ++ s.bus.queue
  isOpen : s.bus.isClosed = false
  size : s.bus.capacity = capacity
  room : s.bus.queue.length ≤ capacity
  hands : s.underway.length ≤ s.stop.hands capacity
  joined : ∀ j ∈ s.joined, j.2 ≤ s.delivered.length
  sinks : s.bus.sinks = s.joined.map fun j => receivingAll handle (s.delivered.drop j.2) j.1
  stop : s.stop.Covered s.delivered s.underway s.bus.queue
  returned : ∀ r ∈ s.returned, r.Kept s.delivered

theorem orderly_start (capacity : Nat) (sinks : List σ) :
    (start capacity sinks).Orderly handle capacity where
  accepted := rfl
  isOpen := rfl
  size := rfl
  room := Nat.zero_le _
  hands := Nat.zero_le _
  joined := by simp [start]
  sinks := by simp [start, Bus.start, Function.comp_def]
  stop := trivial
  returned := by simp [start]

namespace Orderly

/-- An event is turned away only because the queue is full. -/
theorem emit_eq (h : s.Orderly handle capacity) (e : Event) :
    s.bus.emit e = if s.bus.queue.length = capacity then .error .full
      else .ok (s.bus.withQueue (s.bus.queue ++ [e])) := by
  have hroom := h.room
  have hopen : ¬s.bus.isClosed = true := by simp [h.isOpen]
  rw [Bus.emit, if_neg hopen, h.size]
  by_cases hfull : s.bus.queue.length = capacity
  · rw [if_pos (by omega), if_pos hfull]
  · rw [if_neg (by omega), if_neg hfull, Bus.withQueue, h.size]

theorem emit (h : s.Orderly handle capacity) (e : Event) :
    (s.act handle (.emit e)).Orderly handle capacity := by
  simp only [BusSession.act, h.emit_eq]
  by_cases hfull : s.bus.queue.length = capacity
  · rw [if_pos hfull]
    exact h
  · rw [if_neg hfull]
    have hroom := h.room
    exact {
      accepted := by simp [h.accepted, Bus.withQueue]
      isOpen := h.isOpen
      size := h.size
      room := by simp only [Bus.withQueue, List.length_append, List.length_singleton]; omega
      hands := h.hands
      joined := h.joined
      sinks := h.sinks
      stop := h.stop.accept e
      returned := h.returned }

/-- A new sink has not received anything. -/
theorem addSink (h : s.Orderly handle capacity) (sink : σ) :
    (s.act handle (.addSink sink)).Orderly handle capacity where
  accepted := h.accepted
  isOpen := h.isOpen
  size := h.size
  room := h.room
  hands := h.hands
  joined := by
    intro j hj
    obtain hj | rfl := List.mem_append.mp hj |>.imp_right List.mem_singleton.mp
    · exact h.joined j hj
    · exact Nat.le_refl _
  sinks := by simp [act, Bus.addSink, h.sinks]
  stop := h.stop
  returned := h.returned

theorem underway_of_isFree (hfree : s.isFree = true) : s.underway = [] :=
  List.isEmpty_iff.mp (Bool.and_eq_true_iff.mp hfree).2

/-- Nothing of what a stop covers is in the hands of a listener that is free. -/
theorem covered {stage : StopStage} (h : s.Orderly handle capacity) (hfree : s.isFree = true)
    (hstage : s.stop = stage) : stage.Covered s.delivered [] s.bus.queue := by
  rw [← hstage, ← underway_of_isFree hfree]
  exact h.stop

/-- The listener takes events out of the queue when it has nothing in its hands. -/
theorem take {taken rest : List Event} {stage : StopStage} (h : s.Orderly handle capacity)
    (hfree : s.isFree = true) (hqueue : s.bus.queue = taken ++ rest)
    (hhands : taken.length ≤ stage.hands capacity) (hstage : stage.Covered s.delivered taken rest) :
    Orderly handle capacity
      { s with bus := s.bus.withQueue rest, underway := taken, stop := stage } where
  accepted := by
    rw [h.accepted, underway_of_isFree hfree, hqueue]
    simp [Bus.withQueue]
  isOpen := h.isOpen
  size := h.size
  room := by
    have hroom := h.room
    rw [hqueue, List.length_append] at hroom
    exact Nat.le_of_add_left_le hroom
  hands := hhands
  joined := h.joined
  sinks := h.sinks
  stop := hstage
  returned := h.returned

/-- Every sink receives the event that is delivered, whatever the others make of it. -/
theorem deliver (h : s.Orderly handle capacity) :
    (s.act handle .deliver).Orderly handle capacity := by
  cases hunderway : s.underway with
  | nil =>
    rw [act_deliver_nil hunderway]
    exact h
  | cons e rest =>
    rw [act_deliver_cons hunderway]
    exact {
      accepted := by simp [h.accepted, hunderway]
      isOpen := h.isOpen
      size := h.size
      room := h.room
      hands := by
        have hhands := h.hands
        rw [hunderway, List.length_cons] at hhands
        exact Nat.le_of_succ_le hhands
      joined := fun j hj => by
        rw [List.length_append]
        exact Nat.le_add_right_of_le (h.joined j hj)
      sinks := by
        rw [h.sinks, List.map_map]
        refine List.map_congr_left fun j hj => ?_
        exact (receivingAll_drop_snoc (h.joined j hj) e j.1).symm
      stop := by
        have hstop := h.stop
        rw [hunderway] at hstop
        exact hstop.deliver
      returned := fun r hr => (h.returned r hr).deliver e }

/-- Whether the listener runs, and how far its stop has come, is changed with everything that is
said of it. -/
theorem change (h : s.Orderly handle capacity) (listening : Bool) (stage : StopStage)
    (hhands : s.underway.length ≤ stage.hands capacity)
    (hstage : stage.Covered s.delivered s.underway s.bus.queue) :
    Orderly handle capacity
      { s with bus := { s.bus with listening := listening }, stop := stage } where
  accepted := h.accepted
  isOpen := h.isOpen
  size := h.size
  room := h.room
  hands := hhands
  joined := h.joined
  sinks := h.sinks
  stop := hstage
  returned := h.returned

/-- A stop that has kept its word returns, and is recorded with the others. -/
theorem returns {stage : StopStage} (h : s.Orderly handle capacity) {r : StopReturn}
    (hr : r.Kept s.delivered) (hhands : s.underway.length ≤ stage.hands capacity)
    (hstage : stage.Covered s.delivered s.underway s.bus.queue) :
    Orderly handle capacity { s with stop := stage, returned := s.returned ++ [r] } where
  accepted := h.accepted
  isOpen := h.isOpen
  size := h.size
  room := h.room
  hands := hhands
  joined := h.joined
  sinks := h.sinks
  stop := hstage
  returned := List.forall_mem_append.mpr ⟨h.returned, List.forall_mem_singleton.mpr hr⟩

/-- Nothing that happens to a bus in use brings it out of order. -/
theorem act (h : s.Orderly handle capacity) (action : BusAction σ) :
    (s.act handle action).Orderly handle capacity := by
  cases action with
  | emit e => exact h.emit e
  | addSink sink => exact h.addSink sink
  | deliver => exact h.deliver
  | listen =>
    simp only [BusSession.act]
    by_cases hidle : s.stop.isIdle = true
    · rw [if_pos hidle, Bus.listen, if_neg (by simp [h.isOpen])]
      exact h.change true s.stop h.hands h.stop
    · rw [if_neg hidle]
      exact h
  | askStop =>
    simp only [BusSession.act]
    by_cases hcan : (s.bus.listening && s.stop.isIdle) = true
    · rw [if_pos hcan]
      have hidle : s.stop = .idle :=
        StopStage.eq_idle_of_isIdle (Bool.and_eq_true_iff.mp hcan).2
      have hhands := h.hands
      rw [hidle] at hhands
      exact h.change s.bus.listening (.asked s.accepted) hhands
        ⟨[], by rw [List.append_nil, h.accepted]⟩
    · rw [if_neg hcan]
      have hbehind : s.delivered <+: s.accepted := by
        rw [h.accepted, List.append_assoc]
        exact List.prefix_append _ _
      exact h.returns ⟨List.prefix_rfl, nofun, fun _ => hbehind⟩ h.hands h.stop
  | take =>
    simp only [BusSession.act]
    by_cases hcan : (s.isFree && s.stop.isUnnoticed) = true
    · rw [if_pos hcan]
      obtain ⟨hfree, hunnoticed⟩ := Bool.and_eq_true_iff.mp hcan
      have hqueue : s.bus.queue = s.bus.queue.take 1 ++ s.bus.queue.tail := by
        rw [← List.drop_one, List.take_append_drop]
      refine h.take hfree hqueue ?_ ((h.covered hfree rfl).of_isUnnoticed hunnoticed hqueue)
      rw [StopStage.hands_of_isUnnoticed hunnoticed]
      exact List.length_take_le 1 _
    · rw [if_neg hcan]
      exact h
  | flush =>
    cases hstage : s.stop with
    | asked before =>
      simp only [BusSession.act, hstage]
      by_cases hfree : s.isFree = true
      · rw [if_pos hfree]
        have hcovered : before <+: s.delivered ++ [] ++ s.bus.queue := h.covered hfree hstage
        rw [List.append_nil] at hcovered
        exact h.take hfree (List.append_nil _).symm h.room hcovered
      · rw [if_neg hfree]
        exact h
    | _ =>
      simp only [BusSession.act, hstage]
      exact h
  | finish =>
    cases hstage : s.stop with
    | flushing before =>
      simp only [BusSession.act, hstage]
      by_cases hfree : s.isFree = true
      · rw [if_pos hfree]
        have hcovered : before <+: s.delivered ++ [] := h.covered hfree hstage
        rw [List.append_nil] at hcovered
        have hempty : s.underway.length = 0 := congrArg List.length (underway_of_isFree hfree)
        exact h.change false (.ended before) (Nat.le_of_eq hempty) hcovered
      · rw [if_neg hfree]
        exact h
    | _ =>
      simp only [BusSession.act, hstage]
      exact h
  | stopReturns =>
    cases hstage : s.stop with
    | ended before =>
      simp only [BusSession.act, hstage]
      have hhands := h.hands
      have hstop := h.stop
      rw [hstage] at hhands hstop
      exact h.returns ⟨List.prefix_rfl, fun _ => hstop, nofun⟩
        (Nat.le_trans hhands (Nat.zero_le 1)) trivial
    | _ =>
      simp only [BusSession.act, hstage]
      exact h

theorem run (h : s.Orderly handle capacity) (actions : List (BusAction σ)) :
    (s.run handle actions).Orderly handle capacity := by
  induction actions generalizing s with
  | nil => exact h
  | cons action rest ih => exact ih (h.act action)

end Orderly

end BusSession

/-- Whatever happens to a bus, and in whatever order: the accepted events are those that have been
delivered, those that the listener has in its hands and those that wait in the queue, in the order
of acceptance. An event is turned away if and only if as many events wait as the queue can hold;
what the listener has in its hands does not count any more, which is one event at most, or what it
has flushed from the queue to end. Each sink has received just what has been delivered since it was
added, one event after the other, whether or not it or another sink failed. When a stop that has
found a listener returns, everything has been delivered that had been accepted when it was asked
for. A stop that finds none, because none runs or another stop is about to end it, returns at once,
whatever has been delivered until then. -/
theorem events_delivered_in_order (handle : Event → σ → Except String Unit × σ) (capacity : Nat)
    (sinks : List σ) (actions : List (BusAction σ)) :
    let s := (BusSession.start capacity sinks).run handle actions
    ∃ waiting, s.accepted = s.delivered ++ s.underway ++ waiting ∧
      (∀ e err, s.bus.emit e = .error err ↔ err = .full ∧ waiting.length = capacity) ∧
      s.underway.length ≤ s.stop.hands capacity ∧
      s.bus.sinks = s.joined.map (fun j => receivingAll handle (s.delivered.drop j.2) j.1) ∧
      (∀ r ∈ s.returned, r.delivered <+: s.delivered ∧
        (r.found = true → r.before <+: r.delivered) ∧
        (r.found = false → r.delivered <+: r.before)) ∧
      ((s.act handle .askStop).returned = s.returned ↔
        s.bus.listening = true ∧ s.stop = .idle) := by
  intro s
  have h : s.Orderly handle capacity := (BusSession.orderly_start capacity sinks).run actions
  refine ⟨s.bus.queue, h.accepted, fun e err => ?_, h.hands, h.sinks, fun r hr => ?_,
    BusSession.askStop_returned_iff⟩
  · rw [h.emit_eq]
    by_cases hfull : s.bus.queue.length = capacity
    · simp [hfull, eq_comm]
    · simp [hfull]
  · obtain ⟨hdelivered, hfound, hunfound⟩ := h.returned r hr
    exact ⟨hdelivered, hfound, hunfound⟩

/-- What a bus with room for one event may leave undelivered. A stop returns although an event has
been accepted before it and not delivered, both if no listener was started and if another stop has
not ended it yet. And one more event is accepted while a listener has one in its hands. -/
theorem accepted_left_undelivered :
    let e : Event := .diagnostic ⟨"", "a"⟩
    let handle (e : Event) (s : List Event) : Except String Unit × List Event := (.ok (), s ++ [e])
    let unlistened := (BusSession.start 1 [[]]).run handle [.emit e, .askStop]
    let overlapping := (BusSession.start 1 [[]]).run handle [.listen, .emit e, .askStop, .askStop]
    let held := (BusSession.start 1 [[]]).run handle [.listen, .emit e, .take]
    (unlistened.returned = [⟨false, [e], []⟩] ∧ unlistened.delivered = []) ∧
      (overlapping.returned = [⟨false, [e], []⟩] ∧ overlapping.delivered = []) ∧
      held.accepted = [e] ∧ held.delivered = [] ∧ (held.bus.emit e).toOption.isSome = true :=
  ⟨⟨rfl, rfl⟩, ⟨rfl, rfl⟩, rfl, rfl, rfl⟩

/-- A listener with one event in its hands and another in the queue is asked to stop, and by
somebody else again. While it delivers them one more is accepted, and a sink is added. All sinks
fail from their second event on. -/
example :
    let event (message : String) : Event := .diagnostic ⟨"", message⟩
    let handle (e : Event) (s : List String) : Except String Unit × List String :=
      (if s.isEmpty then .ok () else .error "full", s ++ [e.text])
    let s := (BusSession.start 1 [[]]).run handle
      [.listen, .emit (event "a"), .take, .emit (event "b"), .emit (event "c"), .askStop, .askStop,
        .deliver, .flush, .emit (event "d"), .emit (event "e"), .addSink [], .deliver, .finish,
        .stopReturns]
    s.accepted.map (·.text) = ["a", "b", "d"] ∧ s.bus.sinks = [["a", "b"], ["b"]] ∧
      s.returned.map (fun r => (r.found, r.before.map (·.text), r.delivered.map (·.text))) =
        [(false, ["a", "b"], []), (true, ["a", "b"], ["a", "b"])] := by
  decide +kernel

end Workgraph
