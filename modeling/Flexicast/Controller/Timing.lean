import Flexicast.Controller.Liveness
import Flexicast.Lib.Runs

/-! When a receiver falls back on unicast: the deadline of the scheduler told from the history of its calls. -/

namespace Flexicast

namespace FcFlowAliveScheduler

/-- A call of the scheduler. -/
inductive AliveEvent where
  | packetSent (now : Int)
  /-- The receiver acknowledged a packet of the flow, with or without bytes in flight. -/
  | ackReceived (lastPn : Nat) (now : Int) (bytesInFlight : Bool)
  /-- The receiver falls back on unicast. -/
  | ucFallBack
  /-- The receiver listens to the flow. -/
  | setFcfAlive
  deriving DecidableEq

/-- One call. -/
def next (self : FcFlowAliveScheduler) : AliveEvent → FcFlowAliveScheduler
  | .packetSent now => self.onPacketSent now
  | .ackReceived lastPn now bytesInFlight => (self.onAckReceived lastPn now bytesInFlight).1
  | .ucFallBack => self.ucFallBack
  | .setFcfAlive => self.setFcfAlive

namespace AliveEvent

/-- The packet number that an event acknowledges. -/
def ackedPn : AliveEvent → Option Nat
  | .ackReceived lastPn _ _ => some lastPn
  | .packetSent _ | .ucFallBack | .setFcfAlive => none

/-- The time of an event that has one. -/
def time : AliveEvent → Option Int
  | .packetSent now => some now
  | .ackReceived _ now _ => some now
  | .ucFallBack | .setFcfAlive => none

/-- The time at which packets were sent. -/
def sentAt : AliveEvent → Option Int
  | .packetSent now => some now
  | .ackReceived .. | .ucFallBack | .setFcfAlive => none

/-- The time of an acknowledgment that found bytes in flight. -/
def foundAt : AliveEvent → Option Int
  | .ackReceived _ now true => some now
  | .ackReceived _ _ false | .packetSent _ | .ucFallBack | .setFcfAlive => none

end AliveEvent

open AliveEvent

/-- An event after some others, the latest first, starts anew; an acknowledgment does so when it advances. -/
def Resets (earlier : List AliveEvent) : AliveEvent → Prop
  | .packetSent _ => False
  | .ackReceived lastPn _ _ => ∀ pn ∈ earlier.filterMap ackedPn, pn < lastPn
  | .ucFallBack => True
  | .setFcfAlive => True

instance decidableResets (earlier : List AliveEvent) : (event : AliveEvent) → Decidable (Resets earlier event)
  | .packetSent _ => isFalse id
  | .ackReceived lastPn _ _ => inferInstanceAs (Decidable (∀ pn ∈ earlier.filterMap ackedPn, pn < lastPn))
  | .ucFallBack => isTrue trivial
  | .setFcfAlive => isTrue trivial

/-- The last event that started anew in a history, the latest event first, and none for the creation. -/
def lastReset : List AliveEvent → Option AliveEvent
  | [] => none
  | event :: earlier => if Resets earlier event then some event else lastReset earlier

/-- When packets were sent since then, the latest first. -/
def sentSince : List AliveEvent → List Int
  | [] => []
  | event :: earlier => if Resets earlier event then [] else event.sentAt.toList ++ sentSince earlier

/-- Whether the flow is alive after a history, given whether it was at first. -/
def aliveAfter (alive : Bool) (history : List AliveEvent) : Bool :=
  match lastReset history with
  | none => alive
  | some event => decide (event ≠ .ucFallBack)

/-- When the delay began: with the acknowledgment that started anew, if it found bytes in flight, or else with the
first packet since then on a flow that is alive. -/
def pendingStart (alive : Bool) (history : List AliveEvent) : Option Int :=
  match (lastReset history).bind foundAt with
  | some start => some start
  | none => if aliveAfter alive history then (sentSince history).getLast? else none

/-- The times of the events do not decrease, and none is after some instant. -/
def InOrder (events : List AliveEvent) (now : Int) : Prop := (events.filterMap time ++ [now]).Pairwise (· ≤ ·)

instance (events : List AliveEvent) (now : Int) : Decidable (InOrder events now) :=
  inferInstanceAs (Decidable (List.Pairwise _ _))

variable {self : FcFlowAliveScheduler} {alive : Bool} {history earlier : List AliveEvent} {event : AliveEvent}

section History

theorem pendingStart_of_resets (resets : Resets earlier event) :
    aliveAfter alive (event :: earlier) = decide (event ≠ .ucFallBack) ∧
      pendingStart alive (event :: earlier) = event.foundAt := by
  have last : lastReset (event :: earlier) = some event := if_pos resets
  have sent : sentSince (event :: earlier) = [] := if_pos resets
  -- No packet was sent since the event, so only the acknowledgment itself can start the delay.
  unfold pendingStart aliveAfter
  rw [last, sent]
  refine ⟨rfl, ?_⟩
  cases found : event.foundAt <;> simp [found]

/-- Another event leaves the flow as it is, and starts the delay if it is a packet and nothing else did. -/
theorem pendingStart_of_not_resets (stays : ¬ Resets earlier event) :
    aliveAfter alive (event :: earlier) = aliveAfter alive earlier ∧
      pendingStart alive (event :: earlier) =
        (pendingStart alive earlier).or (if aliveAfter alive earlier then event.sentAt else none) := by
  have last : lastReset (event :: earlier) = lastReset earlier := if_neg stays
  have sent : sentSince (event :: earlier) = event.sentAt.toList ++ sentSince earlier := if_neg stays
  have same : aliveAfter alive (event :: earlier) = aliveAfter alive earlier := by
    unfold aliveAfter
    rw [last]
  refine ⟨same, ?_⟩
  unfold pendingStart
  rw [same, last, sent]
  cases (lastReset earlier).bind foundAt with
  | some start => rfl
  | none =>
    by_cases living : aliveAfter alive earlier = true
    · simp only [living, if_true]
      -- The first packet since the start is the one that was sent before, if there is one.
      cases sentSince earlier with
      | nil => cases event.sentAt <;> rfl
      | cons later rest =>
        rw [List.getLast?_append]
        have first : ((later :: rest).getLast?).isSome = true := by simp
        obtain ⟨start, first⟩ := Option.isSome_iff_exists.mp first
        rw [first]
        rfl
    · simp [living]

end History

/-- The scheduler after a history, the latest event first. -/
structure Follows (alive : Bool) (delay : Option Nat) (history : List AliveEvent) (scheduler : FcFlowAliveScheduler) :
    Prop where
  waits : scheduler.fallBackDelay = delay
  lives : scheduler.fcfAlive = aliveAfter alive history
  /-- An acknowledgment is new when it advances. -/
  fresh : ∀ lastPn, scheduler.isNew lastPn = true ↔ ∀ pn ∈ history.filterMap ackedPn, pn < lastPn
  timeout : scheduler.fcfNextTimeout =
    (pendingStart alive history).bind fun start => delay.map fun amount : Nat => start + (amount : Int)

variable {delay : Option Nat}

theorem startTimeout_eq (self : FcFlowAliveScheduler) (now : Int) :
    self.startTimeout now = self.fallBackDelay.map fun amount : Nat => now + (amount : Int) := by
  unfold startTimeout
  cases self.fallBackDelay <;> rfl

theorem follows_new (delay : Option Nat) (start : Option Int) : Follows start.isSome delay [] (new delay start) := by
  constructor
  case waits => rfl
  case lives => rfl
  case fresh => intro lastPn; simp [isNew, new]
  case timeout =>
    unfold pendingStart
    cases start <;> rfl

/-- A packet starts the delay of a flow that is alive, unless it has begun. -/
theorem Follows.packetSent (follows : Follows alive delay history self) (now : Int) :
    Follows alive delay (.packetSent now :: history) (self.onPacketSent now) := by
  obtain ⟨living, pending⟩ := @pendingStart_of_not_resets alive history (.packetSent now) id
  have fresh : ∀ lastPn, self.isNew lastPn = true ↔
      ∀ pn ∈ (AliveEvent.packetSent now :: history).filterMap ackedPn, pn < lastPn := follows.fresh
  -- A packet matters only on a flow that is alive.
  by_cases lives : self.fcfAlive = true
  · have alive_ : aliveAfter alive history = true := follows.lives.symm.trans lives
    rw [if_pos alive_] at pending
    cases running : pendingStart alive history with
    | none =>
      have idle : self.fcfNextTimeout = none := by rw [follows.timeout, running]; rfl
      have same : self.onPacketSent now = { self with fcfNextTimeout := self.startTimeout now } := by
        simp [onPacketSent, lives, idle]
      rw [same]
      refine ⟨follows.waits, follows.lives.trans living.symm, fresh, ?_⟩
      rw [pending, running]
      show self.startTimeout now = _
      rw [startTimeout_eq, follows.waits]
      rfl
    | some start =>
      -- A timeout that runs stays, and without a delay none ever runs.
      have same : self.onPacketSent now = self := by
        cases set : delay with
        | none =>
          have never : self.fallBackDelay = none := follows.waits.trans set
          have idle : self.fcfNextTimeout = none := by rw [follows.timeout, running, set]; rfl
          have unset : self.startTimeout now = self.fcfNextTimeout := by rw [startTimeout_eq, never, idle]; rfl
          simp [onPacketSent, unset]
        | some amount =>
          have runs : self.fcfNextTimeout = some (start + (amount : Int)) := by
            rw [follows.timeout, running, set]
            rfl
          simp [onPacketSent, lives, runs]
      rw [same]
      refine ⟨follows.waits, follows.lives.trans living.symm, fresh, ?_⟩
      rw [pending, running, follows.timeout, running]
      rfl
  · have none_ : aliveAfter alive history = false := by rw [← follows.lives]; simpa using lives
    have same : self.onPacketSent now = self := by simp [onPacketSent, lives]
    rw [same]
    refine ⟨follows.waits, follows.lives.trans living.symm, fresh, ?_⟩
    rw [pending, none_, follows.timeout]
    simp

/-- An acknowledgment that advances starts anew, and another one changes nothing. -/
theorem Follows.ackReceived (follows : Follows alive delay history self) (lastPn : Nat) (now : Int)
    (bytesInFlight : Bool) : Follows alive delay (.ackReceived lastPn now bytesInFlight :: history)
      (self.onAckReceived lastPn now bytesInFlight).1 := by
  have acked : (AliveEvent.ackReceived lastPn now bytesInFlight :: history).filterMap ackedPn =
      lastPn :: history.filterMap ackedPn := rfl
  -- The scheduler compares with the last number, the history with all of them.
  by_cases advances : self.isNew lastPn = true
  · have resets : Resets history (.ackReceived lastPn now bytesInFlight) := (follows.fresh lastPn).mp advances
    obtain ⟨living, pending⟩ := @pendingStart_of_resets alive history _ resets
    have same : (self.onAckReceived lastPn now bytesInFlight).1 = { self with
        fcfLastRecv := some lastPn
        fcfAlive := true
        didUcRetransmit := false
        fcfNextTimeout := if bytesInFlight then self.startTimeout now else none } := by
      simp [onAckReceived, advances]
    rw [same]
    refine ⟨follows.waits, living.symm, fun pn => ?_, ?_⟩
    · -- All earlier numbers are below this one.
      rw [acked, List.forall_mem_cons]
      have above : ∀ other ∈ history.filterMap ackedPn, other < lastPn := resets
      have number : isNew { self with
          fcfLastRecv := some lastPn
          fcfAlive := true
          didUcRetransmit := false
          fcfNextTimeout := if bytesInFlight then self.startTimeout now else none } pn = decide (lastPn < pn) := rfl
      rw [number, decide_eq_true_eq]
      exact ⟨fun less => ⟨less, fun other member => Nat.lt_trans (above other member) less⟩, And.left⟩
    · rw [pending]
      cases bytesInFlight with
      | false => rfl
      | true =>
        show self.startTimeout now = _
        rw [startTimeout_eq, follows.waits]
        rfl
  · have stays : ¬ Resets history (.ackReceived lastPn now bytesInFlight) :=
      fun resets => advances ((follows.fresh lastPn).mpr resets)
    obtain ⟨living, pending⟩ := @pendingStart_of_not_resets alive history _ stays
    rw [onAckReceived_old (by simpa using advances)]
    refine ⟨follows.waits, follows.lives.trans living.symm, fun pn => ?_, ?_⟩
    · -- Some earlier number is as large, so this one adds nothing.
      rw [acked, List.forall_mem_cons, follows.fresh pn]
      refine ⟨fun below => ⟨?_, below⟩, And.right⟩
      by_contra above
      exact stays fun other member => Nat.lt_of_lt_of_le (below other member) (Nat.not_lt.mp above)
    · rw [pending, follows.timeout]
      simp [sentAt]

/-- The scheduler follows its history. -/
theorem Follows.next (follows : Follows alive delay history self) (event : AliveEvent) :
    Follows alive delay (event :: history) (self.next event) := by
  -- The fall-back and the return of the flow start anew without a delay.
  cases event with
  | packetSent now => exact follows.packetSent now
  | ackReceived lastPn now bytesInFlight => exact follows.ackReceived lastPn now bytesInFlight
  | ucFallBack =>
    obtain ⟨living, pending⟩ := @pendingStart_of_resets alive history .ucFallBack trivial
    exact ⟨follows.waits, living.symm, follows.fresh, by rw [pending]; rfl⟩
  | setFcfAlive =>
    obtain ⟨living, pending⟩ := @pendingStart_of_resets alive history .setFcfAlive trivial
    exact ⟨follows.waits, living.symm, follows.fresh, by rw [pending]; rfl⟩

/-- The scheduler follows its history throughout a run. -/
theorem Follows.run (events : List AliveEvent) : ∀ {history : List AliveEvent} {self : FcFlowAliveScheduler},
    Follows alive delay history self →
      Follows alive delay (events.reverse ++ history) (Runs.run FcFlowAliveScheduler.next self events) := by
  -- Induction on the events, each of which becomes the latest of the history.
  induction events with
  | nil => exact fun follows => follows
  | cons event rest ih =>
    intro history self follows
    have rest_ := ih (follows.next event)
    rw [List.reverse_cons, List.append_assoc, List.singleton_append]
    exact rest_

theorem time_of_start {start : Int} (said : event.foundAt = some start ∨ event.sentAt = some start) :
    event.time = some start := by
  cases event with
  | packetSent now => simpa [foundAt, sentAt, time] using said
  | ackReceived lastPn now bytesInFlight =>
    cases bytesInFlight with
    | false => simp [foundAt, sentAt] at said
    | true => simpa [foundAt, sentAt, time] using said
  | ucFallBack => simp [foundAt, sentAt] at said
  | setFcfAlive => simp [foundAt, sentAt] at said

/-- The delay does not begin before an event that starts anew, when times do not decrease. -/
theorem le_pendingStart {later : List AliveEvent} {at_ start : Int} (resets : Resets earlier event)
    (timed : event.time = some at_) (inOrder : ∀ other ∈ later, ∀ instant ∈ other.time, at_ ≤ instant)
    (pending : pendingStart alive (later ++ event :: earlier) = some start) : at_ ≤ start := by
  -- Induction on the later events, the latest first.
  induction later generalizing start with
  | nil =>
    rw [List.nil_append, (pendingStart_of_resets resets).2] at pending
    have same := time_of_start (.inl pending)
    rw [timed] at same
    cases same
    exact le_rfl
  | cons last later ih =>
    have own := inOrder last List.mem_cons_self
    have before := @ih start fun other member => inOrder other (List.mem_cons_of_mem _ member)
    rw [List.cons_append] at pending
    by_cases anew : Resets (later ++ event :: earlier) last
    · rw [(pendingStart_of_resets anew).2] at pending
      exact own start (time_of_start (.inl pending))
    · rw [(pendingStart_of_not_resets anew).2] at pending
      -- The delay had begun, or the last event is the packet that begins it.
      rcases Option.or_eq_some_iff.mp pending with held | ⟨-, first⟩
      · exact before held
      · split at first
        · exact own start (time_of_start (.inr first))
        · cases first

theorem pendingStart_eq_none {later : List AliveEvent} (resets : Resets earlier event) (idle : event.foundAt = none)
    (quiet : ∀ other ∈ later, other.sentAt = none ∧ other.foundAt = none) :
    pendingStart alive (later ++ event :: earlier) = none := by
  -- Induction on the later events: none of them starts the delay.
  induction later with
  | nil =>
    rw [List.nil_append, (pendingStart_of_resets resets).2]
    exact idle
  | cons last later ih =>
    obtain ⟨unsent, unfound⟩ := quiet last List.mem_cons_self
    have before := ih fun other member => quiet other (List.mem_cons_of_mem _ member)
    rw [List.cons_append]
    by_cases anew : Resets (later ++ event :: earlier) last
    · rw [(pendingStart_of_resets anew).2]
      exact unfound
    · rw [(pendingStart_of_not_resets anew).2, before, unsent]
      simp

theorem shouldUcFallBack_iff (self : FcFlowAliveScheduler) (now : Int) :
    self.shouldUcFallBack now = true ↔ self.fcfAlive = true ∧ ∃ instant ∈ self.fcfNextTimeout, instant ≤ now := by
  unfold shouldUcFallBack fcfTimeout
  cases self.fcfAlive with
  | false => simp
  | true =>
    cases self.fcfNextTimeout with
    | none => simp
    | some instant =>
      simp only [Bool.not_true, Bool.false_eq_true, if_false, Option.map_some, beq_iff_eq, Option.some.injEq,
        Int.toNat_eq_zero, true_and, Option.mem_def, exists_eq_left']
      omega

theorem Follows.shouldUcFallBack_iff (follows : Follows alive delay history self) (now : Int) :
    self.shouldUcFallBack now = true ↔ aliveAfter alive history = true ∧
      ∃ start ∈ pendingStart alive history, ∃ amount ∈ delay, start + (amount : Int) ≤ now := by
  rw [FcFlowAliveScheduler.shouldUcFallBack_iff, follows.lives, follows.timeout]
  refine and_congr_right fun _ => ?_
  cases pendingStart alive history with
  | none => simp
  | some start => cases delay <;> simp

/-- A receiver falls back just when its flow is alive and the delay has passed since it began: never within the delay
of an acknowledgment that advances, nor while nothing is sent or in flight, nor on a flow that is not alive. -/
theorem fallsBack_iff_waited (fallBackDelay : Option Nat) (start : Option Int) (events : List AliveEvent) (now : Int)
    (inOrder : InOrder events now) :
    let final := Runs.run FcFlowAliveScheduler.next (new fallBackDelay start) events
    final.fcfAlive = aliveAfter start.isSome events.reverse ∧
    (final.shouldUcFallBack now = true ↔ aliveAfter start.isSome events.reverse = true ∧
      ∃ since ∈ pendingStart start.isSome events.reverse, ∃ delay ∈ fallBackDelay, since + (delay : Int) ≤ now) ∧
    (∀ delay ∈ fallBackDelay, ∀ done lastPn at_ bytesInFlight rest,
      events = done ++ .ackReceived lastPn at_ bytesInFlight :: rest →
      Resets done.reverse (.ackReceived lastPn at_ bytesInFlight) → now < at_ + (delay : Int) →
      final.shouldUcFallBack now = false) ∧
    (∀ done event rest, events = done ++ event :: rest → Resets done.reverse event → event.foundAt = none →
      (∀ later ∈ rest, later.sentAt = none ∧ later.foundAt = none) → final.shouldUcFallBack now = false) ∧
    (aliveAfter start.isSome events.reverse = false → ∀ instant, final.fcfTimeout instant = none) := by
  intro final
  have follows : Follows start.isSome fallBackDelay events.reverse final := by
    have run := (follows_new fallBackDelay start).run events
    rwa [List.append_nil] at run
  have decides := follows.shouldUcFallBack_iff now
  refine ⟨follows.lives, decides, ?_, ?_, ?_⟩
  · intro delay set done lastPn at_ bytesInFlight rest split resets early
    rw [← Bool.not_eq_true, decides]
    rintro ⟨-, since, pending, other, set', passed⟩
    cases set.symm.trans set'
    rw [split, List.reverse_append, List.reverse_cons, List.append_assoc, List.singleton_append] at pending
    -- The events behind the acknowledgment are not earlier.
    have times := (List.pairwise_append.mp inOrder).1
    rw [split, List.filterMap_append] at times
    have behind : ∀ instant ∈ rest.filterMap time, at_ ≤ instant :=
      (List.pairwise_cons.mp (List.pairwise_append.mp times).2.1).1
    have late := le_pendingStart resets rfl (fun other member instant timed =>
      behind instant (List.mem_filterMap.mpr ⟨other, List.mem_reverse.mp member, timed⟩)) pending
    omega
  · intro done event rest split resets idle quiet
    rw [← Bool.not_eq_true, decides]
    rintro ⟨-, since, pending, -⟩
    rw [split, List.reverse_append, List.reverse_cons, List.append_assoc, List.singleton_append,
      pendingStart_eq_none resets idle fun other member => quiet other (List.mem_reverse.mp member)] at pending
    cases pending
  · intro dead instant
    unfold fcfTimeout
    rw [follows.lives, dead]
    rfl

/-- A receiver falls back when nothing was heard of a packet for as long as the delay. -/
theorem fallsBack_after_silence :
    (Runs.run FcFlowAliveScheduler.next (new (some 10) (some 0))
      [.packetSent 20, .ackReceived 3 22 false, .packetSent 25, .packetSent 30,
        .ackReceived 3 31 true]).shouldUcFallBack 35 = true :=
  (fallsBack_iff_waited (some 10) (some 0) _ 35 (by decide)).2.1.mpr ⟨by decide, 25, by decide, 10, rfl, by decide⟩

end FcFlowAliveScheduler

end Flexicast
