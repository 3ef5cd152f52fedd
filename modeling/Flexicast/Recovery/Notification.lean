import Flexicast.Recovery.Accounting

/-! Lost packets reach the controller once, while it takes them between any two passes. -/

namespace Flexicast

namespace Loss

section Passes

/-- Whether a packet was neither acknowledged nor lost. -/
def Sent.unmarked (pkt : Sent) : Bool := pkt.timeAcked.isNone && pkt.timeLost.isNone

theorem Sent.unmarked_eq (pkt : Sent) : pkt.unmarked = !(pkt.timeAcked.isSome || pkt.timeLost.isSome) := by
  simp [Sent.unmarked]

/-- The packets that a pass declares lost. -/
def LossRule.newlyLost (rule : LossRule) (packets : List Sent) : List Nat :=
  (((packets.takeWhile (·.pktNum ≤ rule.largestAcked)).filter Sent.unmarked).takeWhile rule.loses).map Sent.pktNum

/-- The packets that are lost afterwards, and were not before. -/
def newlyMarked (before after : List Sent) : List Nat :=
  ((before.zip after).filter fun pkts => pkts.1.timeLost.isNone && pkts.2.timeLost.isSome).map (·.1.pktNum)

variable {rule : LossRule} {unacked : Sent} {rest : List Sent}

theorem newlyLost_past (past : rule.largestAcked < unacked.pktNum) : rule.newlyLost (unacked :: rest) = [] := by
  have stops : ¬ unacked.pktNum ≤ rule.largestAcked := by omega
  simp [LossRule.newlyLost, stops]

theorem newlyLost_marked (within : ¬ rule.largestAcked < unacked.pktNum) (marked : unacked.unmarked = false) :
    rule.newlyLost (unacked :: rest) = rule.newlyLost rest := by
  have goesOn : unacked.pktNum ≤ rule.largestAcked := by omega
  simp [LossRule.newlyLost, goesOn, marked]

theorem newlyLost_loses (within : ¬ rule.largestAcked < unacked.pktNum) (unmarked : unacked.unmarked = true)
    (loses : rule.loses unacked = true) :
    rule.newlyLost (unacked :: rest) = unacked.pktNum :: rule.newlyLost rest := by
  have goesOn : unacked.pktNum ≤ rule.largestAcked := by omega
  simp [LossRule.newlyLost, goesOn, unmarked, loses]

theorem newlyLost_spares (within : ¬ rule.largestAcked < unacked.pktNum) (unmarked : unacked.unmarked = true)
    (spares : rule.loses unacked = false) : rule.newlyLost (unacked :: rest) = [] := by
  have goesOn : unacked.pktNum ≤ rule.largestAcked := by omega
  simp [LossRule.newlyLost, goesOn, unmarked, spares]

theorem newlyMarked_self (packets : List Sent) : newlyMarked packets packets = [] := by
  -- A packet cannot be lost and not lost at the same time.
  induction packets with
  | nil => rfl
  | cons pkt rest ih =>
    have same : (pkt.timeLost.isNone && pkt.timeLost.isSome) = false := by cases pkt.timeLost <;> rfl
    simpa [newlyMarked, same] using ih

/-- Losing a packet marks it, and pushes its number. -/
theorem losePacket_lost {isFcSource : Bool} {now : Int} {loop : LossLoop} {result : Sent × LossLoop}
    (done : losePacket isFcSource now unacked loop = some result) :
    result.1.timeLost.isSome ∧ result.2.fcNewLostPkt = loop.fcNewLostPkt.map (· ++ [unacked.pktNum]) := by
  -- The three ways through differ in the counters only; all of them set the time of the loss.
  unfold losePacket at done
  simp only at done
  split at done
  · obtain ⟨count, -, stored⟩ := Option.bind_eq_some_iff.mp done
    cases stored
    exact ⟨rfl, rfl⟩
  · split at done
    · obtain ⟨count, -, stored⟩ := Option.bind_eq_some_iff.mp done
      cases stored
      exact ⟨rfl, rfl⟩
    · cases done
      exact ⟨rfl, rfl⟩

/-- The loop marks exactly the packets that the pass declares lost, and pushes their numbers. -/
theorem lostLoop_lost (isFcSource : Bool) (rule : LossRule) :
    ∀ {packets : List Sent} {loop : LossLoop} {result : List Sent × LossLoop},
      lostLoop isFcSource rule packets loop = some result →
      newlyMarked packets result.1 = rule.newlyLost packets ∧
        result.2.fcNewLostPkt = loop.fcNewLostPkt.map (· ++ rule.newlyLost packets) := by
  -- Induction along the loop, which skips marked packets and stops at the first that it spares.
  intro packets
  induction packets with
  | nil =>
    intro loop result done
    cases done
    exact ⟨rfl, by simp [LossRule.newlyLost]⟩
  | cons unacked rest ih =>
    intro loop result done
    unfold lostLoop at done
    split at done
    -- Past the largest acknowledged packet the loop ends, and the rest is left as it is.
    case isTrue past =>
      cases done
      rw [newlyLost_past past]
      exact ⟨newlyMarked_self _, by simp⟩
    case isFalse within =>
      split at done
      case isTrue marked =>
        obtain ⟨tail, doneRest, stored⟩ := Option.bind_eq_some_iff.mp done
        cases stored
        obtain ⟨marks, pushed⟩ := ih doneRest
        have skipped : unacked.unmarked = false := by rw [Sent.unmarked_eq, marked, Bool.not_true]
        rw [newlyLost_marked within skipped]
        have same : (unacked.timeLost.isNone && unacked.timeLost.isSome) = false := by
          cases unacked.timeLost <;> rfl
        exact ⟨by simpa [newlyMarked, same] using marks, pushed⟩
      case isFalse neither =>
        have unmarked : unacked.unmarked = true := by
          rw [Sent.unmarked_eq, Bool.eq_false_iff.mpr neither, Bool.not_false]
        split at done
        case isTrue loses =>
          obtain ⟨head, doneHead, done⟩ := Option.bind_eq_some_iff.mp done
          obtain ⟨tail, doneRest, stored⟩ := Option.bind_eq_some_iff.mp done
          cases stored
          -- The number of this packet comes before those that the rest of the loop pushes.
          obtain ⟨lost, pushedHead⟩ := losePacket_lost doneHead
          obtain ⟨marks, pushed⟩ := ih doneRest
          have before : unacked.timeLost.isNone := by
            simp only [Sent.unmarked, Bool.and_eq_true] at unmarked
            exact unmarked.2
          rw [newlyLost_loses within unmarked loses]
          refine ⟨?_, ?_⟩
          · simpa [newlyMarked, before, lost] using marks
          · rw [pushed, pushedHead, Option.map_map]
            congr 1
            funext numbers
            simp
        case isFalse spares =>
          cases done
          rw [newlyLost_spares within unmarked (by simpa using spares)]
          exact ⟨newlyMarked_self _, by simp⟩

end Passes

section Vectors

/-- The controller's vector holds some lost packets, and those of the epochs are empty. -/
structure Recovery.Pending (lost : List Nat) (recovery : Recovery) : Prop where
  vector : recovery.fcRecovery.map FcRecovery.fcNewLostPn = some lost
  drained : ∀ epoch, (recovery.epochs epoch).fcNewLostPkt = some []

/-- The packets that a pass over an epoch declares lost. -/
def Recovery.newlyLost (recovery : Recovery) (epoch : Epoch) (timing : Timing) (now : Int) : List Nat :=
  ((recovery.epochs epoch).lossRule timing.lossDelay recovery.pktThresh now).newlyLost
    (recovery.epochs epoch).sentPackets

variable {recovery after : Recovery} {lost : List Nat} {epoch : Epoch} {state : RecoveryEpoch}

theorem Recovery.Pending.store (pending : Recovery.Pending lost recovery)
    (epochs : after.epochs = (recovery.setEpoch epoch state).epochs) (drained : state.fcNewLostPkt = some [])
    (vector : after.fcRecovery.map FcRecovery.fcNewLostPn = recovery.fcRecovery.map FcRecovery.fcNewLostPn) :
    Recovery.Pending lost after := by
  -- The other epochs keep the vectors that they had.
  refine ⟨vector.trans pending.vector, fun other => ?_⟩
  rw [epochs, setEpoch_epochs]
  split
  · exact drained
  · exact pending.drained other

/-- The flexicast part is there. -/
theorem Recovery.Pending.present (pending : Recovery.Pending lost recovery) : ∃ fc, recovery.fcRecovery = some fc := by
  obtain ⟨fc, held, -⟩ := Option.map_eq_some_iff.mp pending.vector
  exact ⟨fc, held⟩

/-- A pass replaces what is pending by the packets it declares lost. -/
theorem Recovery.Pending.detectLostPackets (pending : Recovery.Pending lost recovery) {timing : Timing} {now : Int}
    (done : recovery.detectLostPackets epoch timing now = some after) :
    Recovery.Pending (recovery.newlyLost epoch timing now) after := by
  unfold Recovery.detectLostPackets at done
  obtain ⟨passed, pass, done⟩ := Option.bind_eq_some_iff.mp done
  obtain ⟨bytes, -, stored⟩ := Option.bind_eq_some_iff.mp done
  unfold RecoveryEpoch.detectLostPackets at pass
  obtain ⟨result, looped, kept⟩ := Option.bind_eq_some_iff.mp pass
  obtain ⟨-, pushed⟩ := lostLoop_lost _ _ looped
  -- The vector of the epoch was empty, so it now holds exactly the packets of this pass.
  rw [pending.drained epoch] at pushed
  cases kept
  cases stored
  obtain ⟨fc, held⟩ := pending.present
  simp only [Option.map_some, List.nil_append] at pushed
  simp only [Recovery.notifyLost, held, pushed]
  refine ⟨rfl, fun other => ?_⟩
  simp only [setEpoch_epochs, RecoveryEpoch.drain]
  split
  · rfl
  · exact pending.drained other

/-- Acknowledging packets keeps what is pending. -/
theorem Recovery.Pending.markAcked (pending : Recovery.Pending lost recovery) {search : List Nat → Nat → Nat}
    {ranges : RangeSet} {rtt now : Int} {result : Recovery × AckLoop}
    (done : recovery.markAcked search ranges epoch rtt now = some result) : Recovery.Pending lost result.1 := by
  -- The acknowledgment touches packets and counters, and no vector of lost packets.
  unfold Recovery.markAcked at done
  obtain ⟨largest, -, done⟩ := Option.bind_eq_some_iff.mp done
  obtain ⟨marked, detected, stored⟩ := Option.bind_eq_some_iff.mp done
  unfold RecoveryEpoch.detectAndRemoveAckedPackets at detected
  obtain ⟨raised, -, detected⟩ := Option.bind_eq_some_iff.mp detected
  obtain ⟨looped, -, kept⟩ := Option.bind_eq_some_iff.mp detected
  cases kept
  cases stored
  refine pending.store rfl (pending.drained epoch) ?_
  simp only [Recovery.recordAcked, Option.map_map]
  rfl

theorem Recovery.Pending.settleAcked (pending : Recovery.Pending lost recovery) {ackedBytes : Nat} {timing : Timing}
    {now : Int} (done : recovery.settleAcked epoch ackedBytes timing now = some after) :
    Recovery.Pending (recovery.newlyLost epoch timing now) after := by
  -- The pass at the end of an acknowledgment is the one of loss detection.
  unfold Recovery.settleAcked at done
  obtain ⟨passed, pass, done⟩ := Option.bind_eq_some_iff.mp done
  obtain ⟨bytes, -, stored⟩ := Option.bind_eq_some_iff.mp done
  cases stored
  have kept := pending.detectLostPackets pass
  exact kept.store rfl (kept.drained epoch) rfl

theorem Recovery.Pending.markEpoch (pending : Recovery.Pending lost recovery) (epoch : Epoch) :
    Recovery.Pending lost (recovery.markEpoch epoch) := by
  -- Bulk marking pushes no number, whichever packets it marks.
  unfold Recovery.markEpoch Recovery.storeMarked
  simp only
  split
  · split <;> exact pending.store rfl (pending.drained epoch) rfl
  · exact pending.store rfl (pending.drained epoch) rfl

/-- Recording packets keeps what is pending. -/
theorem Recovery.Pending.record (pending : Recovery.Pending lost recovery) (now : Int) (packets : List Sent) :
    Recovery.Pending lost
      (packets.foldl (fun recovery pkt => recovery.onPacketSent pkt .application now) recovery) := by
  induction packets generalizing recovery with
  | nil => exact pending
  | cons pkt rest ih => exact ih (pending.store rfl (pending.drained .application) rfl)

end Vectors

section Delivering

/-- A pass over an epoch that is about to run. -/
structure Pass where
  recovery : Recovery
  epoch : Epoch
  timing : Timing
  now : Int

/-- The packets that a pass declares lost. -/
def Pass.lost (pass : Pass) : List Nat := pass.recovery.newlyLost pass.epoch pass.timing pass.now

/-- The pass that an event runs, if it runs one. -/
def Event.pass? (search : List Nat → Nat → Nat) (recovery : Recovery) : Event → Option Pass
  | .acked ranges epoch before after now =>
    match recovery.markAcked search ranges.1 epoch before.rtt now with
    -- An acknowledgment that brings nothing new runs no pass.
    | some (marked, loop) => if loop.newlyAcked.isEmpty then none else some ⟨marked, epoch, after, now⟩
    | none => none
  | .lossDetection epoch timing now => some ⟨recovery, epoch, timing, now⟩
  | .timeout _ timing now =>
    if recovery.lossTimeAndSpace.1.isSome then some ⟨recovery, recovery.lossTimeAndSpace.2, timing, now⟩
    else none
  | _ => none

/-- The packets of the application epoch that are neither acknowledged nor lost. -/
def Recovery.unmarked (recovery : Recovery) : List Nat :=
  ((recovery.epochs .application).sentPackets.filter Sent.unmarked).map Sent.pktNum

/-- The packets of the application epoch that an event declares lost. -/
def Event.declares (search : List Nat → Nat → Nat) (recovery : Recovery) : Event → List Nat
  | .markedAll => recovery.unmarked
  | event =>
    match event.pass? search recovery with
    | some pass => if pass.epoch = .application then pass.lost else []
    | none => []

/-- A connection with the packets that were declared lost, and those that the controller was given. -/
structure Controller where
  connection : Connection
  declared : List Nat
  delivered : List Nat

/-- What happens to a connection and its controller. -/
inductive Controller.Event where
  | recovery (event : Loss.Event)
  /-- The controller takes the packets that are newly lost. -/
  | take

namespace Controller

/-- The packets that wait for the controller. -/
def pending (self : Controller) : List Nat :=
  ((self.connection.recovery.fcRecovery.map FcRecovery.fcNewLostPn).getD [])

/-- One event; no result means that the program panics. -/
def step? (search : List Nat → Nat → Nat) (self : Controller) : Controller.Event → Option Controller
  | .recovery event =>
    (self.connection.step? search event).map fun connection =>
      { self with
        connection := connection
        declared := self.declared ++ event.declares search self.connection.recovery }
  | .take => some { self with
      connection := { self.connection with
        recovery := { self.connection.recovery with
          fcRecovery := self.connection.recovery.fcRecovery.map fun fc => { fc with fcNewLostPn := [] } } }
      delivered := self.delivered ++ self.pending }

/-- One event, after which there is no state once the program has panicked. -/
def next (search : List Nat → Nat → Nat) (state : Option Controller) (event : Controller.Event) :
    Option Controller :=
  state.bind fun self => self.step? search event

/-- A new path of a unicast server. -/
def new (flexicast : Option FcState) : Controller := ⟨Connection.new flexicast (.serverUnicast ()) false, [], []⟩

/-- Every packet declared lost was delivered once, or waits for the controller. -/
def Delivers (self : Controller) : Prop := self.delivered ++ self.pending = self.declared

instance (self : Controller) : Decidable self.Delivers := inferInstanceAs (Decidable (_ = _))

/-- Passes run after the controller has taken what was lost, and no other loss goes unnoticed. -/
def Timely (search : List Nat → Nat → Nat) : Option Controller → Controller.Event → Prop
  -- A pass overwrites the vector, and bulk marking never fills it.
  | some self, .recovery event =>
    (event = .markedAll → self.connection.recovery.unmarked = []) ∧
    ∀ pass ∈ event.pass? search self.connection.recovery,
      self.pending = [] ∧ (pass.epoch ≠ .application → pass.lost = [])
  | _, _ => True

end Controller

variable {lost : List Nat}

/-- What an event leaves pending: the packets of its pass, or what was pending before. -/
theorem Connection.step_pending {search : List Nat → Nat → Nat} {self after : Connection} {event : Event}
    (pending : Recovery.Pending lost self.recovery) (done : self.step? search event = some after) :
    match event.pass? search self.recovery with
    | some pass => Recovery.Pending pass.lost after.recovery
    | none => Recovery.Pending lost after.recovery := by
  -- One case for each event: three of them run a pass, and the others leave the vectors alone.
  cases event with
  | sent pkt epoch now =>
    cases done
    exact pending.store rfl (pending.drained epoch) rfl
  | acked ranges epoch before timing now =>
    obtain ⟨result, received, stored⟩ := Option.map_eq_some_iff.mp done
    cases stored
    unfold Recovery.onAckReceived at received
    obtain ⟨marked, acked, received⟩ := Option.bind_eq_some_iff.mp received
    have kept := pending.markAcked acked
    simp only [Event.pass?, acked]
    -- Without a newly acknowledged packet the call returns before its pass.
    cases newly : marked.2.newlyAcked.isEmpty with
    | true =>
      simp only [newly, if_true] at received ⊢
      cases received
      exact kept
    | false =>
      simp only [newly, Bool.false_eq_true, if_false] at received ⊢
      exact kept.settleAcked received
  | lossDetection epoch timing now =>
    obtain ⟨result, passed, stored⟩ := Option.map_eq_some_iff.mp done
    cases stored
    exact pending.detectLostPackets passed
  | timeout status timing now =>
    obtain ⟨result, ran, stored⟩ := Option.map_eq_some_iff.mp done
    cases stored
    unfold Recovery.onLossDetectionTimeout at ran
    simp only [Event.pass?]
    simp only at ran
    -- With a loss time set the timeout runs a pass, and otherwise it only counts the timeout.
    split at ran
    case isTrue byTime =>
      rw [if_pos byTime]
      exact pending.detectLostPackets ran
    case isFalse unlost =>
      rw [if_neg unlost]
      cases ran
      exact pending.store rfl (pending.drained _) rfl
  | discarded epoch =>
    obtain ⟨result, ran, stored⟩ := Option.map_eq_some_iff.mp done
    cases stored
    unfold Recovery.onPktNumSpaceDiscarded at ran
    obtain ⟨bytes, -, stored⟩ := Option.bind_eq_some_iff.mp ran
    cases stored
    exact pending.store rfl (pending.drained epoch) rfl
  | markedAll =>
    cases done
    exact ((pending.markEpoch .initial).markEpoch .handshake).markEpoch .application
  | copied fcId packets now =>
    cases done
    change Recovery.Pending lost (self.fcOnNewPktSent fcId packets now).1.recovery
    rw [fcOnNewPktSent_recovery]
    split
    · exact pending.record now _
    · exact pending
  | changed flexicast =>
    cases done
    exact pending
  | initialised role =>
    -- The flexicast part is there from the start.
    obtain ⟨fc, present⟩ := pending.present
    simp only [Connection.step?, present, Option.isNone_some, Bool.false_eq_true, if_false] at done
    cases done
    exact pending

namespace Controller

variable {search : List Nat → Nat → Nat} {self after : Controller}

/-- What every timely event keeps. -/
structure Settled (state : Controller) : Prop where
  pending : Recovery.Pending state.pending state.connection.recovery
  delivers : state.Delivers

/-- The controller takes everything that is pending. -/
theorem Settled.take (settled : Settled self) (search : List Nat → Nat → Nat)
    (done : self.step? search .take = some after) : Settled after := by
  -- What was pending moves to the end of what was delivered, and the vector is emptied.
  cases done
  obtain ⟨fc, present⟩ := settled.pending.present
  refine ⟨⟨?_, settled.pending.drained⟩, ?_⟩
  · simp [Controller.pending, present]
  · simpa [Delivers, Controller.pending, present] using settled.delivers

/-- A timely event leaves pending exactly what it declares lost, or what was pending before. -/
theorem Settled.recovery (settled : Settled self) {event : Loss.Event}
    (timely : Timely search (some self) (.recovery event))
    (done : self.step? search (.recovery event) = some after) : Settled after := by
  obtain ⟨connection, stepped, stored⟩ := Option.map_eq_some_iff.mp done
  obtain ⟨bulk, taken⟩ := timely
  have left := Connection.step_pending settled.pending stepped
  subst stored
  have delivers := settled.delivers
  cases passes : event.pass? search self.connection.recovery with
  | none =>
    -- Only marking in bulk declares packets lost without a pass.
    simp only [passes] at left
    have nothing : event.declares search self.connection.recovery = [] := by
      cases event with
      | markedAll => exact bulk rfl
      | _ => simp only [Event.declares, passes]
    have same : Controller.pending { self with
        connection := connection
        declared := self.declared ++ event.declares search self.connection.recovery } = self.pending := by
      simp only [Controller.pending, left.vector, Option.getD_some]
    refine ⟨same.symm ▸ left, ?_⟩
    unfold Delivers at delivers ⊢
    rw [same, nothing, List.append_nil]
    exact delivers
  | some pass =>
    -- The vector was taken before this pass, so overwriting it drops nothing.
    obtain ⟨emptied, application⟩ := taken pass passes
    simp only [passes] at left
    have declares : event.declares search self.connection.recovery = pass.lost := by
      cases event with
      | markedAll => exact nomatch passes
      | _ =>
        simp only [Event.declares, passes]
        split
        · rfl
        · exact (application ‹_›).symm
    have now : Controller.pending { self with
        connection := connection
        declared := self.declared ++ event.declares search self.connection.recovery } = pass.lost := by
      simp only [Controller.pending, left.vector, Option.getD_some]
    refine ⟨now.symm ▸ left, ?_⟩
    unfold Delivers at delivers ⊢
    rw [emptied, List.append_nil] at delivers
    rw [now, declares, delivers]

/-- In every timely run each packet that is declared lost is delivered once, or still waits. -/
theorem lost_delivered_once (search : List Nat → Nat → Nat) (flexicast : Option FcState)
    (events : List Controller.Event)
    (timely : Runs.Along (next search) (Timely search) (some (new flexicast)) events) {final : Controller}
    (reached : Runs.run (next search) (some (new flexicast)) events = some final) : final.Delivers := by
  -- A run that has panicked has no state, so the invariant speaks of the states that there are.
  have step : ∀ state event, (∀ self, state = some self → Settled self) → Timely search state event →
      ∀ after, next search state event = some after → Settled after := by
    intro state event settled ok after done
    cases state with
    | none => exact nomatch done
    | some self =>
      cases event with
      | recovery event => exact (settled self rfl).recovery ok done
      | take => exact (settled self rfl).take search done
  have start : ∀ self, some (new flexicast) = some self → Settled self := by
    intro self same
    cases same
    exact ⟨⟨rfl, fun _ => rfl⟩, rfl⟩
  exact (timely.keeps step start final reached).delivers

instance (search : List Nat → Nat → Nat) :
    (state : Option Controller) → (event : Controller.Event) → Decidable (Timely search state event)
  | some self, .recovery event =>
    have : Decidable (event = .markedAll → self.connection.recovery.unmarked = []) :=
      match event with
      | .markedAll => decidable_of_iff (self.connection.recovery.unmarked = []) ⟨fun all _ => all, fun all => all rfl⟩
      | .sent .. | .acked .. | .lossDetection .. | .timeout .. | .discarded .. | .copied .. | .changed ..
      | .initialised .. => isTrue (fun same => nomatch same)
    inferInstanceAs (Decidable (_ ∧ ∀ pass ∈ event.pass? search self.connection.recovery,
      self.pending = [] ∧ (pass.epoch ≠ .application → pass.lost = [])))
  | some _, .take => isTrue trivial
  | none, _ => isTrue trivial

/-- Ten packets are sent, and two acknowledgments make a pass each. -/
def twoPasses (between : List Controller.Event) : List Controller.Event :=
  (List.range 10).map (fun pktNum => .recovery (.sent (flightPacket pktNum) .application pktNum)) ++
    [.recovery (.acked (ackOf 4) .application secondTiming secondTiming 20)] ++ between ++
    [.recovery (.acked (ackOf 9) .application secondTiming secondTiming 30)]

theorem lost_delivered_once_twoPasses :
    (Runs.run (next firstAtLeast) (some (new none)) (twoPasses [.take])).map (fun final =>
        (final.declared, final.delivered, final.pending)) = some ([0, 1, 2, 3, 5, 6], [0, 1], [2, 3, 5, 6]) ∧
      ∀ final, Runs.run (next firstAtLeast) (some (new none)) (twoPasses [.take]) = some final → final.Delivers := by
  have timely : Runs.Along (next firstAtLeast) (Timely firstAtLeast) (some (new none)) (twoPasses [.take]) := by
    decide
  refine ⟨by decide, fun final reached => ?_⟩
  exact lost_delivered_once firstAtLeast none (twoPasses [.take]) timely reached

/-- A second pass before the controller has taken the packets of the first one drops them. -/
theorem second_pass_drops_first :
    ¬ ∀ (search : List Nat → Nat → Nat) (flexicast : Option FcState) (events : List Controller.Event)
      (final : Controller), Runs.run (next search) (some (new flexicast)) events = some final → final.Delivers := by
  -- The second acknowledgment overwrites the vector that the first one filled.
  intro always
  cases ran : Runs.run (next firstAtLeast) (some (new none)) (twoPasses []) with
  | none =>
    have ends : (Runs.run (next firstAtLeast) (some (new none)) (twoPasses [])).isSome = true := by decide
    rw [ran] at ends
    exact nomatch ends
  | some final =>
    have delivers := always firstAtLeast none (twoPasses []) final ran
    have short : (Runs.run (next firstAtLeast) (some (new none)) (twoPasses [])).map (fun final =>
        decide final.Delivers) = some false := by decide
    rw [ran, Option.map_some, decide_eq_true delivers] at short
    exact nomatch short

end Controller

end Delivering

end Loss

end Flexicast
