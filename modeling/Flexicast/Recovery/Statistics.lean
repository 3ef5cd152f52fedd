import Flexicast.Recovery.Detection

/-! The loss statistics of a recovery, against the packets that were declared lost. -/

namespace Flexicast

namespace Loss

section Tallies

/-- The packets that a pass loses: those before the first one that it spares. -/
def LossRule.doomed (rule : LossRule) (packets : List Sent) : List Sent :=
  ((packets.takeWhile (·.pktNum ≤ rule.largestAcked)).filter Sent.unmarked).takeWhile rule.loses

/-- The packets that are lost afterwards, and were not before. -/
def declared (before after : List Sent) : List Sent :=
  ((before.zip after).filter fun pkts => pkts.1.timeLost.isNone && pkts.2.timeLost.isSome).map (·.1)

/-- The epoch of a pass. -/
def Pass.state (pass : Pass) : RecoveryEpoch := pass.recovery.epochs pass.epoch

/-- The rule of a pass. -/
def Pass.rule (pass : Pass) : LossRule :=
  pass.state.lossRule pass.timing.lossDelay pass.recovery.pktThresh pass.now

/-- How many packets a pass counts as lost, and those that it declares lost. -/
def Pass.losses (pass : Pass) : Option (Nat × List Sent) :=
  (pass.state.detectLostPackets pass.timing.lossDelay pass.recovery.pktThresh pass.now).map fun result =>
    (result.2.lostPackets, declared pass.state.sentPackets result.1.sentPackets)

/-- All packets in the queues. -/
def Recovery.queued (self : Recovery) : List Sent :=
  (self.epochs .initial).sentPackets ++ (self.epochs .handshake).sentPackets ++
    (self.epochs .application).sentPackets

/-- How many packets bulk marking counts as lost. -/
def markCount (packets : List Sent) : Nat :=
  packets.foldl (fun lostPackets sent => if sent.timeAcked.isNone then lostPackets + 1 else lostPackets) 0

/-- How many packets an event counts as lost, and those that it declares lost for the first time. -/
def Recovery.losses (search : List Nat → Nat → Nat) (self : Recovery) : Event → Nat × List Sent
  | .markedAll => (markCount self.queued, self.queued.filter Sent.unmarked)
  | event => ((event.pass? search self).bind Pass.losses).getD (0, [])

/-- A connection, its count of lost packets, and the packets that were ever declared lost. -/
structure Tally where
  connection : Connection
  /-- The counter of the congestion controller. -/
  lostCount : Nat
  /-- Every packet once; the source does not keep this. -/
  lost : List Sent

/-- The tally of a new connection. -/
def Tally.new (flexicast : Option FcState) (role : McRole) (isFcSource : Bool) : Tally :=
  ⟨Connection.new flexicast role isFcSource, 0, []⟩

/-- One event; no result means that the program panics. -/
def Tally.step? (search : List Nat → Nat → Nat) (self : Tally) (event : Event) : Option Tally :=
  (self.connection.step? search event).map fun connection =>
    ⟨connection, self.lostCount + (self.connection.recovery.losses search event).1,
      self.lost ++ (self.connection.recovery.losses search event).2⟩

/-- One event, after which there is no state once the program has panicked. -/
def Tally.next (search : List Nat → Nat → Nat) (state : Option Tally) (event : Event) : Option Tally :=
  state.bind fun self => self.step? search event

/-- The bytes of the packets that were in flight, without probes. -/
def lostBytesOf (packets : List Sent) : Nat :=
  ((packets.filter fun pkt => pkt.inFlight && !pkt.pmtud).map Sent.size).sum

/-- The number of packets, without probes. -/
def lostCountOf (packets : List Sent) : Nat := (packets.filter fun pkt => !pkt.pmtud).length

/-- The statistics say what was lost. -/
structure Tally.Exact (tally : Tally) : Prop where
  bytes : tally.connection.recovery.bytesLost = lostBytesOf tally.lost
  count : tally.lostCount = lostCountOf tally.lost

/-- A pass loses no bytes that are to be counted, and packets are marked as lost in bulk only while none of them was
lost before or is a probe. -/
def Event.Tallied (search : List Nat → Nat → Nat) : Option Tally → Event → Prop
  | some self, .markedAll =>
    ∀ pkt ∈ self.connection.recovery.queued, pkt.timeAcked = none → pkt.timeLost = none ∧ pkt.pmtud = false
  | some self, event =>
    (self.connection.step? search event).isSome = true →
      ∀ pass, event.pass? search self.connection.recovery = some pass →
        ∀ pkt ∈ pass.rule.doomed pass.state.sentPackets, pkt.inFlight = true → pkt.pmtud = false → pkt.size = 0
  | none, _ => True

@[simp] theorem lostBytesOf_append (front back : List Sent) :
    lostBytesOf (front ++ back) = lostBytesOf front + lostBytesOf back := by
  simp [lostBytesOf]

@[simp] theorem lostCountOf_append (front back : List Sent) :
    lostCountOf (front ++ back) = lostCountOf front + lostCountOf back := by
  simp [lostCountOf]

end Tallies

section Passes

variable {rule : LossRule} {unacked : Sent} {rest : List Sent}

theorem doomed_past (past : rule.largestAcked < unacked.pktNum) : rule.doomed (unacked :: rest) = [] := by
  have stops : ¬ unacked.pktNum ≤ rule.largestAcked := by omega
  simp [LossRule.doomed, stops]

theorem doomed_marked (within : ¬ rule.largestAcked < unacked.pktNum) (marked : unacked.unmarked = false) :
    rule.doomed (unacked :: rest) = rule.doomed rest := by
  have goesOn : unacked.pktNum ≤ rule.largestAcked := by omega
  simp [LossRule.doomed, goesOn, marked]

theorem doomed_loses (within : ¬ rule.largestAcked < unacked.pktNum) (unmarked : unacked.unmarked = true)
    (loses : rule.loses unacked = true) : rule.doomed (unacked :: rest) = unacked :: rule.doomed rest := by
  have goesOn : unacked.pktNum ≤ rule.largestAcked := by omega
  simp [LossRule.doomed, goesOn, unmarked, loses]

theorem doomed_spares (within : ¬ rule.largestAcked < unacked.pktNum) (unmarked : unacked.unmarked = true)
    (spares : rule.loses unacked = false) : rule.doomed (unacked :: rest) = [] := by
  have goesOn : unacked.pktNum ≤ rule.largestAcked := by omega
  simp [LossRule.doomed, goesOn, unmarked, spares]

theorem declared_self (packets : List Sent) : declared packets packets = [] := by
  induction packets with
  | nil => rfl
  | cons pkt rest ih =>
    have same : (pkt.timeLost.isNone && pkt.timeLost.isSome) = false := by cases pkt.timeLost <;> rfl
    simpa [declared, same] using ih

/-- The loop declares lost just the packets before the first one that it spares, and counts those that are no probes. -/
theorem lostLoop_declares (isFcSource : Bool) :
    ∀ {packets : List Sent} {loop : LossLoop} {result : List Sent × LossLoop},
      lostLoop isFcSource rule packets loop = some result →
      declared packets result.1 = rule.doomed packets ∧
        result.2.lostPackets = loop.lostPackets + lostCountOf (rule.doomed packets) := by
  intro packets
  induction packets with
  | nil =>
    intro loop result done
    cases done
    exact ⟨rfl, rfl⟩
  | cons unacked rest ih =>
    intro loop result done
    unfold lostLoop at done
    split at done
    case isTrue past =>
      cases done
      rw [doomed_past past]
      exact ⟨declared_self _, rfl⟩
    case isFalse within =>
      split at done
      case isTrue marked =>
        obtain ⟨tail, doneRest, stored⟩ := Option.bind_eq_some_iff.mp done
        cases stored
        obtain ⟨declares, counts⟩ := ih doneRest
        rw [doomed_marked within (by rw [Sent.unmarked_eq, marked]; rfl)]
        have same : (unacked.timeLost.isNone && unacked.timeLost.isSome) = false := by
          cases unacked.timeLost <;> rfl
        exact ⟨by simpa [declared, same] using declares, counts⟩
      case isFalse neither =>
        have unmarked : unacked.unmarked = true := by
          rw [Sent.unmarked_eq, Bool.eq_false_iff.mpr neither, Bool.not_false]
        split at done
        case isTrue loses =>
          obtain ⟨head, doneHead, done⟩ := Option.bind_eq_some_iff.mp done
          obtain ⟨tail, doneRest, stored⟩ := Option.bind_eq_some_iff.mp done
          cases stored
          obtain ⟨declares, counts⟩ := ih doneRest
          obtain ⟨lose, -, -, counted⟩ := losePacket_eq doneHead
          have before : unacked.timeLost.isNone = true := by
            simp only [Sent.unmarked, Bool.and_eq_true] at unmarked
            exact unmarked.2
          rw [doomed_loses within unmarked loses]
          refine ⟨?_, ?_⟩
          · simpa [declared, before, lose, Sent.lose] using declares
          · rw [counts, counted]
            cases probe : unacked.pmtud <;> simp [lostCountOf, probe]
            omega
        case isFalse spares =>
          cases done
          rw [doomed_spares within unmarked (Bool.eq_false_iff.mpr spares)]
          exact ⟨declared_self _, rfl⟩

theorem Pass.losses_eq {pass : Pass} {losses : Nat × List Sent} (done : pass.losses = some losses) :
    losses.2 = pass.rule.doomed pass.state.sentPackets ∧ losses.1 = lostCountOf losses.2 := by
  obtain ⟨result, detected, rfl⟩ := Option.map_eq_some_iff.mp done
  unfold RecoveryEpoch.detectLostPackets at detected
  obtain ⟨marked, looped, stored⟩ := Option.bind_eq_some_iff.mp detected
  cases stored
  obtain ⟨declares, counts⟩ := lostLoop_declares _ looped
  refine ⟨declares, ?_⟩
  simp only at counts ⊢
  rw [counts, declares, Nat.zero_add]

end Passes

section Bytes

variable {recovery after : Recovery} {epoch : Epoch} {search : List Nat → Nat → Nat}

theorem detectLostPackets_bytesLost {timing : Timing} {now : Int}
    (done : recovery.detectLostPackets epoch timing now = some after) :
    after.bytesLost = recovery.bytesLost ∧ (Pass.losses ⟨recovery, epoch, timing, now⟩).isSome = true := by
  unfold Recovery.detectLostPackets at done
  obtain ⟨passed, pass, done⟩ := Option.bind_eq_some_iff.mp done
  obtain ⟨bytes, -, stored⟩ := Option.bind_eq_some_iff.mp done
  cases stored
  refine ⟨?_, ?_⟩
  · show (recovery.notifyLost epoch passed.1).bytesLost = recovery.bytesLost
    unfold Recovery.notifyLost
    split <;> rfl
  · simp only [Pass.losses, Pass.state, pass, Option.map_some, Option.isSome_some]

theorem markAcked_bytesLost {ranges : RangeSet} {rtt now : Int} {result : Recovery × AckLoop}
    (done : recovery.markAcked search ranges epoch rtt now = some result) :
    result.1.bytesLost = recovery.bytesLost := by
  unfold Recovery.markAcked at done
  obtain ⟨largest, -, done⟩ := Option.bind_eq_some_iff.mp done
  obtain ⟨marked, -, stored⟩ := Option.bind_eq_some_iff.mp done
  cases stored
  rfl

theorem settleAcked_bytesLost {ackedBytes : Nat} {timing : Timing} {now : Int}
    (done : recovery.settleAcked epoch ackedBytes timing now = some after) :
    after.bytesLost = recovery.bytesLost ∧ (Pass.losses ⟨recovery, epoch, timing, now⟩).isSome = true := by
  unfold Recovery.settleAcked at done
  obtain ⟨passed, pass, done⟩ := Option.bind_eq_some_iff.mp done
  obtain ⟨bytes, -, stored⟩ := Option.bind_eq_some_iff.mp done
  cases stored
  obtain ⟨same, ends⟩ := detectLostPackets_bytesLost pass
  exact ⟨same, ends⟩

theorem record_bytesLost (packets : List Sent) (now : Int) (recovery : Recovery) :
    (packets.foldl (fun recovery pkt => recovery.onPacketSent pkt .application now) recovery).bytesLost =
      recovery.bytesLost := by
  induction packets generalizing recovery with
  | nil => rfl
  | cons pkt rest ih => exact ih _

/-- Only bulk marking adds to the bytes that were lost, and the pass of an event that succeeds ends. -/
theorem Connection.step_bytesLost {self after : Connection} {event : Event}
    (done : self.step? search event = some after) (other : event ≠ .markedAll) :
    after.recovery.bytesLost = self.recovery.bytesLost ∧
      ∀ pass, event.pass? search self.recovery = some pass → pass.losses.isSome = true := by
  have nothing {made : Option Pass} (none_ : made = none) :
      ∀ pass, made = some pass → pass.losses.isSome = true := by
    intro pass some_
    rw [none_] at some_
    cases some_
  -- One case for each event; three of them run a pass.
  cases event with
  | sent pkt epoch now =>
    cases done
    exact ⟨rfl, nothing rfl⟩
  | acked ranges epoch before timing now =>
    obtain ⟨result, received, stored⟩ := Option.map_eq_some_iff.mp done
    cases stored
    unfold Recovery.onAckReceived at received
    obtain ⟨marked, acked, received⟩ := Option.bind_eq_some_iff.mp received
    have kept := markAcked_bytesLost acked
    simp only [Event.pass?, acked]
    cases newly : marked.2.newlyAcked.isEmpty with
    | true =>
      simp only [newly, if_true] at received ⊢
      cases received
      exact ⟨kept, nothing rfl⟩
    | false =>
      simp only [newly, Bool.false_eq_true, if_false] at received ⊢
      obtain ⟨same, ends⟩ := settleAcked_bytesLost received
      refine ⟨same.trans kept, fun pass made => ?_⟩
      cases made
      exact ends
  | lossDetection epoch timing now =>
    obtain ⟨result, passed, stored⟩ := Option.map_eq_some_iff.mp done
    cases stored
    obtain ⟨same, ends⟩ := detectLostPackets_bytesLost passed
    refine ⟨same, fun pass made => ?_⟩
    cases made
    exact ends
  | timeout status timing now =>
    obtain ⟨result, ran, stored⟩ := Option.map_eq_some_iff.mp done
    cases stored
    unfold Recovery.onLossDetectionTimeout at ran
    simp only [Event.pass?]
    simp only at ran
    split at ran
    case isTrue byTime =>
      obtain ⟨same, ends⟩ := detectLostPackets_bytesLost ran
      rw [if_pos byTime]
      refine ⟨same, fun pass made => ?_⟩
      cases made
      exact ends
    case isFalse unlost =>
      rw [if_neg unlost]
      cases ran
      exact ⟨rfl, nothing rfl⟩
  | discarded epoch =>
    obtain ⟨result, ran, stored⟩ := Option.map_eq_some_iff.mp done
    cases stored
    unfold Recovery.onPktNumSpaceDiscarded at ran
    obtain ⟨bytes, -, stored⟩ := Option.bind_eq_some_iff.mp ran
    cases stored
    exact ⟨rfl, nothing rfl⟩
  | markedAll => exact absurd rfl other
  | copied fcId packets now =>
    cases done
    refine ⟨?_, nothing rfl⟩
    rw [fcOnNewPktSent_recovery]
    split
    · exact record_bytesLost _ now _
    · rfl
  | changed flexicast =>
    cases done
    exact ⟨rfl, nothing rfl⟩
  | initialised role =>
    refine ⟨?_, nothing rfl⟩
    simp only [Connection.step?] at done
    split at done
    · cases done
      cases role <;> rfl
    · cases done
      rfl

end Bytes

section Bulk

/-- The bytes that bulk marking counts as lost. -/
def markBytes (packets : List Sent) : Nat :=
  ((packets.filter fun pkt => pkt.timeAcked.isNone && pkt.inFlight).map Sent.size).sum

@[simp] theorem markBytes_append (front back : List Sent) :
    markBytes (front ++ back) = markBytes front + markBytes back := by
  simp [markBytes]

theorem foldl_markPacket_bytes (packets : List Sent) (loop : MarkLoop) :
    (packets.foldl markPacket loop).epochLostBytes = loop.epochLostBytes + markBytes packets := by
  induction packets generalizing loop with
  | nil => rfl
  | cons pkt rest ih =>
    rw [List.foldl_cons, ih]
    unfold markPacket
    -- Only a packet in flight that was not acknowledged adds its size.
    cases acked : pkt.timeAcked <;> cases flies : pkt.inFlight <;> simp [markBytes, acked, flies, Nat.add_assoc]

theorem markEpoch_bytesLost (recovery : Recovery) (epoch : Epoch) :
    (recovery.markEpoch epoch).bytesLost =
      recovery.bytesLost + markBytes (recovery.epochs epoch).sentPackets := by
  have counted := foldl_markPacket_bytes (recovery.epochs epoch).sentPackets
    ⟨(recovery.epochs epoch).inFlightCount, 0, (recovery.epochs epoch).lostFrames, false, false⟩
  rw [Nat.zero_add] at counted
  rw [← counted]
  unfold Recovery.markEpoch Recovery.storeMarked
  simp only
  split
  · split <;> rfl
  · rfl

theorem markAllInflightAsLost_bytesLost (recovery : Recovery) :
    recovery.markAllInflightAsLost.bytesLost = recovery.bytesLost + markBytes recovery.queued := by
  have others : ∀ {recovery : Recovery} {epoch other : Epoch}, other ≠ epoch →
      ((recovery.markEpoch epoch).epochs other).sentPackets = (recovery.epochs other).sentPackets :=
    fun apart => congrArg RecoveryEpoch.sentPackets (markEpoch_other _ apart)
  simp only [Recovery.markAllInflightAsLost, List.foldl_cons, List.foldl_nil, markEpoch_bytesLost, Recovery.queued,
    markBytes_append]
  rw [others (by decide), others (by decide), others (by decide)]
  simp only [Nat.add_assoc]

theorem foldl_count (packets : List Sent) (count : Nat) :
    packets.foldl (fun lostPackets sent => if sent.timeAcked.isNone then lostPackets + 1 else lostPackets) count =
      count + (packets.filter fun pkt => pkt.timeAcked.isNone).length := by
  induction packets generalizing count with
  | nil => rfl
  | cons pkt rest ih =>
    rw [List.foldl_cons, ih]
    cases acked : pkt.timeAcked <;> simp [acked]
    omega

/-- Bulk marking counts what it should just when it meets no packet that was lost before and no probe. -/
theorem bulk_iff (packets : List Sent) :
    (markBytes packets = lostBytesOf (packets.filter Sent.unmarked) ∧
        markCount packets = lostCountOf (packets.filter Sent.unmarked)) ↔
      ∀ pkt ∈ packets, pkt.timeAcked = none → pkt.timeLost = none ∧ pkt.pmtud = false := by
  have counted : markCount packets = (packets.filter fun pkt => pkt.timeAcked.isNone).length := by
    rw [markCount, foldl_count, Nat.zero_add]
  have kept : lostCountOf (packets.filter Sent.unmarked) =
      ((packets.filter fun pkt => pkt.timeAcked.isNone).filter fun pkt =>
        pkt.timeLost.isNone && !pkt.pmtud).length := by
    simp only [lostCountOf, List.filter_filter, Sent.unmarked]
    congr 2
    funext pkt
    cases pkt.timeAcked <;> cases pkt.timeLost <;> cases pkt.pmtud <;> rfl
  constructor
  · rintro ⟨-, count⟩ pkt member unacked
    rw [counted, kept, eq_comm, List.length_filter_eq_length_iff] at count
    have good := count pkt (List.mem_filter.mpr ⟨member, by rw [unacked]; rfl⟩)
    simpa using good
  · intro good
    refine ⟨?_, ?_⟩
    · simp only [markBytes, lostBytesOf, List.filter_filter]
      congr 2
      refine List.filter_congr fun pkt member => ?_
      cases acked : pkt.timeAcked with
      | some time => simp [Sent.unmarked, acked]
      | none =>
        obtain ⟨unlost, plain⟩ := good pkt member acked
        simp [Sent.unmarked, acked, unlost, plain]
    · rw [counted, kept, eq_comm, List.length_filter_eq_length_iff]
      intro pkt member
      obtain ⟨inside, unacked⟩ := List.mem_filter.mp member
      obtain ⟨unlost, plain⟩ := good pkt inside (Option.isNone_iff_eq_none.mp unacked)
      simp [unlost, plain]

end Bulk

section Tallying

variable {search : List Nat → Nat → Nat} {self after : Tally} {event : Event}

theorem Tally.Exact.add_iff (exact : self.Exact) {connection : Connection} {bytes count : Nat} {lost : List Sent}
    (added : connection.recovery.bytesLost = self.connection.recovery.bytesLost + bytes) :
    (Tally.mk connection (self.lostCount + count) (self.lost ++ lost)).Exact ↔
      bytes = lostBytesOf lost ∧ count = lostCountOf lost := by
  have bytesBefore := exact.bytes
  have countBefore := exact.count
  constructor
  · rintro ⟨bytesAfter, countAfter⟩
    simp only [lostBytesOf_append, lostCountOf_append] at bytesAfter countAfter
    omega
  · rintro ⟨sameBytes, sameCount⟩
    refine ⟨?_, ?_⟩
    · rw [lostBytesOf_append, added, bytesBefore, sameBytes]
    · simp only [lostCountOf_append, countBefore, sameCount]

theorem lostBytesOf_eq_zero {packets : List Sent} :
    lostBytesOf packets = 0 ↔ ∀ pkt ∈ packets, pkt.inFlight = true → pkt.pmtud = false → pkt.size = 0 := by
  simp only [lostBytesOf, List.sum_eq_zero_iff_forall_eq_nat, List.mem_map, List.mem_filter, Bool.and_eq_true,
    Bool.not_eq_true', forall_exists_index, and_imp]
  constructor
  · intro all pkt member flies plain
    exact all _ pkt member flies plain rfl
  · rintro all _ pkt member flies plain rfl
    exact all pkt member flies plain

theorem Tally.Exact.pass_iff (exact : self.Exact) (done : self.step? search event = some after)
    (other : event ≠ .markedAll)
    (losses : self.connection.recovery.losses search event =
      ((event.pass? search self.connection.recovery).bind Pass.losses).getD (0, [])) :
    after.Exact ↔ ∀ pass, event.pass? search self.connection.recovery = some pass →
      ∀ pkt ∈ pass.rule.doomed pass.state.sentPackets, pkt.inFlight = true → pkt.pmtud = false → pkt.size = 0 := by
  obtain ⟨connection, stepped, rfl⟩ := Option.map_eq_some_iff.mp done
  obtain ⟨same, ends⟩ := Connection.step_bytesLost stepped other
  have none_added : connection.recovery.bytesLost = self.connection.recovery.bytesLost + 0 := same
  rw [exact.add_iff none_added, losses]
  cases made : event.pass? search self.connection.recovery with
  | none => simp [lostBytesOf, lostCountOf]
  | some pass =>
    obtain ⟨result, lost⟩ := Option.isSome_iff_exists.mp (ends pass made)
    obtain ⟨doomed, counted⟩ := Pass.losses_eq lost
    -- The number is always right; the bytes are never added.
    simp only [Option.bind_some, lost, Option.getD_some, counted, and_true, Option.some.injEq, forall_eq']
    rw [eq_comm, lostBytesOf_eq_zero, doomed]

theorem Tally.Exact.bulk_iff (exact : self.Exact) (done : self.step? search .markedAll = some after) :
    after.Exact ↔ ∀ pkt ∈ self.connection.recovery.queued, pkt.timeAcked = none →
      pkt.timeLost = none ∧ pkt.pmtud = false := by
  obtain ⟨connection, stepped, rfl⟩ := Option.map_eq_some_iff.mp done
  cases stepped
  rw [exact.add_iff (markAllInflightAsLost_bytesLost self.connection.recovery)]
  exact Loss.bulk_iff _

/-- The statistics of a run that has not panicked are exact. -/
def Tally.Tells (state : Option Tally) : Prop := ∀ self, state = some self → self.Exact

/-- The statistics of the losses are exact throughout a run just when no pass loses bytes that are to be counted, and
bulk marking never meets a packet that was lost before or a probe. -/
theorem Tally.tells_iff_tallied (search : List Nat → Nat → Nat) (flexicast : Option FcState) (role : McRole)
    (isFcSource : Bool) (events : List Event) :
    (∀ done, done <+: events →
        Tally.Tells (Runs.run (Tally.next search) (some (Tally.new flexicast role isFcSource)) done)) ↔
      Runs.Along (Tally.next search) (Event.Tallied search) (some (Tally.new flexicast role isFcSource)) events := by
  -- What one event does decides; before it the statistics are exact.
  have step : ∀ (state : Option Tally) (event : Event), True → Tally.Tells state → True →
      (Tally.Tells (Tally.next search state event) ↔ Event.Tallied search state event) := by
    intro state event _ tells _
    cases state with
    | none => exact ⟨fun _ => trivial, fun _ _ reached => nomatch reached⟩
    | some self =>
      have exact := tells self rfl
      have reads : Tally.Tells (Tally.next search (some self) event) ↔
          ∀ after, self.step? search event = some after → after.Exact := Iff.rfl
      rw [reads]
      by_cases bulk : event = .markedAll
      · subst bulk
        exact ⟨fun all => (exact.bulk_iff rfl).mp (all _ rfl), fun good after done => (exact.bulk_iff done).mpr good⟩
      · have shapes : self.connection.recovery.losses search event =
            ((event.pass? search self.connection.recovery).bind Pass.losses).getD (0, []) ∧
            (Event.Tallied search (some self) event ↔ ((self.connection.step? search event).isSome = true →
              ∀ pass, event.pass? search self.connection.recovery = some pass →
                ∀ pkt ∈ pass.rule.doomed pass.state.sentPackets,
                  pkt.inFlight = true → pkt.pmtud = false → pkt.size = 0)) := by
          cases event with
          | markedAll => exact absurd rfl bulk
          | _ => exact ⟨rfl, Iff.rfl⟩
        rw [shapes.2]
        constructor
        · intro all succeeds
          obtain ⟨connection, stepped⟩ := Option.isSome_iff_exists.mp succeeds
          have done : self.step? search event = some _ := Option.map_eq_some_iff.mpr ⟨connection, stepped, rfl⟩
          exact (exact.pass_iff done bulk shapes.1).mp (all _ done)
        · intro good after done
          obtain ⟨connection, stepped, -⟩ := Option.map_eq_some_iff.mp done
          exact (exact.pass_iff done bulk shapes.1).mpr (good (Option.isSome_iff_exists.mpr ⟨connection, stepped⟩))
  have start : Tally.Tells (some (Tally.new flexicast role isFcSource)) := by
    intro self same
    cases same
    cases role <;> exact ⟨rfl, rfl⟩
  exact Runs.always_iff_along (fun _ _ _ _ => trivial) step events trivial start (Runs.along_true _ _ _)

/-- An acknowledgment by which two packets of hundred bytes are lost adds no byte to those that were lost. -/
theorem Tally.detection_forgets_bytes :
    ¬ ∀ (search : List Nat → Nat → Nat) (flexicast : Option FcState) (role : McRole) (isFcSource : Bool)
      (events : List Event),
      Tally.Tells (Runs.run (Tally.next search) (some (Tally.new flexicast role isFcSource)) events) := by
  intro always
  have tells := always firstAtLeast none .undefined false fiveSent
  have numbers : (Runs.run (Tally.next firstAtLeast) (some (Tally.new none .undefined false)) fiveSent).map
      (fun tally => (tally.connection.recovery.bytesLost, lostBytesOf tally.lost, tally.lostCount)) =
        some (0, 200, 2) := by decide
  obtain ⟨tally, reached, shown⟩ := Option.map_eq_some_iff.mp numbers
  have bytes := (tells tally reached).bytes
  simp only [Prod.mk.injEq] at shown
  omega

end Tallying

end Loss

end Flexicast
