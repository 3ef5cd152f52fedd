import Flexicast.Recovery.Notification

/-! What a pass of the loss detection marks in an epoch whose packets were sent in order. -/

namespace Flexicast

namespace Loss

section Marking

/-- A packet as it is left by a pass that loses it. -/
def Sent.lose (isFcSource : Bool) (now : Int) (pkt : Sent) : Sent :=
  { pkt with
    frames := if isFcSource && !pkt.isFcDelegated then pkt.frames else [], timeLost := some now }

/-- Whether the loss of a packet takes one out of the count of packets in flight. -/
def Sent.leaves (pkt : Sent) : Bool := pkt.pmtud || pkt.inFlight

/-- A packet that a pass declares lost. -/
def LossRule.lost (rule : LossRule) (pkt : Sent) : Bool :=
  (pkt.timeAcked.isNone && pkt.timeLost.isNone) && decide (pkt.pktNum ≤ rule.largestAcked) &&
    (decide (pkt.timeSent ≤ rule.now - rule.lossDelay) || decide (pkt.pktNum + rule.pktThresh ≤ rule.largestAcked))

/-- A packet that was sent before an acknowledged one, and may still arrive. -/
def LossRule.remains (rule : LossRule) (pkt : Sent) : Bool :=
  (pkt.timeAcked.isNone && pkt.timeLost.isNone) && decide (pkt.pktNum ≤ rule.largestAcked) &&
    !(decide (pkt.timeSent ≤ rule.now - rule.lossDelay) || decide (pkt.pktNum + rule.pktThresh ≤ rule.largestAcked))

/-- A packet after a pass. -/
def LossRule.mark (rule : LossRule) (isFcSource : Bool) (pkt : Sent) : Sent :=
  if rule.lost pkt then pkt.lose isFcSource rule.now else pkt

/-- The packets of a queue were sent in the order of their numbers. -/
structure InOrder (packets : List Sent) : Prop where
  numbers : packets.Pairwise fun first second => first.pktNum < second.pktNum
  times : packets.Pairwise fun first second => first.timeSent ≤ second.timeSent

variable {rule : LossRule} {unacked : Sent} {rest packets : List Sent} {isFcSource : Bool}

theorem InOrder.tail (ordered : InOrder (unacked :: rest)) : InOrder rest :=
  ⟨ordered.numbers.tail, ordered.times.tail⟩

variable (rule) in
theorem lost_eq (within : unacked.pktNum ≤ rule.largestAcked) (unmarked : unacked.unmarked = true) :
    rule.lost unacked = rule.loses unacked := by
  unfold Sent.unmarked at unmarked
  simp [LossRule.lost, LossRule.loses, unmarked, within]

variable (rule) in
theorem remains_eq (within : unacked.pktNum ≤ rule.largestAcked) (unmarked : unacked.unmarked = true) :
    rule.remains unacked = !rule.loses unacked := by
  unfold Sent.unmarked at unmarked
  simp [LossRule.remains, LossRule.loses, unmarked, within]

variable (rule) in
theorem marked_apart (marked : unacked.unmarked = false) :
    rule.lost unacked = false ∧ rule.remains unacked = false := by
  unfold Sent.unmarked at marked
  simp [LossRule.lost, LossRule.remains, marked]

theorem past_apart (past : rule.largestAcked < unacked.pktNum) :
    rule.lost unacked = false ∧ rule.remains unacked = false := by
  have beyond : ¬ unacked.pktNum ≤ rule.largestAcked := by omega
  simp [LossRule.lost, LossRule.remains, beyond]

theorem InOrder.spares (ordered : InOrder (unacked :: rest)) (spared : rule.loses unacked = false) :
    ∀ pkt ∈ rest, rule.lost pkt = false := by
  intro pkt member
  have later := List.rel_of_pairwise_cons ordered.times member
  have above := List.rel_of_pairwise_cons ordered.numbers member
  simp only [LossRule.loses, Bool.or_eq_false_iff, decide_eq_false_iff_not] at spared
  -- It has a larger number and was not sent earlier, so neither of the two reasons holds of it.
  have inTime : ¬ pkt.timeSent ≤ rule.now - rule.lossDelay := by omega
  have near : ¬ pkt.pktNum + rule.pktThresh ≤ rule.largestAcked := by omega
  simp [LossRule.lost, inTime, near]

theorem map_mark_of_spared (spared : ∀ pkt ∈ packets, rule.lost pkt = false) :
    packets.map (rule.mark isFcSource) = packets := by
  have same : ∀ pkt ∈ packets, rule.mark isFcSource pkt = pkt := by
    intro pkt member
    rw [LossRule.mark, spared pkt member]
    rfl
  rw [List.map_congr_left same, List.map_id']

theorem InOrder.past (ordered : InOrder (unacked :: rest)) (past : rule.largestAcked < unacked.pktNum) :
    ∀ pkt ∈ unacked :: rest, rule.lost pkt = false ∧ rule.remains pkt = false := by
  intro pkt member
  rcases List.mem_cons.mp member with rfl | behind
  · exact past_apart past
  · exact past_apart (Nat.lt_trans past (List.rel_of_pairwise_cons ordered.numbers behind))

end Marking

section Looping

variable {rule : LossRule} {unacked : Sent} {rest packets : List Sent} {isFcSource : Bool} {now : Int}

theorem checkedSub_add {left right rest : Nat} (done : checkedSub left right = some rest) : rest + right = left := by
  obtain ⟨fits, same⟩ := Option.ite_none_right_eq_some.mp done
  cases same
  exact Nat.sub_add_cancel fits

/-- Losing a packet counts it where it has to be counted. -/
theorem losePacket_eq {loop : LossLoop} {result : Sent × LossLoop}
    (done : losePacket isFcSource now unacked loop = some result) :
    result.1 = unacked.lose isFcSource now ∧ result.2.lossTime = loop.lossTime ∧
      result.2.inFlightCount + (if unacked.leaves then 1 else 0) = loop.inFlightCount ∧
      result.2.lostPackets = loop.lostPackets + (if unacked.pmtud then 0 else 1) := by
  unfold losePacket at done
  simp only at done
  -- A probe is taken out of flight but not counted, and other packets the other way about.
  cases probe : unacked.pmtud with
  | true =>
    rw [if_pos probe] at done
    obtain ⟨count, counted, stored⟩ := Option.bind_eq_some_iff.mp done
    cases stored
    exact ⟨rfl, rfl, by simpa [Sent.leaves, probe] using checkedSub_add counted, rfl⟩
  | false =>
    rw [if_neg (by simp [probe])] at done
    cases flies : unacked.inFlight with
    | true =>
      rw [if_pos flies] at done
      obtain ⟨count, counted, stored⟩ := Option.bind_eq_some_iff.mp done
      cases stored
      exact ⟨rfl, rfl, by simpa [Sent.leaves, flies] using checkedSub_add counted, rfl⟩
    | false =>
      rw [if_neg (by simp [flies])] at done
      cases done
      exact ⟨rfl, rfl, by simp [Sent.leaves, probe, flies], rfl⟩

theorem losePacket_eq_none {loop : LossLoop} :
    losePacket isFcSource now unacked loop = none ↔ unacked.leaves = true ∧ loop.inFlightCount = 0 := by
  unfold losePacket
  cases probe : unacked.pmtud <;> cases flies : unacked.inFlight <;>
    simp [Sent.leaves, probe, flies, checkedSub]

/-- A pass over packets that were sent in order ends unless more leave the flight than are counted there. -/
theorem lostLoop_isSome :
    ∀ {packets : List Sent} {loop : LossLoop}, InOrder packets →
      ((lostLoop isFcSource rule packets loop).isSome = true ↔
        (packets.filter rule.lost).countP Sent.leaves ≤ loop.inFlightCount) := by
  -- Induction along the loop; behind the packet where it stops nothing would be lost anyway.
  intro packets
  induction packets with
  | nil => simp [lostLoop]
  | cons unacked rest ih =>
    intro loop ordered
    unfold lostLoop
    split
    case isTrue past =>
      have nothing : (unacked :: rest).filter rule.lost = [] :=
        List.filter_eq_nil_iff.mpr fun pkt member => by simp [(ordered.past past pkt member).1]
      simp [nothing]
    case isFalse within =>
      split
      case isTrue marked =>
        have apart := (marked_apart rule (by rw [Sent.unmarked_eq, marked]; rfl)).1
        rw [List.filter_cons_of_neg (by simp [apart]), ← ih ordered.tail]
        cases lostLoop isFcSource rule rest loop <;> simp
      case isFalse neither =>
        have unmarked : unacked.unmarked = true := by
          rw [Sent.unmarked_eq, Bool.eq_false_iff.mpr neither, Bool.not_false]
        have decides := lost_eq rule (Nat.not_lt.mp within) unmarked
        split
        case isTrue loses =>
          rw [List.filter_cons_of_pos (decides.trans loses), List.countP_cons]
          cases head : losePacket isFcSource rule.now unacked loop with
          | none =>
            obtain ⟨leaves, empty⟩ := losePacket_eq_none.mp head
            simp [leaves, empty]
          | some result =>
            -- What is left in flight serves the rest of the queue.
            obtain ⟨-, -, taken, -⟩ := losePacket_eq head
            have onward := @ih result.2 ordered.tail
            simp only [Option.bind_eq_bind, Option.bind_some]
            rw [← taken, Nat.add_le_add_iff_right, ← onward]
            cases lostLoop isFcSource rule rest result.2 <;> simp
        case isFalse spares =>
          have spared : rule.loses unacked = false := Bool.eq_false_iff.mpr spares
          have nothing : (unacked :: rest).filter rule.lost = [] := by
            rw [List.filter_cons_of_neg (by simp [decides, spared])]
            exact List.filter_eq_nil_iff.mpr fun pkt member => by simp [ordered.spares spared pkt member]
          simp [nothing]

/-- A pass over packets that were sent in order marks those that are lost, and finds the first time of the others. -/
theorem lostLoop_marks :
    ∀ {packets : List Sent} {loop : LossLoop} {result : List Sent × LossLoop}, InOrder packets →
      loop.lossTime = none → lostLoop isFcSource rule packets loop = some result →
      result.1 = packets.map (rule.mark isFcSource) ∧
        result.2.lossTime = ((packets.filter rule.remains).map (·.timeSent + rule.lossDelay)).min? := by
  intro packets
  induction packets with
  | nil =>
    intro loop result _ untimed done
    cases done
    exact ⟨rfl, untimed⟩
  | cons unacked rest ih =>
    intro loop result ordered untimed done
    unfold lostLoop at done
    split at done
    case isTrue past =>
      cases done
      have apart := ordered.past past
      have nothing : (unacked :: rest).filter rule.remains = [] :=
        List.filter_eq_nil_iff.mpr fun pkt member => by simp [(apart pkt member).2]
      rw [map_mark_of_spared fun pkt member => (apart pkt member).1, nothing]
      exact ⟨rfl, untimed⟩
    case isFalse within =>
      split at done
      case isTrue marked =>
        obtain ⟨tail, doneRest, stored⟩ := Option.bind_eq_some_iff.mp done
        cases stored
        obtain ⟨marks, times⟩ := ih ordered.tail untimed doneRest
        obtain ⟨lost, remains⟩ := marked_apart rule (by rw [Sent.unmarked_eq, marked]; rfl)
        rw [List.map_cons, LossRule.mark, lost, if_neg Bool.false_ne_true,
          List.filter_cons_of_neg (by simp [remains]), ← marks]
        exact ⟨rfl, times⟩
      case isFalse neither =>
        have unmarked : unacked.unmarked = true := by
          rw [Sent.unmarked_eq, Bool.eq_false_iff.mpr neither, Bool.not_false]
        have loss := lost_eq rule (Nat.not_lt.mp within) unmarked
        have rests := remains_eq rule (Nat.not_lt.mp within) unmarked
        split at done
        case isTrue loses =>
          obtain ⟨head, doneHead, done⟩ := Option.bind_eq_some_iff.mp done
          obtain ⟨tail, doneRest, stored⟩ := Option.bind_eq_some_iff.mp done
          cases stored
          obtain ⟨lose, kept, -, -⟩ := losePacket_eq doneHead
          obtain ⟨marks, times⟩ := ih ordered.tail (kept.trans untimed) doneRest
          rw [List.map_cons, LossRule.mark, loss.trans loses, if_pos rfl,
            List.filter_cons_of_neg (by simp [rests, loses]), ← marks, ← lose]
          exact ⟨rfl, times⟩
        case isFalse spares =>
          cases done
          have spared : rule.loses unacked = false := Bool.eq_false_iff.mpr spares
          refine ⟨?_, ?_⟩
          · rw [List.map_cons, LossRule.mark, loss.trans spared, if_neg Bool.false_ne_true,
              map_mark_of_spared (ordered.spares spared)]
          · -- Of the packets that remain this one was sent first.
            rw [List.filter_cons_of_pos (by rw [rests, spared]; rfl), untimed]
            refine (List.min?_eq_some_iff.mpr ⟨List.mem_cons_self, ?_⟩).symm
            intro time member
            rcases List.mem_cons.mp member with rfl | member
            · exact Int.le_refl _
            · obtain ⟨pkt, remains, rfl⟩ := List.mem_map.mp member
              have later := List.rel_of_pairwise_cons ordered.times (List.mem_filter.mp remains).1
              omega

end Looping

section Passing

/-- A pass over packets that were sent in order marks exactly those that are lost, and the time it sets is the first
at which another one will be. -/
theorem RecoveryEpoch.detectLostPackets_exact {state : RecoveryEpoch} (ordered : InOrder state.sentPackets)
    (lossDelay : Int) (pktThresh : Nat) (now : Int) :
    ((state.detectLostPackets lossDelay pktThresh now).isSome = true ↔
        (state.sentPackets.filter (state.lossRule lossDelay pktThresh now).lost).countP Sent.leaves ≤
          state.inFlightCount) ∧
      ∀ after loss, state.detectLostPackets lossDelay pktThresh now = some (after, loss) →
        after.sentPackets =
          state.sentPackets.map ((state.lossRule lossDelay pktThresh now).mark state.isFcSource) ∧
        after.lossTime = ((state.sentPackets.filter (state.lossRule lossDelay pktThresh now).remains).map
          (·.timeSent + max lossDelay granularity)).min? := by
  unfold RecoveryEpoch.detectLostPackets
  refine ⟨?_, fun after loss done => ?_⟩
  · rw [← @lostLoop_isSome _ state.isFcSource _
      ⟨state.inFlightCount, 0, 0, 0, none, state.lostFrames, state.fcNewLostPkt, none⟩ ordered]
    dsimp only
    generalize lostLoop _ _ _ _ = looped
    cases looped <;> simp
  · obtain ⟨result, looped, stored⟩ := Option.bind_eq_some_iff.mp done
    cases stored
    exact lostLoop_marks ordered rfl looped

/-- Five packets of hundred bytes, of which the third was acknowledged and the first is lost. -/
def fiveWaiting : RecoveryEpoch :=
  { RecoveryEpoch.new with
    largestAckedPacket := some 5
    sentPackets := [
      ⟨1, [], 0, none, some 7, 100, true, true, true, false, false⟩,
      ⟨2, [], 1000000, none, none, 100, true, true, true, false, false⟩,
      ⟨3, [], 2000000, some 8, none, 100, true, true, true, false, false⟩,
      ⟨4, [], 2000000, none, none, 100, true, true, true, false, false⟩,
      ⟨6, [], 9000000, none, none, 100, true, true, true, false, false⟩]
    inFlightCount := 3 }

theorem RecoveryEpoch.detectLostPackets_exact_fiveWaiting :
    (∃ after loss, fiveWaiting.detectLostPackets 0 3 2500000 = some (after, loss)) ∧
      ∀ after loss, fiveWaiting.detectLostPackets 0 3 2500000 = some (after, loss) →
        newlyMarked fiveWaiting.sentPackets after.sentPackets = [2] ∧ after.lossTime = some 3000000 := by
  have ordered : InOrder fiveWaiting.sentPackets := ⟨by decide, by decide⟩
  obtain ⟨ends, exact⟩ := RecoveryEpoch.detectLostPackets_exact ordered 0 3 2500000
  refine ⟨?_, fun after loss done => ?_⟩
  · obtain ⟨⟨after, loss⟩, done⟩ := Option.isSome_iff_exists.mp (ends.mpr (by decide))
    exact ⟨after, loss, done⟩
  · obtain ⟨marks, time⟩ := exact after loss done
    rw [marks, time]
    exact ⟨by decide, by decide⟩

/-- While nothing was acknowledged, the packet with the number zero can be lost. -/
theorem RecoveryEpoch.loses_before_acknowledgment :
    ¬ ∀ (state : RecoveryEpoch) (lossDelay : Int) (pktThresh : Nat) (now : Int), InOrder state.sentPackets →
      ∀ after loss, state.detectLostPackets lossDelay pktThresh now = some (after, loss) →
        newlyMarked state.sentPackets after.sentPackets = (state.sentPackets.filter fun pkt =>
          pkt.unmarked && state.largestAckedPacket.any fun largest => decide (pkt.pktNum ≤ largest) &&
            (decide (pkt.timeSent ≤ now - max lossDelay granularity) ||
              decide (pkt.pktNum + pktThresh ≤ largest))).map Sent.pktNum := by
  intro always
  -- One packet that was sent a second ago; no acknowledgment came.
  have marked := always { RecoveryEpoch.new with sentPackets := [flightPacket 0], inFlightCount := 1 } 0 3 1000000000
    ⟨by decide, by decide⟩ _ _ rfl
  exact absurd marked (by decide)

end Passing

end Loss

end Flexicast
