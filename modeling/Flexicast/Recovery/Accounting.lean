import Flexicast.Recovery.Loss
import Flexicast.Ranges.Laws
import Flexicast.Lib.Runs

/-! The bytes and packets in flight are counted exactly, while packets are recorded fresh and lost once. -/

namespace Flexicast

namespace Loss

section Counting

/-- How many packets are in flight. -/
def flightCount (packets : List Sent) : Nat := (packets.filter Sent.outstanding).length

@[simp] theorem flightBytes_nil : flightBytes [] = 0 := rfl

@[simp] theorem flightCount_nil : flightCount [] = 0 := rfl

@[simp] theorem flightBytes_append (front back : List Sent) :
    flightBytes (front ++ back) = flightBytes front + flightBytes back := by
  simp [flightBytes]

@[simp] theorem flightCount_append (front back : List Sent) :
    flightCount (front ++ back) = flightCount front + flightCount back := by
  simp [flightCount]

theorem flightBytes_cons (pkt : Sent) (rest : List Sent) :
    flightBytes (pkt :: rest) = (if pkt.outstanding then pkt.size else 0) + flightBytes rest := by
  -- A packet that is not in flight is left out of the sum.
  cases out : pkt.outstanding <;> simp [flightBytes, out]

theorem flightCount_cons (pkt : Sent) (rest : List Sent) :
    flightCount (pkt :: rest) = (if pkt.outstanding then 1 else 0) + flightCount rest := by
  -- A packet that is not in flight is left out of the count.
  cases out : pkt.outstanding <;> simp [flightCount, out]
  omega

/-- A packet that is a probe is in flight, or was acknowledged or lost. -/
def Sent.Probes (pkt : Sent) : Prop := pkt.pmtud → pkt.inFlight ∨ pkt.timeAcked.isSome ∨ pkt.timeLost.isSome

instance (pkt : Sent) : Decidable pkt.Probes :=
  inferInstanceAs (Decidable (_ → _))

theorem checkedSub_of_le {left right : Nat} (fits : right ≤ left) :
    checkedSub left right = some (left - right) := if_pos fits

end Counting

section AckLoops

/-- The counters of the loop over acknowledged packets, given all packets and the bytes in flight before. -/
structure AckLoop.Counts (bytes : Nat) (packets : List Sent) (loop : AckLoop) : Prop where
  count : loop.inFlightCount = flightCount packets
  taken : loop.ackedBytes + flightBytes packets = bytes
  /-- Bytes are only taken with a packet that is newly acknowledged. -/
  early : loop.newlyAcked = [] → loop.ackedBytes = 0
  probes : ∀ pkt ∈ packets, pkt.Probes

variable {bytes : Nat} {front rest packets : List Sent} {unacked : Sent} {loop : AckLoop}

/-- The counters stay exact when a packet is replaced and both change alike. -/
theorem AckLoop.Counts.replace {after : AckLoop} {marked : Sent}
    (counts : AckLoop.Counts bytes (front ++ unacked :: rest) loop)
    (count : after.inFlightCount + (if unacked.outstanding then 1 else 0) =
      loop.inFlightCount + (if marked.outstanding then 1 else 0))
    (taken : after.ackedBytes + (if marked.outstanding then marked.size else 0) =
      loop.ackedBytes + (if unacked.outstanding then unacked.size else 0))
    (early : after.newlyAcked = [] → after.ackedBytes = 0) (probes : marked.Probes) :
    AckLoop.Counts bytes (front ++ marked :: rest) after := by
  -- Only the summands of the packet itself differ.
  have counted := counts.count
  have held := counts.taken
  rw [flightCount_append, flightCount_cons] at counted
  rw [flightBytes_append, flightBytes_cons] at held
  constructor
  case count =>
    rw [flightCount_append, flightCount_cons]
    omega
  case taken =>
    rw [flightBytes_append, flightBytes_cons]
    omega
  case early => exact early
  case probes =>
    intro pkt member
    cases List.mem_append.mp member with
    | inl inFront => exact counts.probes pkt (List.mem_append_left _ inFront)
    | inr inBack =>
      cases inBack with
      | head => exact probes
      | tail _ inRest => exact counts.probes pkt (List.mem_append_right _ (List.mem_cons_of_mem _ inRest))

/-- Acknowledging a packet keeps the counters exact, and does not underflow. -/
theorem ackPacket_counts (now : Int) {largestAcked : Nat} (below : unacked.pktNum ≤ largestAcked)
    (counts : AckLoop.Counts bytes (front ++ unacked :: rest) loop) :
    ∃ result, ackPacket now largestAcked unacked loop = some result ∧
      AckLoop.Counts bytes (front ++ result.1 :: rest) result.2 := by
  unfold ackPacket
  by_cases acked : unacked.timeAcked.isSome
  · -- An acknowledgment that comes again changes nothing.
    rw [if_pos acked]
    exact ⟨_, rfl, counts⟩
  rw [if_neg acked]
  have notAcked : unacked.timeAcked = none := Option.not_isSome_iff_eq_none.mp acked
  by_cases lost : unacked.timeLost.isSome
  · -- A lost packet left the counters when it was declared lost.
    rw [if_pos lost, checkedSub_of_le below]
    refine ⟨_, rfl, counts.replace ?_ ?_ counts.early ?_⟩
    · simp [Sent.outstanding, Option.isNone_iff_eq_none, Option.isSome_iff_ne_none.mp lost]
    · simp [Sent.outstanding, Option.isNone_iff_eq_none, Option.isSome_iff_ne_none.mp lost]
    · exact fun _ => .inr (.inl rfl)
  rw [if_neg lost]
  have notLost : unacked.timeLost = none := Option.not_isSome_iff_eq_none.mp lost
  cases inFlight : unacked.inFlight with
  -- A packet that was not in flight was never counted.
  | false =>
    simp only [landPacket, inFlight, Bool.false_eq_true, if_false]
    refine ⟨_, rfl, counts.replace ?_ ?_ ?_ ?_⟩
    · simp [Sent.outstanding, inFlight]
    · simp [Sent.outstanding, inFlight]
    · simp
    · exact fun _ => .inr (.inl rfl)
  | true =>
    have out : unacked.outstanding = true := by simp [Sent.outstanding, inFlight, notAcked, notLost]
    -- The packet itself is among those counted, so the counter can go down.
    have positive : 1 ≤ loop.inFlightCount := by
      rw [counts.count, flightCount_append, flightCount_cons, if_pos out]
      omega
    simp only [landPacket, inFlight, if_true, checkedSub_of_le positive]
    refine ⟨_, rfl, counts.replace ?_ ?_ ?_ ?_⟩
    · simp [Sent.outstanding, inFlight, notAcked, notLost]
      omega
    · simp [Sent.outstanding, inFlight, notAcked, notLost]
    · simp
    · exact fun _ => .inr (.inl rfl)

/-- Acknowledging a range keeps the counters exact. -/
theorem ackRange_counts (now : Int) {largestAcked stop : Nat} (below : stop ≤ largestAcked + 1) :
    ∀ {packets front : List Sent} {loop : AckLoop}, AckLoop.Counts bytes (front ++ packets) loop →
      ∃ result, ackRange now largestAcked stop packets loop = some result ∧
        AckLoop.Counts bytes (front ++ result.1) result.2 := by
  -- The packets already passed are kept as a prefix, so the counters always speak of all packets.
  intro packets
  induction packets with
  | nil => exact fun counts => ⟨_, rfl, counts⟩
  | cons unacked rest ih =>
    intro front loop counts
    unfold ackRange
    by_cases past : stop ≤ unacked.pktNum
    · rw [if_pos past]
      exact ⟨_, rfl, counts⟩
    -- The packet moves to the front before the others are looked at.
    have within : unacked.pktNum ≤ largestAcked := by omega
    obtain ⟨head, done, moved⟩ := ackPacket_counts now within counts
    rw [List.append_cons] at moved
    obtain ⟨tail, doneRest, counted⟩ := ih moved
    rw [if_neg past, done]
    simp only [Option.bind_eq_bind, Option.bind_some, doneRest]
    refine ⟨_, rfl, ?_⟩
    rw [List.append_cons]
    exact counted

/-- Acknowledging every range keeps the counters exact. -/
theorem ackRanges_counts (search : List Nat → Nat → Nat) (now : Int) {largestAcked : Nat} :
    ∀ {ranges : List (Nat × Nat)}, (∀ range ∈ ranges, range.2 ≤ largestAcked + 1) →
      ∀ {packets : List Sent} {loop : AckLoop}, AckLoop.Counts bytes packets loop →
      ∃ result, ackRanges search now largestAcked ranges packets loop = some result ∧
        AckLoop.Counts bytes result.1 result.2 := by
  -- Each range is looked for in the packets that the earlier ranges left.
  intro ranges
  induction ranges with
  | nil => exact fun _ _ _ counts => ⟨_, rfl, counts⟩
  | cons range more ih =>
    intro below packets loop counts
    unfold ackRanges
    -- The packets before the start of the range stay as they are.
    rw [← List.take_append_drop (rangeStart search range.1 packets) packets] at counts
    obtain ⟨tail, done, counts⟩ := ackRange_counts now (below range List.mem_cons_self) counts
    obtain ⟨result, doneMore, counts⟩ :=
      ih (fun later member => below later (List.mem_cons_of_mem _ member)) counts
    simp only [Option.bind_eq_bind, done, Option.bind_some]
    exact ⟨result, doneMore, counts⟩

end AckLoops

section LossLoops

/-- The counters of the loop over lost packets, given all packets and the bytes in flight before. -/
structure LossLoop.Counts (bytes : Nat) (packets : List Sent) (loop : LossLoop) : Prop where
  count : loop.inFlightCount = flightCount packets
  taken : loop.lostBytes + loop.pmtudLostBytes + flightBytes packets = bytes
  /-- Bytes other than those of probes are only lost with a largest lost packet. -/
  early : loop.largestLostPkt = none → loop.lostBytes = 0
  probes : ∀ pkt ∈ packets, pkt.Probes

variable {bytes : Nat} {front rest packets : List Sent} {unacked : Sent} {loop : LossLoop}

/-- The counters stay exact when a packet leaves and takes its own bytes with it. -/
theorem LossLoop.Counts.replace {after : LossLoop} {marked : Sent}
    (counts : LossLoop.Counts bytes (front ++ unacked :: rest) loop)
    (lost : marked.timeLost.isSome)
    (count : after.inFlightCount + (if unacked.outstanding then 1 else 0) = loop.inFlightCount)
    (taken : after.lostBytes + after.pmtudLostBytes =
      loop.lostBytes + loop.pmtudLostBytes + (if unacked.outstanding then unacked.size else 0))
    (early : after.largestLostPkt = none → after.lostBytes = 0) :
    LossLoop.Counts bytes (front ++ marked :: rest) after := by
  -- The marked packet adds nothing to the sum and the count.
  have gone : marked.outstanding = false := by
    simp [Sent.outstanding, Option.isNone_eq_false_iff.mpr lost]
  have counted := counts.count
  have held := counts.taken
  rw [flightCount_append, flightCount_cons] at counted
  rw [flightBytes_append, flightBytes_cons] at held
  constructor
  case count =>
    simp only [flightCount_append, flightCount_cons, gone, Bool.false_eq_true, if_false]
    omega
  case taken =>
    simp only [flightBytes_append, flightBytes_cons, gone, Bool.false_eq_true, if_false]
    omega
  case early => exact early
  case probes =>
    intro pkt member
    cases List.mem_append.mp member with
    | inl inFront => exact counts.probes pkt (List.mem_append_left _ inFront)
    | inr inBack =>
      cases inBack with
      | head => exact fun _ => .inr (.inr lost)
      | tail _ inRest => exact counts.probes pkt (List.mem_append_right _ (List.mem_cons_of_mem _ inRest))

/-- Losing a packet keeps the counters exact, and does not underflow. -/
theorem losePacket_counts (isFcSource : Bool) (now : Int) (notAcked : unacked.timeAcked = none)
    (notLost : unacked.timeLost = none) (counts : LossLoop.Counts bytes (front ++ unacked :: rest) loop) :
    ∃ result, losePacket isFcSource now unacked loop = some result ∧
      LossLoop.Counts bytes (front ++ result.1 :: rest) result.2 := by
  cases inFlight : unacked.inFlight with
  | false =>
    -- A probe would be in flight.
    have noProbe : unacked.pmtud = false := by
      have probes := counts.probes unacked (List.mem_append_right _ List.mem_cons_self)
      simpa [Sent.Probes, inFlight, notAcked, notLost] using probes
    simp only [losePacket, noProbe, inFlight, Bool.false_eq_true, if_false]
    refine ⟨_, rfl, counts.replace rfl ?_ ?_ counts.early⟩
    · simp [Sent.outstanding, inFlight]
    · simp [Sent.outstanding, inFlight]
  | true =>
    have out : unacked.outstanding = true := by simp [Sent.outstanding, inFlight, notAcked, notLost]
    -- The packet itself is among those counted, so the counter can go down.
    have positive : 1 ≤ loop.inFlightCount := by
      rw [counts.count, flightCount_append, flightCount_cons, if_pos out]
      omega
    -- The bytes of a probe are counted apart from those that count as congestion.
    cases probe : unacked.pmtud with
    | true =>
      simp only [losePacket, probe, if_true, checkedSub_of_le positive]
      refine ⟨_, rfl, counts.replace rfl ?_ ?_ counts.early⟩
      · simp only [out, if_true]
        omega
      · simp only [out, if_true]
        omega
    | false =>
      simp only [losePacket, probe, inFlight, Bool.false_eq_true, if_false, if_true,
        checkedSub_of_le positive]
      refine ⟨_, rfl, counts.replace rfl ?_ ?_ (fun none => nomatch none)⟩
      · simp only [out, if_true]
        omega
      · simp only [out, if_true]
        omega

/-- The loop over lost packets keeps the counters exact. -/
theorem lostLoop_counts (isFcSource : Bool) (rule : LossRule) :
    ∀ {packets front : List Sent} {loop : LossLoop}, LossLoop.Counts bytes (front ++ packets) loop →
      ∃ result, lostLoop isFcSource rule packets loop = some result ∧
        LossLoop.Counts bytes (front ++ result.1) result.2 := by
  -- The same shape as for acknowledgments; the loop ends at the first packet that it spares.
  intro packets
  induction packets with
  | nil => exact fun counts => ⟨_, rfl, counts⟩
  | cons unacked rest ih =>
    intro front loop counts
    unfold lostLoop
    by_cases follows : rule.largestAcked < unacked.pktNum
    · rw [if_pos follows]
      exact ⟨_, rfl, counts⟩
    rw [if_neg follows]
    cases marked : unacked.timeAcked.isSome || unacked.timeLost.isSome with
    -- A packet that is marked already is passed over.
    | true =>
      rw [List.append_cons] at counts
      obtain ⟨tail, done, counted⟩ := ih counts
      simp only [if_true, Option.bind_eq_bind, done, Option.bind_some]
      refine ⟨_, rfl, ?_⟩
      rw [List.append_cons]
      exact counted
    | false =>
      rw [Bool.or_eq_false_iff] at marked
      have notAcked : unacked.timeAcked = none := Option.isSome_eq_false_iff.mp marked.1 |> Option.isNone_iff_eq_none.mp
      have notLost : unacked.timeLost = none := Option.isSome_eq_false_iff.mp marked.2 |> Option.isNone_iff_eq_none.mp
      cases loses : rule.loses unacked with
      | true =>
        obtain ⟨head, done, moved⟩ := losePacket_counts isFcSource rule.now notAcked notLost counts
        rw [List.append_cons] at moved
        obtain ⟨tail, doneRest, counted⟩ := ih moved
        simp only [Bool.false_eq_true, if_false, if_true, Option.bind_eq_bind, done, Option.bind_some, doneRest]
        refine ⟨_, rfl, ?_⟩
        rw [List.append_cons]
        exact counted
      | false =>
        simp only [Bool.false_eq_true, if_false]
        exact ⟨_, rfl, counts.count, counts.taken, counts.early, counts.probes⟩

theorem LossLoop.Counts.takeFrom (left : Nat) (counts : LossLoop.Counts bytes packets loop) :
    loop.takeFrom (left + (loop.lostBytes + loop.pmtudLostBytes)) = some left := by
  -- The bytes of packets leave before those of probes, and only if some packet was lost.
  unfold LossLoop.takeFrom
  cases largest : loop.largestLostPkt with
  | some pkt =>
    simp only [Option.isSome_some, if_true]
    rw [checkedSub_of_le (by omega), Option.bind_some, checkedSub_of_le (by omega)]
    congr 1
    omega
  | none =>
    have nothing := counts.early largest
    simp only [Option.isSome_none, Bool.false_eq_true, if_false]
    rw [checkedSub_of_le (by omega)]
    congr 1
    omega

end LossLoops

section Draining

/-- Draining removes no packet in flight. -/
theorem drain_keeps (isFcSource : Bool) (lossThresh : Int) (packets : List Sent) :
    flightBytes (drainAckedAndLostPackets isFcSource lossThresh packets) = flightBytes packets ∧
      flightCount (drainAckedAndLostPackets isFcSource lossThresh packets) = flightCount packets ∧
      drainAckedAndLostPackets isFcSource lossThresh packets <:+ packets := by
  -- Draining takes packets from the front while they are marked.
  induction packets with
  | nil => exact ⟨rfl, rfl, List.suffix_refl _⟩
  | cons pkt rest ih =>
    -- A packet is only passed over when it was lost or acknowledged.
    have passed (out : pkt.outstanding = false) :
        flightBytes (drainAckedAndLostPackets isFcSource lossThresh rest) = flightBytes (pkt :: rest) ∧
          flightCount (drainAckedAndLostPackets isFcSource lossThresh rest) = flightCount (pkt :: rest) ∧
          drainAckedAndLostPackets isFcSource lossThresh rest <:+ pkt :: rest := by
      rw [flightBytes_cons, flightCount_cons, out]
      simp only [Bool.false_eq_true, if_false, Nat.zero_add]
      exact ⟨ih.1, ih.2.1, ih.2.2.trans (List.suffix_cons _ _)⟩
    unfold drainAckedAndLostPackets
    cases lost : pkt.timeLost with
    | some timeLost =>
      simp only
      split
      · exact ⟨rfl, rfl, List.suffix_refl _⟩
      · exact passed (by simp [Sent.outstanding, lost])
    | none =>
      simp only
      cases acked : pkt.timeAcked with
      | none => exact ⟨rfl, rfl, List.suffix_refl _⟩
      | some timeAcked => exact passed (by simp [Sent.outstanding, acked])

end Draining

section Balance

/-- An epoch that counts its packets in flight exactly. -/
structure RecoveryEpoch.Fair (state : RecoveryEpoch) : Prop where
  count : state.inFlightCount = flightCount state.sentPackets
  probes : ∀ pkt ∈ state.sentPackets, pkt.Probes

/-- The bytes in flight in all epochs. -/
def Recovery.flight (recovery : Recovery) : Nat :=
  flightBytes (recovery.epochs .initial).sentPackets + flightBytes (recovery.epochs .handshake).sentPackets +
    flightBytes (recovery.epochs .application).sentPackets

/-- A recovery that counts exactly, but for some bytes that have left since. -/
structure Recovery.Flies (extra : Nat) (recovery : Recovery) : Prop where
  bytes : recovery.bytesInFlight = recovery.flight + extra
  fair : ∀ epoch, (recovery.epochs epoch).Fair
  exact : recovery.clamped = false

variable {recovery : Recovery} {state : RecoveryEpoch} {epoch : Epoch} {extra : Nat}

@[simp] theorem setEpoch_epochs (recovery : Recovery) (epoch other : Epoch) (state : RecoveryEpoch) :
    (recovery.setEpoch epoch state).epochs other = if other = epoch then state else recovery.epochs other := rfl

theorem flight_setEpoch (recovery : Recovery) (epoch : Epoch) (state : RecoveryEpoch) :
    (recovery.setEpoch epoch state).flight + flightBytes (recovery.epochs epoch).sentPackets =
      recovery.flight + flightBytes state.sentPackets := by
  -- The other two summands stay.
  cases epoch <;> simp [Recovery.flight] <;> omega

theorem flightBytes_le_flight (recovery : Recovery) (epoch : Epoch) :
    flightBytes (recovery.epochs epoch).sentPackets ≤ recovery.flight := by
  cases epoch <;> simp only [Recovery.flight] <;> omega

/-- A recovery with one epoch replaced counts exactly when its bytes follow that epoch. -/
theorem Recovery.Flies.store {after : Recovery} {left : Nat} (flies : Recovery.Flies extra recovery)
    (epochs : after.epochs = (recovery.setEpoch epoch state).epochs) (exact : after.clamped = false)
    (fair : state.Fair)
    (bytes : after.bytesInFlight + extra + flightBytes (recovery.epochs epoch).sentPackets =
      recovery.bytesInFlight + left + flightBytes state.sentPackets) :
    Recovery.Flies left after := by
  -- The bytes of the replaced epoch are exchanged, and the counter follows them.
  have exchanged := flight_setEpoch recovery epoch state
  have held := flies.bytes
  constructor
  case bytes =>
    have same : after.flight = (recovery.setEpoch epoch state).flight := by
      simp only [Recovery.flight, epochs]
    omega
  case fair =>
    intro other
    rw [epochs, setEpoch_epochs]
    split
    · exact fair
    · exact flies.fair other
  case exact => exact exact

theorem Recovery.Flies.setEpoch {gone : Nat} (flies : Recovery.Flies extra recovery) (fair : state.Fair)
    (moved : flightBytes state.sentPackets + gone = flightBytes (recovery.epochs epoch).sentPackets) :
    Recovery.Flies (extra + gone) (recovery.setEpoch epoch state) := by
  apply flies.store rfl flies.exact fair
  change recovery.bytesInFlight + extra + _ = _
  omega

/-- Draining an epoch keeps it fair, and its bytes in flight. -/
theorem RecoveryEpoch.Fair.drain (fair : state.Fair) (lossThresh : Int) :
    (state.drain lossThresh).Fair ∧
      flightBytes (state.drain lossThresh).sentPackets = flightBytes state.sentPackets := by
  obtain ⟨bytes, count, suffix⟩ := drain_keeps state.isFcSource lossThresh state.sentPackets
  refine ⟨⟨?_, ?_⟩, bytes⟩
  · exact fair.count.trans count.symm
  · intro pkt member
    exact fair.probes pkt (suffix.subset member)

/-- Draining an epoch of a recovery keeps its bytes in flight. -/
theorem Recovery.Flies.drain (flies : Recovery.Flies extra recovery) (epoch : Epoch) (lossThresh : Int) :
    Recovery.Flies extra (recovery.setEpoch epoch ((recovery.epochs epoch).drain lossThresh)) := by
  obtain ⟨fair, bytes⟩ := (flies.fair epoch).drain lossThresh
  have moved : flightBytes ((recovery.epochs epoch).drain lossThresh).sentPackets + 0 =
      flightBytes (recovery.epochs epoch).sentPackets := bytes
  exact flies.setEpoch fair moved

theorem Recovery.Flies.settle {gone : Nat} (flies : Recovery.Flies (extra + gone) recovery) :
    recovery.bytesInFlight = (recovery.flight + extra) + gone ∧
      Recovery.Flies extra { recovery with bytesInFlight := recovery.flight + extra } := by
  refine ⟨?_, ⟨rfl, flies.fair, flies.exact⟩⟩
  rw [flies.bytes, Nat.add_assoc]

theorem Recovery.Flies.notifyLost {gone : Nat} (flies : Recovery.Flies extra recovery) (fair : state.Fair)
    (moved : flightBytes state.sentPackets + gone = flightBytes (recovery.epochs epoch).sentPackets) :
    Recovery.Flies (extra + gone) (recovery.notifyLost epoch state) := by
  unfold Recovery.notifyLost
  split
  case h_1 =>
    -- The emptied vector takes no part in the accounting.
    have kept : RecoveryEpoch.Fair { state with fcNewLostPkt := some [] } := ⟨fair.count, fair.probes⟩
    have stored := flies.setEpoch kept moved
    exact ⟨stored.bytes, stored.fair, stored.exact⟩
  case h_2 => exact flies.setEpoch fair moved

theorem range_le_last (ranges : AckRanges) :
    ∃ last, ranges.1.last = some last ∧ ∀ range ∈ ranges.1.iter, range.2 ≤ last + 1 := by
  obtain ⟨separated, filled⟩ := ranges.2
  have shown := List.dropLast_concat_getLast filled
  refine ⟨(ranges.1.iter.getLast filled).2 - 1, ?_, ?_⟩
  · simp [RangeSet.last, List.getLast?_eq_some_getLast filled]
  · intro range member
    have ordered := separated.apart
    have forward := separated.forward _ (List.getLast_mem filled)
    rw [← shown] at member ordered
    -- A range before the last one ends before the last one starts.
    cases List.mem_append.mp member with
    | inl before =>
      have apart := (List.pairwise_append.mp ordered).2.2 range before _ List.mem_cons_self
      omega
    | inr same =>
      rw [List.mem_singleton.mp same]
      omega

end Balance

section Operations

variable {recovery : Recovery} {state : RecoveryEpoch} {extra : Nat}

theorem RecoveryEpoch.Fair.detectLostPackets (fair : state.Fair) (lossDelay : Int) (pktThresh : Nat) (now : Int) :
    ∃ result, state.detectLostPackets lossDelay pktThresh now = some result ∧ result.1.Fair ∧
      LossLoop.Counts (flightBytes state.sentPackets) result.1.sentPackets result.2 := by
  -- The loop starts with nothing lost.
  have start : LossLoop.Counts (flightBytes state.sentPackets) ([] ++ state.sentPackets)
      ⟨state.inFlightCount, 0, 0, 0, none, state.lostFrames, state.fcNewLostPkt, none⟩ :=
    ⟨fair.count, by simp, fun _ => rfl, fair.probes⟩
  obtain ⟨result, done, counts⟩ :=
    lostLoop_counts state.isFcSource (state.lossRule lossDelay pktThresh now) start
  unfold RecoveryEpoch.detectLostPackets
  simp only [Option.bind_eq_bind, done, Option.bind_some]
  exact ⟨_, rfl, ⟨counts.count, counts.probes⟩, counts⟩

theorem Recovery.Flies.detectLostPackets (flies : Recovery.Flies extra recovery) (epoch : Epoch)
    (timing : Timing) (now : Int) :
    ∃ after, recovery.detectLostPackets epoch timing now = some after ∧ Recovery.Flies extra after := by
  -- The pass says how much leaves the epoch, and the connection takes as much out of its counter.
  obtain ⟨result, done, fair, counts⟩ :=
    (flies.fair epoch).detectLostPackets timing.lossDelay recovery.pktThresh now
  have moved : flightBytes result.1.sentPackets + (result.2.lostBytes + result.2.pmtudLostBytes) =
      flightBytes (recovery.epochs epoch).sentPackets := by
    rw [← counts.taken, Nat.add_comm]
  obtain ⟨bytes, settled⟩ := (flies.notifyLost fair moved).settle
  have taken := counts.takeFrom ((recovery.notifyLost epoch result.1).flight + extra)
  unfold Recovery.detectLostPackets
  simp only [Option.bind_eq_bind, done, Option.bind_some, bytes, taken]
  exact ⟨_, rfl, settled.drain epoch (now - timing.rtt)⟩

/-- Marking acknowledged packets of an epoch counts exactly what leaves it. -/
theorem RecoveryEpoch.Fair.detectAndRemoveAckedPackets (fair : state.Fair) (search : List Nat → Nat → Nat)
    (now : Int) (ranges : RangeSet) (rtt : Int) {largestAcked : Nat}
    (largest : state.largestAckedPacket = some largestAcked)
    (below : ∀ range ∈ ranges.iter, range.2 ≤ largestAcked + 1) :
    ∃ result, state.detectAndRemoveAckedPackets search now ranges rtt = some result ∧ result.1.Fair ∧
      flightBytes result.1.sentPackets + result.2.ackedBytes = flightBytes state.sentPackets ∧
      (result.2.newlyAcked = [] → result.2.ackedBytes = 0) := by
  -- The loop starts with nothing acknowledged.
  have start : AckLoop.Counts (flightBytes state.sentPackets) state.sentPackets
      ⟨state.inFlightCount, 0, 0, none, [], state.ackedFrames, false, false⟩ :=
    ⟨fair.count, by simp, fun _ => rfl, fair.probes⟩
  obtain ⟨result, done, counts⟩ := ackRanges_counts search now below start
  let marked := { state with
    largestAckedPacket := some largestAcked
    sentPackets := result.1, inFlightCount := result.2.inFlightCount, ackedFrames := result.2.ackedFrames }
  have kept : RecoveryEpoch.Fair marked := ⟨counts.count, counts.probes⟩
  obtain ⟨drained, bytes⟩ := kept.drain (now - rtt)
  unfold RecoveryEpoch.detectAndRemoveAckedPackets
  simp only [largest, Option.bind_eq_bind, Option.bind_some, done]
  refine ⟨_, rfl, drained, ?_, counts.early⟩
  calc flightBytes (marked.drain (now - rtt)).sentPackets + result.2.ackedBytes
    _ = result.2.ackedBytes + flightBytes result.1 := by rw [bytes, Nat.add_comm]
    _ = flightBytes state.sentPackets := counts.taken

/-- Marking acknowledged packets leaves over exactly their bytes. -/
theorem Recovery.Flies.markAcked (flies : Recovery.Flies extra recovery) (search : List Nat → Nat → Nat)
    (ranges : AckRanges) (epoch : Epoch) (rtt now : Int) :
    ∃ result, recovery.markAcked search ranges.1 epoch rtt now = some result ∧
      Recovery.Flies (extra + result.2.ackedBytes) result.1 ∧
      (result.2.newlyAcked = [] → result.2.ackedBytes = 0) := by
  -- The largest acknowledged number is raised first, so that no range reaches past it.
  obtain ⟨last, shown, below⟩ := range_le_last ranges
  let state := recovery.epochs epoch
  let raised := { state with
    largestAckedPacket := some (max (state.largestAckedPacket.getD 0) last) }
  have fair : RecoveryEpoch.Fair raised := ⟨(flies.fair epoch).count, (flies.fair epoch).probes⟩
  have past : ∀ range ∈ ranges.1.iter, range.2 ≤ max (state.largestAckedPacket.getD 0) last + 1 := by
    intro range member
    have within := below range member
    omega
  obtain ⟨result, done, kept, moved, early⟩ :=
    fair.detectAndRemoveAckedPackets search now ranges.1 rtt rfl past
  have stored := flies.setEpoch kept moved
  unfold Recovery.markAcked
  simp only [shown, Option.bind_eq_bind, Option.bind_some]
  rw [done]
  exact ⟨_, rfl, ⟨stored.bytes, stored.fair, stored.exact⟩, early⟩

/-- An acknowledgment takes exactly the bytes of its packets and of those then lost out of flight. -/
theorem Recovery.Flies.onAckReceived (flies : Recovery.Flies 0 recovery) (search : List Nat → Nat → Nat)
    (ranges : AckRanges) (epoch : Epoch) (before after : Timing) (now : Int) :
    ∃ result, recovery.onAckReceived search ranges.1 epoch before after now = some result ∧
      Recovery.Flies 0 result := by
  obtain ⟨marked, done, left, early⟩ := flies.markAcked search ranges epoch before.rtt now
  unfold Recovery.onAckReceived
  simp only [Option.bind_eq_bind, done, Option.bind_some]
  cases newly : marked.2.newlyAcked with
  | nil =>
    -- Without a newly acknowledged packet no bytes have left.
    rw [early newly] at left
    exact ⟨_, rfl, left⟩
  | cons first rest =>
    -- The acknowledged bytes stay left over during the pass, and are taken out after it.
    obtain ⟨passed, donePass, kept⟩ := left.detectLostPackets epoch after now
    obtain ⟨bytes, settled⟩ := kept.settle
    simp only [List.isEmpty_cons, Bool.false_eq_true, if_false, Recovery.settleAcked, Option.bind_eq_bind,
      donePass, Option.bind_some]
    rw [bytes, checkedSub_of_le (Nat.le_add_left _ _), Nat.add_sub_cancel]
    have drained := settled.drain epoch (now - after.rtt)
    exact ⟨_, rfl, ⟨drained.bytes, drained.fair, drained.exact⟩⟩

/-- The timer takes exactly the bytes of lost packets out of flight. -/
theorem Recovery.Flies.onLossDetectionTimeout (flies : Recovery.Flies 0 recovery) (status : HandshakeStatus)
    (timing : Timing) (now : Int) :
    ∃ result, recovery.onLossDetectionTimeout status timing now = some result ∧ Recovery.Flies 0 result := by
  unfold Recovery.onLossDetectionTimeout
  simp only
  split
  case isTrue => exact flies.detectLostPackets _ timing now
  case isFalse =>
    refine ⟨_, rfl, ?_⟩
    -- A probe schedules frames again, and declares nothing lost.
    have fair := flies.fair (recovery.probedSpace status timing now)
    have probed (probes : Nat) :
        RecoveryEpoch.Fair ((recovery.epochs (recovery.probedSpace status timing now)).probe probes) :=
      ⟨fair.count, fair.probes⟩
    have counted : Recovery.Flies 0 { recovery with ptoCount := recovery.ptoCount + 1 } :=
      ⟨flies.bytes, flies.fair, flies.exact⟩
    exact flies.store rfl flies.exact (probed _) rfl

/-- A packet that can be recorded: in flight it is unmarked, and otherwise no unmarked probe. -/
def Sent.Fresh (pkt : Sent) : Prop := (pkt.inFlight → pkt.outstanding) ∧ pkt.Probes

instance (pkt : Sent) : Decidable pkt.Fresh := inferInstanceAs (Decidable (_ ∧ _))

variable {pkt : Sent} {bytes : Nat} {loop : MarkLoop} {epoch : Epoch}

theorem Sent.Fresh.outstanding_eq (fresh : pkt.Fresh) : pkt.outstanding = pkt.inFlight := by
  cases inFlight : pkt.inFlight with
  | true => exact fresh.1 inFlight
  | false => simp [Sent.outstanding, inFlight]

/-- An epoch counts a fresh packet when it records it. -/
theorem RecoveryEpoch.Fair.record (fair : state.Fair) (now : Int) (fresh : pkt.Fresh) :
    (state.record pkt now).Fair := by
  constructor
  case count =>
    simp only [RecoveryEpoch.record, flightCount_append, flightCount_cons, fresh.outstanding_eq, ← fair.count,
      flightCount_nil]
    split <;> omega
  case probes =>
    intro held member
    cases List.mem_append.mp member with
    | inl before => exact fair.probes held before
    | inr last =>
      rw [List.mem_singleton.mp last]
      exact fresh.2

theorem Recovery.Flies.onPacketSent (flies : Recovery.Flies 0 recovery) (epoch : Epoch) (now : Int)
    (fresh : pkt.Fresh) : Recovery.Flies 0 (recovery.onPacketSent pkt epoch now) := by
  refine flies.store rfl flies.exact ((flies.fair epoch).record now fresh) ?_
  simp only [Recovery.onPacketSent, RecoveryEpoch.record, flightBytes_append, flightBytes_cons,
    fresh.outstanding_eq, flightBytes_nil]
  split <;> omega

/-- Forgetting an epoch takes its bytes out of flight. -/
theorem Recovery.Flies.onPktNumSpaceDiscarded (flies : Recovery.Flies 0 recovery) (epoch : Epoch) :
    ∃ result, recovery.onPktNumSpaceDiscarded epoch = some result ∧ Recovery.Flies 0 result := by
  -- The epoch holds a part of the bytes in flight, so they can be taken out.
  have within := flightBytes_le_flight recovery epoch
  have fits : flightBytes (recovery.epochs epoch).sentPackets ≤ recovery.bytesInFlight := by
    rw [flies.bytes]
    omega
  have fair : (recovery.epochs epoch).cleared.Fair := ⟨rfl, fun _ member => nomatch member⟩
  unfold Recovery.onPktNumSpaceDiscarded
  simp only [Option.bind_eq_bind, checkedSub_of_le fits, Option.bind_some]
  refine ⟨_, rfl, flies.store rfl flies.exact fair ?_⟩
  exact Nat.sub_add_cancel fits

/-- A packet that was lost before is not in flight any more, or was acknowledged since. -/
def Sent.LostOnce (pkt : Sent) : Prop := pkt.inFlight → pkt.timeAcked.isNone → pkt.timeLost.isNone

instance (pkt : Sent) : Decidable pkt.LostOnce := inferInstanceAs (Decidable (_ → _ → _))

/-- The counters of the loop that marks every packet as lost, given the packets still to come. -/
structure MarkLoop.Counts (bytes : Nat) (rest : List Sent) (loop : MarkLoop) : Prop where
  count : loop.inFlightCount = flightCount rest
  taken : loop.epochLostBytes + flightBytes rest = bytes
  early : loop.hasLost = false → loop.epochLostBytes = 0
  exact : loop.saturated = false

/-- Marking one packet as lost keeps the counters exact. -/
theorem MarkLoop.Counts.markPacket {rest : List Sent} (counts : MarkLoop.Counts bytes (pkt :: rest) loop)
    (once : pkt.LostOnce) : MarkLoop.Counts bytes rest (Loss.markPacket loop pkt) := by
  -- A packet that is not acknowledged and in flight leaves the counters, whether it was lost before or not.
  have counted := counts.count
  have taken := counts.taken
  rw [flightCount_cons] at counted
  rw [flightBytes_cons] at taken
  unfold Loss.markPacket
  cases acked : pkt.timeAcked with
  | some time =>
    have out : pkt.outstanding = false := by simp [Sent.outstanding, acked]
    simp only [out, Bool.false_eq_true, if_false, Nat.zero_add] at counted taken
    exact ⟨counted, taken, counts.early, counts.exact⟩
  | none =>
    cases inFlight : pkt.inFlight with
    | false =>
      have out : pkt.outstanding = false := by simp [Sent.outstanding, inFlight]
      simp only [out, Bool.false_eq_true, if_false, Nat.zero_add] at counted taken
      exact ⟨counted, taken, counts.early, counts.exact⟩
    | true =>
      -- The packet is unmarked, so the counters still hold it.
      have notLost := once inFlight (by simp [acked])
      have out : pkt.outstanding = true := by simp [Sent.outstanding, inFlight, acked, notLost]
      simp only [out, if_true] at counted taken
      have filled : loop.inFlightCount ≠ 0 := by omega
      simp only [Option.isSome_none, Bool.false_eq_true, if_false, if_true]
      refine ⟨?_, ?_, (fun none => nomatch none), ?_⟩
      · simp only
        omega
      · simp only
        omega
      · simp [counts.exact, filled]

theorem MarkLoop.Counts.foldl :
    ∀ {packets : List Sent} {loop : MarkLoop}, (∀ pkt ∈ packets, pkt.LostOnce) →
      MarkLoop.Counts bytes packets loop → MarkLoop.Counts bytes [] (packets.foldl Loss.markPacket loop) := by
  intro packets
  induction packets with
  | nil => exact fun _ counts => counts
  | cons pkt rest ih =>
    intro loop once counts
    rw [List.foldl_cons]
    apply ih (fun later member => once later (List.mem_cons_of_mem _ member))
    exact counts.markPacket (once pkt List.mem_cons_self)

/-- Storing an exact loop takes the bytes of its epoch out of flight. -/
theorem Recovery.Flies.storeMarked (flies : Recovery.Flies 0 recovery)
    (counts : MarkLoop.Counts (flightBytes (recovery.epochs epoch).sentPackets) [] loop) :
    Recovery.Flies 0 (recovery.storeMarked epoch loop) := by
  -- The packets of the epoch are all gone, so its bytes are exactly what the loop has summed up.
  have fair : ((recovery.epochs epoch).marked loop).Fair := ⟨counts.count, fun _ member => nomatch member⟩
  have exact : (recovery.clamped || loop.saturated) = false := by simp [flies.exact, counts.exact]
  have within := flightBytes_le_flight recovery epoch
  have bytes := flies.bytes
  have taken : loop.epochLostBytes = flightBytes (recovery.epochs epoch).sentPackets := counts.taken
  have emptied : flightBytes ((recovery.epochs epoch).marked loop).sentPackets = 0 := rfl
  unfold Recovery.storeMarked
  cases lost : loop.hasLost with
  | true =>
    have fits : ¬ recovery.bytesInFlight < loop.epochLostBytes := by omega
    simp only [if_true]
    refine (if_neg fits).symm ▸ flies.store rfl exact fair ?_
    rw [emptied]
    change recovery.bytesInFlight - loop.epochLostBytes + 0 + _ = _
    omega
  | false =>
    -- Nothing was in flight, so nothing is subtracted.
    have nothing := counts.early lost
    refine flies.store rfl exact fair ?_
    rw [emptied]
    change recovery.bytesInFlight + 0 + _ = _
    omega

theorem Recovery.Flies.markEpoch (flies : Recovery.Flies 0 recovery) (epoch : Epoch)
    (once : ∀ pkt ∈ (recovery.epochs epoch).sentPackets, pkt.LostOnce) :
    Recovery.Flies 0 (recovery.markEpoch epoch) := by
  have start : MarkLoop.Counts (flightBytes (recovery.epochs epoch).sentPackets) (recovery.epochs epoch).sentPackets
      ⟨(recovery.epochs epoch).inFlightCount, 0, (recovery.epochs epoch).lostFrames, false, false⟩ :=
    ⟨(flies.fair epoch).count, Nat.zero_add _, fun _ => rfl, rfl⟩
  exact flies.storeMarked (start.foldl once)

theorem markEpoch_other (recovery : Recovery) {other : Epoch} (apart : other ≠ epoch) :
    (recovery.markEpoch epoch).epochs other = recovery.epochs other := by
  unfold Recovery.markEpoch Recovery.storeMarked
  simp only
  split
  · split <;> exact if_neg apart
  · exact if_neg apart

theorem Recovery.Flies.markAllInflightAsLost (flies : Recovery.Flies 0 recovery)
    (once : ∀ epoch, ∀ pkt ∈ (recovery.epochs epoch).sentPackets, pkt.LostOnce) :
    Recovery.Flies 0 recovery.markAllInflightAsLost := by
  unfold Recovery.markAllInflightAsLost
  simp only [List.foldl_cons, List.foldl_nil]
  -- Marking one epoch leaves the other ones as they are.
  have first := flies.markEpoch .initial (once .initial)
  have second := first.markEpoch .handshake (by
    rw [markEpoch_other _ (by decide)]
    exact once .handshake)
  apply second.markEpoch .application
  rw [markEpoch_other _ (by decide), markEpoch_other _ (by decide)]
  exact once .application

end Operations

section Running

/-- The number from which on a connection records copied packets; none while it records no packet. -/
def Connection.records (self : Connection) (fcId : Nat) : Option Nat :=
  match self.flexicast with
  | some ⟨.serverUnicast (), some highestPn, fcChanId, true⟩ =>
    if fcChanId = some fcId then some (highestPn.getD 0) else none
  | _ => none

/-- What copying packets does to the recovery. -/
theorem fcOnNewPktSent_recovery (self : Connection) (fcId : Nat) (sent : List Sent) (now : Int) :
    (self.fcOnNewPktSent fcId sent now).1.recovery =
      match self.records fcId with
      | some first => (sent.filter fun pkt => first ≤ pkt.pktNum).foldl
          (fun recovery pkt => recovery.onPacketSent pkt .application now) self.recovery
      | none => self.recovery := by
  obtain ⟨flexicast, recovery⟩ := self
  unfold Connection.fcOnNewPktSent Connection.records
  cases flexicast with
  | none => rfl
  | some flexicast =>
    obtain ⟨role, highest, fcChanId, hasPath⟩ := flexicast
    -- Only a unicast server with a reliable flow goes on.
    cases role with
    | client => rfl
    | serverFlexicast => rfl
    | undefined => rfl
    | serverUnicast =>
      cases highest with
      | none => rfl
      | some highestPn =>
        -- A receiver of another flow, or one without a path, records nothing.
        by_cases joined : fcChanId = some fcId
        · cases hasPath <;> cases last : sent.getLast? <;> simp [joined]
        · cases hasPath <;> cases last : sent.getLast? <;> simp [joined]

/-- Every packet is recorded fresh, and packets are marked as lost in bulk only while none was lost before. -/
def Event.Accountable : Option Connection → Event → Prop
  | some _, .sent pkt _ _ => pkt.Fresh
  | some self, .copied fcId packets _ =>
    ∀ first ∈ self.records fcId, ∀ pkt ∈ packets, first ≤ pkt.pktNum → pkt.Fresh
  | some self, .markedAll => ∀ epoch, ∀ pkt ∈ (self.recovery.epochs epoch).sentPackets, pkt.LostOnce
  | _, _ => True

instance : (state : Option Connection) → (event : Event) → Decidable (Event.Accountable state event)
  | some _, .sent pkt _ _ => inferInstanceAs (Decidable pkt.Fresh)
  | some self, .copied fcId packets _ =>
    inferInstanceAs (Decidable (∀ first ∈ self.records fcId, ∀ pkt ∈ packets, first ≤ pkt.pktNum → pkt.Fresh))
  | some self, .markedAll =>
    inferInstanceAs (Decidable (∀ epoch, ∀ pkt ∈ (self.recovery.epochs epoch).sentPackets, pkt.LostOnce))
  | some _, .acked .. => isTrue trivial
  | some _, .lossDetection .. => isTrue trivial
  | some _, .timeout .. => isTrue trivial
  | some _, .discarded .. => isTrue trivial
  | some _, .changed .. => isTrue trivial
  | some _, .initialised .. => isTrue trivial
  | none, _ => isTrue trivial

/-- Recording fresh packets one by one keeps the counters exact. -/
theorem Recovery.Flies.record {recovery : Recovery} (flies : Recovery.Flies 0 recovery) (now : Int)
    {packets : List Sent} (fresh : ∀ pkt ∈ packets, pkt.Fresh) :
    Recovery.Flies 0
      (packets.foldl (fun recovery pkt => recovery.onPacketSent pkt .application now) recovery) := by
  induction packets generalizing recovery with
  | nil => exact flies
  | cons pkt rest ih =>
    apply ih (flies.onPacketSent .application now (fresh pkt List.mem_cons_self))
    exact fun later member => fresh later (List.mem_cons_of_mem _ member)

/-- Every accountable event succeeds and keeps the counters exact. -/
theorem Connection.step_flies (search : List Nat → Nat → Nat) {self : Connection} {event : Event}
    (flies : Recovery.Flies 0 self.recovery) (accountable : Event.Accountable (some self) event) :
    ∃ after, self.step? search event = some after ∧ Recovery.Flies 0 after.recovery := by
  -- One case for each event; those that can fail do not, since no subtraction underflows.
  cases event with
  | sent pkt epoch now => exact ⟨_, rfl, flies.onPacketSent epoch now accountable⟩
  | acked ranges epoch before after now =>
    obtain ⟨result, done, kept⟩ := flies.onAckReceived search ranges epoch before after now
    exact ⟨{ self with recovery := result }, by simp only [Connection.step?, done, Option.map_some], kept⟩
  | lossDetection epoch timing now =>
    obtain ⟨result, done, kept⟩ := flies.detectLostPackets epoch timing now
    exact ⟨{ self with recovery := result }, by simp only [Connection.step?, done, Option.map_some], kept⟩
  | timeout status timing now =>
    obtain ⟨result, done, kept⟩ := flies.onLossDetectionTimeout status timing now
    exact ⟨{ self with recovery := result }, by simp only [Connection.step?, done, Option.map_some], kept⟩
  | discarded epoch =>
    obtain ⟨result, done, kept⟩ := flies.onPktNumSpaceDiscarded epoch
    exact ⟨{ self with recovery := result }, by simp only [Connection.step?, done, Option.map_some], kept⟩
  | markedAll => exact ⟨_, rfl, flies.markAllInflightAsLost accountable⟩
  | copied fcId packets now =>
    refine ⟨_, rfl, ?_⟩
    rw [fcOnNewPktSent_recovery]
    cases records : self.records fcId with
    | none => exact flies
    | some first =>
      apply flies.record now
      intro pkt member
      obtain ⟨sent, above⟩ := List.mem_filter.mp member
      exact accountable first records pkt sent (of_decide_eq_true above)
  | changed flexicast => exact ⟨_, rfl, flies⟩
  | initialised role =>
    -- The flexicast part takes no part in the accounting.
    simp only [Connection.step?]
    split
    · refine ⟨_, rfl, ?_⟩
      cases role with
      | serverUnicast =>
        exact ⟨flies.bytes, fun epoch => ⟨(flies.fair epoch).count, (flies.fair epoch).probes⟩, flies.exact⟩
      | serverFlexicast => exact ⟨flies.bytes, flies.fair, flies.exact⟩
      | client => exact ⟨flies.bytes, flies.fair, flies.exact⟩
      | undefined => exact flies
    · exact ⟨_, rfl, flies⟩

/-- The counters say what is in flight, and nothing was clamped on the way. -/
structure Recovery.Exact (recovery : Recovery) : Prop where
  bytes : recovery.bytesInFlight = recovery.flight
  counts : ∀ epoch, (recovery.epochs epoch).inFlightCount = flightCount (recovery.epochs epoch).sentPackets
  unclamped : recovery.clamped = false

theorem Connection.new_flies (flexicast : Option FcState) (role : McRole) (isFcSource : Bool) :
    Recovery.Flies 0 (Connection.new flexicast role isFcSource).recovery := by
  cases role <;> exact ⟨rfl, fun _ => ⟨rfl, fun _ member => nomatch member⟩, rfl⟩

/-- In every accountable run the counters stay exact, and no subtraction underflows or is clamped. -/
theorem Connection.accounting_exact (search : List Nat → Nat → Nat) (flexicast : Option FcState) (role : McRole)
    (isFcSource : Bool) (events : List Event)
    (accountable : Runs.Along (Connection.next search) Event.Accountable
      (some (Connection.new flexicast role isFcSource)) events) :
    ∃ final, Runs.run (Connection.next search) (some (Connection.new flexicast role isFcSource)) events =
      some final ∧ final.recovery.Exact := by
  -- What every event keeps is that there is a state, and that it counts exactly.
  have step : ∀ state event, (∃ self, state = some self ∧ Recovery.Flies 0 self.recovery) →
      Event.Accountable state event →
      ∃ after, Connection.next search state event = some after ∧ Recovery.Flies 0 after.recovery := by
    intro state event held ok
    obtain ⟨self, shown, flies⟩ := held
    subst shown
    exact Connection.step_flies search flies ok
  have start := Connection.new_flies flexicast role isFcSource
  obtain ⟨final, reached, flies⟩ := accountable.keeps step ⟨_, rfl, start⟩
  exact ⟨final, reached, flies.bytes, fun epoch => (flies.fair epoch).count, flies.exact⟩

/-- How many keys of a sorted list lie below a key: a result that the binary search may give. -/
def firstAtLeast (keys : List Nat) (key : Nat) : Nat := (keys.takeWhile (· < key)).length

/-- A packet of hundred bytes in flight. -/
def flightPacket (pktNum : Nat) : Sent :=
  ⟨pktNum, [], pktNum, none, none, 100, true, true, true, false, false⟩

/-- A round trip of a second. -/
def secondTiming : Timing := ⟨1000000000, 1125000000, 3000000000, 25000000⟩

/-- An acknowledgment of one packet. -/
def ackOf (pktNum : Nat) : AckRanges :=
  ⟨RangeSet.default.insert pktNum (pktNum + 1),
    ⟨(RangeSet.wf_default.insert (Nat.le_succ _)).1, by
      rw [RangeSet.iter_insert RangeSet.wf_default (Nat.le_succ _)]
      exact List.cons_ne_nil _ _⟩⟩

/-- Five packets are sent and the last one is acknowledged, by which the first two are lost. -/
def fiveSent : List Event :=
  (List.range 5).map (fun pktNum => Event.sent (flightPacket pktNum) .application pktNum) ++
    [.acked (ackOf 4) .application secondTiming secondTiming 10]

theorem Connection.accounting_exact_fiveSent :
    Runs.Along (Connection.next firstAtLeast) Event.Accountable (some (Connection.new none .undefined false)) fiveSent ∧
      ∃ final, Runs.run (Connection.next firstAtLeast) (some (Connection.new none .undefined false)) fiveSent =
        some final ∧ final.recovery.Exact := by
  have accountable : Runs.Along (Connection.next firstAtLeast) Event.Accountable
      (some (Connection.new none .undefined false)) fiveSent := by decide
  exact ⟨accountable, Connection.accounting_exact firstAtLeast none .undefined false fiveSent accountable⟩

/-- Marking every packet as lost counts the two lost packets a second time, and the subtraction is clamped. -/
theorem Connection.bulk_loss_clamps :
    ¬ ∀ (search : List Nat → Nat → Nat) (flexicast : Option FcState) (role : McRole) (isFcSource : Bool)
      (events : List Event),
      ∃ final, Runs.run (Connection.next search) (some (Connection.new flexicast role isFcSource)) events =
        some final ∧ final.recovery.Exact := by
  -- The acknowledgment has lost two packets already, whose bytes bulk marking takes out again.
  intro always
  obtain ⟨final, reached, exact⟩ := always firstAtLeast none .undefined false (fiveSent ++ [.markedAll])
  have clamped : (Runs.run (Connection.next firstAtLeast) (some (Connection.new none .undefined false))
      (fiveSent ++ [.markedAll])).map (·.recovery.clamped) = some true := by decide
  rw [reached, Option.map_some, exact.unclamped] at clamped
  exact absurd clamped (by decide)

end Running

end Loss

end Flexicast
