import Flexicast.Channel.Membership
import Flexicast.Recovery.Delegation

/-! Loss detection and the packets in flight, of `recovery/mod.rs` and `flexicast/control.rs`. -/

namespace Flexicast

namespace Loss

open Channel (FcError)

/-- The epochs of packet numbers. -/
inductive Epoch where
  | initial
  | handshake
  | application
  deriving DecidableEq

/-- A decision for every epoch. -/
instance decidableForallEpoch (holds : Epoch → Prop) [∀ epoch, Decidable (holds epoch)] :
    Decidable (∀ epoch, holds epoch) :=
  decidable_of_iff (holds .initial ∧ holds .handshake ∧ holds .application)
    ⟨fun all epoch => match epoch with
      | .initial => all.1
      | .handshake => all.2.1
      | .application => all.2.2,
    fun all => ⟨all _, all _, all _⟩⟩

/-- A packet that was sent, with what the detection of losses reads; instants are integers. -/
structure Sent where
  pktNum : Nat
  frames : List SentFrame
  timeSent : Int
  timeAcked : Option Int
  timeLost : Option Int
  size : Nat
  ackEliciting : Bool
  inFlight : Bool
  hasData : Bool
  pmtud : Bool
  isFcDelegated : Bool
  deriving DecidableEq

/-- What is kept of a packet that was newly acknowledged. -/
structure Acked where
  pktNum : Nat
  timeSent : Int
  size : Nat
  deriving DecidableEq

/-- The recovery state of one epoch. -/
structure RecoveryEpoch where
  timeOfLastAckElicitingPacket : Option Int
  largestAckedPacket : Option Nat
  lossTime : Option Int
  sentPackets : List Sent
  lossProbes : Nat
  inFlightCount : Nat
  ackedFrames : List SentFrame
  lostFrames : List SentFrame
  isFcSource : Bool
  fcNewLostPkt : Option (List Nat)
  deriving DecidableEq

/-- The flexicast part of a recovery. -/
structure FcRecovery where
  fcNewAckPn : List Nat
  fcNewLostPn : List Nat
  deriving DecidableEq

/--
A recovery, without its congestion controller, its round trip estimator and its timer.

The vector of newly acknowledged packets is only used inside `on_ack_received`, and stands in its loop here.
-/
structure Recovery where
  epochs : Epoch → RecoveryEpoch
  ptoCount : Nat
  lostSpuriousCount : Nat
  pktThresh : Nat
  bytesInFlight : Nat
  bytesSent : Nat
  bytesLost : Nat
  outstandingNonAckEliciting : Nat
  fcRecovery : Option FcRecovery
  /-- Whether a saturating or clamped subtraction lost something; the source does not keep this. -/
  clamped : Bool

/-- What the round trip estimator gives when it is asked: times in nanoseconds. -/
structure Timing where
  rtt : Int
  lossDelay : Int
  pto : Int
  maxAckDelay : Int

/-- What the handshake has come to. -/
structure HandshakeStatus where
  hasHandshakeKeys : Bool
  completed : Bool

/-- The smallest time before a packet is deemed lost. -/
def granularity : Int := 1000000

def initialPacketThreshold : Nat := 3

def maxPacketThreshold : Nat := 20

def maxPtoProbesCount : Nat := 2

/-- A subtraction of unsigned integers; no result is an underflow, which panics. -/
def checkedSub (left right : Nat) : Option Nat := if right ≤ left then some (left - right) else none

/-- Replaces the state of an epoch. -/
def Recovery.setEpoch (self : Recovery) (epoch : Epoch) (state : RecoveryEpoch) : Recovery :=
  { self with epochs := fun other => if other = epoch then state else self.epochs other }

section Sending

/-- Records a packet in its epoch. -/
def RecoveryEpoch.record (self : RecoveryEpoch) (pkt : Sent) (now : Int) : RecoveryEpoch :=
  { self with
    timeOfLastAckElicitingPacket :=
      if pkt.inFlight && pkt.ackEliciting then some now else self.timeOfLastAckElicitingPacket
    inFlightCount := if pkt.inFlight then self.inFlightCount + 1 else self.inFlightCount
    sentPackets := self.sentPackets ++ [pkt] }

/-- Records a packet that is sent. -/
def Recovery.onPacketSent (self : Recovery) (pkt : Sent) (epoch : Epoch) (now : Int) : Recovery :=
  { self.setEpoch epoch ((self.epochs epoch).record pkt now) with
    outstandingNonAckEliciting := if pkt.ackEliciting then 0 else self.outstandingNonAckEliciting + 1
    bytesInFlight := if pkt.inFlight then self.bytesInFlight + pkt.size else self.bytesInFlight
    bytesSent := self.bytesSent + pkt.size }

end Sending

section Acknowledging

/-- What the loop over acknowledged packets collects. -/
structure AckLoop where
  inFlightCount : Nat
  ackedBytes : Nat
  spuriousLosses : Nat
  spuriousPktThresh : Option Nat
  newlyAcked : List Acked
  ackedFrames : List SentFrame
  hasAckEliciting : Bool
  hasInFlightSpuriousLoss : Bool

/-- Takes a packet out of the packets in flight, if it is one of them. -/
def landPacket (inFlightCount : Nat) (pkt : Sent) : Option Nat :=
  if pkt.inFlight then checkedSub inFlightCount 1 else some inFlightCount

/-- Acknowledges one packet. -/
def ackPacket (now : Int) (largestAcked : Nat) (unacked : Sent) (loop : AckLoop) : Option (Sent × AckLoop) :=
  if unacked.timeAcked.isSome then
    -- Already acked.
    some (unacked, loop)
  else if unacked.timeLost.isSome then do
    -- An acked packet was already declared lost.
    let distance ← checkedSub largestAcked unacked.pktNum
    return ({ unacked with timeAcked := some now },
      { loop with
        spuriousLosses := loop.spuriousLosses + 1
        spuriousPktThresh := loop.spuriousPktThresh.or (some (distance + 1))
        hasInFlightSpuriousLoss := loop.hasInFlightSpuriousLoss || unacked.inFlight })
  else do
    let inFlightCount ← landPacket loop.inFlightCount unacked
    return ({ unacked with frames := [], timeAcked := some now },
      { loop with
        inFlightCount := inFlightCount
        ackedBytes := if unacked.inFlight then loop.ackedBytes + unacked.size else loop.ackedBytes
        newlyAcked := loop.newlyAcked ++ [⟨unacked.pktNum, unacked.timeSent, unacked.size⟩]
        ackedFrames := loop.ackedFrames ++ unacked.frames
        hasAckEliciting := loop.hasAckEliciting || unacked.ackEliciting })

/-- Acknowledges packets up to the end of a range. -/
def ackRange (now : Int) (largestAcked stop : Nat) : List Sent → AckLoop → Option (List Sent × AckLoop)
  | [], loop => some ([], loop)
  | unacked :: rest, loop =>
    if stop ≤ unacked.pktNum then some (unacked :: rest, loop)
    else do
      let (unacked, loop) ← ackPacket now largestAcked unacked loop
      let (rest, loop) ← ackRange now largestAcked stop rest loop
      return (unacked :: rest, loop)

/-- The first packet that a range can acknowledge: the front one, or where the binary search ends. -/
def rangeStart (search : List Nat → Nat → Nat) (start : Nat) (packets : List Sent) : Nat :=
  match packets with
  | [] => search [] start
  | front :: _ => if start ≤ front.pktNum then 0 else search (packets.map Sent.pktNum) start

/-- Acknowledges the packets of every range. -/
def ackRanges (search : List Nat → Nat → Nat) (now : Int) (largestAcked : Nat) :
    List (Nat × Nat) → List Sent → AckLoop → Option (List Sent × AckLoop)
  | [], packets, loop => some (packets, loop)
  | ack :: more, packets, loop => do
    let start := rangeStart search ack.1 packets
    let (tail, loop) ← ackRange now largestAcked ack.2 (packets.drop start) loop
    ackRanges search now largestAcked more (packets.take start ++ tail) loop

/-- Removes packets that are acknowledged or lost from the front. -/
def drainAckedAndLostPackets (isFcSource : Bool) (lossThresh : Int) : List Sent → List Sent
  | [] => []
  | pkt :: rest =>
    match pkt.timeLost with
    | some timeLost =>
      -- The source keeps a lost packet until it is delegated.
      if lossThresh < timeLost || (isFcSource && !pkt.isFcDelegated) then pkt :: rest
      else drainAckedAndLostPackets isFcSource lossThresh rest
    | none =>
      if pkt.timeAcked.isNone then pkt :: rest
      else drainAckedAndLostPackets isFcSource lossThresh rest

/-- Drains the front of an epoch. -/
def RecoveryEpoch.drain (self : RecoveryEpoch) (lossThresh : Int) : RecoveryEpoch :=
  { self with sentPackets := drainAckedAndLostPackets self.isFcSource lossThresh self.sentPackets }

/-- Marks the acknowledged packets of an epoch; the largest acknowledged one was set before. -/
def RecoveryEpoch.detectAndRemoveAckedPackets (self : RecoveryEpoch) (search : List Nat → Nat → Nat) (now : Int)
    (acked : RangeSet) (rtt : Int) : Option (RecoveryEpoch × AckLoop) := do
  let largestAcked ← self.largestAckedPacket
  let start : AckLoop := ⟨self.inFlightCount, 0, 0, none, [], self.ackedFrames, false, false⟩
  let (packets, loop) ← ackRanges search now largestAcked acked.iter self.sentPackets start
  let self := { self with
    sentPackets := packets, inFlightCount := loop.inFlightCount, ackedFrames := loop.ackedFrames }
  return (self.drain (now - rtt), loop)

end Acknowledging

section Losing

/-- What the loop over lost packets collects. -/
structure LossLoop where
  inFlightCount : Nat
  lostPackets : Nat
  lostBytes : Nat
  pmtudLostBytes : Nat
  largestLostPkt : Option Sent
  lostFrames : List SentFrame
  fcNewLostPkt : Option (List Nat)
  lossTime : Option Int

/-- Marks one packet as lost. -/
def losePacket (isFcSource : Bool) (now : Int) (unacked : Sent) (loop : LossLoop) : Option (Sent × LossLoop) :=
  -- The source keeps the frames of a packet that it will delegate.
  let keeps := isFcSource && !unacked.isFcDelegated
  let marked := { unacked with
    frames := if keeps then unacked.frames else [], timeLost := some now }
  let loop := { loop with
    lostFrames := if keeps then loop.lostFrames else loop.lostFrames ++ unacked.frames
    -- Push the lost packet number for flexicast.
    fcNewLostPkt := loop.fcNewLostPkt.map (· ++ [unacked.pktNum]) }
  if unacked.pmtud then do
    -- Do not track PMTUD probes losses.
    let inFlightCount ← checkedSub loop.inFlightCount 1
    return (marked, { loop with
      inFlightCount := inFlightCount, pmtudLostBytes := loop.pmtudLostBytes + unacked.size })
  else if unacked.inFlight then do
    let inFlightCount ← checkedSub loop.inFlightCount 1
    return (marked, { loop with
      inFlightCount := inFlightCount, lostBytes := loop.lostBytes + unacked.size,
      largestLostPkt := some marked, lostPackets := loop.lostPackets + 1 })
  else
    return (marked, { loop with lostPackets := loop.lostPackets + 1 })

/-- What decides whether a packet is lost. -/
structure LossRule where
  largestAcked : Nat
  pktThresh : Nat
  lossDelay : Int
  now : Int

/-- Whether a packet was sent too long ago, or too many packets behind it were acknowledged. -/
def LossRule.loses (rule : LossRule) (unacked : Sent) : Bool :=
  unacked.timeSent ≤ rule.now - rule.lossDelay || unacked.pktNum + rule.pktThresh ≤ rule.largestAcked

/-- Marks lost packets up to the first that may still arrive. -/
def lostLoop (isFcSource : Bool) (rule : LossRule) : List Sent → LossLoop → Option (List Sent × LossLoop)
  | [], loop => some ([], loop)
  | unacked :: rest, loop =>
    -- Skip packets that follow the largest acked packet.
    if rule.largestAcked < unacked.pktNum then some (unacked :: rest, loop)
    -- Skip packets that have already been acked or lost.
    else if unacked.timeAcked.isSome || unacked.timeLost.isSome then do
      let (rest, loop) ← lostLoop isFcSource rule rest loop
      return (unacked :: rest, loop)
    else if rule.loses unacked then do
      let (unacked, loop) ← losePacket isFcSource rule.now unacked loop
      let (rest, loop) ← lostLoop isFcSource rule rest loop
      return (unacked :: rest, loop)
    else
      some (unacked :: rest, { loop with lossTime := match loop.lossTime with
        | none => some (unacked.timeSent + rule.lossDelay)
        | some lossTime => some (min lossTime (unacked.timeSent + rule.lossDelay)) })

/-- The rule of a pass over an epoch. -/
def RecoveryEpoch.lossRule (self : RecoveryEpoch) (lossDelay : Int) (pktThresh : Nat) (now : Int) : LossRule :=
  ⟨self.largestAckedPacket.getD 0, pktThresh, max lossDelay granularity, now⟩

/-- A pass over an epoch. -/
def RecoveryEpoch.detectLostPackets (self : RecoveryEpoch) (lossDelay : Int) (pktThresh : Nat) (now : Int) :
    Option (RecoveryEpoch × LossLoop) := do
  let start : LossLoop := ⟨self.inFlightCount, 0, 0, 0, none, self.lostFrames, self.fcNewLostPkt, none⟩
  let (packets, loop) ←
    lostLoop self.isFcSource (self.lossRule lossDelay pktThresh now) self.sentPackets start
  let self := { self with
    sentPackets := packets, inFlightCount := loop.inFlightCount, lostFrames := loop.lostFrames
    fcNewLostPkt := loop.fcNewLostPkt, lossTime := loop.lossTime }
  return (self, loop)

/-- Moves the lost packets of an epoch to the controller's vector, which is replaced. -/
def Recovery.notifyLost (self : Recovery) (epoch : Epoch) (state : RecoveryEpoch) : Recovery :=
  match self.fcRecovery, state.fcNewLostPkt with
  | some fc, some lost =>
    { self.setEpoch epoch { state with fcNewLostPkt := some [] } with
      fcRecovery := some { fc with fcNewLostPn := lost } }
  | _, _ => self.setEpoch epoch state

/-- The bytes in flight without the lost ones. -/
def LossLoop.takeFrom (loss : LossLoop) (bytesInFlight : Nat) : Option Nat :=
  -- A pass that lost no packet but probes has no largest lost packet.
  if loss.largestLostPkt.isSome then
    (checkedSub bytesInFlight loss.lostBytes).bind (checkedSub · loss.pmtudLostBytes)
  else checkedSub bytesInFlight loss.pmtudLostBytes

/-- Detects lost packets of an epoch. -/
def Recovery.detectLostPackets (self : Recovery) (epoch : Epoch) (timing : Timing) (now : Int) :
    Option Recovery := do
  let (state, loss) ← (self.epochs epoch).detectLostPackets timing.lossDelay self.pktThresh now
  let self := self.notifyLost epoch state
  let bytesInFlight ← loss.takeFrom self.bytesInFlight
  let self := { self with bytesInFlight := bytesInFlight }
  return self.setEpoch epoch ((self.epochs epoch).drain (now - timing.rtt))

end Losing

section Received

/-- Stores an epoch whose acknowledged packets were marked, with what follows from them. -/
def Recovery.recordAcked (self : Recovery) (epoch : Epoch) (state : RecoveryEpoch) (loop : AckLoop) : Recovery :=
  { self.setEpoch epoch state with
    -- Push newly acked.
    fcRecovery := self.fcRecovery.map fun fc =>
      { fc with fcNewAckPn := fc.fcNewAckPn ++ loop.newlyAcked.map Acked.pktNum }
    lostSpuriousCount := self.lostSpuriousCount + loop.spuriousLosses
    pktThresh := match loop.spuriousPktThresh with
      | some thresh => max self.pktThresh (min thresh maxPacketThreshold)
      | none => self.pktThresh }

/-- Marks the acknowledged packets of an epoch. -/
def Recovery.markAcked (self : Recovery) (search : List Nat → Nat → Nat) (ranges : RangeSet) (epoch : Epoch)
    (rtt now : Int) : Option (Recovery × AckLoop) := do
  let largestAcked ← ranges.last
  let state := self.epochs epoch
  let state := { state with
    largestAckedPacket := some (max (state.largestAckedPacket.getD 0) largestAcked) }
  let (state, loop) ← state.detectAndRemoveAckedPackets search now ranges rtt
  return (self.recordAcked epoch state loop, loop)

/-- Detects lost packets after some were acknowledged, and takes the acknowledged bytes out of flight. -/
def Recovery.settleAcked (self : Recovery) (epoch : Epoch) (ackedBytes : Nat) (timing : Timing) (now : Int) :
    Option Recovery := do
  let self ← self.detectLostPackets epoch timing now
  let bytesInFlight ← checkedSub self.bytesInFlight ackedBytes
  let self := { self with bytesInFlight := bytesInFlight, ptoCount := 0 }
  return self.setEpoch epoch ((self.epochs epoch).drain (now - timing.rtt))

/-- Handles an acknowledgment; the round trip is estimated anew between its two parts. -/
def Recovery.onAckReceived (self : Recovery) (search : List Nat → Nat → Nat) (ranges : RangeSet) (epoch : Epoch)
    (before after : Timing) (now : Int) : Option Recovery := do
  let (self, loop) ← self.markAcked search ranges epoch before.rtt now
  if loop.newlyAcked.isEmpty then return self
  else self.settleAcked epoch loop.ackedBytes after now

end Received

section Timeout

/-- The order of optional instants, in which no instant comes first. -/
def instantLt : Option Int → Option Int → Bool
  | none, some _ => true
  | some left, some right => left < right
  | _, none => false

/-- The earlier of two candidates, as the loops over the epochs choose it. -/
def earlier (held new : Option Int × Epoch) : Option Int × Epoch :=
  if held.1.isNone || instantLt new.1 held.1 then new else held

/-- The loss time that comes first, and its epoch. -/
def Recovery.lossTimeAndSpace (self : Recovery) : Option Int × Epoch :=
  [Epoch.handshake, Epoch.application].foldl (fun held epoch => earlier held ((self.epochs epoch).lossTime, epoch))
    ((self.epochs .initial).lossTime, .initial)

/-- When an epoch is probed. -/
def RecoveryEpoch.probeTime (self : RecoveryEpoch) (duration : Int) : Option Int :=
  self.timeOfLastAckElicitingPacket.map (· + duration)

/-- The probe timeout that comes first, and its epoch. -/
def Recovery.ptoTimeAndSpace (self : Recovery) (status : HandshakeStatus) (timing : Timing) (now : Int) :
    Option Int × Epoch :=
  let duration := timing.pto * (2 ^ self.ptoCount : Nat)
  -- Arm PTO from now when there are no inflight packets.
  if self.bytesInFlight = 0 then
    (some (now + duration), if status.hasHandshakeKeys then .handshake else .initial)
  else
    let held := [Epoch.initial, Epoch.handshake].foldl (fun held epoch =>
      if (self.epochs epoch).inFlightCount = 0 then held
      else earlier held ((self.epochs epoch).probeTime duration, epoch)) (none, .initial)
    -- Skip Application Data until handshake completes.
    if (self.epochs .application).inFlightCount = 0 || !status.completed then held
    else
      -- Include max_ack_delay and backoff for Application Data.
      let duration := duration + timing.maxAckDelay * (2 ^ self.ptoCount : Nat)
      earlier held ((self.epochs .application).probeTime duration, .application)

/-- Schedules the data of the oldest packets again, without declaring them lost. -/
def RecoveryEpoch.probe (self : RecoveryEpoch) (lossProbes : Nat) : RecoveryEpoch :=
  let unacked := (self.sentPackets.filter fun pkt =>
    pkt.hasData && pkt.timeAcked.isNone && pkt.timeLost.isNone).take lossProbes
  { self with lossProbes := lossProbes, lostFrames := self.lostFrames ++ unacked.flatMap Sent.frames }

/-- The epoch that is probed when nothing is lost by time. -/
def Recovery.probedSpace (self : Recovery) (status : HandshakeStatus) (timing : Timing) (now : Int) : Epoch :=
  if 0 < self.bytesInFlight then (self.ptoTimeAndSpace status timing now).2
  else if status.hasHandshakeKeys then .handshake else .initial

/-- Handles the timer of the loss detection. -/
def Recovery.onLossDetectionTimeout (self : Recovery) (status : HandshakeStatus) (timing : Timing) (now : Int) :
    Option Recovery :=
  let earliest := self.lossTimeAndSpace
  -- Time threshold loss detection.
  if earliest.1.isSome then self.detectLostPackets earliest.2 timing now
  else
    let epoch := self.probedSpace status timing now
    let self := { self with ptoCount := self.ptoCount + 1 }
    some (self.setEpoch epoch ((self.epochs epoch).probe (min self.ptoCount maxPtoProbesCount)))

end Timeout

section Leaving

/-- Whether a packet counts as in flight. -/
def Sent.outstanding (pkt : Sent) : Bool := pkt.inFlight && pkt.timeAcked.isNone && pkt.timeLost.isNone

/-- The bytes of the packets in flight. -/
def flightBytes (packets : List Sent) : Nat := ((packets.filter Sent.outstanding).map Sent.size).sum

/-- An epoch without its packets and frames. -/
def RecoveryEpoch.cleared (self : RecoveryEpoch) : RecoveryEpoch :=
  { self with
    sentPackets := [], lostFrames := [], ackedFrames := []
    timeOfLastAckElicitingPacket := none, lossTime := none, lossProbes := 0, inFlightCount := 0 }

/-- Forgets an epoch. -/
def Recovery.onPktNumSpaceDiscarded (self : Recovery) (epoch : Epoch) : Option Recovery := do
  let state := self.epochs epoch
  let bytesInFlight ← checkedSub self.bytesInFlight (flightBytes state.sentPackets)
  return { self.setEpoch epoch state.cleared with bytesInFlight := bytesInFlight }

/-- What the loop that marks every packet as lost collects. -/
structure MarkLoop where
  inFlightCount : Nat
  epochLostBytes : Nat
  lostFrames : List SentFrame
  hasLost : Bool
  saturated : Bool

/-- Marks one packet as lost, unless it was acknowledged. -/
def markPacket (loop : MarkLoop) (sent : Sent) : MarkLoop :=
  if sent.timeAcked.isSome then loop
  else
    let loop := { loop with lostFrames := loop.lostFrames ++ sent.frames }
    if sent.inFlight then
      { loop with
        epochLostBytes := loop.epochLostBytes + sent.size
        inFlightCount := loop.inFlightCount - 1
        hasLost := true
        saturated := loop.saturated || loop.inFlightCount = 0 }
    else loop

/-- The loop that marks every packet of an epoch as lost. -/
def RecoveryEpoch.markLoop (self : RecoveryEpoch) : MarkLoop :=
  self.sentPackets.foldl markPacket ⟨self.inFlightCount, 0, self.lostFrames, false, false⟩

/-- An epoch whose packets were marked as lost. -/
def RecoveryEpoch.marked (self : RecoveryEpoch) (loop : MarkLoop) : RecoveryEpoch :=
  { self with sentPackets := [], inFlightCount := loop.inFlightCount, lostFrames := loop.lostFrames }

/-- Stores what the loop over an epoch collected. -/
def Recovery.storeMarked (self : Recovery) (epoch : Epoch) (loop : MarkLoop) : Recovery :=
  let self := { self.setEpoch epoch ((self.epochs epoch).marked loop) with
    bytesLost := self.bytesLost + loop.epochLostBytes
    clamped := self.clamped || loop.saturated }
  if loop.hasLost then
    if self.bytesInFlight < loop.epochLostBytes then { self with bytesInFlight := 0, clamped := true }
    else { self with bytesInFlight := self.bytesInFlight - loop.epochLostBytes }
  else self

/-- Marks every packet of an epoch as lost, and forgets them. -/
def Recovery.markEpoch (self : Recovery) (epoch : Epoch) : Recovery :=
  self.storeMarked epoch (self.epochs epoch).markLoop

/-- Marks every packet as lost. -/
def Recovery.markAllInflightAsLost (self : Recovery) : Recovery :=
  [Epoch.initial, Epoch.handshake, Epoch.application].foldl Recovery.markEpoch self

end Leaving

section Copying

/-- The roles of a connection, as far as its recovery goes: it never looks at the status of the client. -/
abbrev McRole := Channel.RoleOf Unit

/-- What decides whether a connection records the packets of a flexicast flow. -/
structure FcState where
  role : McRole
  /-- The number behind the highest packet that was recorded, when the flow is reliable. -/
  fcHighestPn : Option (Option Nat)
  fcChanId : Option Nat
  hasPath : Bool
  deriving DecidableEq

/-- A connection: its flexicast state and the recovery of its flexicast path. -/
structure Connection where
  flexicast : Option FcState
  recovery : Recovery

/-- Records packets that were sent on the flexicast flow, and what the call returns. -/
def Connection.fcOnNewPktSent (self : Connection) (fcId : Nat) (sent : List Sent) (now : Int) :
    Connection × Except FcError Unit :=
  match self.flexicast with
  | none => (self, .error .mcDisabled)
  | some flexicast =>
    if flexicast.role ≠ .serverUnicast () then (self, .error .mcInvalidRole)
    else
      match flexicast.fcHighestPn with
      | none => (self, .error .mcReliableDisabled)
      | some highestPn =>
        -- Update the new highest packet number.
        let flexicast := match sent.getLast? with
          | some last => { flexicast with fcHighestPn := some (some (last.pktNum + 1)) }
          | none => flexicast
        let self := { self with flexicast := some flexicast }
        -- During a channel change "old" sent packets may come.
        if flexicast.fcChanId ≠ some fcId then (self, .ok ())
        else if !flexicast.hasPath then (self, .error .mcPath)
        else
          let fresh := sent.filter fun pkt => highestPn.getD 0 ≤ pkt.pktNum
          ({ self with
            recovery := fresh.foldl (fun recovery pkt => recovery.onPacketSent pkt .application now) self.recovery },
            .ok ())

end Copying

section Starting

/-- A new epoch. -/
def RecoveryEpoch.new : RecoveryEpoch := ⟨none, none, none, [], 0, 0, [], [], false, none⟩

/-- A new recovery. -/
def Recovery.new : Recovery :=
  ⟨fun _ => .new, 0, 0, initialPacketThreshold, 0, 0, 0, 0, none, false⟩

/-- Sets up the flexicast part of a recovery. -/
def Recovery.initFcRecoveryState (self : Recovery) : McRole → Recovery
  | .serverFlexicast => { self with fcRecovery := some ⟨[], []⟩ }
  | .serverUnicast _ => { self with
      fcRecovery := some ⟨[], []⟩
      epochs := fun epoch => { self.epochs epoch with fcNewLostPkt := some [] } }
  | .client _ => { self with fcRecovery := some ⟨[], []⟩ }
  | .undefined => self

/-- Marks every epoch as that of the flexicast source. -/
def Recovery.setFcRecoveryEpoch (self : Recovery) (isFcSource : Bool) : Recovery :=
  { self with epochs := fun epoch => { self.epochs epoch with isFcSource := isFcSource } }

/-- A new connection, with its role and whether it is the flexicast source. -/
def Connection.new (flexicast : Option FcState) (role : McRole) (isFcSource : Bool) : Connection :=
  ⟨flexicast, (Recovery.new.initFcRecoveryState role).setFcRecoveryEpoch isFcSource⟩

end Starting

section Stepping

/-- Ranges of an acknowledgment, as the parser builds them. -/
abbrev AckRanges := { ranges : RangeSet // Intervals.Separated ranges.iter ∧ ranges.iter ≠ [] }

/-- What happens to a recovery. -/
inductive Event where
  | sent (pkt : Sent) (epoch : Epoch) (now : Int)
  | acked (ranges : AckRanges) (epoch : Epoch) (before after : Timing) (now : Int)
  | lossDetection (epoch : Epoch) (timing : Timing) (now : Int)
  | timeout (status : HandshakeStatus) (timing : Timing) (now : Int)
  | discarded (epoch : Epoch)
  | markedAll
  /-- Packets are copied from the flexicast source. -/
  | copied (fcId : Nat) (sent : List Sent) (now : Int)
  | changed (flexicast : Option FcState)
  /-- An acknowledgment of a path finds no flexicast part. -/
  | initialised (role : McRole)

/-- One event; no result means that the program panics. -/
def Connection.step? (search : List Nat → Nat → Nat) (self : Connection) : Event → Option Connection
  | .sent pkt epoch now => some { self with recovery := self.recovery.onPacketSent pkt epoch now }
  | .acked ranges epoch before after now =>
    (self.recovery.onAckReceived search ranges.1 epoch before after now).map ({ self with recovery := · })
  | .lossDetection epoch timing now =>
    (self.recovery.detectLostPackets epoch timing now).map ({ self with recovery := · })
  | .timeout status timing now =>
    (self.recovery.onLossDetectionTimeout status timing now).map ({ self with recovery := · })
  | .discarded epoch => (self.recovery.onPktNumSpaceDiscarded epoch).map ({ self with recovery := · })
  | .markedAll => some { self with recovery := self.recovery.markAllInflightAsLost }
  | .copied fcId sent now => some (self.fcOnNewPktSent fcId sent now).1
  | .changed flexicast => some { self with flexicast := flexicast }
  | .initialised role =>
    if self.recovery.fcRecovery.isNone then
      some { self with recovery := self.recovery.initFcRecoveryState role }
    else some self

/-- One event, after which there is no state once the program has panicked. -/
def Connection.next (search : List Nat → Nat → Nat) (state : Option Connection) (event : Event) :
    Option Connection :=
  state.bind fun self => self.step? search event

end Stepping

end Loss

end Flexicast
