import Flexicast.Recovery.Delegation

/-! The source of a flow: what it sends, loses, learns to be received and delegates. -/

namespace Flexicast

/-- Whether a packet number lies in acknowledged ranges. -/
def inRanges (ranges : RangeSet) (pn : Nat) : Bool :=
  ranges.iter.any fun range => decide (range.1 ≤ pn) && decide (pn < range.2)

/-- Marks the acknowledged packets, and returns the frames of those that were not lost before. -/
def ackPackets (acked : RangeSet) : List Sent → List Sent × List SentFrame
  | [] => ([], [])
  | packet :: rest =>
    let (rest, frames) := ackPackets acked rest
    if !inRanges acked packet.pktNum || packet.isAcked then (packet :: rest, frames)
    -- A packet that was declared lost keeps its frames.
    else if packet.isLost then ({ packet with isAcked := true } :: rest, frames)
    else ({ packet with isAcked := true, frames := [] } :: rest, packet.frames ++ frames)

/-- Drops the packets at the front that are done with; lost ones only once they were delegated. -/
def drainSent (expired : Nat → Bool) : List Sent → List Sent
  | [] => []
  | packet :: rest =>
    if packet.isLost && (!expired packet.pktNum || !packet.isFcDelegated) then packet :: rest
    else if !packet.isAcked && !packet.isLost then packet :: rest
    else drainSent expired rest

/-- Marks a packet as lost; a source keeps the frames of one that it did not delegate. -/
def losePacket (pn : Nat) (packet : Sent) : Sent :=
  if packet.pktNum == pn && !packet.isAcked && !packet.isLost then
    { packet with isLost := true, frames := if packet.isFcDelegated then [] else packet.frames }
  else packet

/-- What the streams learn from an acknowledged frame. -/
def ackFrame (streams : StreamMap) : SentFrame → StreamMap
  | .streamHeader streamId off len _ => streams.onStreamAcked streamId off len
  | .other => streams

namespace Source

/-- Gives the packets that all receivers have to the source; no result means an underflow. -/
def fcOnAckReceived (source : Source) (ranges : RangeSet) (expired : Nat → Bool) : Option Source :=
  let (packets, frames) := ackPackets ranges source.packets
  let packets := drainSent expired packets
  match source.mcAck.drainPackets (packets.head?.map Sent.pktNum) with
  | none => none
  | some mcAck => some ⟨packets, frames.foldl ackFrame source.streams, mcAck⟩

/-- Gives a range of a stream that all receivers have to the source. -/
def fcOnStreamAckReceived (source : Source) (streamId off len : Nat) : Source :=
  { source with streams := source.streams.onStreamAcked streamId off len }

/-- Takes the next data of a stream into a packet. -/
def sendPart (state : StreamMap × List SentFrame) (part : Nat × Nat) : StreamMap × List SentFrame :=
  match state.1.get part.1 with
  | none => state
  | some stream =>
    match stream.send.emit part.2 with
    | (.error _, send) => (state.1.set part.1 { stream with send := send }, state.2)
    | (.ok (out, fin), send) =>
      (state.1.set part.1 { stream with send := send },
        state.2 ++ [.streamHeader part.1 stream.send.main.offFront out.length fin])

end Source

/-- What happens to the source of a flow. -/
inductive SourceEvent where
  | create (streamId : Nat) (localParams peerParams : StreamParams) (isLocal isServer : Bool)
  | write (streamId : Nat) (data : Bytes) (fin : Bool)
  /-- A packet is sent with the next data of some streams, each within a size. -/
  | send (pktNum : Nat) (parts : List (Nat × Nat))
  /-- A packet is declared lost. -/
  | lose (pktNum : Nat)
  /-- Packets are received by all receivers. -/
  | ack (ranges : RangeSet) (expired : Nat → Bool)
  /-- A range of a stream is received by all receivers. -/
  | streamAck (streamId off len : Nat)
  /-- The limit of flow control on a stream is raised. -/
  | maxData (streamId limit : Nat)
  | shutDown (streamId : Nat)
  | stop (streamId code : Nat)
  /-- Lost packets are delegated to a unicast connection. -/
  | delegate (uc : Unicast) (kind : FcUnicastRetransmission)
  /-- The pieces of lost packets are collected for a controller. -/
  | gather (kind : FcUnicastRetransmission)

/-- The source of a flow, with the history that it does not keep itself. -/
structure SourceRun where
  source : Source
  written : Nat → Bytes
  pieces : List FcDelegatedStream

namespace SourceRun

/-- A source before its first stream. -/
def start (maxStreamsBidi maxStreamsUni maxStreamWindow peerMaxBidi peerMaxUni : Nat) : SourceRun where
  source :=
    { packets := []
      streams :=
        { StreamMap.new maxStreamsBidi maxStreamsUni maxStreamWindow with
          peerMaxStreamsBidi := peerMaxBidi
          peerMaxStreamsUni := peerMaxUni }
      mcAck := McAck.new }
  written := fun _ => []
  pieces := []

/-- A send buffer after an attempt to shut it down. -/
def shutSend (send : SendBuf) : SendBuf :=
  match send.shutDown with
  | .error _ => send
  | .ok (_, send) => send

/-- A send buffer after a request to stop sending. -/
def stopSend (code : Nat) (send : SendBuf) : SendBuf :=
  match send.stop code with
  | .error _ => send
  | .ok (_, send) => send

/-- Changes the send buffer of a stream, if it is there. -/
def withSend (streams : StreamMap) (streamId : Nat) (f : SendBuf → SendBuf) : StreamMap :=
  match streams.get streamId with
  | none => streams
  | some stream => streams.set streamId { stream with send := { stream.send with main := f stream.send.main } }

/-- One step of the source. -/
def next (run : SourceRun) : SourceEvent → SourceRun
  | .create streamId localParams peerParams isLocal isServer =>
    match run.source.streams.getOrCreate streamId localParams peerParams isLocal isServer with
    | .error _ => run
    | .ok (_, streams) => { run with source := { run.source with streams := streams } }
  | .write streamId data fin =>
    match run.source.streams.get streamId with
    | none => run
    | some stream =>
      match stream.send.write data fin with
      | .error _ => run
      | .ok (count, send) =>
        { run with
          source := { run.source with streams := run.source.streams.set streamId { stream with send := send } }
          written := fun id =>
            if id = streamId then run.written id ++ data.take count else run.written id }
  | .send pktNum parts =>
    let (streams, frames) := parts.foldl Source.sendPart (run.source.streams, [])
    { run with
      source :=
        { run.source with
          streams := streams
          packets := run.source.packets ++ [⟨pktNum, frames, false, false, false⟩] } }
  | .lose pktNum =>
    { run with source := { run.source with packets := run.source.packets.map (losePacket pktNum) } }
  | .ack ranges expired =>
    match run.source.fcOnAckReceived ranges expired with
    | none => run
    | some source => { run with source := source }
  | .streamAck streamId off len =>
    { run with source := run.source.fcOnStreamAckReceived streamId off len }
  | .maxData streamId limit =>
    { run with
      source :=
        { run.source with
          streams := withSend run.source.streams streamId fun send => send.updateMaxData limit } }
  | .shutDown streamId =>
    { run with
      source :=
        { run.source with
          streams := withSend run.source.streams streamId shutSend } }
  | .stop streamId code =>
    { run with
      source :=
        { run.source with
          streams := withSend run.source.streams streamId (stopSend code) } }
  | .delegate uc kind =>
    { run with
      source := (run.source.rfcDelegateStreams uc kind).source
      pieces := run.pieces ++ (run.source.rfcDelegateStreams uc kind).pieces }
  | .gather kind =>
    -- The pieces that were pushed before an error are on record as well.
    { run with
      source := (run.source.fcGetDelegatedStream kind).2
      pieces := run.pieces ++ (Source.gatherPackets kind run.source.packets run.source.streams []).2.2.2 }

/-- What the receivers promise: a range that they all have was written. -/
def Allowed (run : SourceRun) : SourceEvent → Prop
  | .streamAck streamId off len => len = 0 ∨ off + len ≤ (run.written streamId).length
  | _ => True

instance (run : SourceRun) : (event : SourceEvent) → Decidable (run.Allowed event)
  | .streamAck streamId off len =>
    inferInstanceAs (Decidable (len = 0 ∨ off + len ≤ (run.written streamId).length))
  | .create _ _ _ _ _ => isTrue trivial
  | .write _ _ _ => isTrue trivial
  | .send _ _ => isTrue trivial
  | .lose _ => isTrue trivial
  | .ack _ _ => isTrue trivial
  | .maxData _ _ => isTrue trivial
  | .shutDown _ => isTrue trivial
  | .stop _ _ => isTrue trivial
  | .delegate _ _ => isTrue trivial
  | .gather _ => isTrue trivial

end SourceRun

end Flexicast
