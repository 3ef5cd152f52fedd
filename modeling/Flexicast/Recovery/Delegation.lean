import Flexicast.Ack.McAck
import Flexicast.Stream.Streams

/-! Delegation of lost STREAM frames, of `recovery/flexicast.rs` and `flexicast/reliable.rs`. -/

namespace Flexicast

/-- A frame of a packet that was sent. -/
inductive SentFrame where
  | streamHeader (streamId off len : Nat) (fin : Bool)
  /-- Any other frame, which is not delegated. -/
  | other
  deriving DecidableEq

/-- A packet that was sent, as far as its delegation goes; `Loss.Sent` has what the detection of losses reads. -/
structure Sent where
  pktNum : Nat
  frames : List SentFrame
  /-- Whether the packet was acknowledged. -/
  isAcked : Bool
  /-- Whether the packet was declared lost. -/
  isLost : Bool
  /-- Whether the packet was delegated to the unicast paths. -/
  isFcDelegated : Bool
  deriving DecidableEq

/-- The kinds of unicast retransmission. -/
inductive FcUnicastRetransmission where
  /-- Packets that the source lost are delegated, and counted as such when the flag is set. -/
  | delegates (sure : Bool)
  /-- Everything is sent again, to a receiver that falls back on unicast. -/
  | fullRetransmit
  /-- The packets that this receiver lost are sent again. -/
  | perUcPath (lost : List Nat)
  deriving DecidableEq

namespace FcUnicastRetransmission

/-- Whether the pieces are delegated, that is counted by the aggregators. -/
def isDelegates : FcUnicastRetransmission → Bool
  | .delegates _ => true
  | _ => false

/-- Whether the packets are delegated for sure, that is marked and emptied. -/
def isSure : FcUnicastRetransmission → Bool
  | .delegates sure => sure
  | _ => false

/-- The packets that this receiver lost. -/
def recvAck : FcUnicastRetransmission → List Nat
  | .perUcPath lost => lost
  | _ => []

/-- The loop over the sent packets goes on at a packet. -/
def goesOn (kind : FcUnicastRetransmission) (packet : Sent) : Bool :=
  packet.isLost || packet.isAcked || kind == .fullRetransmit || !kind.recvAck.isEmpty

/-- The loop over the sent packets handles a packet. -/
def picks (kind : FcUnicastRetransmission) (packet : Sent) : Bool :=
  packet.isLost || kind == .fullRetransmit || kind.recvAck.contains packet.pktNum

end FcUnicastRetransmission

/-- What a unicast path keeps for reliable delivery of the flow. -/
structure RFcUcPath where
  /-- Packets of the flow that the receiver acknowledged. -/
  fcPnRecv : RangeSet
  /-- The aggregator of the unicast path. -/
  mcAck : McAck
  deriving DecidableEq

/-- A unicast connection that serves a receiver. -/
structure Unicast where
  streams : StreamMap
  localParams : StreamParams
  peerParams : StreamParams
  /-- Whether this endpoint is the server. -/
  isServer : Bool
  /-- Whether the receiver listens to the flow. -/
  listens : Bool
  /-- The state for reliable delivery, when this is a unicast path. -/
  server : Option RFcUcPath
  deriving DecidableEq

/-- A piece of a stream that is given to a unicast connection. -/
structure FcDelegatedStream where
  streamId : Nat
  off : Nat
  payload : Bytes
  /-- The number of the packet that was lost. -/
  pn : Nat
  /-- Whether the piece ends the stream. -/
  fin : Bool
  deriving DecidableEq

/--
Reads a piece back from a send buffer, by marking it to be sent again and sending it.

What is returned fills a buffer of zeros, and its length is not looked at.
No payload means that the send buffer reported a wrong final size.
-/
def fetch (send : RotSendBuf) (off len : Nat) : Option Bytes × RotSendBuf :=
  match (send.retransmit off len).emit len with
  | (.error .finalSize, send) => (none, send)
  | (.error _, send) => (some (List.replicate len 0), send)
  | (.ok (out, _), send) => (some (out ++ List.replicate (len - out.length) 0), send)

/-- What the loop of `delegate_streams` changes. -/
structure Delegation where
  streams : StreamMap
  mcAck : McAck
  uc : Unicast
  /-- The number of STREAM frames that the receiver lost. -/
  nbLostMcStreamFrames : Nat
  /-- The pieces that were given to the unicast connection. -/
  pieces : List FcDelegatedStream
  deriving DecidableEq

namespace Delegation

/-- The unicast stream that a piece is written to, and the streams with it. -/
def ucStream (state : Delegation) (streamId : Nat) (isLocal : Bool) : Except StreamError (Stream × StreamMap) :=
  state.uc.streams.getOrCreate streamId state.uc.localParams state.uc.peerParams isLocal state.uc.isServer

/-- Counts a piece in the aggregator of the source. -/
def countSource (kind : FcUnicastRetransmission) (streamId off len : Nat) (state : Delegation) : Delegation :=
  if kind.isDelegates then { state with mcAck := state.mcAck.delegate streamId off len } else state

/-- Counts a piece in the aggregator of the unicast connection. -/
def countUnicast (kind : FcUnicastRetransmission) (streamId off len : Nat) (state : Delegation) : Delegation :=
  if kind.isDelegates then
    { state with
      uc :=
        { state.uc with
          server := state.uc.server.map fun rfc =>
            { rfc with mcAck := rfc.mcAck.delegate streamId off len } } }
  else state

/-- Gives a piece to the unicast connection, where it is written at its offset. -/
def writePiece (kind : FcUnicastRetransmission) (piece : FcDelegatedStream) (stream : Stream)
    (state : Delegation) : Except StreamError Unit × Delegation :=
  let (result, send) := stream.send.writeAtOffset piece.payload piece.off piece.fin
  let state :=
    { state with
      uc := { state.uc with streams := state.uc.streams.set piece.streamId { stream with send := send } }
      pieces := state.pieces ++ [piece] }
  match result with
  | .ok _ => (.ok (), state.countUnicast kind piece.streamId piece.off piece.payload.length)
  -- A lower offset than before is passed over.
  | .error .finalSize => (.ok (), state)
  | .error error => (.error error, state)

/-- Delegates a frame of a lost packet. -/
def delegateFrame (kind : FcUnicastRetransmission) (pn : Nat) (state : Delegation) :
    SentFrame → Except StreamError Unit × Delegation
  | .other => (.ok (), state)
  | .streamHeader streamId off len fin =>
    let state := { state with nbLostMcStreamFrames := state.nbLostMcStreamFrames + 1 }
    match state.streams.get streamId with
    | none => (.error (.invalidStreamState streamId), state)
    | some streamFc =>
      match state.ucStream streamId streamFc.isLocal with
      | .error error =>
        -- A stream that the unicast connection collected is passed over.
        if error = .done ∧ state.uc.streams.isCollected streamId = true then (.ok (), state)
        else (.error error, state)
      | .ok (streamUc, ucStreams) =>
        let (payload, send) := fetch streamFc.send off len
        let state :=
          { state with
            streams := state.streams.set streamId { streamFc with send := send }
            uc := { state.uc with streams := ucStreams } }
        match payload with
        | none => (.ok (), state)
        | some payload =>
          (state.countSource kind streamId off len).writePiece kind ⟨streamId, off, payload, pn, fin⟩ streamUc

/-- The loop over the frames of a lost packet, which an error ends. -/
def delegateFrames (kind : FcUnicastRetransmission) (pn : Nat) :
    List SentFrame → Delegation → Except StreamError Unit × Delegation
  | [], state => (.ok (), state)
  | frame :: rest, state =>
    match state.delegateFrame kind pn frame with
    | (.error error, state) => (.error error, state)
    | (.ok _, state) => delegateFrames kind pn rest state

end Delegation

/-- Whether a receiver acknowledged a packet. -/
def received (recvPn : RangeSet) (pn : Nat) : Bool :=
  recvPn.iter.any fun range => decide (range.1 ≤ pn) && decide (pn ≤ range.2 - 1)

/-- What the loop over the packets carries along. -/
structure PacketLoop where
  /-- The streams, aggregators and pieces. -/
  state : Delegation
  /-- The packets that the receiver lost. -/
  lostPn : RangeSet
  lastPktNum : Option Nat
  deriving DecidableEq

/-- Marks a packet as delegated. -/
def Sent.mark (packet : Sent) (kind : FcUnicastRetransmission) : Sent :=
  if kind.isSure then { packet with isFcDelegated := true } else packet

/-- Empties a packet that was delegated. -/
def Sent.drain (packet : Sent) (kind : FcUnicastRetransmission) : Sent :=
  if kind.isSure then { packet with frames := [] } else packet

/-- The loop of `delegate_streams` over the sent packets. -/
def delegatePackets (kind : FcUnicastRetransmission) (recvPn : RangeSet) :
    List Sent → PacketLoop → Except StreamError Unit × List Sent × PacketLoop
  | [], loop => (.ok (), [], loop)
  | packet :: rest, loop =>
    if !kind.goesOn packet then (.ok (), packet :: rest, loop)
    else if !kind.picks packet then
      let (result, rest, loop) := delegatePackets kind recvPn rest loop
      (result, packet :: rest, loop)
    else
      -- A packet that the receiver has is only marked and emptied.
      let (result, state) :=
        if received recvPn packet.pktNum then (.ok (), loop.state)
        else Delegation.delegateFrames kind packet.pktNum packet.frames loop.state
      let lostPn :=
        if received recvPn packet.pktNum then loop.lostPn
        else loop.lostPn.insert packet.pktNum (packet.pktNum + 1)
      match result with
      | .error error => (.error error, packet.mark kind :: rest, ⟨state, lostPn, loop.lastPktNum⟩)
      | .ok _ =>
        let (result, rest, loop) := delegatePackets kind recvPn rest ⟨state, lostPn, some packet.pktNum⟩
        (result, (packet.mark kind).drain kind :: rest, loop)

/-- The source of a flow. -/
structure Source where
  packets : List Sent
  streams : StreamMap
  mcAck : McAck
  deriving DecidableEq

namespace Source

/-- The packets acknowledged by the receiver of a unicast connection. -/
def recvPn (uc : Unicast) : RangeSet :=
  match uc.server with
  | some rfc => rfc.fcPnRecv
  | none => RangeSet.default

/-- A retransmission on a single path counts as an acknowledgment of its packets. -/
def ackLost (mcAck : McAck) : FcUnicastRetransmission → McAck
  | .perUcPath lost =>
    mcAck.onAckReceived (lost.foldl (fun ranges pn => ranges.insert pn (pn + 1)) RangeSet.default)
  | _ => mcAck

/-- The result of `delegate_streams`, with what it changes and the pieces it gives away. -/
structure DelegateResult where
  /-- The number of lost STREAM frames, and the packets lost and received. -/
  result : Except StreamError (Nat × RangeSet × RangeSet)
  source : Source
  uc : Unicast
  /-- The pieces that were given to the unicast connection, in order. -/
  pieces : List FcDelegatedStream

/-- The start of the loop of `delegate_streams`. -/
def startLoop (source : Source) (uc : Unicast) (kind : FcUnicastRetransmission) : PacketLoop :=
  ⟨⟨source.streams, ackLost source.mcAck kind, uc, 0, []⟩, RangeSet.default, none⟩

/-- Delegates the streams of lost packets to a unicast connection. -/
def delegateStreams (source : Source) (uc : Unicast) (kind : FcUnicastRetransmission) : DelegateResult :=
  let (result, packets, loop) :=
    delegatePackets kind (recvPn uc) source.packets (source.startLoop uc kind)
  let source := ⟨packets, loop.state.streams, loop.state.mcAck⟩
  match result with
  | .error error => ⟨.error error, source, loop.state.uc, loop.state.pieces⟩
  | .ok _ =>
    let value := (loop.state.nbLostMcStreamFrames, loop.lostPn, recvPn uc)
    match loop.lastPktNum with
    | none => ⟨.ok value, source, loop.state.uc, loop.state.pieces⟩
    | some lastPn =>
      -- The packets that were handled are forgotten.
      match loop.state.uc.server with
      | none => ⟨.error .aborted, source, loop.state.uc, loop.state.pieces⟩
      | some rfc =>
        ⟨.ok value, source,
          { loop.state.uc with server := some { rfc with fcPnRecv := rfc.fcPnRecv.removeUntil lastPn } },
          loop.state.pieces⟩

/-- The flow delegates lost STREAM frames to a unicast path, if its receiver listens. -/
def rfcDelegateStreams (source : Source) (uc : Unicast) (kind : FcUnicastRetransmission) : DelegateResult :=
  if uc.listens then source.delegateStreams uc kind
  else ⟨.ok (0, RangeSet.default, RangeSet.default), source, uc, []⟩

/-- The loop of `fc_get_delegated_stream` over the frames of a packet. -/
def gatherFrames (pn : Nat) : List SentFrame → StreamMap → List FcDelegatedStream →
    Except StreamError Unit × StreamMap × List FcDelegatedStream
  | [], streams, pieces => (.ok (), streams, pieces)
  | .other :: rest, streams, pieces => gatherFrames pn rest streams pieces
  | .streamHeader streamId off len fin :: rest, streams, pieces =>
    match streams.get streamId with
    | none => (.error (.invalidStreamState streamId), streams, pieces)
    | some streamFc =>
      let (payload, send) := fetch streamFc.send off len
      let streams := streams.set streamId { streamFc with send := send }
      match payload with
      | none => gatherFrames pn rest streams pieces
      | some payload => gatherFrames pn rest streams (pieces ++ [⟨streamId, off, payload, pn, fin⟩])

/-- The loop of `fc_get_delegated_stream` over the sent packets. -/
def gatherPackets (kind : FcUnicastRetransmission) : List Sent → StreamMap → List FcDelegatedStream →
    Except StreamError Unit × List Sent × StreamMap × List FcDelegatedStream
  | [], streams, pieces => (.ok (), [], streams, pieces)
  | packet :: rest, streams, pieces =>
    if !kind.goesOn packet then (.ok (), packet :: rest, streams, pieces)
    else if !kind.picks packet then
      let (result, rest, streams, pieces) := gatherPackets kind rest streams pieces
      (result, packet :: rest, streams, pieces)
    else
      match gatherFrames packet.pktNum packet.frames streams pieces with
      | (.error error, streams, pieces) => (.error error, packet.mark kind :: rest, streams, pieces)
      | (.ok _, streams, pieces) =>
        let (result, rest, streams, pieces) := gatherPackets kind rest streams pieces
        (result, (packet.mark kind).drain kind :: rest, streams, pieces)

/-- Collects the pieces of lost packets, for a controller that passes them on. -/
def fcGetDelegatedStream (source : Source) (kind : FcUnicastRetransmission) :
    Except StreamError (List FcDelegatedStream) × Source :=
  match gatherPackets kind source.packets source.streams [] with
  | (.error error, packets, streams, _) => (.error error, ⟨packets, streams, source.mcAck⟩)
  | (.ok _, packets, streams, pieces) => (.ok pieces, ⟨packets, streams, source.mcAck⟩)

end Source

end Flexicast
