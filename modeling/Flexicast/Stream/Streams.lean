import Flexicast.Stream.RecvBuf
import Flexicast.Stream.SendBuf
import Mathlib.Algebra.Ring.Nat

/-! Streams and the stream map of `stream/mod.rs`, without its queues and sets of stream identifiers. -/

namespace Flexicast

/-- A stream. -/
structure Stream where
  recv : RecvBuf
  send : RotSendBuf
  /-- Whether the stream is bidirectional. -/
  bidi : Bool
  /-- Whether the stream was created by the local endpoint. -/
  isLocal : Bool
  deriving DecidableEq

namespace Stream

/-- A new stream with flow control limits. -/
def new (maxRxData maxTxData : Nat) (bidi isLocal : Bool) (maxWindow : Nat) : Stream :=
  ⟨RecvBuf.new maxRxData maxWindow, RotSendBuf.new maxTxData, bidi, isLocal⟩

/-- Whether there is data to read. -/
def isReadable (stream : Stream) : Bool := stream.recv.ready

/-- Whether the stream is complete. -/
def isComplete (stream : Stream) : Bool :=
  match stream.bidi, stream.isLocal with
  | true, _ => stream.recv.isFin && stream.send.isComplete
  | false, true => stream.send.isComplete
  | false, false => stream.recv.isFin

end Stream

/-- Whether a stream identifier is one of the local endpoint. -/
def isLocalId (id : Nat) (isServer : Bool) : Bool := id % 2 == isServer.toNat

/-- Whether a stream identifier is that of a bidirectional stream. -/
def isBidiId (id : Nat) : Bool := id / 2 % 2 == 0

/-- The transport parameters that limit new streams. -/
structure StreamParams where
  /-- The limit for bidirectional streams that the sender of the parameters opens. -/
  initialMaxStreamDataBidiLocal : Nat
  /-- The limit for bidirectional streams that its peer opens. -/
  initialMaxStreamDataBidiRemote : Nat
  /-- The limit for unidirectional streams. -/
  initialMaxStreamDataUni : Nat
  deriving DecidableEq

/-- The streams of a connection, with the limits on their number. -/
structure StreamMap where
  streams : OrdMap Stream
  /-- Identifiers of streams that were completed and collected. -/
  collected : List Nat
  peerMaxStreamsBidi : Nat
  peerMaxStreamsUni : Nat
  peerOpenedStreamsBidi : Nat
  peerOpenedStreamsUni : Nat
  /-- The bidirectional streams that the peer may open. -/
  localMaxStreamsBidi : Nat
  localMaxStreamsBidiNext : Nat
  /-- The unidirectional streams that the peer may open. -/
  localMaxStreamsUni : Nat
  localMaxStreamsUniNext : Nat
  localOpenedStreamsBidi : Nat
  localOpenedStreamsUni : Nat
  maxStreamWindow : Nat
  deriving DecidableEq

namespace StreamMap

/-- A stream map without streams. -/
def new (maxStreamsBidi maxStreamsUni maxStreamWindow : Nat) : StreamMap where
  streams := OrdMap.empty
  collected := []
  peerMaxStreamsBidi := 0
  peerMaxStreamsUni := 0
  peerOpenedStreamsBidi := 0
  peerOpenedStreamsUni := 0
  localMaxStreamsBidi := maxStreamsBidi
  localMaxStreamsBidiNext := maxStreamsBidi
  localMaxStreamsUni := maxStreamsUni
  localMaxStreamsUniNext := maxStreamsUni
  localOpenedStreamsBidi := 0
  localOpenedStreamsUni := 0
  maxStreamWindow := maxStreamWindow

/-- The stream with an identifier. -/
def get (map : StreamMap) (id : Nat) : Option Stream := map.streams.find? id

/-- The map after the stream with an identifier was changed. -/
def set (map : StreamMap) (id : Nat) (stream : Stream) : StreamMap :=
  { map with streams := map.streams.insert id stream }

/-- Whether a stream was collected. -/
def isCollected (map : StreamMap) (id : Nat) : Bool := map.collected.contains id

/-- Counts a new stream against the limit for its kind. -/
def countStream (map : StreamMap) (id : Nat) (isServer : Bool) : Except StreamError StreamMap :=
  let sequence := id / 4
  match isLocalId id isServer, isBidiId id with
  | true, true =>
    let n := max map.localOpenedStreamsBidi (sequence + 1)
    if map.peerMaxStreamsBidi < n then .error .streamLimit
    else .ok { map with localOpenedStreamsBidi := n }
  | true, false =>
    let n := max map.localOpenedStreamsUni (sequence + 1)
    if map.peerMaxStreamsUni < n then .error .streamLimit
    else .ok { map with localOpenedStreamsUni := n }
  | false, true =>
    let n := max map.peerOpenedStreamsBidi (sequence + 1)
    if map.localMaxStreamsBidi < n then .error .streamLimit
    else .ok { map with peerOpenedStreamsBidi := n }
  | false, false =>
    let n := max map.peerOpenedStreamsUni (sequence + 1)
    if map.localMaxStreamsUni < n then .error .streamLimit
    else .ok { map with peerOpenedStreamsUni := n }

/-- The receive and send limits of a new stream. -/
def initialLimits (localParams peerParams : StreamParams) (isLocal bidi : Bool) : Nat × Nat :=
  match isLocal, bidi with
  | true, true => (localParams.initialMaxStreamDataBidiLocal, peerParams.initialMaxStreamDataBidiRemote)
  | true, false => (0, peerParams.initialMaxStreamDataUni)
  | false, true => (localParams.initialMaxStreamDataBidiRemote, peerParams.initialMaxStreamDataBidiLocal)
  | false, false => (localParams.initialMaxStreamDataUni, 0)

/-- The stream with an identifier, created when it does not exist yet. -/
def getOrCreate (map : StreamMap) (id : Nat) (localParams peerParams : StreamParams)
    (isLocal isServer : Bool) : Except StreamError (Stream × StreamMap) :=
  match map.get id with
  | some stream => .ok (stream, map)
  | none =>
    if map.isCollected id then .error .done
    else if isLocal != isLocalId id isServer then .error (.invalidStreamState id)
    else
      let (maxRxData, maxTxData) := initialLimits localParams peerParams isLocal (isBidiId id)
      match map.countStream id isServer with
      | .error error => .error error
      | .ok map =>
        let stream := Stream.new maxRxData maxTxData (isBidiId id) isLocal map.maxStreamWindow
        .ok (stream, map.set id stream)

/-- The largest value of a counter of 64 bits. -/
def maxCounter : Nat := 2 ^ 64 - 1

/-- Removes a completed stream, and gives back a credit when the peer had opened it. -/
def collect (map : StreamMap) (id : Nat) (isLocal : Bool) : StreamMap :=
  let map :=
    if isLocal then map
    else if isBidiId id then
      { map with localMaxStreamsBidiNext := min (map.localMaxStreamsBidiNext + 1) maxCounter }
    else { map with localMaxStreamsUniNext := min (map.localMaxStreamsUniNext + 1) maxCounter }
  { map with streams := map.streams.erase id, collected := id :: map.collected }

/-- What a connection does with an acknowledged STREAM frame. -/
def onStreamAcked (map : StreamMap) (id off len : Nat) : StreamMap :=
  match map.get id with
  | none => map
  | some stream =>
    let stream := { stream with send := stream.send.ackAndDrop off len }
    let map := map.set id stream
    -- A stream that is still readable is collected when the application reads it.
    if stream.isComplete && !stream.isReadable then map.collect id stream.isLocal else map

end StreamMap

end Flexicast
