import Flexicast.Packet.Octets
import Flexicast.Ranges.RangeSet
import Flexicast.Stream.RangeBuf

/-! The frames of `frame.rs` with their parser, their encoder and their length on the wire. -/

namespace Flexicast.Wire

open Octets

/-- Bytes of a fixed number, as the source's arrays. -/
abbrev FixedBytes (size : Nat) := { bytes : Bytes // bytes.length = size }

/-- A chunk whose window lies in its buffer. -/
abbrev WfRangeBuf := { buf : RangeBuf // buf.Wf }

structure EcnCounts where
  ect0Count : Nat
  ect1Count : Nat
  ecnCeCount : Nat
  deriving DecidableEq

/-- The AEAD algorithms. -/
inductive Algorithm where
  | aes128Gcm
  | aes256Gcm
  | chaCha20Poly1305
  deriving DecidableEq

namespace Algorithm

/-- `TryFrom<u8>`. -/
def tryFrom (value : UInt8) : Option Algorithm :=
  match value.toNat with
  | 0 => some aes128Gcm
  | 1 => some aes256Gcm
  | 2 => some chaCha20Poly1305
  | _ => none

/-- `TryFrom<Algorithm>`, which never fails. -/
def toU8 : Algorithm → UInt8
  | aes128Gcm => 0
  | aes256Gcm => 1
  | chaCha20Poly1305 => 2

end Algorithm

/-- The flags of a quality of service. -/
structure FcQos where
  throughput : Bool
  delay : Bool
  deriving DecidableEq

namespace FcQos

/-- The flags as bits. -/
def bits (qos : FcQos) : UInt8 := (if qos.throughput then 0x01 else 0) ||| (if qos.delay then 0x02 else 0)

/-- The flags of a byte that has no other bit set. -/
def fromBits (bits : UInt8) : Option FcQos :=
  if bits &&& ~~~0x03 ≠ 0 then none
  else some ⟨bits &&& 0x01 ≠ 0, bits &&& 0x02 ≠ 0⟩

end FcQos

/-- A client's congestion report; the round trip time is in nanoseconds. -/
structure FcCongestionInfo where
  cwnd : Nat
  mcCwnds : List (Bytes × Nat)
  rtt : Nat
  deriving DecidableEq

/-- The types of packets. -/
inductive PacketType where
  | initial
  | retry
  | handshake
  | zeroRTT
  | versionNegotiation
  | short
  deriving DecidableEq

/-- A frame. -/
inductive Frame where
  | padding (len : Nat)
  | ping (mtuProbe : Option Nat)
  | ack (ackDelay : Nat) (ranges : RangeSet) (ecnCounts : Option EcnCounts)
  | resetStream (streamId errorCode finalSize : Nat)
  | stopSending (streamId errorCode : Nat)
  | crypto (data : WfRangeBuf)
  | cryptoHeader (offset length : Nat)
  | newToken (token : Bytes)
  | stream (streamId : Nat) (data : WfRangeBuf)
  | streamHeader (streamId offset length : Nat) (fin : Bool)
  | maxData (max : Nat)
  | maxStreamData (streamId max : Nat)
  | maxStreamsBidi (max : Nat)
  | maxStreamsUni (max : Nat)
  | dataBlocked (limit : Nat)
  | streamDataBlocked (streamId limit : Nat)
  | streamsBlockedBidi (limit : Nat)
  | streamsBlockedUni (limit : Nat)
  | newConnectionId (seqNum retirePriorTo : Nat) (connId : Bytes) (resetToken : FixedBytes 16)
  | retireConnectionId (seqNum : Nat)
  | pathChallenge (data : FixedBytes 8)
  | pathResponse (data : FixedBytes 8)
  | connectionClose (errorCode frameType : Nat) (reason : Bytes)
  | applicationClose (errorCode : Nat) (reason : Bytes)
  | handshakeDone
  | datagram (data : Bytes)
  | datagramHeader (length : Nat)
  | pathAck (pathIdentifier ackDelay : Nat) (ranges : RangeSet) (ecnCounts : Option EcnCounts)
  | pathAbandon (pathId errorCode : Nat)
  | pathBackup (pathId seqNum : Nat)
  | pathAvailable (pathId seqNum : Nat)
  | pathNewConnectionId (pathId seqNum retirePriorTo : Nat) (connId : Bytes) (resetToken : FixedBytes 16)
  | pathRetireConnectionId (pathId seqNum : Nat)
  | maxPathId (max : Nat)
  | pathsBlocked (max : Nat)
  | mcAnnounce (channelId : Bytes) (isIpv6Addr probePath resetStreamOnJoin : UInt8)
      (sourceIp groupIp : FixedBytes 4) (udpPort : UInt16) (expirationTimer : UInt64) (publicKey : Bytes)
      (bitrate : Option Nat) (qos : FcQos)
  | mcState (channelId : Bytes) (action actionData : Nat)
  | mcKey (channelId key : Bytes) (algo : Algorithm) (firstPn : Nat)
  | fcCongestionInfo (info : FcCongestionInfo)
  deriving DecidableEq

def maxStreamSize : Nat := 1 <<< 62

def maxCidLen : Nat := 20

def mcAnnounceCode : Nat := 0xf2

def mcAnnounceBwCode : Nat := 0xf3

def mcStateCode : Nat := 0xf4

def mcKeyCode : Nat := 0xf5

def mcCongestionInfoCode : Nat := 0xf9

section Parsing

/-- An addition of 64 bits, which panics when it overflows. -/
def addU64 (left right : Nat) : Reader Nat :=
  if left + right ≤ maxU64 then pure (left + right) else throw .panicked

/-- A subtraction of unsigned integers, which panics when it underflows. -/
def subU64 (left right : Nat) : Reader Nat :=
  if right ≤ left then pure (left - right) else throw .panicked

/-- Bytes taken into an array. -/
def getArray (size : Nat) : Reader (FixedBytes size) := do
  let bytes ← getBytes size
  if sized : bytes.length = size then pure ⟨bytes, sized⟩ else throw .bufferTooShort

/-- A chunk of bytes that were just taken. -/
def rangeBufFrom (data : Bytes) (offset : Nat) (fin : Bool) : WfRangeBuf :=
  ⟨RangeBuf.fromSlice data offset fin, RangeBuf.wf_fromSlice data offset fin⟩

/-- The length of a run of padding behind its first byte. -/
def paddingLoop : Bytes → Nat → Nat × Bytes
  | 0 :: rest, len => paddingLoop rest (len + 1)
  | rest, len => (len, rest)

/-- Inserts a range, which panics where the set does. -/
def insertRange (ranges : RangeSet) (start stop : Nat) : Reader RangeSet :=
  match ranges.insert? start stop with
  | none => throw .panicked
  | some ranges => pure ranges

/-- The blocks of an acknowledgment below the first one. -/
def ackBlocks : Nat → Nat → RangeSet → Reader RangeSet
  | 0, _, ranges => pure ranges
  | blockCount + 1, smallestAck, ranges => do
    let gap ← getVarint
    if smallestAck < (← addU64 2 gap) then throw .invalidFrame else
    let largestAck ← subU64 (← subU64 smallestAck gap) 2
    let ackBlock ← getVarint
    if largestAck < ackBlock then throw .invalidFrame else
    let smallestAck ← subU64 largestAck ackBlock
    let ranges ← insertRange ranges smallestAck (← addU64 largestAck 1)
    ackBlocks blockCount smallestAck ranges

def parseEcnCounts (hasEcn : Bool) : Reader (Option EcnCounts) :=
  if hasEcn then do
    let ect0Count ← getVarint
    let ect1Count ← getVarint
    let ecnCeCount ← getVarint
    return some ⟨ect0Count, ect1Count, ecnCeCount⟩
  else return none

/-- The delay, the ranges and the counts of an acknowledgment. -/
def parseCommonAckFrame (hasEcn : Bool) : Reader (Nat × RangeSet × Option EcnCounts) := do
  let largestAck ← getVarint
  let ackDelay ← getVarint
  let blockCount ← getVarint
  let ackBlock ← getVarint
  if largestAck < ackBlock then throw .invalidFrame else
  let smallestAck ← subU64 largestAck ackBlock
  let ranges ← insertRange RangeSet.default smallestAck (← addU64 largestAck 1)
  let ranges ← ackBlocks blockCount smallestAck ranges
  let ecnCounts ← parseEcnCounts hasEcn
  return (ackDelay, ranges, ecnCounts)

def parseAckFrame (ty : Nat) : Reader Frame := do
  let common ← parseCommonAckFrame (ty % 256 &&& 0x01 != 0)
  return .ack common.1 common.2.1 common.2.2

def parsePathAckFrame (ty : Nat) : Reader Frame := do
  let pathIdentifier ← getVarint
  let common ← parseCommonAckFrame (ty &&& 0x01 != 0)
  return .pathAck pathIdentifier common.1 common.2.1 common.2.2

/-- An optional offset, zero when it is left out. -/
def parseOffset (present : Bool) : Reader Nat := if present then getVarint else pure 0

/-- An optional length, all bytes left when it is left out. -/
def parseLength (present : Bool) : Reader Nat := if present then getVarint else cap

def parseStreamFrame (ty : Nat) : Reader Frame := do
  let first := ty % 256
  let streamId ← getVarint
  let offset ← parseOffset (first &&& 0x04 != 0)
  let len ← parseLength (first &&& 0x02 != 0)
  if maxStreamSize ≤ (← addU64 offset len) then throw .invalidFrame else
  let fin := first &&& 0x01 != 0
  let data ← getBytes len
  return .stream streamId (rangeBufFrom data offset fin)

def parseDatagramFrame (ty : Nat) : Reader Frame := do
  let len ← parseLength (ty % 256 &&& 0x01 != 0)
  let data ← getBytes len
  return .datagram data

/-- The identifier and the reset token of a new connection identifier. -/
def parseConnectionId : Reader (Bytes × FixedBytes 16) := do
  let connIdLen ← getU8
  if ¬ (1 ≤ connIdLen.toNat ∧ connIdLen.toNat ≤ maxCidLen) then throw .invalidFrame else
  let connId ← getBytes connIdLen.toNat
  let resetToken ← getArray 16
  return (connId, resetToken)

/-- The eventual bitrate of an announce frame. -/
def parseBitrate (ty : Nat) : Reader (Option Nat) :=
  if ty = mcAnnounceBwCode then do
    let bitrate ← getVarint
    return some bitrate
  else return none

def parseAnnounceFrame (ty : Nat) : Reader Frame := do
  let channelId ← getBytesWithU8Length
  let probePath ← getU8
  let isIpv6Addr ← getU8
  let resetStreamOnJoin ← getU8
  let sourceIp ← getArray 4
  let groupIp ← getArray 4
  let udpPort ← getU16
  let expirationTimer ← getU64
  let keyLen ← getVarint
  let publicKey ← getBytes keyLen
  let bitrate ← parseBitrate ty
  let bits ← getU8
  -- The source unwraps the flags.
  match FcQos.fromBits bits with
  | none => throw .panicked
  | some qos =>
    return .mcAnnounce channelId isIpv6Addr probePath resetStreamOnJoin sourceIp groupIp udpPort
      expirationTimer publicKey bitrate qos

def parseKeyFrame : Reader Frame := do
  let channelId ← getBytesWithU8Length
  let keyLen ← getVarint
  let key ← getBytes keyLen
  let value ← getU8
  match Algorithm.tryFrom value with
  | none => throw .cryptoFail
  | some algo =>
    let firstPn ← getVarint
    return .mcKey channelId key algo firstPn

/-- The channels of a congestion report. -/
def channelCwnds : Nat → Reader (List (Bytes × Nat))
  | 0 => pure []
  | size + 1 => do
    let channelId ← getBytesWithU8Length
    let mcCwnd ← getU32
    let rest ← channelCwnds size
    return (channelId, mcCwnd) :: rest

def parseCongestionInfoFrame : Reader Frame := do
  let cwnd ← getU32
  let rtt ← getVarint
  let size ← getU8
  let mcCwnds ← channelCwnds size.toNat
  return .fcCongestionInfo ⟨cwnd, mcCwnds, rtt⟩

/-- What stands behind the type of a frame. -/
def parseFrame (frameType : Nat) : Reader Frame :=
  match frameType with
  | 0x00 => fun input =>
    let (len, rest) := paddingLoop input 1
    .ok (.padding len, rest)
  | 0x01 => return .ping none
  | 0x02 | 0x03 => parseAckFrame frameType
  | 0x04 => return .resetStream (← getVarint) (← getVarint) (← getVarint)
  | 0x05 => return .stopSending (← getVarint) (← getVarint)
  | 0x06 => do
    let offset ← getVarint
    let data ← getBytesWithVarintLength
    return .crypto (rangeBufFrom data offset false)
  | 0x07 => do
    let len ← getVarint
    if len = 0 then throw .invalidFrame else
    return .newToken (← getBytes len)
  | 0x08 | 0x09 | 0x0a | 0x0b | 0x0c | 0x0d | 0x0e | 0x0f => parseStreamFrame frameType
  | 0x10 => return .maxData (← getVarint)
  | 0x11 => return .maxStreamData (← getVarint) (← getVarint)
  | 0x12 => return .maxStreamsBidi (← getVarint)
  | 0x13 => return .maxStreamsUni (← getVarint)
  | 0x14 => return .dataBlocked (← getVarint)
  | 0x15 => return .streamDataBlocked (← getVarint) (← getVarint)
  | 0x16 => return .streamsBlockedBidi (← getVarint)
  | 0x17 => return .streamsBlockedUni (← getVarint)
  | 0x18 => do
    let seqNum ← getVarint
    let retirePriorTo ← getVarint
    let (connId, resetToken) ← parseConnectionId
    return .newConnectionId seqNum retirePriorTo connId resetToken
  | 0x19 => return .retireConnectionId (← getVarint)
  | 0x1a => return .pathChallenge (← getArray 8)
  | 0x1b => return .pathResponse (← getArray 8)
  | 0x1c => return .connectionClose (← getVarint) (← getVarint) (← getBytesWithVarintLength)
  | 0x1d => return .applicationClose (← getVarint) (← getBytesWithVarintLength)
  | 0x1e => return .handshakeDone
  | 0x30 | 0x31 => parseDatagramFrame frameType
  | 0x15228c00 | 0x15228c01 => parsePathAckFrame frameType
  | 0x15228c05 => return .pathAbandon (← getVarint) (← getVarint)
  | 0x15228c07 => return .pathBackup (← getVarint) (← getVarint)
  | 0x15228c08 => return .pathAvailable (← getVarint) (← getVarint)
  | 0x15228c09 => do
    let pathId ← getVarint
    let seqNum ← getVarint
    let retirePriorTo ← getVarint
    let (connId, resetToken) ← parseConnectionId
    return .pathNewConnectionId pathId seqNum retirePriorTo connId resetToken
  | 0x15228c0a => return .pathRetireConnectionId (← getVarint) (← getVarint)
  | 0x15228c0c => return .maxPathId (← getVarint)
  | 0x15228c0d => return .pathsBlocked (← getVarint)
  | 0xf2 | 0xf3 => parseAnnounceFrame frameType
  | 0xf4 => return .mcState (← getBytesWithU8Length) (← getVarint) (← getVarint)
  | 0xf5 => parseKeyFrame
  | 0xf9 => parseCongestionInfoFrame
  | _ => throw .invalidFrame

/-- Whether a frame may stand in a packet of the given type. -/
def Frame.allowed (pkt : PacketType) (frame : Frame) : Bool :=
  match pkt, frame with
  -- PADDING and PING are allowed on all packet types.
  | _, .padding _ | _, .ping _ => true
  -- These can't be sent on 0-RTT packets.
  | .zeroRTT, .ack .. | .zeroRTT, .crypto _ | .zeroRTT, .handshakeDone | .zeroRTT, .newToken _
  | .zeroRTT, .pathResponse _ | .zeroRTT, .retireConnectionId _ | .zeroRTT, .connectionClose ..
  | .zeroRTT, .pathAck .. | .zeroRTT, .pathAbandon .. | .zeroRTT, .pathBackup ..
  | .zeroRTT, .pathAvailable .. | .zeroRTT, .pathNewConnectionId ..
  | .zeroRTT, .pathRetireConnectionId .. | .zeroRTT, .maxPathId _ | .zeroRTT, .pathsBlocked _ => false
  -- ACK, CRYPTO and CONNECTION_CLOSE can be sent on all other packet types.
  | _, .ack .. | _, .crypto _ | _, .connectionClose .. => true
  -- All frames are allowed on 0-RTT and 1-RTT packets.
  | .short, _ | .zeroRTT, _ => true
  -- All other cases are forbidden.
  | _, _ => false

/-- Reads one frame of a packet of the given type. -/
def Frame.fromBytes (pkt : PacketType) : Reader Frame := do
  let frameType ← getVarint
  let frame ← parseFrame frameType
  if frame.allowed pkt then return frame else throw .invalidPacket

end Parsing

section Encoding

/-- A subtraction of unsigned integers while writing, which panics when it underflows. -/
def subOrPanic (left right : Nat) : Except WireError Nat :=
  if right ≤ left then .ok (left - right) else .error .panicked

/-- The ranges from the largest one down, and the first of them taken apart. -/
def firstRange (ranges : RangeSet) : Except WireError ((Nat × Nat) × List (Nat × Nat)) :=
  match ranges.iter.reverse with
  | [] => .error .panicked
  | first :: rest => .ok (first, rest)

/-- Writes the blocks below the first one. -/
def ackBlocksToBytes : Nat → List (Nat × Nat) → Writer Unit
  | _, [] => pure ()
  | smallestAck, block :: rest => do
    let gap ← subOrPanic (← subOrPanic smallestAck block.2) 1
    let ackBlock ← subOrPanic (← subOrPanic block.2 1) block.1
    putVarint gap
    putVarint ackBlock
    ackBlocksToBytes block.1 rest

def ecnCountsToBytes : Option EcnCounts → Writer Unit
  | none => pure ()
  | some ecn => do
    putVarint ecn.ect0Count
    putVarint ecn.ect1Count
    putVarint ecn.ecnCeCount

def commonAckToBytes (ackDelay : Nat) (ranges : RangeSet) (ecnCounts : Option EcnCounts) : Writer Unit := do
  let (first, rest) ← firstRange ranges
  let ackBlock ← subOrPanic (← subOrPanic first.2 1) first.1
  putVarint (← subOrPanic first.2 1)
  putVarint ackDelay
  putVarint rest.length
  putVarint ackBlock
  ackBlocksToBytes first.1 rest
  ecnCountsToBytes ecnCounts

def encodeCryptoHeader (offset length : Nat) : Writer Unit := do
  putVarint 0x06
  putVarint offset
  -- Always encode length field as 2-byte varint.
  putVarintWithLen length 2

def encodeStreamHeader (streamId offset length : Nat) (fin : Bool) : Writer Unit := do
  -- Always encode offset and length.
  putVarint (0x08 ||| 0x04 ||| 0x02 ||| (if fin then 0x01 else 0))
  putVarint streamId
  putVarint offset
  -- Always encode length field as 2-byte varint.
  putVarintWithLen length 2

def encodeDgramHeader (length : Nat) : Writer Unit := do
  -- Always encode length.
  putVarint (0x30 ||| 0x01)
  -- Always encode length field as 2-byte varint.
  putVarintWithLen length 2

def bitrateToBytes : Option Nat → Writer Unit
  | none => pure ()
  | some bw => putVarint bw

def paddingToBytes : Nat → Writer Unit
  | 0 => pure ()
  | left + 1 => do
    putVarint 0x00
    paddingToBytes left

def channelCwndsToBytes : List (Bytes × Nat) → Writer Unit
  | [] => pure ()
  | (channelId, mcCwnd) :: rest => do
    putU8 (UInt8.ofNat channelId.length)
    putBytes channelId
    putU32 mcCwnd
    channelCwndsToBytes rest

/-- Writes a frame; the header frames stand for bytes that were written by their own functions. -/
def Frame.writeTo : Frame → Writer Unit
  | padding len => paddingToBytes len
  | ping _ => putVarint 0x01
  | ack ackDelay ranges ecnCounts => do
    putVarint (if ecnCounts.isNone then 0x02 else 0x03)
    commonAckToBytes ackDelay ranges ecnCounts
  | resetStream streamId errorCode finalSize => do
    putVarint 0x04
    putVarint streamId
    putVarint errorCode
    putVarint finalSize
  | stopSending streamId errorCode => do
    putVarint 0x05
    putVarint streamId
    putVarint errorCode
  | crypto data => do
    encodeCryptoHeader data.1.curOff data.1.curLen
    putBytes data.1.bytes
  | cryptoHeader .. => pure ()
  | newToken token => do
    putVarint 0x07
    putVarint token.length
    putBytes token
  | stream streamId data => do
    encodeStreamHeader streamId data.1.curOff data.1.curLen data.1.fin
    putBytes data.1.bytes
  | streamHeader .. => pure ()
  | maxData max => do
    putVarint 0x10
    putVarint max
  | maxStreamData streamId max => do
    putVarint 0x11
    putVarint streamId
    putVarint max
  | maxStreamsBidi max => do
    putVarint 0x12
    putVarint max
  | maxStreamsUni max => do
    putVarint 0x13
    putVarint max
  | dataBlocked limit => do
    putVarint 0x14
    putVarint limit
  | streamDataBlocked streamId limit => do
    putVarint 0x15
    putVarint streamId
    putVarint limit
  | streamsBlockedBidi limit => do
    putVarint 0x16
    putVarint limit
  | streamsBlockedUni limit => do
    putVarint 0x17
    putVarint limit
  | newConnectionId seqNum retirePriorTo connId resetToken => do
    putVarint 0x18
    putVarint seqNum
    putVarint retirePriorTo
    putU8 (UInt8.ofNat connId.length)
    putBytes connId
    putBytes resetToken.1
  | retireConnectionId seqNum => do
    putVarint 0x19
    putVarint seqNum
  | pathChallenge data => do
    putVarint 0x1a
    putBytes data.1
  | pathResponse data => do
    putVarint 0x1b
    putBytes data.1
  | connectionClose errorCode frameType reason => do
    putVarint 0x1c
    putVarint errorCode
    putVarint frameType
    putVarint reason.length
    putBytes reason
  | applicationClose errorCode reason => do
    putVarint 0x1d
    putVarint errorCode
    putVarint reason.length
    putBytes reason
  | handshakeDone => putVarint 0x1e
  | datagram data => do
    encodeDgramHeader data.length
    putBytes data
  | datagramHeader _ => pure ()
  | pathAck pathIdentifier ackDelay ranges ecnCounts => do
    putVarint (if ecnCounts.isNone then 0x15228c00 else 0x15228c01)
    putVarint pathIdentifier
    commonAckToBytes ackDelay ranges ecnCounts
  | pathAbandon pathId errorCode => do
    putVarint 0x15228c05
    putVarint pathId
    putVarint errorCode
  | pathBackup pathId seqNum => do
    putVarint 0x15228c07
    putVarint pathId
    putVarint seqNum
  | pathAvailable pathId seqNum => do
    putVarint 0x15228c08
    putVarint pathId
    putVarint seqNum
  | pathNewConnectionId pathId seqNum retirePriorTo connId resetToken => do
    putVarint 0x15228c09
    putVarint pathId
    putVarint seqNum
    putVarint retirePriorTo
    putU8 (UInt8.ofNat connId.length)
    putBytes connId
    putBytes resetToken.1
  | pathRetireConnectionId pathId seqNum => do
    putVarint 0x15228c0a
    putVarint pathId
    putVarint seqNum
  | maxPathId max => do
    putVarint 0x15228c0c
    putVarint max
  | pathsBlocked max => do
    putVarint 0x15228c0d
    putVarint max
  | mcAnnounce channelId isIpv6Addr probePath resetStreamOnJoin sourceIp groupIp udpPort expirationTimer
      publicKey bitrate qos => do
    putVarint (if bitrate.isSome then mcAnnounceBwCode else mcAnnounceCode)
    putU8 (UInt8.ofNat channelId.length)
    putBytes channelId
    putU8 probePath
    putU8 isIpv6Addr
    putU8 resetStreamOnJoin
    putBytes sourceIp.1
    putBytes groupIp.1
    putU16 udpPort
    putU64 expirationTimer
    putVarint publicKey.length
    putBytes publicKey
    bitrateToBytes bitrate
    putU8 qos.bits
  | mcState channelId action actionData => do
    putVarint mcStateCode
    putU8 (UInt8.ofNat channelId.length)
    putBytes channelId
    putVarint action
    putVarint actionData
  | mcKey channelId key algo firstPn => do
    putVarint mcKeyCode
    putU8 (UInt8.ofNat channelId.length)
    putBytes channelId
    putVarint key.length
    putBytes key
    putU8 algo.toU8
    putVarint firstPn
  | fcCongestionInfo info => do
    putVarint mcCongestionInfoCode
    putU32 info.cwnd
    -- `as_nanos` has 128 bits and is cast to 64.
    putVarint (info.rtt % 2 ^ 64)
    putU8 (UInt8.ofNat info.mcCwnds.length)
    channelCwndsToBytes info.mcCwnds

/-- Writes a frame and returns how many bytes it took. -/
def Frame.toBytes (frame : Frame) : Writer Nat := do
  let before := (← get).cap
  frame.writeTo
  return before - (← get).cap

end Encoding

section Length

/-- The lengths of the blocks below the first one. -/
def ackBlocksWireLen : Nat → List (Nat × Nat) → Except WireError Nat
  | _, [] => return 0
  | smallestAck, block :: rest => do
    let gap ← subOrPanic (← subOrPanic smallestAck block.2) 1
    let ackBlock ← subOrPanic (← subOrPanic block.2 1) block.1
    return (← varintLen gap) + (← varintLen ackBlock) + (← ackBlocksWireLen block.1 rest)

def ecnCountsWireLen : Option EcnCounts → Except WireError Nat
  | none => return 0
  | some ecn =>
    return (← varintLen ecn.ect0Count) + (← varintLen ecn.ect1Count) + (← varintLen ecn.ecnCeCount)

def commonAckWireLen (ackDelay : Nat) (ranges : RangeSet) (ecnCounts : Option EcnCounts) :
    Except WireError Nat := do
  let (first, rest) ← firstRange ranges
  let ackBlock ← subOrPanic (← subOrPanic first.2 1) first.1
  let len := (← varintLen (← subOrPanic first.2 1)) + (← varintLen ackDelay) +
    (← varintLen rest.length) + (← varintLen ackBlock)
  return len + (← ackBlocksWireLen first.1 rest) + (← ecnCountsWireLen ecnCounts)

/-- How many bytes a frame takes in a packet. -/
def Frame.wireLen : Frame → Except WireError Nat
  | padding len => return len
  | ping _ => return 1
  | ack ackDelay ranges ecnCounts => return 1 + (← commonAckWireLen ackDelay ranges ecnCounts)
  | resetStream streamId errorCode finalSize =>
    return 1 + (← varintLen streamId) + (← varintLen errorCode) + (← varintLen finalSize)
  | stopSending streamId errorCode => return 1 + (← varintLen streamId) + (← varintLen errorCode)
  | crypto data => return 1 + (← varintLen data.1.curOff) + 2 + data.1.curLen
  | cryptoHeader offset length => return 1 + (← varintLen offset) + 2 + length
  | newToken token => return 1 + (← varintLen token.length) + token.length
  | stream streamId data =>
    return 1 + (← varintLen streamId) + (← varintLen data.1.curOff) + 2 + data.1.curLen
  | streamHeader streamId offset length _ =>
    return 1 + (← varintLen streamId) + (← varintLen offset) + 2 + length
  | maxData max => return 1 + (← varintLen max)
  | maxStreamData streamId max => return 1 + (← varintLen streamId) + (← varintLen max)
  | maxStreamsBidi max => return 1 + (← varintLen max)
  | maxStreamsUni max => return 1 + (← varintLen max)
  | dataBlocked limit => return 1 + (← varintLen limit)
  | streamDataBlocked streamId limit => return 1 + (← varintLen streamId) + (← varintLen limit)
  | streamsBlockedBidi limit => return 1 + (← varintLen limit)
  | streamsBlockedUni limit => return 1 + (← varintLen limit)
  | newConnectionId seqNum retirePriorTo connId resetToken =>
    return 1 + (← varintLen seqNum) + (← varintLen retirePriorTo) + 1 + connId.length + resetToken.1.length
  | retireConnectionId seqNum => return 1 + (← varintLen seqNum)
  | pathChallenge _ => return 1 + 8
  | pathResponse _ => return 1 + 8
  | connectionClose errorCode frameType reason =>
    return 1 + (← varintLen errorCode) + (← varintLen frameType) + (← varintLen reason.length) + reason.length
  | applicationClose errorCode reason =>
    return 1 + (← varintLen errorCode) + (← varintLen reason.length) + reason.length
  | handshakeDone => return 1
  | datagram data => return 1 + 2 + data.length
  | datagramHeader length => return 1 + 2 + length
  | pathAck pathIdentifier ackDelay ranges ecnCounts =>
    return 4 + (← varintLen pathIdentifier) + (← commonAckWireLen ackDelay ranges ecnCounts)
  | pathAbandon pathId errorCode => return 4 + (← varintLen pathId) + (← varintLen errorCode)
  | pathBackup pathId seqNum => return 4 + (← varintLen pathId) + (← varintLen seqNum)
  | pathAvailable pathId seqNum => return 4 + (← varintLen pathId) + (← varintLen seqNum)
  | pathNewConnectionId pathId seqNum retirePriorTo connId resetToken =>
    return 4 + (← varintLen pathId) + (← varintLen seqNum) + (← varintLen retirePriorTo) + 1 +
      connId.length + resetToken.1.length
  | pathRetireConnectionId pathId seqNum => return 4 + (← varintLen pathId) + (← varintLen seqNum)
  | maxPathId max => return 4 + (← varintLen max)
  | pathsBlocked max => return 4 + (← varintLen max)
  | mcAnnounce channelId _ _ _ _ _ _ _ publicKey bitrate _ => do
    let publicKeyLenSize ← varintLen publicKey.length
    let frameTypeSize ← varintLen (if bitrate.isSome then mcAnnounceBwCode else mcAnnounceCode)
    -- The source leaves the bitrate itself out.
    return frameTypeSize + 1 + channelId.length + 1 + 1 + 1 + 4 + 4 + 2 + 8 + publicKeyLenSize +
      publicKey.length + 1
  | mcState channelId action actionData =>
    return (← varintLen mcStateCode) + 1 + channelId.length + (← varintLen action) + (← varintLen actionData)
  | mcKey channelId key _ firstPn =>
    return (← varintLen mcKeyCode) + 1 + channelId.length + (← varintLen key.length) + key.length + 1 +
      (← varintLen firstPn)
  | fcCongestionInfo info =>
    return (← varintLen mcCongestionInfoCode) + 4 + (← varintLen (info.rtt % 2 ^ 64)) + 1 +
      (info.mcCwnds.map fun channel => 1 + channel.1.length + 4).sum

end Length

end Flexicast.Wire
