import Flexicast.Packet.Parsing

/-! The layout of every frame, which the encoder writes, the length counts and the parser reads back. -/

namespace Flexicast.Wire

open Cursor Words Octets

section Layout

/-- The parts of the blocks below the first one. -/
def ackBlockFields : Nat → List (Nat × Nat) → List Field
  | _, [] => []
  | smallestAck, block :: rest =>
    .varint (smallestAck - block.2 - 1) :: .varint (block.2 - 1 - block.1) :: ackBlockFields block.1 rest

def ecnFields : Option EcnCounts → List Field
  | none => []
  | some ecn => [.varint ecn.ect0Count, .varint ecn.ect1Count, .varint ecn.ecnCeCount]

/-- The parts of an acknowledgment of ranges listed from the largest one down. -/
def commonAckFields (ackDelay : Nat) (ecnCounts : Option EcnCounts) : List (Nat × Nat) → List Field
  | [] => []
  | first :: rest =>
    .varint (first.2 - 1) :: .varint ackDelay :: .varint rest.length :: .varint (first.2 - 1 - first.1) ::
      (ackBlockFields first.1 rest ++ ecnFields ecnCounts)

def bitrateFields : Option Nat → List Field
  | none => []
  | some bitrate => [.varint bitrate]

def channelFields : List (Bytes × Nat) → List Field
  | [] => []
  | channel :: rest =>
    .raw [UInt8.ofNat channel.1.length] :: .raw channel.1 :: .raw (toBigEndian 4 channel.2) ::
      channelFields rest

/-- The parts of a frame in a packet; the header frames stand for bytes written elsewhere. -/
def Frame.fields : Frame → List Field
  | padding len => List.replicate len (.varint 0x00)
  | ping _ => [.varint 0x01]
  | ack ackDelay ranges ecnCounts =>
    .varint (if ecnCounts.isNone then 0x02 else 0x03) ::
      commonAckFields ackDelay ecnCounts ranges.iter.reverse
  | resetStream streamId errorCode finalSize =>
    [.varint 0x04, .varint streamId, .varint errorCode, .varint finalSize]
  | stopSending streamId errorCode => [.varint 0x05, .varint streamId, .varint errorCode]
  | crypto data => [.varint 0x06, .varint data.1.curOff, .varint2 data.1.curLen, .raw data.1.bytes]
  | cryptoHeader .. => []
  | newToken token => [.varint 0x07, .varint token.length, .raw token]
  | stream streamId data =>
    [.varint (0x0e ||| (if data.1.fin then 0x01 else 0)), .varint streamId, .varint data.1.curOff,
      .varint2 data.1.curLen, .raw data.1.bytes]
  | streamHeader .. => []
  | maxData max => [.varint 0x10, .varint max]
  | maxStreamData streamId max => [.varint 0x11, .varint streamId, .varint max]
  | maxStreamsBidi max => [.varint 0x12, .varint max]
  | maxStreamsUni max => [.varint 0x13, .varint max]
  | dataBlocked limit => [.varint 0x14, .varint limit]
  | streamDataBlocked streamId limit => [.varint 0x15, .varint streamId, .varint limit]
  | streamsBlockedBidi limit => [.varint 0x16, .varint limit]
  | streamsBlockedUni limit => [.varint 0x17, .varint limit]
  | newConnectionId seqNum retirePriorTo connId resetToken =>
    [.varint 0x18, .varint seqNum, .varint retirePriorTo, .raw [UInt8.ofNat connId.length], .raw connId,
      .raw resetToken.1]
  | retireConnectionId seqNum => [.varint 0x19, .varint seqNum]
  | pathChallenge data => [.varint 0x1a, .raw data.1]
  | pathResponse data => [.varint 0x1b, .raw data.1]
  | connectionClose errorCode frameType reason =>
    [.varint 0x1c, .varint errorCode, .varint frameType, .varint reason.length, .raw reason]
  | applicationClose errorCode reason =>
    [.varint 0x1d, .varint errorCode, .varint reason.length, .raw reason]
  | handshakeDone => [.varint 0x1e]
  | datagram data => [.varint 0x31, .varint2 data.length, .raw data]
  | datagramHeader _ => []
  | pathAck pathIdentifier ackDelay ranges ecnCounts =>
    .varint (if ecnCounts.isNone then 0x15228c00 else 0x15228c01) :: .varint pathIdentifier ::
      commonAckFields ackDelay ecnCounts ranges.iter.reverse
  | pathAbandon pathId errorCode => [.varint 0x15228c05, .varint pathId, .varint errorCode]
  | pathBackup pathId seqNum => [.varint 0x15228c07, .varint pathId, .varint seqNum]
  | pathAvailable pathId seqNum => [.varint 0x15228c08, .varint pathId, .varint seqNum]
  | pathNewConnectionId pathId seqNum retirePriorTo connId resetToken =>
    [.varint 0x15228c09, .varint pathId, .varint seqNum, .varint retirePriorTo,
      .raw [UInt8.ofNat connId.length], .raw connId, .raw resetToken.1]
  | pathRetireConnectionId pathId seqNum => [.varint 0x15228c0a, .varint pathId, .varint seqNum]
  | maxPathId max => [.varint 0x15228c0c, .varint max]
  | pathsBlocked max => [.varint 0x15228c0d, .varint max]
  | mcAnnounce channelId isIpv6Addr probePath resetStreamOnJoin sourceIp groupIp udpPort expirationTimer
      publicKey bitrate qos =>
    [.varint (if bitrate.isSome then mcAnnounceBwCode else mcAnnounceCode),
      .raw [UInt8.ofNat channelId.length], .raw channelId, .raw [probePath], .raw [isIpv6Addr],
      .raw [resetStreamOnJoin], .raw sourceIp.1, .raw groupIp.1, .raw (toBigEndian 2 udpPort.toNat),
      .raw (toBigEndian 8 expirationTimer.toNat), .varint publicKey.length, .raw publicKey] ++
      (bitrateFields bitrate ++ [.raw [qos.bits]])
  | mcState channelId action actionData =>
    [.varint mcStateCode, .raw [UInt8.ofNat channelId.length], .raw channelId, .varint action,
      .varint actionData]
  | mcKey channelId key algo firstPn =>
    [.varint mcKeyCode, .raw [UInt8.ofNat channelId.length], .raw channelId, .varint key.length, .raw key,
      .raw [algo.toU8], .varint firstPn]
  | fcCongestionInfo info =>
    .varint mcCongestionInfoCode :: .raw (toBigEndian 4 info.cwnd) :: .varint (info.rtt % 2 ^ 64) ::
      .raw [UInt8.ofNat info.mcCwnds.length] :: channelFields info.mcCwnds

/-- Ranges below a number, from the largest one down, none empty and none touching another. -/
def Descending : Nat → List (Nat × Nat) → Prop
  | _, [] => True
  | bound, range :: rest => range.2 < bound ∧ range.1 < range.2 ∧ Descending range.1 rest

/-- The ranges of an acknowledgment can be written: there are some, and they descend. -/
def AckOrdered (ranges : RangeSet) : Prop :=
  ∃ first rest, ranges.iter.reverse = first :: rest ∧ first.1 < first.2 ∧ Descending first.1 rest

/-- The ranges of a frame can be written. -/
def Frame.Ordered : Frame → Prop
  | ack _ ranges _ => AckOrdered ranges
  | pathAck _ _ ranges _ => AckOrdered ranges
  | _ => True

end Layout

section Writing

theorem paddingToBytes_eq (len : Nat) :
    paddingToBytes len = putFields (List.replicate len (.varint 0x00)) := by
  -- Each padding byte is the frame type of one more padding frame.
  induction len with
  | zero => rfl
  | succ len ih =>
    rw [paddingToBytes, List.replicate_succ, putFields, ih]
    rfl

theorem ecnCountsToBytes_eq (ecnCounts : Option EcnCounts) :
    ecnCountsToBytes ecnCounts = putFields (ecnFields ecnCounts) := by
  cases ecnCounts with
  | none => rfl
  | some ecn => simp [ecnCountsToBytes, ecnFields, putFields, Field.put]

theorem bitrateToBytes_eq (bitrate : Option Nat) :
    bitrateToBytes bitrate = putFields (bitrateFields bitrate) := by
  cases bitrate with
  | none => rfl
  | some rate => simp [bitrateToBytes, bitrateFields, putFields, Field.put]

theorem channelCwndsToBytes_eq (channels : List (Bytes × Nat)) :
    channelCwndsToBytes channels = putFields (channelFields channels) := by
  -- Each channel adds the three parts of its own entry.
  induction channels with
  | nil => rfl
  | cons channel rest ih =>
    rw [channelFields, putFields, putFields, putFields, ← ih]
    rfl

variable {output later : Output UInt8}

/-- A computation that needs no output leaves the output as it is. -/
theorem lift_eq_ok {α : Type} {result : Except WireError α} {value : α} :
    (liftM result : Writer α) output = .ok (value, later) ↔ result = .ok value ∧ later = output := by
  -- The only way to fail is the failure of the computation itself.
  cases result with
  | error error =>
    constructor
    · intro failed
      cases failed
    · intro both
      cases both.1
  | ok found =>
    constructor
    · intro ran
      obtain ⟨rfl, rfl⟩ := Prod.mk.inj (Except.ok.inj ran)
      exact ⟨rfl, rfl⟩
    · intro both
      obtain ⟨same, rfl⟩ := both
      cases same
      rfl

theorem subOrPanic_eq_ok {left right value : Nat} :
    subOrPanic left right = .ok value ↔ right ≤ left ∧ value = left - right := by
  -- The subtraction of the source is checked, so a result means that it did not underflow.
  unfold subOrPanic
  split
  · rename_i fits
    simp [fits, eq_comm]
  · rename_i beyond
    simp [beyond]

/-- Blocks that were written descend, and were written as their parts. -/
theorem ackBlocksToBytes_ok {blocks : List (Nat × Nat)} :
    ∀ {smallestAck : Nat} {output later : Output UInt8} {done : Unit},
      ackBlocksToBytes smallestAck blocks output = .ok (done, later) →
        Descending smallestAck blocks ∧
          putFields (ackBlockFields smallestAck blocks) output = .ok (done, later) := by
  -- The induction follows the blocks, and each subtraction that went through orders two of their ends.
  induction blocks with
  | nil => exact fun wrote => ⟨trivial, wrote⟩
  | cons block rest ih =>
    intro smallestAck output later done wrote
    obtain ⟨below, _, lifted, wrote⟩ := bind_eq_ok.mp wrote
    obtain ⟨checked, rfl⟩ := lift_eq_ok.mp lifted
    obtain ⟨apart, rfl⟩ := subOrPanic_eq_ok.mp checked
    obtain ⟨gap, _, lifted, wrote⟩ := bind_eq_ok.mp wrote
    obtain ⟨checked, rfl⟩ := lift_eq_ok.mp lifted
    obtain ⟨further, rfl⟩ := subOrPanic_eq_ok.mp checked
    obtain ⟨last, _, lifted, wrote⟩ := bind_eq_ok.mp wrote
    obtain ⟨checked, rfl⟩ := lift_eq_ok.mp lifted
    obtain ⟨some_, rfl⟩ := subOrPanic_eq_ok.mp checked
    obtain ⟨ackBlock, _, lifted, wrote⟩ := bind_eq_ok.mp wrote
    obtain ⟨checked, rfl⟩ := lift_eq_ok.mp lifted
    obtain ⟨forward, rfl⟩ := subOrPanic_eq_ok.mp checked
    -- What is written is the gap and the size of the block, and then the other blocks.
    obtain ⟨_, _, gapWrote, wrote⟩ := bind_eq_ok.mp wrote
    obtain ⟨_, _, blockWrote, wrote⟩ := bind_eq_ok.mp wrote
    obtain ⟨descending, others⟩ := ih wrote
    refine ⟨⟨by omega, by omega, descending⟩, ?_⟩
    exact bind_eq_ok.mpr ⟨_, _, gapWrote, bind_eq_ok.mpr ⟨_, _, blockWrote, others⟩⟩

/-- An acknowledgment that was written has ranges that descend. -/
theorem commonAckToBytes_ok {ackDelay : Nat} {ranges : RangeSet} {ecnCounts : Option EcnCounts} {done : Unit}
    (wrote : commonAckToBytes ackDelay ranges ecnCounts output = .ok (done, later)) :
    AckOrdered ranges ∧
      putFields (commonAckFields ackDelay ecnCounts ranges.iter.reverse) output = .ok (done, later) := by
  -- An empty set of ranges panics before anything is written, so there is a largest range.
  obtain ⟨pair, _, lifted, wrote⟩ := bind_eq_ok.mp wrote
  obtain ⟨found, rfl⟩ := lift_eq_ok.mp lifted
  unfold firstRange at found
  unfold AckOrdered
  cases shape : ranges.iter.reverse with
  | nil =>
    rw [shape] at found
    cases found
  | cons first rest =>
    rw [shape] at found
    obtain rfl := Except.ok.inj found
    obtain ⟨last, _, lifted, wrote⟩ := bind_eq_ok.mp wrote
    obtain ⟨checked, rfl⟩ := lift_eq_ok.mp lifted
    obtain ⟨some_, rfl⟩ := subOrPanic_eq_ok.mp checked
    obtain ⟨ackBlock, _, lifted, wrote⟩ := bind_eq_ok.mp wrote
    obtain ⟨checked, rfl⟩ := lift_eq_ok.mp lifted
    obtain ⟨forward, rfl⟩ := subOrPanic_eq_ok.mp checked
    obtain ⟨largest, _, lifted, wrote⟩ := bind_eq_ok.mp wrote
    obtain ⟨checked, rfl⟩ := lift_eq_ok.mp lifted
    obtain ⟨_, rfl⟩ := subOrPanic_eq_ok.mp checked
    -- The writes after the checks are those of the parts, in the same order.
    obtain ⟨_, _, largestWrote, wrote⟩ := bind_eq_ok.mp wrote
    obtain ⟨_, _, delayWrote, wrote⟩ := bind_eq_ok.mp wrote
    obtain ⟨_, _, countWrote, wrote⟩ := bind_eq_ok.mp wrote
    obtain ⟨_, _, blockWrote, wrote⟩ := bind_eq_ok.mp wrote
    obtain ⟨_, _, blocksWrote, ecnWrote⟩ := bind_eq_ok.mp wrote
    obtain ⟨descending, blocks⟩ := ackBlocksToBytes_ok blocksWrote
    rw [ecnCountsToBytes_eq] at ecnWrote
    refine ⟨⟨first, rest, rfl, by omega, descending⟩, ?_⟩
    refine bind_eq_ok.mpr ⟨_, _, largestWrote, bind_eq_ok.mpr ⟨_, _, delayWrote, ?_⟩⟩
    refine bind_eq_ok.mpr ⟨_, _, countWrote, bind_eq_ok.mpr ⟨_, _, blockWrote, ?_⟩⟩
    rw [putFields_append]
    exact bind_eq_ok.mpr ⟨_, _, blocks, ecnWrote⟩

/-- A frame that was written has ranges that descend, and was written as its parts. -/
theorem writeTo_ok {frame : Frame} {done : Unit} (wrote : frame.writeTo output = .ok (done, later)) :
    frame.Ordered ∧ putFields frame.fields output = .ok (done, later) := by
  -- Only an acknowledgment computes with its ranges; the frames with loops are split off one by one.
  cases frame with
  | ack ackDelay ranges ecnCounts =>
    obtain ⟨_, _, typeWrote, wrote⟩ := bind_eq_ok.mp wrote
    obtain ⟨ordered, others⟩ := commonAckToBytes_ok wrote
    exact ⟨ordered, bind_eq_ok.mpr ⟨_, _, typeWrote, others⟩⟩
  | pathAck pathIdentifier ackDelay ranges ecnCounts =>
    obtain ⟨_, _, typeWrote, wrote⟩ := bind_eq_ok.mp wrote
    obtain ⟨_, _, pathWrote, wrote⟩ := bind_eq_ok.mp wrote
    obtain ⟨ordered, others⟩ := commonAckToBytes_ok wrote
    exact ⟨ordered, bind_eq_ok.mpr ⟨_, _, typeWrote, bind_eq_ok.mpr ⟨_, _, pathWrote, others⟩⟩⟩
  | padding len =>
    rw [Frame.writeTo, paddingToBytes_eq] at wrote
    exact ⟨trivial, wrote⟩
  | fcCongestionInfo info =>
    rw [Frame.writeTo, channelCwndsToBytes_eq] at wrote
    exact ⟨trivial, wrote⟩
  | mcAnnounce channelId isIpv6Addr probePath resetStreamOnJoin sourceIp groupIp udpPort expirationTimer
      publicKey bitrate qos =>
    rw [Frame.writeTo, bitrateToBytes_eq] at wrote
    refine ⟨trivial, ?_⟩
    simpa [Frame.fields, putFields, putFields_append, Field.put, putU8, putU16, putU64] using wrote
  | _ =>
    -- The remaining frames are written as their parts, one after another.
    refine ⟨trivial, ?_⟩
    rw [← wrote]
    simp [Frame.writeTo, Frame.fields, putFields, Field.put, putU8, encodeCryptoHeader, encodeStreamHeader,
      encodeDgramHeader]

theorem toBytes_ok {frame : Frame} {count : Nat} (wrote : frame.toBytes output = .ok (count, later)) :
    frame.Ordered ∧ (∀ field ∈ frame.fields, field.Valid) ∧ later = output.push (encode frame.fields) ∧
      count = (encode frame.fields).length := by
  -- The count is the room that was left before less the room that is left after.
  obtain ⟨before, _, start, rest⟩ := bind_eq_ok.mp wrote
  obtain ⟨_, after, body, finish⟩ := bind_eq_ok.mp rest
  obtain ⟨ending, _, counted, result⟩ := bind_eq_ok.mp finish
  obtain ⟨rfl, rfl⟩ := Prod.mk.inj (Except.ok.inj start)
  obtain ⟨rfl, rfl⟩ := Prod.mk.inj (Except.ok.inj counted)
  obtain ⟨rfl, rfl⟩ := Prod.mk.inj (Except.ok.inj result)
  obtain ⟨ordered, others⟩ := writeTo_ok body
  obtain ⟨valid, fits, rfl⟩ := putFields_ok others
  refine ⟨ordered, valid, rfl, ?_⟩
  have : (output.push (encode frame.fields)).cap = output.cap - (encode frame.fields).length := rfl
  omega

end Writing

section Counting

/-- Whether a frame only stands for bytes that its own function wrote. -/
def Frame.isHeader : Frame → Bool
  | cryptoHeader .. | streamHeader .. | datagramHeader _ => true
  | _ => false

/-- Whether a frame announces a bitrate. -/
def Frame.hasBitrate : Frame → Bool
  | mcAnnounce _ _ _ _ _ _ _ _ _ bitrate _ => bitrate.isSome
  | _ => false

theorem valid_varintLen {value : Nat} (valid : (Field.varint value).Valid) :
    varintLen value = .ok (Field.varint value).bytes.length := varintLen_eq valid

@[simp] theorem raw_bytes (bytes : Bytes) : (Field.raw bytes).bytes = bytes := rfl

theorem length_fixed {size : Nat} (bytes : FixedBytes size) : List.length bytes.1 = size := bytes.2

@[simp] theorem length_varint2 (value : Nat) : (Field.varint2 value).bytes.length = 2 :=
  length_varintBytes (Or.inr (Or.inl rfl))

variable {ty : Nat} {ecnCounts : Option EcnCounts}

theorem length_type1 (small : ty ≤ 63) : (Field.varint ty).bytes.length = 1 := by
  -- The length says one byte, and the bytes are as many as the length says.
  have len : varintLen ty = .ok 1 := if_pos small
  exact (Except.ok.inj (len.symm.trans (varintLen_eq (by omega)))).symm

theorem length_type4 (low : 16383 < ty) (high : ty ≤ 1073741823) : (Field.varint ty).bytes.length = 4 := by
  have len : varintLen ty = .ok 4 := by
    unfold varintLen
    rw [if_neg (by omega), if_neg (by omega), if_pos high]
  -- The length is unique, so the bytes of the type are four.
  exact (Except.ok.inj (len.symm.trans (varintLen_eq (by omega)))).symm

theorem ackBlocksWireLen_eq {blocks : List (Nat × Nat)} :
    ∀ {smallestAck : Nat}, Descending smallestAck blocks →
      (∀ field ∈ ackBlockFields smallestAck blocks, field.Valid) →
        ackBlocksWireLen smallestAck blocks = .ok (encode (ackBlockFields smallestAck blocks)).length := by
  -- Ranges that descend make every subtraction of the count succeed.
  induction blocks with
  | nil => exact fun _ _ => rfl
  | cons block rest ih =>
    intro smallestAck descending valid
    obtain ⟨apart, forward, descending⟩ := descending
    simp only [ackBlockFields, List.forall_mem_cons] at valid
    obtain ⟨gapValid, blockValid, valid⟩ := valid
    -- The four subtractions of a block, as the writer does them.
    have gap : subOrPanic smallestAck block.2 = .ok (smallestAck - block.2) :=
      subOrPanic_eq_ok.mpr ⟨by omega, rfl⟩
    have gapLess : subOrPanic (smallestAck - block.2) 1 = .ok (smallestAck - block.2 - 1) :=
      subOrPanic_eq_ok.mpr ⟨by omega, rfl⟩
    have last : subOrPanic block.2 1 = .ok (block.2 - 1) := subOrPanic_eq_ok.mpr ⟨by omega, rfl⟩
    have span : subOrPanic (block.2 - 1) block.1 = .ok (block.2 - 1 - block.1) :=
      subOrPanic_eq_ok.mpr ⟨by omega, rfl⟩
    simp only [ackBlocksWireLen, gap, gapLess, last, span, valid_varintLen gapValid,
      valid_varintLen blockValid, ih descending valid, ackBlockFields, encode, ok_bind, pure_eq_ok,
      List.length_append, Nat.add_assoc]

theorem ecnCountsWireLen_eq (valid : ∀ field ∈ ecnFields ecnCounts, field.Valid) :
    ecnCountsWireLen ecnCounts = .ok (encode (ecnFields ecnCounts)).length := by
  cases ecnCounts with
  | none => rfl
  | some ecn =>
    simp only [ecnFields, List.forall_mem_cons] at valid
    obtain ⟨ect0, ect1, ecnCe, -⟩ := valid
    simp [ecnCountsWireLen, valid_varintLen ect0, valid_varintLen ect1, valid_varintLen ecnCe, ecnFields,
      encode, Nat.add_assoc]

theorem commonAckWireLen_eq {ackDelay : Nat} {ranges : RangeSet} (ordered : AckOrdered ranges)
    (valid : ∀ field ∈ commonAckFields ackDelay ecnCounts ranges.iter.reverse, field.Valid) :
    commonAckWireLen ackDelay ranges ecnCounts =
      .ok (encode (commonAckFields ackDelay ecnCounts ranges.iter.reverse)).length := by
  -- The count walks the same ranges as the writer, from the largest one down.
  obtain ⟨first, rest, shape, forward, descending⟩ := ordered
  rw [shape] at valid ⊢
  simp only [commonAckFields, List.forall_mem_cons, List.forall_mem_append] at valid
  obtain ⟨largestValid, delayValid, countValid, blockValid, blocksValid, ecnValid⟩ := valid
  have found : firstRange ranges = .ok (first, rest) := by
    unfold firstRange
    rw [shape]
  have last : subOrPanic first.2 1 = .ok (first.2 - 1) := subOrPanic_eq_ok.mpr ⟨by omega, rfl⟩
  have span : subOrPanic (first.2 - 1) first.1 = .ok (first.2 - 1 - first.1) :=
    subOrPanic_eq_ok.mpr ⟨by omega, rfl⟩
  simp only [commonAckWireLen, found, last, span, valid_varintLen largestValid, valid_varintLen delayValid,
    valid_varintLen countValid, valid_varintLen blockValid, ackBlocksWireLen_eq descending blocksValid,
    ecnCountsWireLen_eq ecnValid, commonAckFields, encode, encode_append, ok_bind, pure_eq_ok,
    List.length_append, Nat.add_assoc]

theorem length_channelFields (channels : List (Bytes × Nat)) :
    (encode (channelFields channels)).length =
      (channels.map fun channel => 1 + channel.1.length + 4).sum := by
  induction channels with
  | nil => rfl
  | cons channel rest ih =>
    rw [List.map_cons, List.sum_cons, ← ih]
    simp only [channelFields, encode, raw_bytes, List.length_append, List.length_singleton,
      length_toBigEndian]
    omega

theorem length_padding (len : Nat) : (encode (List.replicate len (.varint 0x00))).length = len := by
  induction len with
  | zero => rfl
  | succ len ih =>
    rw [List.replicate_succ, encode, List.length_append, ih]
    exact Nat.add_comm 1 len

theorem length_rangeBuf (data : WfRangeBuf) : data.1.bytes.length = data.1.curLen := by
  -- The bytes of a well-formed chunk end within its buffer.
  obtain ⟨fits, low, high, -⟩ := data.2
  unfold RangeBuf.bytes RangeBuf.curLen
  rw [List.length_take, List.length_drop]
  omega

/-- A frame that was written took as many bytes as its length on the wire. -/
theorem wireLen_eq {frame : Frame} (ordered : frame.Ordered) (valid : ∀ field ∈ frame.fields, field.Valid)
    (own : frame.isHeader = false) (unrated : frame.hasBitrate = false) :
    frame.wireLen = .ok (encode frame.fields).length := by
  -- A header frame and a bitrate are counted differently, and are excluded by the hypotheses.
  cases frame with
  | ack ackDelay ranges ecnCounts =>
    obtain ⟨-, valid⟩ := List.forall_mem_cons.mp valid
    have type : (Field.varint (if ecnCounts.isNone then 0x02 else 0x03)).bytes.length = 1 :=
      length_type1 (by split <;> decide)
    simp only [Frame.wireLen, Frame.fields, commonAckWireLen_eq ordered valid, encode, type, ok_bind,
      pure_eq_ok, List.length_append]
  | pathAck pathIdentifier ackDelay ranges ecnCounts =>
    obtain ⟨-, valid⟩ := List.forall_mem_cons.mp valid
    obtain ⟨path, valid⟩ := List.forall_mem_cons.mp valid
    have type : (Field.varint (if ecnCounts.isNone then 0x15228c00 else 0x15228c01)).bytes.length = 4 :=
      length_type4 (by split <;> decide) (by split <;> decide)
    simp only [Frame.wireLen, Frame.fields, commonAckWireLen_eq ordered valid, valid_varintLen path, encode,
      type, ok_bind, pure_eq_ok, List.length_append, Nat.add_assoc]
  | padding len => simp only [Frame.wireLen, Frame.fields, length_padding, pure_eq_ok]
  | cryptoHeader => cases own
  | streamHeader => cases own
  | datagramHeader => cases own
  | stream streamId data =>
    simp only [Frame.fields, List.forall_mem_cons] at valid
    have type : (Field.varint (0x0e ||| (if data.1.fin then 0x01 else 0))).bytes.length = 1 :=
      length_type1 (by split <;> decide)
    simp only [Frame.wireLen, Frame.fields, valid_varintLen valid.2.1, valid_varintLen valid.2.2.1, encode,
      type, length_varint2, raw_bytes, length_rangeBuf, ok_bind, pure_eq_ok, List.length_append,
      List.length_nil]
    exact congrArg Except.ok (by omega)
  | mcAnnounce channelId isIpv6Addr probePath resetStreamOnJoin sourceIp groupIp udpPort expirationTimer
      publicKey bitrate qos =>
    -- Without a bitrate the frame has its plain type and no integer for the rate.
    obtain rfl : bitrate = none := by
      cases bitrate with
      | none => rfl
      | some rate => cases unrated
    simp only [Frame.fields, List.forall_mem_append, List.forall_mem_cons] at valid
    obtain ⟨⟨type, -, -, -, -, -, -, -, -, -, keyLen, -⟩, -⟩ := valid
    simp only [Frame.wireLen, Frame.fields, valid_varintLen type, valid_varintLen keyLen, encode,
      encode_append, bitrateFields, raw_bytes, length_fixed, length_toBigEndian, ok_bind, pure_eq_ok,
      List.length_append, List.length_singleton, List.length_nil]
    exact congrArg Except.ok (by omega)
  | fcCongestionInfo info =>
    simp only [Frame.fields, List.forall_mem_cons] at valid
    simp only [Frame.wireLen, Frame.fields, valid_varintLen valid.1, valid_varintLen valid.2.2.1, encode,
      raw_bytes, length_toBigEndian, length_channelFields, ok_bind, pure_eq_ok, List.length_append,
      List.length_singleton]
    exact congrArg Except.ok (by omega)
  | _ =>
    -- The remaining frames are lists of integers and bytes, counted one by one.
    simp only [Frame.fields, List.forall_mem_cons] at valid
    simp only [Frame.wireLen, Frame.fields, valid_varintLen, valid, encode, raw_bytes, length_varint2,
      length_type1, length_type4, length_rangeBuf, length_fixed, ok_bind, pure_eq_ok, List.length_append,
      List.length_singleton, List.length_nil, Nat.reduceLeDiff, Nat.reduceLT] <;>
    exact congrArg Except.ok (by omega)

/--
The bytes that a frame writes are those that its length counts; a header frame writes none,
since its bytes were written before.
-/
theorem toBytes_count (frame : Frame) (output later : Output UInt8) (count : Nat)
    (wrote : frame.toBytes output = .ok (count, later)) :
    later.written.length = output.written.length + count ∧
      (frame.isHeader = true → count = 0) ∧
      (frame.isHeader = false → frame.hasBitrate = false → frame.wireLen = .ok count) := by
  -- What was written is known part by part, and the count of the parts is the length on the wire.
  obtain ⟨ordered, valid, rfl, rfl⟩ := toBytes_ok wrote
  refine ⟨?_, ?_, fun own unrated => wireLen_eq ordered valid own unrated⟩
  · simp [Output.push]
  · intro header
    cases frame with
    | cryptoHeader => rfl
    | streamHeader => rfl
    | datagramHeader => rfl
    | _ => cases header

/-- A stream frame of three bytes is written as its length says. -/
theorem toBytes_count_stream :
    ∃ later : Output UInt8,
      (Frame.stream 4 (rangeBufFrom [1, 2, 3] 70 true)).toBytes ⟨[], 100⟩ = .ok (9, later) ∧
        (Frame.stream 4 (rangeBufFrom [1, 2, 3] 70 true)).wireLen = .ok 9 := by
  refine ⟨⟨[0x0f, 4, 0x40, 70, 0x40, 3, 1, 2, 3], 91⟩, rfl, ?_⟩
  exact (toBytes_count _ ⟨[], 100⟩ ⟨[0x0f, 4, 0x40, 70, 0x40, 3, 1, 2, 3], 91⟩ 9 rfl).2.2 rfl rfl

/-- A header frame writes nothing, and its length counts what was written before. -/
theorem header_writes_nothing :
    (Frame.datagramHeader 5).toBytes ⟨[], 100⟩ = .ok (0, ⟨[], 100⟩) ∧
      (Frame.datagramHeader 5).wireLen = .ok 8 :=
  ⟨rfl, rfl⟩

end Counting

section Reading

/-- Frames that tell the receiver the same: chunks by their bytes, range sets by their ranges. -/
def Frame.content : Frame → Frame
  | ping _ => ping none
  | ack ackDelay ranges ecnCounts => ack ackDelay (.inline ⟨ranges.iter, none⟩) ecnCounts
  | crypto data => crypto (rangeBufFrom data.1.bytes data.1.curOff data.1.fin)
  | stream streamId data => stream streamId (rangeBufFrom data.1.bytes data.1.curOff data.1.fin)
  | pathAck pathIdentifier ackDelay ranges ecnCounts =>
    pathAck pathIdentifier ackDelay (.inline ⟨ranges.iter, none⟩) ecnCounts
  | frame => frame

variable {pkt : PacketType} {frame : Frame} {first second left right : Nat} {bytes : Bytes} {set : RangeSet}
  {ecnCounts : Option EcnCounts} {bitrate : Option Nat} {data : WfRangeBuf}

theorem reads_frame {ty : Nat} {fields : List Field} (small : ty < 2 ^ 62)
    (body : Reads (parseFrame ty) (encode fields) frame) (allowed : frame.allowed pkt = true) :
    Reads (Frame.fromBytes pkt) (encode (.varint ty :: fields)) frame := by
  -- The reader takes the type, then the body, and checks last that the packet may hold the frame.
  refine (reads_varint small).bind ?_
  intro rest
  rw [bind_ok (body rest), if_pos allowed]
  rfl

theorem reads_varint1 {frame : Nat → Frame} (small : first < 2 ^ 62) :
    Reads (do return frame (← getVarint)) (encode [.varint first]) (frame first) :=
  (reads_varint small).bind (Reads.pure _)

theorem reads_varints2 {frame : Nat → Nat → Frame} (small : first < 2 ^ 62) (below : second < 2 ^ 62) :
    Reads (do return frame (← getVarint) (← getVarint)) (encode [.varint first, .varint second])
      (frame first second) :=
  (reads_varint small).bind (reads_varint1 below)

theorem reads_varints3 {frame : Nat → Nat → Nat → Frame} {third : Nat} (small : first < 2 ^ 62)
    (below : second < 2 ^ 62) (last : third < 2 ^ 62) :
    Reads (do return frame (← getVarint) (← getVarint) (← getVarint))
      (encode [.varint first, .varint second, .varint third]) (frame first second third) :=
  (reads_varint small).bind (reads_varints2 below last)

theorem reads_array {size : Nat} (bytes : FixedBytes size) : Reads (getArray size) bytes.1 bytes := fun _ =>
  getArray_eq_ok.mpr rfl

theorem reads_bytesWithU8Length (short : bytes.length < 256) :
    Reads getBytesWithU8Length ([UInt8.ofNat bytes.length] ++ bytes) bytes := by
  -- The length byte is taken modulo 256, which changes nothing for a short string.
  intro rest
  refine getBytesWithU8Length_eq_ok.mpr ⟨_, rfl, ?_⟩
  rw [UInt8.toNat_ofNat', Nat.mod_eq_of_lt short]

theorem reads_bytesWithVarintLength (valid : bytes.length < 2 ^ 62) :
    Reads getBytesWithVarintLength (encode [.varint bytes.length, .raw bytes]) bytes := by
  have shape : encode [.varint bytes.length, .raw bytes] = (Field.varint bytes.length).bytes ++ bytes := by
    rw [encode, encode, encode, List.append_nil, raw_bytes]
  rw [shape]
  exact (reads_varint valid).bind (reads_bytes bytes)

theorem reads_addU64 (fits : left + right ≤ maxU64) : Reads (addU64 left right) [] (left + right) := by
  unfold addU64
  rw [if_pos fits]
  exact Reads.pure _

theorem reads_subU64 (fits : right ≤ left) : Reads (subU64 left right) [] (left - right) := by
  unfold subU64
  rw [if_pos fits]
  exact Reads.pure _

theorem reads_insertRange (wf : set.Wf) {start stop : Nat} (forward : start ≤ stop) :
    Reads (insertRange set start stop) [] (set.insert start stop) := by
  -- A well-formed set accepts every range that is not reversed.
  obtain ⟨result, inserted, -, -⟩ := RangeSet.insert?_eq wf forward
  have same : set.insert start stop = result := by simp [RangeSet.insert, inserted]
  unfold insertRange
  rw [inserted, same]
  exact Reads.pure _

theorem iter_insert_below (wf : set.Wf) {range : Nat × Nat} (forward : range.1 < range.2)
    (above : ∀ other ∈ set.iter, range.2 < other.1) : (set.insert range.1 range.2).iter = range :: set.iter := by
  -- Nothing touches the new range, so the merge only puts it in front.
  rw [RangeSet.iter_insert wf (Nat.le_of_lt forward)]
  exact Intervals.merge_before (Nat.le_of_lt forward) wf.separated above

/-- Blocks that descend are read back below the ranges read before. -/
theorem reads_ackBlocks {blocks : List (Nat × Nat)} :
    ∀ {smallestAck : Nat} {set : RangeSet}, set.Wf → (∀ range ∈ set.iter, smallestAck ≤ range.1) →
      smallestAck < 2 ^ 62 → Descending smallestAck blocks →
      (∀ field ∈ ackBlockFields smallestAck blocks, field.Valid) →
      ∃ result, Reads (ackBlocks blocks.length smallestAck set) (encode (ackBlockFields smallestAck blocks)) result ∧
        result.iter = blocks.reverse ++ set.iter := by
  -- The blocks come from the largest one down, so each is inserted below all that were read.
  induction blocks with
  | nil =>
    intro smallestAck set wf above small descending valid
    exact ⟨set, Reads.pure set, rfl⟩
  | cons block rest ih =>
    intro smallestAck set wf above small descending valid
    obtain ⟨apart, forward, descending⟩ := descending
    simp only [ackBlockFields, List.forall_mem_cons] at valid
    obtain ⟨gapValid, blockValid, valid⟩ := valid
    have listed : (set.insert block.1 block.2).iter = block :: set.iter :=
      iter_insert_below wf forward fun other member => by
        have := above other member
        omega
    have lower : ∀ range ∈ (set.insert block.1 block.2).iter, block.1 ≤ range.1 := by
      rw [listed]
      refine List.forall_mem_cons.mpr ⟨Nat.le_refl _, fun other member => ?_⟩
      have := above other member
      omega
    obtain ⟨result, reads, iter⟩ := ih (wf.insert (Nat.le_of_lt forward)) lower (by omega) descending valid
    refine ⟨result, ?_, by rw [iter, listed, List.reverse_cons, List.append_assoc]; rfl⟩
    -- Gap and block give back the ends of the range that they were computed from.
    have gap : smallestAck - (smallestAck - block.2 - 1) - 2 = block.2 - 1 := by omega
    have next : block.2 - 1 - (block.2 - 1 - block.1) = block.1 := by omega
    have stop : block.2 - 1 + 1 = block.2 := by omega
    have max : smallestAck < maxU64 := by unfold maxU64; omega
    refine (reads_varint gapValid).bind ?_
    refine @Reads.bind _ _ _ _ _ _ [] _ _ _ (reads_addU64 (by omega)) ?_
    rw [if_neg (by omega)]
    refine @Reads.bind _ _ _ _ _ _ [] _ _ _ (reads_subU64 (by omega)) ?_
    refine @Reads.bind _ _ _ _ _ _ [] _ _ _ (reads_subU64 (by omega)) ?_
    rw [gap]
    refine (reads_varint blockValid).bind ?_
    rw [if_neg (by omega)]
    refine @Reads.bind _ _ _ _ _ _ [] _ _ _ (reads_subU64 (by omega)) ?_
    rw [next]
    refine @Reads.bind _ _ _ _ _ _ [] _ _ _ (reads_addU64 (by omega)) ?_
    rw [stop]
    exact @Reads.bind _ _ _ _ _ _ [] _ _ _ (reads_insertRange wf (Nat.le_of_lt forward)) reads

theorem reads_ecnCounts (valid : ∀ field ∈ ecnFields ecnCounts, field.Valid) :
    Reads (parseEcnCounts ecnCounts.isSome) (encode (ecnFields ecnCounts)) ecnCounts := by
  cases ecnCounts with
  | none => exact Reads.pure none
  | some ecn =>
    simp only [ecnFields, List.forall_mem_cons] at valid
    obtain ⟨ect0, ect1, ecnCe, -⟩ := valid
    exact (reads_varint ect0).bind ((reads_varint ect1).bind ((reads_varint ecnCe).bind (Reads.pure _)))

/-- An acknowledgment is read back with the same ranges. -/
theorem reads_commonAck {ackDelay : Nat} {ranges : RangeSet} (ordered : AckOrdered ranges)
    (valid : ∀ field ∈ commonAckFields ackDelay ecnCounts ranges.iter.reverse, field.Valid) :
    ∃ result, Reads (parseCommonAckFrame ecnCounts.isSome)
        (encode (commonAckFields ackDelay ecnCounts ranges.iter.reverse)) (ackDelay, result, ecnCounts) ∧
      result.iter = ranges.iter := by
  -- The first range is the set that the blocks are then inserted below.
  obtain ⟨first, rest, shape, forward, descending⟩ := ordered
  rw [shape] at valid ⊢
  simp only [commonAckFields, List.forall_mem_cons, List.forall_mem_append] at valid
  obtain ⟨largestValid, delayValid, countValid, blockValid, blocksValid, ecnValid⟩ := valid
  have small : first.2 - 1 < 2 ^ 62 := largestValid
  have listed : (RangeSet.default.insert first.1 first.2).iter = [first] :=
    iter_insert_below RangeSet.wf_default forward fun _ member => (nomatch member)
  obtain ⟨result, reads, iter⟩ := reads_ackBlocks (RangeSet.wf_default.insert (Nat.le_of_lt forward))
    (by rw [listed]; exact List.forall_mem_singleton.mpr (Nat.le_refl _)) (by omega) descending blocksValid
  refine ⟨result, ?_, ?_⟩
  · have span : first.2 - 1 - (first.2 - 1 - first.1) = first.1 := by omega
    have stop : first.2 - 1 + 1 = first.2 := by omega
    have max : first.2 ≤ maxU64 := by unfold maxU64; omega
    refine (reads_varint largestValid).bind ?_
    refine (reads_varint delayValid).bind ?_
    refine (reads_varint countValid).bind ?_
    refine (reads_varint blockValid).bind ?_
    -- The size of the first block does not exceed the largest number, so nothing is refused.
    rw [if_neg (by omega)]
    refine @Reads.bind _ _ _ _ _ _ [] _ _ _ (reads_subU64 (by omega)) ?_
    rw [span]
    refine @Reads.bind _ _ _ _ _ _ [] _ _ _ (reads_addU64 (by omega)) ?_
    rw [stop, encode_append]
    refine @Reads.bind _ _ _ _ _ _ [] _ _ _
      (reads_insertRange RangeSet.wf_default (Nat.le_of_lt forward)) ?_
    refine reads.bind ?_
    exact (reads_ecnCounts ecnValid).map
  · rw [iter, listed, ← List.reverse_cons, ← shape, List.reverse_reverse]

theorem reads_id (short : bytes.length ≤ maxCidLen) :
    Reads getBytesWithU8Length ([UInt8.ofNat bytes.length] ++ bytes) bytes :=
  reads_bytesWithU8Length (by unfold maxCidLen at short; omega)

theorem reads_connectionId {connId : Bytes} {resetToken : FixedBytes 16} (some_ : connId ≠ [])
    (short : connId.length ≤ maxCidLen) :
    Reads parseConnectionId
      (encode [.raw [UInt8.ofNat connId.length], .raw connId, .raw resetToken.1]) (connId, resetToken) := by
  -- The length is between one and the maximum, which is what the reader checks.
  have positive := List.length_pos_iff.mpr some_
  have len : (UInt8.ofNat connId.length).toNat = connId.length := by
    unfold maxCidLen at short
    rw [UInt8.toNat_ofNat', Nat.mod_eq_of_lt (by omega)]
  refine (reads_u8 _).bind ?_
  rw [len, if_neg (by omega)]
  exact (reads_bytes connId).bind ((reads_array resetToken).bind (Reads.pure _))

theorem reads_u32 {value : Nat} (small : value < 2 ^ 32) : Reads getU32 (toBigEndian 4 value) value := by
  -- Four bytes hold every number below the bound.
  have reads := reads_u 4 value
  rwa [Nat.mod_eq_of_lt (show value < 256 ^ 4 from small)] at reads

theorem reads_channels {channels : List (Bytes × Nat)}
    (fits : ∀ channel ∈ channels, channel.1.length ≤ maxCidLen ∧ channel.2 < 2 ^ 32) :
    Reads (channelCwnds channels.length) (encode (channelFields channels)) channels := by
  -- The induction follows the channels as the loop of the reader does.
  induction channels with
  | nil => exact Reads.pure []
  | cons channel rest ih =>
    obtain ⟨⟨short, small⟩, fits⟩ := List.forall_mem_cons.mp fits
    have shape : encode (channelFields (channel :: rest)) =
        ([UInt8.ofNat channel.1.length] ++ channel.1) ++
          (toBigEndian 4 channel.2 ++ encode (channelFields rest)) := by
      simp only [channelFields, encode, raw_bytes, List.append_assoc]
    rw [shape]
    exact (reads_id short).bind ((reads_u32 small).bind (ih fits).map)

theorem fromBits_bits (qos : FcQos) : FcQos.fromBits qos.bits = some qos := by
  obtain ⟨throughput, delay⟩ := qos
  cases throughput <;> cases delay <;> decide

theorem tryFrom_toU8 (algo : Algorithm) : Algorithm.tryFrom algo.toU8 = some algo := by
  cases algo <;> rfl

theorem reads_bitrate (valid : ∀ field ∈ bitrateFields bitrate, field.Valid) :
    Reads (parseBitrate (if bitrate.isSome then mcAnnounceBwCode else mcAnnounceCode))
      (encode (bitrateFields bitrate)) bitrate := by
  cases bitrate with
  | none => exact Reads.pure none
  | some rate =>
    simp only [bitrateFields, List.forall_mem_cons] at valid
    exact (reads_varint valid.1).bind (Reads.pure _)

theorem reads_announce {channelId : Bytes} {isIpv6Addr probePath resetStreamOnJoin : UInt8}
    {sourceIp groupIp : FixedBytes 4} {udpPort : UInt16} {expirationTimer : UInt64} {publicKey : Bytes} {qos : FcQos}
    (short : channelId.length ≤ maxCidLen) (keyValid : publicKey.length < 2 ^ 62)
    (rateValid : ∀ field ∈ bitrateFields bitrate, field.Valid) :
    Reads (parseAnnounceFrame (if bitrate.isSome then mcAnnounceBwCode else mcAnnounceCode))
      (encode ([.raw [UInt8.ofNat channelId.length], .raw channelId, .raw [probePath], .raw [isIpv6Addr],
        .raw [resetStreamOnJoin], .raw sourceIp.1, .raw groupIp.1, .raw (toBigEndian 2 udpPort.toNat),
        .raw (toBigEndian 8 expirationTimer.toNat), .varint publicKey.length, .raw publicKey] ++
        (bitrateFields bitrate ++ [.raw [qos.bits]])))
      (.mcAnnounce channelId isIpv6Addr probePath resetStreamOnJoin sourceIp groupIp udpPort expirationTimer
        publicKey bitrate qos) := by
  rw [encode_append, encode_append]
  simp only [encode, raw_bytes, List.append_nil, List.append_assoc]
  rw [← List.append_assoc [UInt8.ofNat channelId.length]]
  refine (reads_id short).bind ?_
  refine (reads_u8 probePath).bind ?_
  refine (reads_u8 isIpv6Addr).bind ?_
  refine (reads_u8 resetStreamOnJoin).bind ?_
  refine (reads_array sourceIp).bind ?_
  refine (reads_array groupIp).bind ?_
  refine (reads_u16 udpPort).bind ?_
  refine (reads_u64 expirationTimer).bind ?_
  refine (reads_varint keyValid).bind ?_
  refine (reads_bytes publicKey).bind ?_
  refine (reads_bitrate rateValid).bind ?_
  rw [← List.append_nil [qos.bits]]
  refine (reads_u8 qos.bits).bind ?_
  rw [fromBits_bits]
  exact Reads.pure _

theorem reads_stream {streamId : Nat} (idValid : streamId < 2 ^ 62) (offValid : data.1.curOff < 2 ^ 62)
    (short : data.1.curLen < 2 ^ 14) (ends : data.1.curOff + data.1.curLen < maxStreamSize) :
    Reads (parseStreamFrame (0x0e ||| (if data.1.fin then 0x01 else 0)))
      (encode [.varint streamId, .varint data.1.curOff, .varint2 data.1.curLen, .raw data.1.bytes])
      (.stream streamId (rangeBufFrom data.1.bytes data.1.curOff data.1.fin)) := by
  have sized := length_rangeBuf data
  have fits : data.1.curOff + data.1.curLen ≤ maxU64 := by unfold maxU64; omega
  refine (reads_varint idValid).bind ?_
  have offset : parseOffset ((0x0e ||| (if data.1.fin then 0x01 else 0)) % 256 &&& 0x04 != 0) = getVarint := by
    cases data.1.fin <;> rfl
  have length : parseLength ((0x0e ||| (if data.1.fin then 0x01 else 0)) % 256 &&& 0x02 != 0) = getVarint := by
    cases data.1.fin <;> rfl
  have fin : ((0x0e ||| (if data.1.fin then 0x01 else 0)) % 256 &&& 0x01 != 0) = data.1.fin := by
    cases data.1.fin <;> rfl
  rw [offset, length, fin]
  refine (reads_varint offValid).bind ?_
  refine (reads_varint2 short).bind ?_
  refine @Reads.bind _ _ _ _ _ _ [] _ _ _ (reads_addU64 fits) ?_
  rw [if_neg (Nat.not_le.mpr ends), ← sized]
  exact (reads_bytes data.1.bytes).bind (Reads.pure _)

/--
The frames that are written and read back: those that stand for their own bytes, with identifiers
and tokens that are not empty, and with lengths and windows that fit their fields.
-/
def Frame.Sendable : Frame → Prop
  | padding len => 0 < len
  | crypto data => data.1.fin = false ∧ data.1.curLen < 2 ^ 14
  | newToken token => token ≠ []
  | stream _ data => data.1.curLen < 2 ^ 14 ∧ data.1.curOff + data.1.curLen < maxStreamSize
  | newConnectionId _ _ connId _ => connId ≠ [] ∧ connId.length ≤ maxCidLen
  | pathNewConnectionId _ _ _ connId _ => connId ≠ [] ∧ connId.length ≤ maxCidLen
  | datagram data => data.length < 2 ^ 14
  | mcAnnounce channelId .. => channelId.length ≤ maxCidLen
  | mcState channelId _ _ => channelId.length ≤ maxCidLen
  | mcKey channelId _ _ _ => channelId.length ≤ maxCidLen
  | fcCongestionInfo info => info.cwnd < 2 ^ 32 ∧ info.rtt < 2 ^ 62 ∧ info.mcCwnds.length < 2 ^ 8 ∧
      ∀ channel ∈ info.mcCwnds, channel.1.length ≤ maxCidLen ∧ channel.2 < 2 ^ 32
  | cryptoHeader .. | streamHeader .. | datagramHeader _ => False
  | _ => True

theorem allowed_content (pkt : PacketType) (frame : Frame) :
    frame.content.allowed pkt = frame.allowed pkt := by
  cases frame <;> cases pkt <;> rfl

/-- Padding is read back from its zeros. -/
theorem reads_padding (len : Nat) :
    Frame.fromBytes pkt (encode (List.replicate (len + 1) (.varint 0x00))) = .ok (.padding (len + 1), []) := by
  -- Padding is read by a loop over zeros that goes on to the end of the input.
  have zeros (count : Nat) : encode (List.replicate count (.varint 0x00)) = List.replicate count 0 := by
    induction count with
    | zero => rfl
    | succ count ih =>
      rw [List.replicate_succ, encode, ih]
      rfl
  have loop (count start : Nat) : paddingLoop (List.replicate count 0) start = (start + count, []) := by
    induction count generalizing start with
    | zero => rfl
    | succ count ih =>
      rw [List.replicate_succ, paddingLoop, ih]
      simp only [Prod.mk.injEq, and_true]
      omega
  have body : parseFrame 0x00 (List.replicate len 0) = .ok (.padding (len + 1), []) := by
    show Except.ok (Frame.padding (paddingLoop (List.replicate len 0) 1).1,
      (paddingLoop (List.replicate len 0) 1).2) = _
    rw [loop, Nat.add_comm]
  rw [List.replicate_succ, encode, zeros]
  refine (bind_ok (reads_varint (by decide) _)).trans ((bind_ok body).trans ?_)
  cases pkt <;> rfl

theorem reads_data (short : data.1.curLen < 2 ^ 14) :
    Reads getBytesWithVarintLength (encode [.varint2 data.1.curLen, .raw data.1.bytes]) data.1.bytes := by
  -- The length is written with two bytes, whatever its value.
  have shape : encode [.varint2 data.1.curLen, .raw data.1.bytes] =
      (Field.varint2 data.1.curLen).bytes ++ data.1.bytes := by
    rw [encode, encode, encode, List.append_nil, raw_bytes]
  have bytes := reads_bytes data.1.bytes
  rw [length_rangeBuf] at bytes
  rw [shape]
  exact (reads_varint2 short).bind bytes

theorem rangeBufFrom_again (bytes : Bytes) (off : Nat) (fin : Bool) :
    rangeBufFrom (rangeBufFrom bytes off fin).1.bytes (rangeBufFrom bytes off fin).1.curOff
      (rangeBufFrom bytes off fin).1.fin = rangeBufFrom bytes off fin := by
  have same : (rangeBufFrom bytes off fin).1.bytes = bytes := by
    simp [rangeBufFrom, RangeBuf.fromSlice, RangeBuf.bytes]
  rw [same]
  rfl

theorem parseFrame_ack (ecnCounts : Option EcnCounts) :
    parseFrame (if ecnCounts.isNone then 0x02 else 0x03) = (do
      let common ← parseCommonAckFrame ecnCounts.isSome
      return .ack common.1 common.2.1 common.2.2) := by
  -- The low bit of the type says whether counts follow.
  have flag : ((if ecnCounts.isNone then 0x02 else 0x03) % 256 &&& 0x01 != 0) = ecnCounts.isSome := by
    cases ecnCounts <;> simp
  have body : parseFrame (if ecnCounts.isNone then 0x02 else 0x03) =
      parseAckFrame (if ecnCounts.isNone then 0x02 else 0x03) := by
    cases ecnCounts <;> rfl
  rw [body, parseAckFrame, flag]

theorem parseFrame_pathAck (ecnCounts : Option EcnCounts) :
    parseFrame (if ecnCounts.isNone then 0x15228c00 else 0x15228c01) = (do
      let pathIdentifier ← getVarint
      let common ← parseCommonAckFrame ecnCounts.isSome
      return .pathAck pathIdentifier common.1 common.2.1 common.2.2) := by
  -- As for a plain acknowledgment, the low bit of the type says whether counts follow.
  have flag : ((if ecnCounts.isNone then 0x15228c00 else 0x15228c01) &&& 0x01 != 0) = ecnCounts.isSome := by
    cases ecnCounts <;> simp
  have body : parseFrame (if ecnCounts.isNone then 0x15228c00 else 0x15228c01) =
      parsePathAckFrame (if ecnCounts.isNone then 0x15228c00 else 0x15228c01) := by
    cases ecnCounts <;> rfl
  rw [body, parsePathAckFrame, flag]

theorem parseFrame_stream (fin : Bool) :
    parseFrame (0x0e ||| (if fin then 0x01 else 0)) =
      parseStreamFrame (0x0e ||| (if fin then 0x01 else 0)) := by
  cases fin <;> rfl

theorem parseFrame_announce (bitrate : Option Nat) :
    parseFrame (if bitrate.isSome then mcAnnounceBwCode else mcAnnounceCode) =
      parseAnnounceFrame (if bitrate.isSome then mcAnnounceBwCode else mcAnnounceCode) := by
  cases bitrate <;> rfl

/-- The body of a frame is read back behind its type. -/
def Frame.ReadBack (frame : Frame) : Prop :=
  ∃ ty rest result, frame.fields = .varint ty :: rest ∧
    Reads (parseFrame ty) (encode rest) result ∧ result.content = frame.content

section Bodies

variable {ty first second : Nat}

/-- A frame of one integer. -/
theorem readBack_varint1 {make : Nat → Frame} (shape : (make first).fields = [.varint ty, .varint first])
    (parse : parseFrame ty = do return make (← getVarint))
    (valid : ∀ field ∈ (make first).fields, field.Valid) : (make first).ReadBack := by
  simp only [shape, List.forall_mem_cons] at valid
  refine ⟨ty, _, _, shape, ?_, rfl⟩
  rw [parse]
  exact reads_varint1 valid.2.1

/-- A frame of two integers. -/
theorem readBack_varints2 {make : Nat → Nat → Frame}
    (shape : (make first second).fields = [.varint ty, .varint first, .varint second])
    (parse : parseFrame ty = do return make (← getVarint) (← getVarint))
    (valid : ∀ field ∈ (make first second).fields, field.Valid) : (make first second).ReadBack := by
  simp only [shape, List.forall_mem_cons] at valid
  refine ⟨ty, _, _, shape, ?_, rfl⟩
  rw [parse]
  exact reads_varints2 valid.2.1 valid.2.2.1

variable {ackDelay : Nat} {ranges : RangeSet} {ecnCounts : Option EcnCounts} {data : WfRangeBuf}

theorem readBack_ack (ordered : (Frame.ack ackDelay ranges ecnCounts).Ordered)
    (valid : ∀ field ∈ (Frame.ack ackDelay ranges ecnCounts).fields, field.Valid) :
    (Frame.ack ackDelay ranges ecnCounts).ReadBack := by
  obtain ⟨result, reads, iter⟩ := reads_commonAck ordered (List.forall_mem_cons.mp valid).2
  refine ⟨_, _, .ack ackDelay result ecnCounts, rfl, ?_, by simp only [Frame.content, iter]⟩
  rw [parseFrame_ack]
  exact reads.map

theorem readBack_pathAck {pathId : Nat} (ordered : (Frame.pathAck pathId ackDelay ranges ecnCounts).Ordered)
    (valid : ∀ field ∈ (Frame.pathAck pathId ackDelay ranges ecnCounts).fields, field.Valid) :
    (Frame.pathAck pathId ackDelay ranges ecnCounts).ReadBack := by
  obtain ⟨-, path, others⟩ := List.forall_mem_cons.mp valid |>.imp_right List.forall_mem_cons.mp
  obtain ⟨result, reads, iter⟩ := reads_commonAck ordered others
  refine ⟨_, _, .pathAck pathId ackDelay result ecnCounts, rfl, ?_, by simp only [Frame.content, iter]⟩
  rw [parseFrame_pathAck]
  exact (reads_varint path).bind reads.map

/-- The reader makes a chunk that is not final, so a final one could not come back. -/
theorem readBack_crypto (sendable : (Frame.crypto data).Sendable)
    (valid : ∀ field ∈ (Frame.crypto data).fields, field.Valid) : (Frame.crypto data).ReadBack := by
  obtain ⟨unfinished, short⟩ := sendable
  simp only [Frame.fields, List.forall_mem_cons] at valid
  refine ⟨_, _, .crypto (rangeBufFrom data.1.bytes data.1.curOff data.1.fin), rfl, ?_, ?_⟩
  · rw [unfinished]
    exact (reads_varint valid.2.1).bind (reads_data short).map
  · exact congrArg Frame.crypto (rangeBufFrom_again _ _ _)

/-- The final flag of a chunk travels in the type of the frame. -/
theorem readBack_stream {streamId : Nat} (sendable : (Frame.stream streamId data).Sendable)
    (valid : ∀ field ∈ (Frame.stream streamId data).fields, field.Valid) : (Frame.stream streamId data).ReadBack := by
  obtain ⟨short, ends⟩ := sendable
  simp only [Frame.fields, List.forall_mem_cons] at valid
  have reads := reads_stream valid.2.1 valid.2.2.1 short ends
  refine ⟨_, _, .stream streamId (rangeBufFrom data.1.bytes data.1.curOff data.1.fin), rfl, ?_, ?_⟩
  · rw [parseFrame_stream]
    exact reads
  · exact congrArg (Frame.stream streamId) (rangeBufFrom_again _ _ _)

theorem readBack_mcKey {channelId key : Bytes} {algo : Algorithm} {firstPn : Nat}
    (sendable : (Frame.mcKey channelId key algo firstPn).Sendable)
    (valid : ∀ field ∈ (Frame.mcKey channelId key algo firstPn).fields, field.Valid) :
    (Frame.mcKey channelId key algo firstPn).ReadBack := by
  simp only [Frame.fields, List.forall_mem_cons] at valid
  refine ⟨_, _, .mcKey channelId key algo firstPn, rfl, ?_, rfl⟩
  refine (reads_id sendable).bind ((reads_varint valid.2.2.2.1).bind ((reads_bytes key).bind ?_))
  refine (reads_u8 algo.toU8).bind ?_
  -- The algorithm is read back from the byte that stands for it.
  rw [tryFrom_toU8]
  exact reads_varint1 valid.2.2.2.2.2.2.1

theorem readBack_fcCongestionInfo {info : FcCongestionInfo} (sendable : (Frame.fcCongestionInfo info).Sendable)
    (valid : ∀ field ∈ (Frame.fcCongestionInfo info).fields, field.Valid) :
    (Frame.fcCongestionInfo info).ReadBack := by
  obtain ⟨window, time, few, channels⟩ := sendable
  simp only [Frame.fields, List.forall_mem_cons] at valid
  refine ⟨_, _, .fcCongestionInfo info, rfl, ?_, rfl⟩
  refine (reads_u32 window).bind ((reads_varint valid.2.2.1).bind ((reads_u8 _).bind ?_))
  -- The number of channels fits in its byte.
  rw [UInt8.toNat_ofNat', Nat.mod_eq_of_lt few, Nat.mod_eq_of_lt (by omega)]
  exact (reads_channels channels).map

end Bodies

/-- The body of a sendable frame other than padding is read back behind its type. -/
theorem reads_body (sendable : frame.Sendable) (ordered : frame.Ordered) (valid : ∀ field ∈ frame.fields, field.Valid)
    (other : ∀ len, frame ≠ .padding len) : frame.ReadBack := by
  -- One case for each kind of frame; its parts are read in the order they were written in.
  cases frame with
  | padding len => exact absurd rfl (other len)
  | cryptoHeader => exact sendable.elim
  | streamHeader => exact sendable.elim
  | datagramHeader => exact sendable.elim
  | ping => exact ⟨_, _, _, rfl, Reads.pure _, rfl⟩
  | handshakeDone => exact ⟨_, _, _, rfl, Reads.pure _, rfl⟩
  | ack => exact readBack_ack ordered valid
  | pathAck => exact readBack_pathAck ordered valid
  | resetStream streamId errorCode finalSize =>
    simp only [Frame.fields, List.forall_mem_cons] at valid
    exact ⟨_, _, _, rfl, reads_varints3 valid.2.1 valid.2.2.1 valid.2.2.2.1, rfl⟩
  | stopSending => exact readBack_varints2 rfl rfl valid
  | maxStreamData => exact readBack_varints2 rfl rfl valid
  | streamDataBlocked => exact readBack_varints2 rfl rfl valid
  | pathAbandon => exact readBack_varints2 rfl rfl valid
  | pathBackup => exact readBack_varints2 rfl rfl valid
  | pathAvailable => exact readBack_varints2 rfl rfl valid
  | pathRetireConnectionId => exact readBack_varints2 rfl rfl valid
  | maxData => exact readBack_varint1 rfl rfl valid
  | maxStreamsBidi => exact readBack_varint1 rfl rfl valid
  | maxStreamsUni => exact readBack_varint1 rfl rfl valid
  | dataBlocked => exact readBack_varint1 rfl rfl valid
  | streamsBlockedBidi => exact readBack_varint1 rfl rfl valid
  | streamsBlockedUni => exact readBack_varint1 rfl rfl valid
  | retireConnectionId => exact readBack_varint1 rfl rfl valid
  | maxPathId => exact readBack_varint1 rfl rfl valid
  | pathsBlocked => exact readBack_varint1 rfl rfl valid
  | crypto => exact readBack_crypto sendable valid
  | newToken token =>
    have positive := List.length_pos_iff.mpr sendable
    simp only [Frame.fields, List.forall_mem_cons] at valid
    refine ⟨_, _, _, rfl, (reads_varint valid.2.1).bind ?_, rfl⟩
    rw [if_neg (by omega)]
    exact (reads_bytes token).bind (Reads.pure _)
  | stream => exact readBack_stream sendable valid
  | newConnectionId seqNum retirePriorTo connId resetToken =>
    simp only [Frame.fields, List.forall_mem_cons] at valid
    refine ⟨_, _, _, rfl, (reads_varint valid.2.1).bind ((reads_varint valid.2.2.1).bind ?_), rfl⟩
    exact (reads_connectionId sendable.1 sendable.2).map
  | pathNewConnectionId pathId seqNum retirePriorTo connId resetToken =>
    simp only [Frame.fields, List.forall_mem_cons] at valid
    refine ⟨_, _, _, rfl, (reads_varint valid.2.1).bind ((reads_varint valid.2.2.1).bind
      ((reads_varint valid.2.2.2.1).bind ?_)), rfl⟩
    exact (reads_connectionId sendable.1 sendable.2).map
  | pathChallenge data => exact ⟨_, _, _, rfl, (reads_array data).bind (Reads.pure _), rfl⟩
  | pathResponse data => exact ⟨_, _, _, rfl, (reads_array data).bind (Reads.pure _), rfl⟩
  | connectionClose errorCode frameType reason =>
    simp only [Frame.fields, List.forall_mem_cons] at valid
    exact ⟨_, _, _, rfl, (reads_varint valid.2.1).bind ((reads_varint valid.2.2.1).bind
      (reads_bytesWithVarintLength valid.2.2.2.1).map), rfl⟩
  | applicationClose errorCode reason =>
    simp only [Frame.fields, List.forall_mem_cons] at valid
    exact ⟨_, _, _, rfl, (reads_varint valid.2.1).bind
      (reads_bytesWithVarintLength valid.2.2.1).map, rfl⟩
  | datagram data =>
    exact ⟨_, _, _, rfl, (reads_varint2 sendable).bind ((reads_bytes data).bind (Reads.pure _)), rfl⟩
  | mcAnnounce channelId isIpv6Addr probePath resetStreamOnJoin sourceIp groupIp udpPort expirationTimer
      publicKey bitrate qos =>
    simp only [Frame.fields, List.forall_mem_append, List.forall_mem_cons] at valid
    obtain ⟨⟨-, -, -, -, -, -, -, -, -, -, keyValid, -⟩, rateValid, -⟩ := valid
    refine ⟨_, _, _, rfl, ?_, rfl⟩
    rw [parseFrame_announce]
    exact reads_announce sendable keyValid rateValid
  | mcState channelId action actionData =>
    simp only [Frame.fields, List.forall_mem_cons] at valid
    refine ⟨_, _, _, rfl, ?_, rfl⟩
    exact (reads_id sendable).bind (reads_varints2 valid.2.2.2.1 valid.2.2.2.2.1)
  | mcKey => exact readBack_mcKey sendable valid
  | fcCongestionInfo => exact readBack_fcCongestionInfo sendable valid

/-- A frame that is written and read back tells the receiver what it told. -/
theorem fromBytes_toBytes (frame : Frame) (pkt : PacketType) (output later : Output UInt8) (count : Nat)
    (sendable : frame.Sendable) (allowed : frame.allowed pkt = true)
    (wrote : frame.toBytes output = .ok (count, later)) :
    ∃ bytes result, later.written = output.written ++ bytes ∧ bytes.length = count ∧
      Frame.fromBytes pkt bytes = .ok (result, []) ∧ result.content = frame.content := by
  -- Padding has no type of its own in front of a body, and is read by its own loop.
  obtain ⟨ordered, valid, rfl, rfl⟩ := toBytes_ok wrote
  refine ⟨encode frame.fields, ?_⟩
  by_cases padded : ∃ len, frame = .padding len
  · obtain ⟨len, rfl⟩ := padded
    obtain ⟨left, rfl⟩ := Nat.exists_eq_succ_of_ne_zero (Nat.ne_of_gt sendable)
    exact ⟨_, rfl, rfl, reads_padding left, rfl⟩
  · obtain ⟨ty, rest, result, shape, body, same⟩ :=
      reads_body sendable ordered valid fun len is => padded ⟨len, is⟩
    have small : ty < 2 ^ 62 := by
      rw [shape] at valid
      exact (List.forall_mem_cons.mp valid).1
    -- Permission depends on what a frame tells, which is the same for both.
    have permitted : result.allowed pkt = true := by
      rw [← allowed_content, same, allowed_content, allowed]
    have reads := reads_frame small body permitted []
    rw [List.append_nil, ← shape] at reads
    exact ⟨result, rfl, rfl, reads, same⟩

/-- An announce frame of one channel byte, with a bitrate and both flags. -/
def ratedAnnounce : Frame :=
  .mcAnnounce [7] 0 1 0 ⟨[10, 0, 0, 1], rfl⟩ ⟨[239, 0, 0, 1], rfl⟩ 80 9 [] (some 100) ⟨true, true⟩

/-- An announce frame with a bitrate is read back. -/
theorem fromBytes_toBytes_announce :
    ∃ bytes result, bytes.length = 29 ∧ Frame.fromBytes .short bytes = .ok (result, []) ∧
      result.content = ratedAnnounce.content := by
  have sendable : ratedAnnounce.Sendable := show [7].length ≤ maxCidLen by decide
  have wrote : ∃ later, ratedAnnounce.toBytes ⟨[], 100⟩ = .ok (29, later) := ⟨_, rfl⟩
  obtain ⟨later, wrote⟩ := wrote
  obtain ⟨bytes, result, -, counted, read, same⟩ :=
    fromBytes_toBytes ratedAnnounce .short ⟨[], 100⟩ later 29 sendable rfl wrote
  exact ⟨bytes, result, counted, read, same⟩

/-- A probe's size is not sent, so the frame that is read back is another one. -/
theorem ping_forgets_probe :
    (Frame.ping (some 1400)).toBytes ⟨[], 100⟩ = .ok (1, ⟨[0x01], 99⟩) ∧
      Frame.fromBytes .short [0x01] = .ok (.ping none, []) ∧ Frame.ping none ≠ .ping (some 1400) :=
  ⟨rfl, rfl, by decide⟩

end Reading

end Flexicast.Wire
