import Flexicast.Packet.Frame
import Flexicast.Ranges.Laws

/-! Parsing frames ends without a panic, except at an announce frame with unknown flags. -/

namespace Flexicast.Wire

open Cursor Words Octets

section Steps

theorem panics_later {α γ : Type} {first : Reader α} {next : α → Reader γ} {post : α → Prop} {input : Bytes}
    (short : input.length < maxSliceLen) (yields : Yields .panicked maxSliceLen first post)
    (panics : (first >>= next) input = .error .panicked) :
    ∃ value rest, first input = .ok (value, rest) ∧ rest.length < maxSliceLen ∧
      next value rest = .error .panicked := by
  -- The first part does not panic, so it gave a value and the rest did.
  obtain ⟨fine, gives⟩ := yields input short
  cases bind_eq_error.mp panics with
  | inl failed => exact absurd failed fine
  | inr parts =>
    obtain ⟨value, rest, start, failed⟩ := parts
    exact ⟨value, rest, start, Nat.lt_of_le_of_lt (gives value rest start).1 short, failed⟩

theorem addU64_yields {left right : Nat} (fits : left + right ≤ maxU64) :
    Yields .panicked maxSliceLen (addU64 left right) (· = left + right) := by
  unfold addU64
  rw [if_pos fits]
  exact Yields.pure rfl

theorem subU64_yields {left right : Nat} (fits : right ≤ left) :
    Yields .panicked maxSliceLen (subU64 left right) (· = left - right) := by
  unfold subU64
  rw [if_pos fits]
  exact Yields.pure rfl

theorem insertRange_yields {ranges : RangeSet} (wf : ranges.Wf) {start stop : Nat} (forward : start ≤ stop) :
    Yields .panicked maxSliceLen (insertRange ranges start stop) RangeSet.Wf := by
  -- Inserting a range that is not reversed always gives a set.
  obtain ⟨result, inserted, -, -⟩ := RangeSet.insert?_eq wf forward
  have same : ranges.insert start stop = result := by simp [RangeSet.insert, inserted]
  unfold insertRange
  rw [inserted]
  exact Yields.pure (same ▸ wf.insert forward)

/-- An array is read where the input starts with it. -/
theorem getArray_eq_ok {size : Nat} {input rest : Bytes} {bytes : FixedBytes size} :
    getArray size input = .ok (bytes, rest) ↔ input = bytes.1 ++ rest := by
  -- The length of the bytes that were taken is the size of the array.
  unfold getArray
  rw [bind_eq_ok]
  constructor
  · intro parts
    obtain ⟨taken, later, ran, done⟩ := parts
    obtain ⟨rfl, sized⟩ := getBytes_eq_ok.mp ran
    rw [dif_pos sized] at done
    obtain ⟨rfl, rfl⟩ := Prod.mk.inj (Except.ok.inj done)
    rfl
  · intro shape
    refine ⟨bytes.1, rest, getBytes_eq_ok.mpr ⟨shape, bytes.2⟩, ?_⟩
    rw [dif_pos bytes.2]
    rfl

theorem getArray_yields (size : Nat) : Yields .panicked maxSliceLen (getArray size) (fun _ => True) := by
  -- The conversion to an array does not fail, since the bytes are as many as asked for.
  refine (getBytes_yields size).bind ?_
  intro bytes sized
  rw [dif_pos sized]
  exact Yields.pure trivial

theorem getBytesWithU8Length_eq_ok {input bytes rest : Bytes} :
    getBytesWithU8Length input = .ok (bytes, rest) ↔
      ∃ len : UInt8, input = len :: (bytes ++ rest) ∧ bytes.length = len.toNat := by
  unfold getBytesWithU8Length
  rw [bind_eq_ok]
  constructor
  · intro parts
    obtain ⟨len, later, ran, taken⟩ := parts
    obtain ⟨rfl, sized⟩ := getBytes_eq_ok.mp taken
    exact ⟨len, getU8_eq_ok.mp ran, sized⟩
  · intro parts
    obtain ⟨len, rfl, sized⟩ := parts
    exact ⟨len, _, rfl, getBytes_eq_ok.mpr ⟨rfl, sized⟩⟩

end Steps

section Quiet

/-- No block of an acknowledgment overflows: what is left to acknowledge only goes down. -/
theorem ackBlocks_yields (blockCount : Nat) :
    ∀ {smallestAck : Nat} {ranges : RangeSet}, ranges.Wf → smallestAck < 2 ^ 62 →
      Yields .panicked maxSliceLen (ackBlocks blockCount smallestAck ranges) (fun _ => True) := by
  -- The bound on the smallest number acknowledged carries every subtraction and addition.
  induction blockCount with
  | zero => exact fun _ _ => Yields.pure trivial
  | succ blockCount ih =>
    intro smallestAck ranges wf small
    refine getVarint_yields.bind fun gap below => ?_
    refine (addU64_yields (by unfold maxU64; omega)).bind fun sum total => ?_
    split
    · exact Yields.throw (by decide)
    -- The check in front of the subtraction is what keeps it from underflowing.
    rename_i enough
    refine (subU64_yields (by omega)).bind fun step stepped => ?_
    refine (subU64_yields (by omega)).bind fun largestAck landed => ?_
    refine getVarint_yields.bind fun ackBlock _ => ?_
    split
    · exact Yields.throw (by decide)
    -- And so does the check of the block against the largest number.
    rename_i holds
    refine (subU64_yields (by omega)).bind fun next smaller => ?_
    refine (addU64_yields (by unfold maxU64; omega)).bind fun stop _ => ?_
    refine (insertRange_yields wf (by omega)).bind fun _ wf => ?_
    exact ih wf (by omega)

theorem parseEcnCounts_yields (hasEcn : Bool) :
    Yields .panicked maxSliceLen (parseEcnCounts hasEcn) (fun _ => True) := by
  cases hasEcn with
  | false => exact Yields.pure trivial
  | true =>
    refine getVarint_yields.bind fun _ _ => ?_
    refine getVarint_yields.bind fun _ _ => ?_
    exact getVarint_yields.bind fun _ _ => Yields.pure trivial

theorem parseCommonAckFrame_yields (hasEcn : Bool) :
    Yields .panicked maxSliceLen (parseCommonAckFrame hasEcn) (fun _ => True) := by
  refine getVarint_yields.bind fun largestAck below => ?_
  refine getVarint_yields.bind fun ackDelay _ => ?_
  refine getVarint_yields.bind fun blockCount _ => ?_
  refine getVarint_yields.bind fun ackBlock _ => ?_
  split
  · exact Yields.throw (by decide)
  -- The first block does not exceed the largest number acknowledged.
  rename_i holds
  refine (subU64_yields (by omega)).bind fun smallestAck smaller => ?_
  refine (addU64_yields (by unfold maxU64; omega)).bind fun stop _ => ?_
  refine (insertRange_yields RangeSet.wf_default (by omega)).bind fun _ wf => ?_
  refine (ackBlocks_yields blockCount wf (by omega)).bind fun _ _ => ?_
  exact (parseEcnCounts_yields hasEcn).bind fun _ _ => Yields.pure trivial

theorem parseAckFrame_yields (ty : Nat) : Yields .panicked maxSliceLen (parseAckFrame ty) (fun _ => True) :=
  (parseCommonAckFrame_yields _).bind fun _ _ => Yields.pure trivial

theorem parsePathAckFrame_yields (ty : Nat) : Yields .panicked maxSliceLen (parsePathAckFrame ty) (fun _ => True) :=
  getVarint_yields.bind fun _ _ =>
    (parseCommonAckFrame_yields _).bind fun _ _ => Yields.pure trivial

theorem parseOffset_yields (present : Bool) :
    Yields .panicked maxSliceLen (parseOffset present) (· < 2 ^ 62) := by
  cases present with
  | false => exact Yields.pure (by decide)
  | true => exact getVarint_yields

theorem parseLength_yields (present : Bool) :
    Yields .panicked maxSliceLen (parseLength present) (· < 2 ^ 63) := by
  cases present with
  | false => exact cap_yields
  | true => exact getVarint_yields.imp fun _ below => by omega

theorem parseStreamFrame_yields (ty : Nat) :
    Yields .panicked maxSliceLen (parseStreamFrame ty) (fun _ => True) := by
  -- The frame is an identifier, an offset and a length, and then the data.
  refine getVarint_yields.bind fun _ _ => ?_
  refine (parseOffset_yields _).bind fun _ _ => ?_
  refine (parseLength_yields _).bind fun _ _ => ?_
  -- An offset of 62 bits and the length of a slice add up to 64 bits at most.
  refine (addU64_yields (by unfold maxU64; omega)).bind fun _ _ => ?_
  split
  · exact Yields.throw (by decide)
  · exact (getBytes_yields _).bind fun _ _ => Yields.pure trivial

theorem parseDatagramFrame_yields (ty : Nat) :
    Yields .panicked maxSliceLen (parseDatagramFrame ty) (fun _ => True) :=
  (parseLength_yields _).bind fun _ _ => (getBytes_yields _).bind fun _ _ => Yields.pure trivial

theorem parseConnectionId_yields : Yields .panicked maxSliceLen parseConnectionId (fun _ => True) := by
  -- A length out of range is an error, not a panic.
  refine getU8_yields.bind fun _ _ => ?_
  split
  · exact Yields.throw (by decide)
  · exact (getBytes_yields _).bind fun _ _ => (getArray_yields 16).bind fun _ _ => Yields.pure trivial

theorem parseKeyFrame_yields : Yields .panicked maxSliceLen parseKeyFrame (fun _ => True) := by
  refine getBytesWithU8Length_yields.bind fun _ _ => ?_
  refine getVarint_yields.bind fun _ _ => ?_
  refine (getBytes_yields _).bind fun _ _ => ?_
  refine getU8_yields.bind fun _ _ => ?_
  -- An unknown algorithm is an error, not a panic.
  split
  · exact Yields.throw (by decide)
  · exact getVarint_yields.bind fun _ _ => Yields.pure trivial

theorem channelCwnds_yields (size : Nat) :
    Yields .panicked maxSliceLen (channelCwnds size) (fun _ => True) := by
  -- One turn of the loop for each channel that the frame announces.
  induction size with
  | zero => exact Yields.pure trivial
  | succ size ih =>
    refine getBytesWithU8Length_yields.bind fun _ _ => ?_
    refine (getU_yields 4).bind fun _ _ => ?_
    exact ih.bind fun _ _ => Yields.pure trivial

theorem parseCongestionInfoFrame_yields :
    Yields .panicked maxSliceLen parseCongestionInfoFrame (fun _ => True) := by
  refine (getU_yields 4).bind fun _ _ => ?_
  refine getVarint_yields.bind fun _ _ => ?_
  refine getU8_yields.bind fun _ _ => ?_
  exact (channelCwnds_yields _).bind fun _ _ => Yields.pure trivial

theorem paddingLoop_length (input : Bytes) (len : Nat) :
    (paddingLoop input len).2.length ≤ input.length := by
  -- The loop gives back the rest of the input at the first byte that is not zero.
  fun_induction paddingLoop input len with
  | case1 rest len ih => exact Nat.le_succ_of_le ih
  | case2 rest len => exact Nat.le_refl _

theorem varint_yields {frame : Nat → Frame} :
    Yields .panicked maxSliceLen (do return frame (← getVarint)) (fun _ => True) :=
  getVarint_yields.bind fun _ _ => Yields.pure trivial

theorem varints2_yields {frame : Nat → Nat → Frame} :
    Yields .panicked maxSliceLen (do return frame (← getVarint) (← getVarint)) (fun _ => True) :=
  getVarint_yields.bind fun _ _ => varint_yields

theorem varints3_yields {frame : Nat → Nat → Nat → Frame} :
    Yields .panicked maxSliceLen (do return frame (← getVarint) (← getVarint) (← getVarint))
      (fun _ => True) :=
  getVarint_yields.bind fun _ _ => varints2_yields

theorem padding_yields : Yields .panicked maxSliceLen (parseFrame 0x00) (fun _ => True) := by
  -- The loop over zeros cannot fail at all.
  intro input _
  refine ⟨fun failed => (nomatch failed), ?_⟩
  intro value rest ran
  obtain ⟨-, rfl⟩ := Prod.mk.inj (Except.ok.inj ran)
  exact ⟨paddingLoop_length input 1, trivial⟩

theorem newToken_yields : Yields .panicked maxSliceLen (parseFrame 0x07) (fun _ => True) := by
  have body : parseFrame 0x07 = (do
      let len ← getVarint
      if len = 0 then throw .invalidFrame else return .newToken (← getBytes len)) := rfl
  rw [body]
  refine getVarint_yields.bind fun len _ => ?_
  split
  · exact Yields.throw (by decide)
  · exact (getBytes_yields _).bind fun _ _ => Yields.pure trivial

theorem reason_yields {frame : Nat → Bytes → Frame} :
    Yields .panicked maxSliceLen (do return frame (← getVarint) (← getBytesWithVarintLength))
      (fun _ => True) :=
  getVarint_yields.bind fun _ _ => getBytesWithVarintLength_yields.bind fun _ _ => Yields.pure trivial

theorem connectionId_yields {frame : Nat → Nat → Bytes → FixedBytes 16 → Frame} :
    Yields .panicked maxSliceLen
      (do
        let seqNum ← getVarint
        let retirePriorTo ← getVarint
        let (connId, resetToken) ← parseConnectionId
        return frame seqNum retirePriorTo connId resetToken)
      (fun _ => True) :=
  getVarint_yields.bind fun _ _ => getVarint_yields.bind fun _ _ =>
    parseConnectionId_yields.bind fun _ _ => Yields.pure trivial

/-- Every frame but an announce frame is read without a panic. -/
theorem parseFrame_yields {frameType : Nat} (plain : frameType ≠ 0xf2) (rated : frameType ≠ 0xf3) :
    Yields .panicked maxSliceLen (parseFrame frameType) (fun _ => True) := by
  -- One case for each type of the source's match, in its order.
  unfold parseFrame
  split
  · exact padding_yields
  · exact Yields.pure trivial
  · exact parseAckFrame_yields _
  · exact parseAckFrame_yields _
  · exact varints3_yields
  · exact varints2_yields
  · exact reason_yields
  · exact newToken_yields
  · exact parseStreamFrame_yields _
  · exact parseStreamFrame_yields _
  · exact parseStreamFrame_yields _
  · exact parseStreamFrame_yields _
  · exact parseStreamFrame_yields _
  · exact parseStreamFrame_yields _
  · exact parseStreamFrame_yields _
  · exact parseStreamFrame_yields _
  · exact varint_yields
  · exact varints2_yields
  · exact varint_yields
  · exact varint_yields
  · exact varint_yields
  · exact varints2_yields
  · exact varint_yields
  · exact varint_yields
  · exact connectionId_yields
  · exact varint_yields
  · exact (getArray_yields 8).bind fun _ _ => Yields.pure trivial
  · exact (getArray_yields 8).bind fun _ _ => Yields.pure trivial
  · exact getVarint_yields.bind fun _ _ => reason_yields
  · exact reason_yields
  · exact Yields.pure trivial
  · exact parseDatagramFrame_yields _
  · exact parseDatagramFrame_yields _
  · exact parsePathAckFrame_yields _
  · exact parsePathAckFrame_yields _
  · exact varints2_yields
  · exact varints2_yields
  · exact varints2_yields
  · exact getVarint_yields.bind fun _ _ => connectionId_yields
  · exact varints2_yields
  · exact varint_yields
  · exact varint_yields
  · -- The announce frames are the ones that may panic.
    exact absurd rfl plain
  · exact absurd rfl rated
  · exact getBytesWithU8Length_yields.bind fun _ _ => varints2_yields
  · exact parseKeyFrame_yields
  · exact parseCongestionInfoFrame_yields
  · exact Yields.throw (by decide)

end Quiet

section Announce

/-- An announce frame up to its flags, with the lengths that its own bytes give. -/
structure AnnounceParts where
  frameType : Bytes
  channelLen : UInt8
  channelId : FixedBytes channelLen.toNat
  probePath : UInt8
  isIpv6Addr : UInt8
  resetStreamOnJoin : UInt8
  sourceIp : FixedBytes 4
  groupIp : FixedBytes 4
  udpPort : FixedBytes 2
  expirationTimer : FixedBytes 8
  keyLen : Bytes
  publicKey : Bytes
  bitrate : Bytes
  /-- The key has the length that stands before it. -/
  keySized : IsVarint keyLen publicKey.length
  typed : (IsVarint frameType mcAnnounceCode ∧ bitrate = []) ∨
    (IsVarint frameType mcAnnounceBwCode ∧ ∃ rate, IsVarint bitrate rate)

/-- The parts behind the type, before what follows them. -/
def AnnounceParts.body (parts : AnnounceParts) (rest : Bytes) : Bytes :=
  parts.channelLen :: (parts.channelId.1 ++ (parts.probePath :: parts.isIpv6Addr ::
    parts.resetStreamOnJoin :: (parts.sourceIp.1 ++ (parts.groupIp.1 ++ (parts.udpPort.1 ++
      (parts.expirationTimer.1 ++ (parts.keyLen ++ (parts.publicKey ++ (parts.bitrate ++ rest)))))))))

/-- The input starts with an announce frame whose flags are the given byte. -/
def Announces (input : Bytes) (bits : UInt8) : Prop :=
  ∃ (parts : AnnounceParts) (rest : Bytes), input = parts.frameType ++ parts.body (bits :: rest)

theorem fromBits_eq_none {bits : UInt8} : FcQos.fromBits bits = none ↔ 3 < bits.toNat := by
  -- All 256 bytes are tried.
  have all : ∀ value < 256, FcQos.fromBits (UInt8.ofNat value) = none ↔ 3 < value := by decide +kernel
  have := all bits.toNat bits.toNat_lt
  rwa [UInt8.ofNat_toNat] at this

theorem getWord_takes {α : Type} {width : Nat} {wrap : Nat → α} {input rest : Bytes} {value : α}
    (ran : (do return wrap (← getU width) : Reader α) input = .ok (value, rest)) :
    ∃ bytes : FixedBytes width, input = bytes.1 ++ rest := by
  -- The wrapping takes nothing from the input.
  obtain ⟨number, later, got, done⟩ := bind_eq_ok.mp ran
  obtain ⟨-, rfl⟩ := Prod.mk.inj (Except.ok.inj done)
  obtain ⟨bytes, shape, sized, -⟩ := getU_eq_ok.mp got
  exact ⟨⟨bytes, sized⟩, shape⟩

theorem getWord_ok {α : Type} {width : Nat} {wrap : Nat → α} (bytes : FixedBytes width) (rest : Bytes) :
    (do return wrap (← getU width) : Reader α) (bytes.1 ++ rest) = .ok (wrap (ofBigEndian bytes.1), rest) :=
  bind_ok (getU_eq_ok.mpr ⟨bytes.1, rfl, bytes.2, rfl⟩)

theorem parseBitrate_yields (ty : Nat) :
    Yields .panicked maxSliceLen (parseBitrate ty) (fun _ => True) := by
  unfold parseBitrate
  split
  · exact getVarint_yields.bind fun _ _ => Yields.pure trivial
  · exact Yields.pure trivial

/-- A bitrate is read exactly where the type says so. -/
theorem parseBitrate_eq_ok {ty : Nat} {input rest : Bytes} :
    (∃ rate, parseBitrate ty input = .ok (rate, rest)) ↔
      ∃ bitrate, input = bitrate ++ rest ∧
        if ty = mcAnnounceBwCode then ∃ rate, IsVarint bitrate rate else bitrate = [] := by
  unfold parseBitrate
  by_cases rated : ty = mcAnnounceBwCode
  · simp only [rated, if_true]
    constructor
    · intro found
      obtain ⟨rate, ran⟩ := found
      obtain ⟨value, later, got, done⟩ := bind_eq_ok.mp ran
      obtain ⟨-, rfl⟩ := Prod.mk.inj (Except.ok.inj done)
      obtain ⟨bytes, shape, varint⟩ := getVarint_eq_ok.mp got
      exact ⟨bytes, shape, value, varint⟩
    · intro found
      obtain ⟨bytes, shape, value, varint⟩ := found
      exact ⟨some value, bind_eq_ok.mpr ⟨value, rest, getVarint_eq_ok.mpr ⟨bytes, shape, varint⟩, rfl⟩⟩
  · simp only [rated, if_false]
    constructor
    · intro found
      obtain ⟨rate, ran⟩ := found
      obtain ⟨-, rfl⟩ := Prod.mk.inj (Except.ok.inj ran)
      exact ⟨[], rfl, rfl⟩
    · intro found
      obtain ⟨bytes, shape, rfl⟩ := found
      exact ⟨none, by rw [shape]; rfl⟩

/-- Reading an announce frame panics at unknown flags only. -/
theorem parseAnnounceFrame_panics {ty : Nat} {input : Bytes} (short : input.length < maxSliceLen)
    (panics : parseAnnounceFrame ty input = .error .panicked) (code : ty = mcAnnounceCode ∨ ty = mcAnnounceBwCode)
    {frameType : Bytes} (typed : IsVarint frameType ty) :
    ∃ (parts : AnnounceParts) (bits : UInt8) (rest : Bytes),
      parts.frameType = frameType ∧ input = parts.body (bits :: rest) ∧ 3 < bits.toNat := by
  -- Every field before the flags was read.
  obtain ⟨channelId, _, channelRead, short, panics⟩ := panics_later short getBytesWithU8Length_yields panics
  obtain ⟨probePath, _, probeRead, short, panics⟩ := panics_later short getU8_yields panics
  obtain ⟨isIpv6Addr, _, ipv6Read, short, panics⟩ := panics_later short getU8_yields panics
  obtain ⟨resetStreamOnJoin, _, resetRead, short, panics⟩ := panics_later short getU8_yields panics
  obtain ⟨sourceIp, _, sourceRead, short, panics⟩ := panics_later short (getArray_yields 4) panics
  obtain ⟨groupIp, _, groupRead, short, panics⟩ := panics_later short (getArray_yields 4) panics
  obtain ⟨udpPort, _, portRead, short, panics⟩ := panics_later short getU16_yields panics
  obtain ⟨expirationTimer, _, timerRead, short, panics⟩ := panics_later short getU64_yields panics
  obtain ⟨keySize, _, keySizeRead, short, panics⟩ := panics_later short getVarint_yields panics
  obtain ⟨publicKey, _, keyRead, short, panics⟩ := panics_later short (getBytes_yields _) panics
  obtain ⟨rate, _, rateRead, short, panics⟩ := panics_later short (parseBitrate_yields ty) panics
  obtain ⟨bits, rest, bitsRead, short, panics⟩ := panics_later short getU8_yields panics
  have unknown : 3 < bits.toNat := by
    apply fromBits_eq_none.mp
    cases flags : FcQos.fromBits bits with
    | none => rfl
    | some qos =>
      rw [flags] at panics
      cases panics
  -- Each of them says what the input starts with.
  obtain ⟨channelLen, rfl, channelSized⟩ := getBytesWithU8Length_eq_ok.mp channelRead
  obtain rfl := getU8_eq_ok.mp probeRead
  obtain rfl := getU8_eq_ok.mp ipv6Read
  obtain rfl := getU8_eq_ok.mp resetRead
  obtain rfl := getArray_eq_ok.mp sourceRead
  obtain rfl := getArray_eq_ok.mp groupRead
  obtain ⟨port, rfl⟩ := getWord_takes portRead
  obtain ⟨timer, rfl⟩ := getWord_takes timerRead
  obtain ⟨keyLen, rfl, keyTyped⟩ := getVarint_eq_ok.mp keySizeRead
  obtain ⟨rfl, rfl⟩ := getBytes_eq_ok.mp keyRead
  obtain ⟨bitrate, rfl, rated⟩ := parseBitrate_eq_ok.mp ⟨rate, rateRead⟩
  obtain rfl := getU8_eq_ok.mp bitsRead
  have typed : (IsVarint frameType mcAnnounceCode ∧ bitrate = []) ∨
      (IsVarint frameType mcAnnounceBwCode ∧ ∃ rate, IsVarint bitrate rate) := by
    rcases code with rfl | rfl
    · exact Or.inl ⟨typed, by rwa [if_neg (by decide)] at rated⟩
    · exact Or.inr ⟨typed, by rwa [if_pos rfl] at rated⟩
  exact ⟨⟨frameType, channelLen, ⟨channelId, channelSized⟩, probePath, isIpv6Addr, resetStreamOnJoin,
    sourceIp, groupIp, port, timer, keyLen, publicKey, bitrate, keyTyped, typed⟩,
    bits, rest, rfl, rfl, unknown⟩

/-- Unknown flags make the reader panic. -/
theorem parseAnnounceFrame_unknown (parts : AnnounceParts) {ty : Nat} (typed : IsVarint parts.frameType ty)
    {bits : UInt8} (unknown : 3 < bits.toNat) (rest : Bytes) :
    parseAnnounceFrame ty (parts.body (bits :: rest)) = .error .panicked := by
  -- The frame is read field by field up to its flags, and these are unwrapped.
  have rated : ∃ rate, parseBitrate ty (parts.bitrate ++ (bits :: rest)) = .ok (rate, bits :: rest) := by
    refine parseBitrate_eq_ok.mpr ⟨parts.bitrate, rfl, ?_⟩
    have same {value : Nat} (other : IsVarint parts.frameType value) : ty = value :=
      typed.value.trans other.value.symm
    rcases parts.typed with ⟨plain, empty⟩ | ⟨plain, rate⟩
    · rw [same plain, if_neg (by decide)]
      exact empty
    · rw [same plain, if_pos rfl]
      exact rate
  obtain ⟨rate, rated⟩ := rated
  refine (bind_ok (getBytesWithU8Length_eq_ok.mpr ⟨_, rfl, parts.channelId.2⟩)).trans ?_
  refine (bind_ok (getU8_eq_ok.mpr rfl)).trans ?_
  refine (bind_ok (getU8_eq_ok.mpr rfl)).trans ?_
  refine (bind_ok (getU8_eq_ok.mpr rfl)).trans ?_
  refine (bind_ok (getArray_eq_ok.mpr rfl)).trans ?_
  refine (bind_ok (getArray_eq_ok.mpr rfl)).trans ?_
  refine (bind_ok (getWord_ok parts.udpPort _)).trans ?_
  refine (bind_ok (getWord_ok parts.expirationTimer _)).trans ?_
  refine (bind_ok (getVarint_eq_ok.mpr ⟨_, rfl, parts.keySized⟩)).trans ?_
  refine (bind_ok (getBytes_eq_ok.mpr ⟨rfl, rfl⟩)).trans ?_
  refine (bind_ok rated).trans ?_
  refine (bind_ok (getU8_eq_ok.mpr rfl)).trans ?_
  rw [fromBits_eq_none.mpr unknown]
  rfl

/-- Reading a frame panics exactly at an announce frame with unknown flags. -/
theorem fromBytes_panics_iff {pkt : PacketType} {input : Bytes} (short : input.length < maxSliceLen) :
    Frame.fromBytes pkt input = .error .panicked ↔ ∃ bits, Announces input bits ∧ 3 < bits.toNat := by
  constructor
  · intro panics
    -- Reading the type does not panic, so the body does.
    obtain ⟨ty, rest, typeRead, fewer, failing⟩ := panics_later short getVarint_yields panics
    obtain ⟨frameType, rfl, typed⟩ := getVarint_eq_ok.mp typeRead
    -- What follows the body only checks the packet type.
    have body : parseFrame ty rest = .error .panicked := by
      cases bind_eq_error.mp failing with
      | inl failed => exact failed
      | inr parts =>
        obtain ⟨frame, later, _, failed⟩ := parts
        split at failed <;> cases failed
    -- Every other type is read without a panic.
    have code : ty = mcAnnounceCode ∨ ty = mcAnnounceBwCode := by
      by_contra other
      have other := not_or.mp other
      exact (parseFrame_yields other.1 other.2 rest fewer).1 body
    have announce : parseAnnounceFrame ty rest = .error .panicked := by
      rcases code with rfl | rfl <;> exact body
    obtain ⟨parts, bits, later, rfl, rfl, unknown⟩ := parseAnnounceFrame_panics fewer announce code typed
    exact ⟨bits, ⟨parts, later, rfl⟩, unknown⟩
  · intro found
    obtain ⟨bits, ⟨parts, rest, rfl⟩, unknown⟩ := found
    have code : ∃ ty, IsVarint parts.frameType ty ∧ (ty = mcAnnounceCode ∨ ty = mcAnnounceBwCode) := by
      rcases parts.typed with ⟨typed, -⟩ | ⟨typed, -⟩
      · exact ⟨_, typed, Or.inl rfl⟩
      · exact ⟨_, typed, Or.inr rfl⟩
    obtain ⟨ty, typed, code⟩ := code
    have announce := parseAnnounceFrame_unknown parts typed unknown rest
    have body : parseFrame ty (parts.body (bits :: rest)) = .error .panicked := by
      rcases code with rfl | rfl <;> exact announce
    exact (bind_ok (getVarint_eq_ok.mpr ⟨_, rfl, typed⟩)).trans (bind_error body)

end Announce

section Loop

/-- Reads frames until the bytes are exhausted or an error is returned; `none` is out of fuel. -/
def readFrames (pkt : PacketType) : Nat → Bytes → Option (Except WireError (List Frame))
  | 0, _ => none
  | _ + 1, [] => some (.ok [])
  | fuel + 1, input => match Frame.fromBytes pkt input with
    | .error error => some (.error error)
    | .ok (frame, rest) => (readFrames pkt fuel rest).map fun frames => frames.map (frame :: ·)

/-- The positions at which the loop reads a frame, or stops. -/
inductive Reaches (pkt : PacketType) : Bytes → Bytes → Prop
  | start (input : Bytes) : Reaches pkt input input
  | next {input middle rest : Bytes} {frame : Frame} (read : Frame.fromBytes pkt input = .ok (frame, middle))
      (later : Reaches pkt middle rest) : Reaches pkt input rest

variable {pkt : PacketType}

theorem parseAnnounceFrame_shrinks (ty : Nat) : Shrinks maxSliceLen (parseAnnounceFrame ty) := by
  -- Every field takes bytes off the front, or none.
  refine getBytesWithU8Length_yields.shrinks.bind fun _ => ?_
  refine getU8_yields.shrinks.bind fun _ => ?_
  refine getU8_yields.shrinks.bind fun _ => ?_
  refine getU8_yields.shrinks.bind fun _ => ?_
  refine (getArray_yields 4).shrinks.bind fun _ => ?_
  refine (getArray_yields 4).shrinks.bind fun _ => ?_
  refine getU16_yields.shrinks.bind fun _ => ?_
  refine getU64_yields.shrinks.bind fun _ => ?_
  refine getVarint_yields.shrinks.bind fun _ => ?_
  refine (getBytes_yields _).shrinks.bind fun _ => ?_
  refine (parseBitrate_yields ty).shrinks.bind fun _ => ?_
  refine getU8_yields.shrinks.bind fun bits => ?_
  intro input value rest _ ran
  cases flags : FcQos.fromBits bits with
  | none =>
    rw [flags] at ran
    cases ran
  | some qos =>
    rw [flags] at ran
    obtain ⟨-, rfl⟩ := Prod.mk.inj (Except.ok.inj ran)
    exact Nat.le_refl _

theorem parseFrame_shrinks (frameType : Nat) : Shrinks maxSliceLen (parseFrame frameType) := by
  -- The announce frames are the two that the law without panics leaves out.
  by_cases plain : frameType = 0xf2
  · rw [plain]
    exact parseAnnounceFrame_shrinks 0xf2
  by_cases rated : frameType = 0xf3
  · rw [rated]
    exact parseAnnounceFrame_shrinks 0xf3
  exact (parseFrame_yields plain rated).shrinks

/-- A frame that was read took at least one byte. -/
theorem fromBytes_shortens {input rest : Bytes} {frame : Frame} (short : input.length < maxSliceLen)
    (read : Frame.fromBytes pkt input = .ok (frame, rest)) : rest.length < input.length := by
  -- The type alone takes a byte, and the body does not give one back.
  obtain ⟨ty, behind, typeRead, read⟩ := bind_eq_ok.mp read
  obtain ⟨body, later, bodyRead, checked⟩ := bind_eq_ok.mp read
  have taken := getVarint_shortens typeRead
  have shrunk := parseFrame_shrinks ty behind body later (Nat.lt_trans taken short) bodyRead
  have same : later = rest := by
    split at checked
    · exact (Prod.mk.inj (Except.ok.inj checked)).2
    · cases checked
  rw [← same]
  exact Nat.lt_of_le_of_lt shrunk taken

theorem fromBytes_nil : Frame.fromBytes pkt [] = .error .bufferTooShort := rfl

theorem readFrames_succ {fuel : Nat} {input : Bytes} (left : input ≠ []) :
    readFrames pkt (fuel + 1) input = match Frame.fromBytes pkt input with
      | .error error => some (.error error)
      | .ok (frame, rest) => (readFrames pkt fuel rest).map fun frames => frames.map (frame :: ·) := by
  cases input with
  | nil => exact absurd rfl left
  | cons head tail => rfl

theorem reaches_iff {input rest : Bytes} :
    Reaches pkt input rest ↔ rest = input ∨
      ∃ frame middle, Frame.fromBytes pkt input = .ok (frame, middle) ∧ Reaches pkt middle rest := by
  constructor
  · intro reaches
    cases reaches with
    | start => exact Or.inl rfl
    | next read later => exact Or.inr ⟨_, _, read, later⟩
  · intro either
    rcases either with rfl | ⟨frame, middle, read, later⟩
    · exact Reaches.start _
    · exact Reaches.next read later

/-- The loop comes to an announce frame with unknown flags. -/
def MeetsUnknown (pkt : PacketType) (input : Bytes) : Prop :=
  ∃ rest bits, Reaches pkt input rest ∧ Announces rest bits ∧ 3 < bits.toNat

theorem meetsUnknown_next {input rest : Bytes} {frame : Frame} (short : input.length < maxSliceLen)
    (read : Frame.fromBytes pkt input = .ok (frame, rest)) :
    MeetsUnknown pkt input ↔ MeetsUnknown pkt rest := by
  constructor
  · intro meets
    obtain ⟨place, bits, reaches, announces, unknown⟩ := meets
    rcases reaches_iff.mp reaches with rfl | ⟨other, middle, again, later⟩
    · -- At the first position the frame would not have been read.
      have panics := (@fromBytes_panics_iff pkt _ short).mpr ⟨bits, announces, unknown⟩
      rw [panics] at read
      cases read
    · rw [again] at read
      obtain ⟨-, rfl⟩ := Prod.mk.inj (Except.ok.inj read)
      exact ⟨place, bits, later, announces, unknown⟩
  · intro meets
    obtain ⟨place, bits, later, announces, unknown⟩ := meets
    exact ⟨place, bits, Reaches.next read later, announces, unknown⟩

theorem meetsUnknown_stop {input : Bytes} {error : WireError} (short : input.length < maxSliceLen)
    (failed : Frame.fromBytes pkt input = .error error) :
    MeetsUnknown pkt input ↔ error = .panicked := by
  -- A position without a frame is the last one that is reached.
  have here := @fromBytes_panics_iff pkt _ short
  rw [failed, Except.error.injEq] at here
  rw [here]
  constructor
  · intro meets
    obtain ⟨place, bits, reaches, announces, unknown⟩ := meets
    rcases reaches_iff.mp reaches with rfl | ⟨frame, middle, read, later⟩
    · exact ⟨bits, announces, unknown⟩
    · rw [failed] at read
      cases read
  · intro found
    obtain ⟨bits, announces, unknown⟩ := found
    exact ⟨input, bits, Reaches.start input, announces, unknown⟩

/-- The loop ends, and panics exactly if it comes to an announce frame with unknown flags. -/
theorem readFrames_ends (fuel : Nat) :
    ∀ {input : Bytes}, input.length < maxSliceLen → input.length < fuel →
      ∃ result, readFrames pkt fuel input = some result ∧
        (result = .error .panicked ↔ MeetsUnknown pkt input) := by
  -- Every frame takes a byte, so one unit of fuel for each byte is enough.
  induction fuel with
  | zero => exact fun _ enough => absurd enough (Nat.not_lt_zero _)
  | succ fuel ih =>
    intro input short enough
    by_cases empty : input = []
    · subst empty
      refine ⟨.ok [], rfl, ?_⟩
      rw [meetsUnknown_stop short fromBytes_nil]
      constructor
      · intro failed
        cases failed
      · intro failed
        cases failed
    · rw [readFrames_succ empty]
      cases read : Frame.fromBytes pkt input with
      | error error =>
        refine ⟨.error error, rfl, ?_⟩
        rw [meetsUnknown_stop short read, Except.error.injEq]
      | ok pair =>
        obtain ⟨frame, rest⟩ := pair
        -- The rest is shorter, so the fuel that is left is enough for it.
        have shorter := fromBytes_shortens short read
        obtain ⟨result, ran, panics⟩ := ih (Nat.lt_trans shorter short) (by omega)
        refine ⟨result.map (frame :: ·), by simp only [ran, Option.map_some], ?_⟩
        rw [meetsUnknown_next short read, ← panics]
        cases result with
        | error error => simp [Except.map]
        | ok frames => simp [Except.map]

end Loop

/-- A slice of bytes, which no machine makes longer than `isize::MAX`. -/
abbrev Slice := { bytes : Bytes // bytes.length < maxSliceLen }

/--
Reading a slice frame by frame ends without a panic, each frame taking at least one byte,
exactly if the loop comes to no announce frame with flags that are unknown.
-/
theorem readFrames_total_iff (pkt : PacketType) (slice : Slice) :
    ((∀ fuel, slice.1.length < fuel →
        ∃ result, readFrames pkt fuel slice.1 = some result ∧ result ≠ .error .panicked) ∧
      ∀ (input : Slice) (frame : Frame) (rest : Bytes),
        Frame.fromBytes pkt input.1 = .ok (frame, rest) → rest.length < input.1.length) ↔
    ∀ rest, Reaches pkt slice.1 rest → ∀ bits, Announces rest bits → bits.toNat ≤ 3 := by
  constructor
  · intro total rest reaches bits announces
    obtain ⟨result, ran, fine⟩ := total.1 (slice.1.length + 1) (Nat.lt_succ_self _)
    -- The loop ended in one way only, and a panic there would need unknown flags.
    obtain ⟨same, again, panics⟩ := readFrames_ends (slice.1.length + 1) slice.2 (Nat.lt_succ_self _)
    rw [ran] at again
    obtain rfl := Option.some.inj again
    by_contra unknown
    exact fine (panics.mpr ⟨rest, bits, reaches, announces, Nat.lt_of_not_le unknown⟩)
  · intro known
    refine ⟨?_, fun input _ _ read => fromBytes_shortens input.2 read⟩
    intro fuel enough
    obtain ⟨result, ran, panics⟩ := readFrames_ends fuel slice.2 enough
    refine ⟨result, ran, ?_⟩
    intro failed
    obtain ⟨rest, bits, reaches, announces, unknown⟩ := panics.mp failed
    exact absurd (known rest reaches bits announces) (Nat.not_le.mpr unknown)

/-- An announce frame without channel and key whose flags have a bit above the two known ones. -/
def unknownFlags : Bytes :=
  [0x40, 0xf2, 0, 0, 0, 0, 10, 0, 0, 1, 239, 0, 0, 1, 0, 80, 0, 0, 0, 0, 0, 0, 0, 0, 0, 0x04]

/-- An announce frame with unknown flags makes the parser panic. -/
theorem readFrames_panics : readFrames .short 27 unknownFlags = some (.error .panicked) := by
  decide

end Flexicast.Wire
