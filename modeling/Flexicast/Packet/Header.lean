import Flexicast.Packet.Codec
import Flexicast.Packet.KeySelection

/-! The headers of packets, of `packet.rs`: how they are written and how they are parsed. -/

namespace Flexicast

namespace Packets

open Cursor Words Octets
open Wire (PacketType)
open KeySelection (formBit fixedBit keyPhaseBit isLong shortFirst)

def typeMask : UInt8 := 0x30

/-- The length of the tags of `AES_128_GCM`. -/
def tagLen : Nat := 16

def protocolVersionV1 : Nat := 0x00000001

def versionIsSupported (version : Nat) : Bool := version == protocolVersionV1

/-- The header of a packet. -/
structure Header where
  ty : PacketType
  version : Nat
  dcid : Bytes
  scid : Bytes
  /-- Only meaningful once the protection of the header is removed. -/
  pktNum : Nat
  pktNumLen : Nat
  /-- Only present in `Initial` and `Retry` packets. -/
  token : Option Bytes
  /-- Only present in `VersionNegotiation` packets. -/
  versions : Option (List Nat)
  keyPhase : Bool
  deriving DecidableEq

section Parsing

/-- The type of a packet with a long header. -/
def longType (first : UInt8) (version : Nat) : Except WireError PacketType :=
  if version = 0 then .ok .versionNegotiation
  else
    match ((first &&& typeMask) >>> 4).toNat with
    | 0 => .ok .initial
    | 1 => .ok .zeroRTT
    | 2 => .ok .handshake
    | 3 => .ok .retry
    | _ => .error .invalidPacket

/-- Takes a connection identifier, which a supported version keeps short. -/
def getConnectionId (version : Nat) : Reader Bytes := do
  let len ← getU8
  if versionIsSupported version && decide (Wire.maxCidLen < len.toNat) then throw .invalidPacket
  else getBytes len.toNat

/-- Takes versions until the packet ends. -/
def getVersions : Reader (List Nat)
  | [] => .ok ([], [])
  | a :: b :: c :: d :: rest =>
    match getVersions rest with
    | .ok (list, left) => .ok (ofBigEndian [a, b, c, d] :: list, left)
    | .error error => .error error
  | _ => .error .bufferTooShort

/-- Takes the token or the versions that come after the connection identifiers. -/
def getTokenOrVersions : PacketType → Reader (Option Bytes × Option (List Nat))
  | .initial => do return (some (← getBytesWithVarintLength), none)
  | .retry => do
    -- Exclude the integrity tag from the token.
    let left ← cap
    if left < tagLen then throw .invalidPacket else
    return (some (← getBytes (left - tagLen)), none)
  | .versionNegotiation => do return (none, some (← getVersions))
  | _ => return (none, none)

/-- Parses a header; a short one does not tell how long its connection identifier is. -/
def Header.fromBytes (dcidLen : Nat) : Reader Header := do
  let first ← getU8
  if !isLong first then do
    let dcid ← getBytes dcidLen
    return ⟨.short, 0, dcid, [], 0, 0, none, none, false⟩
  else do
    let version ← getU32
    let ty ← (longType first version : Reader PacketType)
    let dcid ← getConnectionId version
    let scid ← getConnectionId version
    let (token, versions) ← getTokenOrVersions ty
    return ⟨ty, version, dcid, scid, 0, 0, token, versions, false⟩

end Parsing

section Writing

/-- The bits of the types that a long header can be written for. -/
def typeBits : PacketType → Except WireError UInt8
  | .initial => .ok 0x00
  | .zeroRTT => .ok 0x01
  | .handshake => .ok 0x02
  | .retry => .ok 0x03
  | _ => .error .invalidPacket

/-- The first byte of a long header. -/
def longFirst (pktNumLen : Nat) (ty : UInt8) : UInt8 :=
  UInt8.ofNat (pktNumLen - 1) ||| (formBit ||| fixedBit ||| ty <<< 4)

/-- Writes a connection identifier behind its length. -/
def putConnectionId (cid : Bytes) : Writer Unit := do
  putU8 (UInt8.ofNat cid.length)
  putBytes cid

/-- Writes the token, if packets of the type have one; a retry without a token is a failed unwrap. -/
def putToken : PacketType → Option Bytes → Writer Unit
  | .initial, some token => do
    putVarint token.length
    putBytes token
  -- No token, so length = 0.
  | .initial, none => putVarint 0
  -- Retry packets don't have a token length.
  | .retry, some token => putBytes token
  | .retry, none => throw .panicked
  | _, _ => pure ()

/-- Writes a header, without a packet number. -/
def Header.toBytes (hdr : Header) : Writer Unit :=
  if hdr.ty = .short then do
    putU8 (shortFirst hdr.pktNumLen hdr.keyPhase)
    putBytes hdr.dcid
  else do
    let ty ← (typeBits hdr.ty : Writer UInt8)
    putU8 (longFirst hdr.pktNumLen ty)
    putU32 hdr.version
    putConnectionId hdr.dcid
    putConnectionId hdr.scid
    putToken hdr.ty hdr.token

end Writing

section Layout

/-- The parts that a token takes in the header. -/
def tokenFields : PacketType → Option Bytes → List Field
  | .initial, some token => [.varint token.length, .raw token]
  | .initial, none => [.varint 0]
  | .retry, some token => [.raw token]
  | _, _ => []

/-- The parts of a connection identifier. -/
def cidFields (cid : Bytes) : List Field := [.raw [UInt8.ofNat cid.length], .raw cid]

/-- The parts of a long header, given the bits of its type. -/
def Header.longFields (hdr : Header) (ty : UInt8) : List Field :=
  [.raw [longFirst hdr.pktNumLen ty], .raw (toBigEndian 4 hdr.version)] ++ (cidFields hdr.dcid ++
    (cidFields hdr.scid ++ tokenFields hdr.ty hdr.token))

/-- The parts of a short header. -/
def Header.shortFields (hdr : Header) : List Field :=
  [.raw [shortFirst hdr.pktNumLen hdr.keyPhase], .raw hdr.dcid]

/-- What a receiver sees of a token: an `Initial` packet always has one, which may be empty. -/
def parsedToken : PacketType → Option Bytes → Option Bytes
  | .initial, token => some (token.getD [])
  | .retry, token => token
  | _, _ => none

/-- What a receiver sees of a header before the protection is removed. -/
def Header.parsed (hdr : Header) : Header :=
  if hdr.ty = .short then ⟨.short, 0, hdr.dcid, [], 0, 0, none, none, false⟩
  else ⟨hdr.ty, hdr.version, hdr.dcid, hdr.scid, 0, 0, parsedToken hdr.ty hdr.token, none, false⟩

/-- A connection identifier that a long header of the version can carry. -/
def CidFits (version : Nat) (cid : Bytes) : Prop :=
  cid.length < 256 ∧ (versionIsSupported version = true → cid.length ≤ Wire.maxCidLen)

/-- The values of a header that a connection can send. -/
structure Header.Sendable (hdr : Header) : Prop where
  version : hdr.ty ≠ .short → 0 < hdr.version ∧ hdr.version < 2 ^ 32
  dcid : hdr.ty ≠ .short → CidFits hdr.version hdr.dcid
  scid : hdr.ty ≠ .short → CidFits hdr.version hdr.scid
  pktNumLen : hdr.pktNumLen ≤ 4

end Layout

section Written

theorem putConnectionId_eq (cid : Bytes) : putConnectionId cid = putFields (cidFields cid) := by
  simp [putConnectionId, cidFields, putFields, Field.put, putU8]

theorem putToken_eq {ty : PacketType} {token : Option Bytes} (given : ty = .retry → token.isSome = true) :
    putToken ty token = putFields (tokenFields ty token) := by
  cases ty with
  | initial => cases token <;> simp [putToken, tokenFields, putFields, Field.put]
  | retry =>
    cases token with
    | none => exact absurd (given rfl) Bool.false_ne_true
    | some token => simp [putToken, tokenFields, putFields, Field.put]
  | _ => rfl

theorem toBytes_short {hdr : Header} (short : hdr.ty = .short) : hdr.toBytes = putFields hdr.shortFields := by
  unfold Header.toBytes
  rw [if_pos short]
  simp [Header.shortFields, putFields, Field.put, putU8]

theorem toBytes_long {hdr : Header} {bits : UInt8} (long : hdr.ty ≠ .short) (typed : typeBits hdr.ty = .ok bits)
    (given : hdr.ty = .retry → hdr.token.isSome = true) : hdr.toBytes = putFields (hdr.longFields bits) := by
  unfold Header.toBytes
  rw [if_neg long, typed, putToken_eq given, putConnectionId_eq, putConnectionId_eq]
  unfold Header.longFields
  rw [putFields_append, putFields_append, putFields_append]
  simp only [putFields, Field.put, putU8, putU32, bind_assoc, pure_bind]
  rfl

/-- What a header that was written is made of. -/
theorem toBytes_ok {hdr : Header} {output later : Output UInt8} {done : Unit}
    (wrote : hdr.toBytes output = .ok (done, later)) :
    (hdr.ty = .short ∧ later = output.push (encode hdr.shortFields)) ∨
      ∃ bits, hdr.ty ≠ .short ∧ typeBits hdr.ty = .ok bits ∧ (hdr.ty = .retry → hdr.token.isSome = true) ∧
        (∀ field ∈ tokenFields hdr.ty hdr.token, field.Valid) ∧ later = output.push (encode (hdr.longFields bits)) := by
  by_cases short : hdr.ty = .short
  · rw [toBytes_short short] at wrote
    exact Or.inl ⟨short, (putFields_ok wrote).2.2⟩
  · right
    have given : hdr.ty = .retry → hdr.token.isSome = true := by
      -- Without a token the last step of writing fails.
      intro retry
      by_contra missing
      have none_ : hdr.token = none := by simpa using missing
      unfold Header.toBytes at wrote
      rw [if_neg short, retry, none_] at wrote
      obtain ⟨_, _, -, wrote⟩ := bind_eq_ok.mp wrote
      obtain ⟨_, _, -, wrote⟩ := bind_eq_ok.mp wrote
      obtain ⟨_, _, -, wrote⟩ := bind_eq_ok.mp wrote
      obtain ⟨_, _, -, wrote⟩ := bind_eq_ok.mp wrote
      obtain ⟨_, _, -, wrote⟩ := bind_eq_ok.mp wrote
      cases wrote
    cases typed : typeBits hdr.ty with
    | error error =>
      unfold Header.toBytes at wrote
      rw [if_neg short, typed] at wrote
      obtain ⟨_, _, failed, -⟩ := bind_eq_ok.mp wrote
      cases failed
    | ok bits =>
      rw [toBytes_long short typed given] at wrote
      obtain ⟨valid, -, later⟩ := putFields_ok wrote
      refine ⟨bits, short, rfl, given, ?_, later⟩
      intro field inside
      apply valid
      simp [Header.longFields, inside]

end Written

section RoundTrips

variable {version pktNumLen : Nat} {ty : PacketType} {bits : UInt8}

theorem reads_connectionId {cid : Bytes} (fits : CidFits version cid) :
    Reads (getConnectionId version) (encode (cidFields cid)) cid := by
  have len : (UInt8.ofNat cid.length).toNat = cid.length := by
    rw [UInt8.toNat_ofNat', Nat.mod_eq_of_lt fits.1]
  have shape : encode (cidFields cid) = [UInt8.ofNat cid.length] ++ cid := by
    simp [cidFields, encode, Field.bytes]
  rw [shape]
  refine (reads_u8 _).bind ?_
  -- A supported version allows the length, so nothing is thrown.
  have allowed : (versionIsSupported version && decide (Wire.maxCidLen < cid.length)) = false := by
    cases supported : versionIsSupported version with
    | false => rfl
    | true => simpa using fits.2 supported
  rw [len, allowed]
  exact reads_bytes cid

theorem isLong_shortFirst (few : pktNumLen ≤ 4) (keyPhase : Bool) : isLong (shortFirst pktNumLen keyPhase) = false := by
  have lengths : pktNumLen = 0 ∨ pktNumLen = 1 ∨ pktNumLen = 2 ∨ pktNumLen = 3 ∨ pktNumLen = 4 := by omega
  rcases lengths with rfl | rfl | rfl | rfl | rfl <;> cases keyPhase <;> decide

/-- The first byte of a long header tells its type. -/
theorem longFirst_spec (few : pktNumLen ≤ 4) (positive : 0 < version) (typed : typeBits ty = .ok bits) :
    isLong (longFirst pktNumLen bits) = true ∧ longType (longFirst pktNumLen bits) version = .ok ty := by
  have lengths : pktNumLen = 0 ∨ pktNumLen = 1 ∨ pktNumLen = 2 ∨ pktNumLen = 3 ∨ pktNumLen = 4 := by omega
  unfold longType
  rw [if_neg (Nat.ne_of_gt positive)]
  cases ty with
  | versionNegotiation => cases typed
  | short => cases typed
  | _ =>
    cases typed
    rcases lengths with rfl | rfl | rfl | rfl | rfl <;> exact ⟨by decide, by rfl⟩

/-- A token is read back where the packet ends as its type says. -/
theorem getTokenOrVersions_token {token : Option Bytes} (typed : typeBits ty = .ok bits)
    (valid : ∀ field ∈ tokenFields ty token, field.Valid) (given : ty = .retry → token.isSome = true) {rest : Bytes}
    (tag : ty = .retry → rest.length = tagLen) :
    getTokenOrVersions ty (encode (tokenFields ty token) ++ rest) = .ok ((parsedToken ty token, none), rest) := by
  cases ty with
  | versionNegotiation => cases typed
  | short => cases typed
  | handshake => rfl
  | zeroRTT => rfl
  | initial =>
    have reads : Reads getBytesWithVarintLength (encode (tokenFields .initial token)) (token.getD []) := by
      cases token with
      | some token => exact Wire.reads_bytesWithVarintLength (List.forall_mem_cons.mp valid).1
      | none => exact @Wire.reads_bytesWithVarintLength [] (by decide)
    exact bind_ok (reads rest)
  | retry =>
    obtain ⟨token, rfl⟩ := Option.isSome_iff_exists.mp (given rfl)
    have shape : encode (tokenFields .retry (some token)) = token := by simp [tokenFields, encode, Field.bytes]
    have left : cap (token ++ rest) = .ok ((token ++ rest).length, token ++ rest) := rfl
    -- What is left before the tag is the token.
    have size : (token ++ rest).length - tagLen = token.length := by
      rw [List.length_append, tag rfl, Nat.add_sub_cancel]
    rw [shape]
    simp only [getTokenOrVersions]
    rw [bind_ok left, if_neg (by rw [List.length_append, tag rfl]; omega), size]
    exact bind_ok (reads_bytes token rest)

/-- A header that was written is parsed again, up to what is protected. -/
theorem fromBytes_written {hdr : Header} (sendable : hdr.Sendable) {output later : Output UInt8} {done : Unit}
    (wrote : hdr.toBytes output = .ok (done, later)) :
    ∃ bytes, later = output.push bytes ∧ ∀ dcidLen rest, (hdr.ty = .short → hdr.dcid.length = dcidLen) →
      (hdr.ty = .retry → rest.length = tagLen) →
        Header.fromBytes dcidLen (bytes ++ rest) = .ok (hdr.parsed, rest) := by
  obtain ⟨short, rfl⟩ | ⟨bits, long, typed, given, valid, rfl⟩ := toBytes_ok wrote
  · refine ⟨_, rfl, fun dcidLen rest known _ => ?_⟩
    have shape : encode hdr.shortFields ++ rest = shortFirst hdr.pktNumLen hdr.keyPhase :: (hdr.dcid ++ rest) := by
      simp [Header.shortFields, encode, Field.bytes]
    rw [shape]
    unfold Header.fromBytes Header.parsed
    rw [bind_ok (getU8_eq_ok.mpr rfl), isLong_shortFirst sendable.pktNumLen, if_pos short, ← known short]
    exact bind_ok (reads_bytes hdr.dcid rest)
  · obtain ⟨positive, small⟩ := sendable.version long
    obtain ⟨form, ty⟩ := longFirst_spec sendable.pktNumLen positive typed
    refine ⟨_, rfl, fun dcidLen rest _ tag => ?_⟩
    -- The parts are read one after another, and the rest is what follows the token.
    have shape : encode (hdr.longFields bits) ++ rest = longFirst hdr.pktNumLen bits :: (toBigEndian 4 hdr.version ++
        (encode (cidFields hdr.dcid) ++ (encode (cidFields hdr.scid) ++
          (encode (tokenFields hdr.ty hdr.token) ++ rest)))) := by
      simp [Header.longFields, encode_append, encode, Field.bytes]
    rw [shape]
    unfold Header.fromBytes Header.parsed
    rw [bind_ok (getU8_eq_ok.mpr rfl), form, if_neg long]
    simp only [Bool.not_true, Bool.false_eq_true, if_false]
    rw [bind_ok (Wire.reads_u32 small _), ty]
    have lifted (tail : Bytes) : (liftM (.ok hdr.ty : Except WireError PacketType) : Reader PacketType) tail =
      .ok (hdr.ty, tail) := rfl
    rw [bind_ok (lifted _), bind_ok (reads_connectionId (sendable.dcid long) _),
      bind_ok (reads_connectionId (sendable.scid long) _), bind_ok (getTokenOrVersions_token typed valid given tag)]
    rfl

end RoundTrips

section Leaving

end Leaving

section Reparsing

variable {version : Nat} {input rest : Bytes} {ty : PacketType}

theorem getConnectionId_fits {cid : Bytes} (ran : getConnectionId version input = .ok (cid, rest)) :
    CidFits version cid ∧ rest.length ≤ input.length := by
  obtain ⟨len, middle, first, ran⟩ := bind_eq_ok.mp ran
  split at ran
  · cases ran
  · rename_i allowed
    obtain ⟨rfl, long⟩ := getBytes_eq_ok.mp ran
    have small := len.toNat_lt
    refine ⟨⟨by omega, fun supported => ?_⟩, ?_⟩
    · rw [supported, Bool.true_and, decide_eq_true_eq] at allowed
      omega
    · rw [getU8_eq_ok.mp first, List.length_cons, List.length_append]
      omega

theorem longType_ok {first : UInt8} (found : longType first version = .ok ty) :
    ty = .versionNegotiation ∨ 0 < version ∧ ∃ bits, typeBits ty = .ok bits := by
  unfold longType at found
  split at found
  · cases found
    exact Or.inl rfl
  · rename_i positive
    right
    refine ⟨Nat.pos_of_ne_zero positive, ?_⟩
    split at found <;> cases found <;> exact ⟨_, rfl⟩

/-- What is taken of a token is what its type carries, and can be written. -/
theorem getTokenOrVersions_ok {token : Option Bytes} {versions : Option (List Nat)}
    (listed : ty ≠ .versionNegotiation) (short : input.length < maxSliceLen)
    (ran : getTokenOrVersions ty input = .ok ((token, versions), rest)) :
    versions = none ∧ parsedToken ty token = token ∧ (ty = .retry → token.isSome = true) ∧
      ∀ field ∈ tokenFields ty token, field.Valid := by
  have plain (same : (Except.ok ((none, none), input) : Except WireError _) = .ok ((token, versions), rest)) :
      versions = none ∧ token = none := by
    cases same
    exact ⟨rfl, rfl⟩
  cases ty with
  | versionNegotiation => exact absurd rfl listed
  | initial =>
    obtain ⟨bytes, _, took, ran⟩ := bind_eq_ok.mp ran
    cases ran
    refine ⟨rfl, rfl, fun retry => (nomatch retry), ?_⟩
    -- The length of the token was read as a variable-length integer.
    obtain ⟨len, middle, first, took⟩ := bind_eq_ok.mp took
    obtain ⟨-, long⟩ := getBytes_eq_ok.mp took
    have small := ((getVarint_yields input short).2 len middle first).2
    rw [← long] at small
    exact List.forall_mem_cons.mpr ⟨small, List.forall_mem_cons.mpr ⟨trivial, List.forall_mem_nil _⟩⟩
  | retry =>
    obtain ⟨left, _, -, ran⟩ := bind_eq_ok.mp ran
    split at ran
    · cases ran
    · obtain ⟨bytes, _, -, ran⟩ := bind_eq_ok.mp ran
      cases ran
      exact ⟨rfl, rfl, fun _ => rfl, List.forall_mem_cons.mpr ⟨trivial, List.forall_mem_nil _⟩⟩
  | handshake =>
    obtain ⟨rfl, rfl⟩ := plain ran
    exact ⟨rfl, rfl, fun retry => (nomatch retry), List.forall_mem_nil _⟩
  | zeroRTT =>
    obtain ⟨rfl, rfl⟩ := plain ran
    exact ⟨rfl, rfl, fun retry => (nomatch retry), List.forall_mem_nil _⟩
  | short =>
    obtain ⟨rfl, rfl⟩ := plain ran
    exact ⟨rfl, rfl, fun retry => (nomatch retry), List.forall_mem_nil _⟩

theorem lift_reader_ok {α : Type} {result : Except WireError α} {value : α}
    (ran : (liftM result : Reader α) input = .ok (value, rest)) : result = .ok value ∧ rest = input := by
  cases result with
  | error error => cases ran
  | ok found =>
    cases ran
    exact ⟨rfl, rfl⟩

/-- A parsed header is one that can be sent, and is all that a receiver sees of it. -/
theorem fromBytes_sendable {dcidLen : Nat} {hdr : Header} (slice : input.length < maxSliceLen)
    (ran : Header.fromBytes dcidLen input = .ok (hdr, rest)) (listed : hdr.ty ≠ .versionNegotiation) :
    hdr.Sendable ∧ hdr.parsed = hdr ∧
      ((hdr.ty = .short ∧ hdr.dcid.length = dcidLen) ∨
        ∃ bits, hdr.ty ≠ .short ∧ typeBits hdr.ty = .ok bits ∧ (hdr.ty = .retry → hdr.token.isSome = true) ∧
          ∀ field ∈ tokenFields hdr.ty hdr.token, field.Valid) := by
  obtain ⟨first, middle, start, ran⟩ := bind_eq_ok.mp ran
  split at ran
  · obtain ⟨dcid, _, took, ran⟩ := bind_eq_ok.mp ran
    cases ran
    exact ⟨⟨absurd rfl, absurd rfl, absurd rfl, Nat.zero_le 4⟩, rfl, .inl ⟨rfl, (getBytes_eq_ok.mp took).2⟩⟩
  · obtain ⟨version, afterVersion, versioned, ran⟩ := bind_eq_ok.mp ran
    obtain ⟨ty, _, typed, ran⟩ := bind_eq_ok.mp ran
    obtain ⟨dcid, afterDcid, dcidTaken, ran⟩ := bind_eq_ok.mp ran
    obtain ⟨scid, afterScid, scidTaken, ran⟩ := bind_eq_ok.mp ran
    obtain ⟨⟨token, versions⟩, _, tokenTaken, ran⟩ := bind_eq_ok.mp ran
    cases ran
    obtain ⟨found, rfl⟩ := lift_reader_ok typed
    obtain ⟨bytes, rfl, width, rfl⟩ := getU_eq_ok.mp versioned
    obtain ⟨dcidFits, dcidShrinks⟩ := getConnectionId_fits dcidTaken
    obtain ⟨scidFits, scidShrinks⟩ := getConnectionId_fits scidTaken
    -- The type was read from the first byte, so it has bits of its own.
    obtain zero | ⟨positive, bits, own⟩ := longType_ok found
    · exact absurd zero listed
    · have long : ty ≠ .short := by
        rintro rfl
        cases own
      have left : afterScid.length < maxSliceLen := by
        rw [getU8_eq_ok.mp start, List.length_cons, List.length_append] at slice
        omega
      obtain ⟨rfl, same, given, valid⟩ := getTokenOrVersions_ok listed left tokenTaken
      refine ⟨⟨fun _ => ⟨positive, ?_⟩, fun _ => dcidFits, fun _ => scidFits, Nat.zero_le 4⟩, ?_,
        .inr ⟨bits, long, own, given, valid⟩⟩
      · have bound := ofBigEndian_lt bytes
        rwa [width] at bound
      · simp only [Header.parsed, if_neg long, same]

/--
A header that a connection writes is parsed again from its bytes, whatever follows, up to what is protected;
and a header that was parsed is written to bytes that are parsed as the same header.
-/
theorem fromBytes_toBytes_fromBytes :
    (∀ (hdr : Header) (output later : Output UInt8) (done : Unit), hdr.Sendable →
      hdr.toBytes output = .ok (done, later) →
        ∃ bytes, later = output.push bytes ∧ ∀ dcidLen rest, (hdr.ty = .short → hdr.dcid.length = dcidLen) →
          (hdr.ty = .retry → rest.length = tagLen) →
            Header.fromBytes dcidLen (bytes ++ rest) = .ok (hdr.parsed, rest)) ∧
      ∀ (dcidLen : Nat) (input rest : Bytes) (hdr : Header), input.length < maxSliceLen →
        Header.fromBytes dcidLen input = .ok (hdr, rest) → hdr.ty ≠ .versionNegotiation →
          ∃ bytes, Puts hdr.toBytes bytes () ∧ ∀ rest, (hdr.ty = .retry → rest.length = tagLen) →
            Header.fromBytes dcidLen (bytes ++ rest) = .ok (hdr, rest) := by
  refine ⟨fun hdr output later done sendable wrote => fromBytes_written sendable wrote, ?_⟩
  intro dcidLen input rest hdr slice ran listed
  obtain ⟨sendable, same, shape⟩ := fromBytes_sendable slice ran listed
  have known : hdr.ty = .short → hdr.dcid.length = dcidLen := by
    intro short
    obtain ⟨-, known⟩ | ⟨_, long, -⟩ := shape
    · exact known
    · exact absurd short long
  have writes : ∃ bytes, Puts hdr.toBytes bytes () := by
    obtain ⟨short, -⟩ | ⟨bits, long, typed, given, valid⟩ := shape
    · rw [toBytes_short short]
      exact ⟨_, puts_fields (by simp [Header.shortFields, Field.Valid])⟩
    · rw [toBytes_long long typed given]
      refine ⟨_, puts_fields ?_⟩
      intro field inside
      simp only [Header.longFields, cidFields, List.mem_append, List.mem_cons, List.not_mem_nil, or_false] at inside
      obtain (rfl | rfl) | (rfl | rfl) | (rfl | rfl) | inside := inside <;> first | trivial | exact valid field inside
  obtain ⟨bytes, puts⟩ := writes
  refine ⟨bytes, puts, fun rest tag => ?_⟩
  -- With enough room the header is written, and what was written is parsed.
  have wrote := (puts ⟨[], bytes.length⟩).1 (Nat.le_refl _)
  obtain ⟨again, pushed, parsed⟩ := fromBytes_written sendable wrote
  have unique : bytes = again := congrArg Output.written pushed
  rw [unique, parsed dcidLen rest known tag, same]

/-- The header of an `Initial` packet with a token. -/
def initialHeader : Header := ⟨.initial, 1, [8, 9], [5], 0, 1, some [7, 7], none, false⟩

/-- The header of the `Initial` packet is written and found again, and the first bytes of a short packet are. -/
theorem fromBytes_toBytes_fromBytes_initial :
    (∃ bytes, initialHeader.toBytes ⟨[], 64⟩ = .ok ((), Output.push ⟨[], 64⟩ bytes) ∧
      Header.fromBytes 0 (bytes ++ [3]) = .ok (initialHeader.parsed, [3])) ∧
    ∃ hdr bytes, Header.fromBytes 2 [0x40, 8, 9, 3] = .ok (hdr, [3]) ∧ Puts hdr.toBytes bytes () ∧
      Header.fromBytes 2 (bytes ++ [3]) = .ok (hdr, [3]) := by
  have sendable : initialHeader.Sendable :=
    ⟨fun _ => ⟨Nat.one_pos, (by decide : 1 < 2 ^ 32)⟩, fun _ => ⟨(by decide : 2 < 256), fun _ => (by decide : 2 ≤ 20)⟩,
      fun _ => ⟨(by decide : 1 < 256), fun _ => (by decide : 1 ≤ 20)⟩, (by decide : 1 ≤ 4)⟩
  have short : ([0x40, 8, 9, 3] : Bytes).length < maxSliceLen :=
    Nat.lt_of_lt_of_le (by decide : 4 < 2 ^ 3) (Nat.pow_le_pow_right (by decide) (by decide))
  constructor
  · obtain ⟨bytes, pushed, parsed⟩ := fromBytes_toBytes_fromBytes.1 initialHeader ⟨[], 64⟩ _ () sendable rfl
    exact ⟨bytes, congrArg (fun later => Except.ok ((), later)) pushed,
      parsed 0 [3] (fun short => PacketType.noConfusion short) fun retry => PacketType.noConfusion retry⟩
  · obtain ⟨bytes, puts, parsed⟩ := fromBytes_toBytes_fromBytes.2 2 [0x40, 8, 9, 3] [3] _ short rfl (by decide)
    exact ⟨_, bytes, rfl, puts, parsed [3] fun retry => PacketType.noConfusion retry⟩

end Reparsing

end Packets

end Flexicast
