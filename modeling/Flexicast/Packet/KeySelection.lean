import Flexicast.Channel.Membership
import Flexicast.Lib.Runs
import Flexicast.Packet.Frame
import Flexicast.Packet.PktNum
import Flexicast.Recovery.Loss
import Mathlib.Algebra.Ring.Parity
import Mathlib.Logic.Function.Basic

/-! Which key opens a received packet, of `recv_single`, and the protection of headers, of `packet.rs`. -/

namespace Flexicast

/-- The epoch that a packet belongs to. -/
def Wire.PacketType.toEpoch : PacketType → Option Loss.Epoch
  | .initial => some .initial
  | .handshake => some .handshake
  | .zeroRTT | .short => some .application
  | .retry | .versionNegotiation => none

namespace KeySelection

open Channel (McRole McClientStatus)
open Wire (PacketType)

/-- Why a packet is not processed. -/
inductive RecvError where
  | done
  | cryptoFail
  | invalidPacket
  | bufferTooShort
  | keyUpdate
  | mcInvalidRole
  | mcDisabled
  /-- The path of the packet is not usable. -/
  | path
  /-- A missing value is unwrapped. -/
  | panicked
  deriving DecidableEq

/-- What the keys of packets can do. -/
structure Crypto (Key : Type) where
  /-- The mask for a sample: one byte for the first byte of the header, four for the packet number. -/
  newMask : Key → Bytes → Option (UInt8 × (Fin 4 → UInt8))
  deriveNextPacketKey : Key → Option Key
  /-- Opens a ciphertext, given the path, the packet number and the header. -/
  openWithU64Counter : Key → Nat → Nat → Bytes → Bytes → Option Bytes

/-- The header of a packet. -/
structure Header where
  ty : PacketType
  dcid : Bytes
  pktNum : Nat
  pktNumLen : Nat
  keyPhase : Bool
  deriving DecidableEq

/-- A received packet, once its header was parsed up to the packet number. -/
structure Incoming where
  hdr : Header
  /-- The bytes before the packet number. -/
  head : Bytes
  /-- The bytes from the packet number on. -/
  body : Bytes
  payloadLen : Nat
  /-- Whether the packet came on the flexicast flow. -/
  fromMc : Bool
  /-- Why the packet cannot be mapped to a path, if so. -/
  noPath : Option RecvError
  deriving DecidableEq

section Protection

variable {Key : Type} (crypto : Crypto Key)

def formBit : UInt8 := 0x80

def fixedBit : UInt8 := 0x40

def keyPhaseBit : UInt8 := 0x04

def pktNumMask : UInt8 := 0x03

def maxPktNumLen : Nat := 4

def sampleLen : Nat := 16

/-- Whether the first byte of a header is that of a long one. -/
def isLong (first : UInt8) : Bool := first &&& formBit != 0

/-- Masks the first byte of a header. -/
def maskFirst (mask first : UInt8) : UInt8 :=
  if isLong first then first ^^^ (mask &&& 0x0f) else first ^^^ (mask &&& 0x1f)

/-- Masks the bytes of a packet number. -/
def maskPktNum (mask : Fin 4 → UInt8) (bytes : Bytes) : Bytes := List.zipWith (· ^^^ ·) bytes (List.ofFn mask)

/-- The first byte of a short header. -/
def shortFirst (pktNumLen : Nat) (keyPhase : Bool) : UInt8 :=
  let first := UInt8.ofNat (pktNumLen - 1) &&& ~~~formBit ||| fixedBit
  if keyPhase then first ||| keyPhaseBit else first &&& ~~~keyPhaseBit

/-- Protects the header of a packet, given its packet number and its ciphertext; a panic is no result. -/
def encryptHdr (key : Key) (head pktNum payload : Bytes) : Option (Bytes × Bytes) :=
  if payload.length < sampleLen + (maxPktNumLen - pktNum.length) then none
  else
    match head, crypto.newMask key ((payload.drop (maxPktNumLen - pktNum.length)).take sampleLen) with
    | first :: rest, some mask => some (maskFirst mask.1 first :: rest, maskPktNum mask.2 pktNum)
    | _, _ => none

/-- Takes the protection off the header of a packet, and reads its packet number. -/
def decryptHdr (key : Key) (packet : Incoming) : Except RecvError Incoming :=
  match packet.head with
  | [] => .error .bufferTooShort
  | first :: rest =>
    if packet.body.length < maxPktNumLen + sampleLen then .error .bufferTooShort
    else
      match crypto.newMask key ((packet.body.drop maxPktNumLen).take sampleLen) with
      | none => .error .cryptoFail
      | some mask =>
        let first := maskFirst mask.1 first
        let pnLen := (first &&& pktNumMask).toNat + 1
        let pn := maskPktNum mask.2 (packet.body.take pnLen)
        .ok { packet with
          head := first :: rest
          body := pn ++ packet.body.drop pnLen
          hdr := { packet.hdr with
            pktNum := Words.ofBigEndian pn
            pktNumLen := pnLen
            keyPhase := if packet.hdr.ty = .short then first &&& keyPhaseBit != 0 else packet.hdr.keyPhase } }

theorem and_xor (left right bits : UInt8) : (left ^^^ right) &&& bits = (left &&& bits) ^^^ (right &&& bits) := by
  apply UInt8.toBitVec_inj.mp
  ext i inside
  simp [Bool.and_xor_distrib_right]

theorem isLong_xor {low : UInt8} (clear : low &&& formBit = 0) (mask first : UInt8) :
    isLong (first ^^^ (mask &&& low)) = isLong first := by
  have same : (first ^^^ (mask &&& low)) &&& formBit = first &&& formBit := by
    rw [and_xor, UInt8.and_assoc, clear, UInt8.and_zero, UInt8.xor_zero]
  rw [isLong, same, isLong]

/-- Masking twice changes nothing. -/
theorem maskFirst_maskFirst (mask first : UInt8) : maskFirst mask (maskFirst mask first) = first := by
  -- The form of the header is read from a bit that is not masked.
  have form : isLong (maskFirst mask first) = isLong first := by
    unfold maskFirst
    split
    · exact isLong_xor (by decide) mask first
    · exact isLong_xor (by decide) mask first
  rw [maskFirst, form]
  unfold maskFirst
  split
  · rw [UInt8.xor_assoc, UInt8.xor_self, UInt8.xor_zero]
  · rw [UInt8.xor_assoc, UInt8.xor_self, UInt8.xor_zero]

theorem maskPktNum_maskPktNum (mask : Fin 4 → UInt8) {bytes : Bytes} (short : bytes.length ≤ 4) :
    maskPktNum mask (maskPktNum mask bytes) = bytes := by
  unfold maskPktNum
  apply List.ext_getElem
  · simp only [List.length_zipWith, List.length_ofFn]
    omega
  · intro i inside inside'
    simp only [List.getElem_zipWith]
    rw [UInt8.xor_assoc, UInt8.xor_self, UInt8.xor_zero]

theorem length_maskPktNum (mask : Fin 4 → UInt8) {bytes : Bytes} (short : bytes.length ≤ 4) :
    (maskPktNum mask bytes).length = bytes.length := by
  simp only [maskPktNum, List.length_zipWith, List.length_ofFn]
  omega

theorem shortFirst_spec {pktNumLen : Nat} (some_ : 0 < pktNumLen) (short : pktNumLen ≤ 4) (keyPhase : Bool) :
    (shortFirst pktNumLen keyPhase &&& pktNumMask).toNat + 1 = pktNumLen ∧
      (shortFirst pktNumLen keyPhase &&& keyPhaseBit != 0) = keyPhase := by
  -- There are four lengths and two phases.
  have lengths : pktNumLen = 1 ∨ pktNumLen = 2 ∨ pktNumLen = 3 ∨ pktNumLen = 4 := by omega
  rcases lengths with rfl | rfl | rfl | rfl <;> cases keyPhase <;> decide

/-- Taking off the protection with the same key gives back the header and the packet number. -/
theorem decryptHdr_encryptHdr {key : Key} {rest pktNum payload head masked : Bytes} {keyPhase : Bool}
    (some_ : 0 < pktNum.length) (short : pktNum.length ≤ 4)
    (sealed : encryptHdr crypto key (shortFirst pktNum.length keyPhase :: rest) pktNum payload = some (head, masked))
    {packet : Incoming} (ty : packet.hdr.ty = .short) (sent : packet.head = head ∧ packet.body = masked ++ payload) :
    decryptHdr crypto key packet = .ok { packet with
      head := shortFirst pktNum.length keyPhase :: rest
      body := pktNum ++ payload
      hdr := { packet.hdr with
        pktNum := Words.ofBigEndian pktNum, pktNumLen := pktNum.length, keyPhase := keyPhase } } := by
  unfold encryptHdr at sealed
  split at sealed
  · cases sealed
  · rename_i long
    cases masks : crypto.newMask key ((payload.drop (maxPktNumLen - pktNum.length)).take sampleLen) with
    | none => simp [masks] at sealed
    | some mask =>
      simp only [masks, Option.some.injEq, Prod.mk.injEq] at sealed
      obtain ⟨rfl, rfl⟩ := sealed
      have width := length_maskPktNum mask.2 short
      obtain ⟨lengths, phases⟩ := shortFirst_spec some_ short keyPhase
      have enough : ¬ packet.body.length < maxPktNumLen + sampleLen := by
        rw [sent.2, List.length_append, width]
        unfold maxPktNumLen at long ⊢
        omega
      -- Both ends take the sample from the same place of the ciphertext.
      have sample : packet.body.drop maxPktNumLen = payload.drop (maxPktNumLen - pktNum.length) := by
        rw [sent.2, List.drop_append, width, List.drop_eq_nil_of_le, List.nil_append]
        rw [width]
        exact short
      simp only [decryptHdr, sent.1, if_neg enough, sample, masks, maskFirst_maskFirst, lengths, ty, if_true, phases]
      have front : (packet.body.take pktNum.length) = maskPktNum mask.2 pktNum := by
        rw [sent.2, List.take_append_of_le_length (by rw [width]), List.take_of_length_le (by rw [width])]
      have back : packet.body.drop pktNum.length = payload := by
        rw [sent.2, ← width, List.drop_left]
      rw [front, back, maskPktNum_maskPktNum mask.2 short]

end Protection

section Receiving

/-- The keys from before the latest update. -/
structure KeyUpdate (Key : Type) where
  cryptoOpen : Key
  /-- The packet that triggered the update. -/
  pnOnUpdate : Nat
  /-- Whether the update was acknowledged. -/
  updateAcked : Bool

/-- The keys of an epoch. -/
structure PktNumSpaceCrypto (Key : Type) where
  keyUpdate : Option (KeyUpdate Key)
  cryptoOpen : Option Key
  cryptoSeal : Option Key
  crypto0rttOpen : Option Key

/-- What a connection has besides its unicast keys, as far as opening packets goes. -/
structure Surroundings (Key : Type) where
  isServer : Bool
  recvCount : Nat
  isEstablished : Bool
  /-- The number of packets kept for later. -/
  undecryptablePkts : Nat
  /-- The role in the channel, and the key of the channel. -/
  flexicast : Option (McRole × Option Key)
  multipath : Bool
  /-- The path of a connection identifier. -/
  findScidPathId : Bytes → Option Nat
  /-- The largest packet number of a space. -/
  largestRxPktNum : Loss.Epoch → Nat → Option Nat
  /-- Whether a packet was received before. -/
  recvPktNum : Loss.Epoch → Nat → Nat → Bool

/-- A connection, as far as opening packets goes. -/
structure Conn (Key : Type) where
  crypto : Loss.Epoch → PktNumSpaceCrypto Key
  handshakeConfirmed : Bool
  keyPhase : Bool
  rest : Surroundings Key

/-- The place that a key is taken from. -/
inductive Place where
  | zeroRtt
  | flexicast
  | unicast
  /-- The unicast key from before the latest update. -/
  | previous
  /-- A unicast key that was derived for this packet. -/
  | next
  deriving DecidableEq

/-- What happened to a received packet. -/
structure Attempt (Key : Type) where
  tried : Option (Place × Key)
  /-- Whether further unicast keys were derived. -/
  derived : Bool
  /-- Whether the derived keys replaced the unicast keys. -/
  committed : Bool
  conn : Conn Key
  /-- The payload; nothing when the packet is kept for later. -/
  result : Except RecvError (Option Bytes)

/-- What one received packet does to the connection, as far as the key phase goes. -/
structure Attempt.Steps (before : Conn Key) (attempt : Attempt Key) : Prop where
  kept : attempt.committed = false → attempt.conn.crypto = before.crypto ∧ attempt.conn.keyPhase = before.keyPhase
  /-- A commitment takes derived keys, and flips the phase. -/
  flipped : attempt.committed = true → attempt.derived = true ∧ attempt.conn.keyPhase = !before.keyPhase
  confirmed : attempt.conn.handshakeConfirmed = before.handshakeConfirmed

theorem Attempt.Steps.of_kept {before : Conn Key} {attempt : Attempt Key} (kept : attempt.committed = false)
    (same : attempt.conn.crypto = before.crypto) (phase : attempt.conn.keyPhase = before.keyPhase)
    (confirmed : attempt.conn.handshakeConfirmed = before.handshakeConfirmed) : attempt.Steps before where
  kept := fun _ => ⟨same, phase⟩
  flipped := fun done => absurd (kept.symm.trans done) Bool.false_ne_true
  confirmed := confirmed

def maxUndecryptablePackets : Nat := 10

variable {Key : Type} (crypto : Crypto Key)

/-- A packet that the source protected with the shared key; its key phase never changes. -/
def FromSource (key : Key) (packet : Incoming) : Prop :=
  packet.fromMc = true ∧ packet.hdr.ty = .short ∧ packet.payloadLen = packet.body.length ∧
    ∃ rest pktNum payload masked, 0 < pktNum.length ∧ pktNum.length ≤ 4 ∧
      encryptHdr crypto key (shortFirst pktNum.length false :: rest) pktNum payload = some (packet.head, masked) ∧
      packet.body = masked ++ payload

namespace Conn

variable (self : Conn Key)

/-- Errors on packets that are not authenticated are passed over, unless the connection is new. -/
def dropPktOnErr (error : RecvError) : RecvError :=
  if self.rest.isServer && self.rest.recvCount == 0 then error else .done

/-- The key that a packet is opened with, at first. -/
def selectKey (ty : PacketType) (epoch : Loss.Epoch) (fromMc : Bool) : Except RecvError (Option (Place × Key)) :=
  if ty = .zeroRTT then .ok ((self.crypto epoch).crypto0rttOpen.map (.zeroRtt, ·))
  else if fromMc then
    -- The flexicast flow uses the shared key.
    match self.rest.flexicast with
    | none => .error .mcDisabled
    | some (.client (.listenMcPath true), key) => .ok (key.map (.flexicast, ·))
    | some (.client .joinedAndKey, key) => .ok (key.map (.flexicast, ·))
    | some (.client _, _) => .ok ((self.crypto epoch).cryptoOpen.map (.unicast, ·))
    | some _ => .error .mcInvalidRole
  else .ok ((self.crypto epoch).cryptoOpen.map (.unicast, ·))

/-- The number space of a packet. -/
def spaceId (dcid : Bytes) : Option Nat := if self.rest.multipath then self.rest.findScidPathId dcid else some 0

/-- Derives the keys that follow on an update. -/
def deriveNext (epoch : Loss.Epoch) : Except RecvError (Key × Key) :=
  match (self.crypto epoch).cryptoOpen, (self.crypto epoch).cryptoSeal with
  | some openKey, some sealKey =>
    match crypto.deriveNextPacketKey openKey, crypto.deriveNextPacketKey sealKey with
    | some openNext, some sealNext => .ok (openNext, sealNext)
    | _, _ => .error .cryptoFail
  | _, _ => .error .panicked

/-- The key update that a packet came before. -/
def updateAfter (epoch : Loss.Epoch) (pn : Nat) : Option (KeyUpdate Key) :=
  (self.crypto epoch).keyUpdate.filter fun update => decide (pn < update.pnOnUpdate)

/-- Takes the next keys over, once they opened a packet. -/
def commit (epoch : Loss.Epoch) (pn : Nat) (next : Key × Key) : Except RecvError Unit × Conn Key :=
  let space := self.crypto epoch
  if !(space.keyUpdate.map KeyUpdate.updateAcked).getD true then
    -- Peer has updated keys twice without awaiting confirmation.
    (.error .keyUpdate, self)
  else
    match space.cryptoOpen with
    | none => (.error .panicked, self)
    | some openPrev =>
      (.ok (), { self with
        crypto := Function.update self.crypto epoch { space with
          cryptoOpen := some next.1, cryptoSeal := some next.2, keyUpdate := some ⟨openPrev, pn, false⟩ }
        keyPhase := !self.keyPhase })

/-- Opens the payload with a key, and commits the next keys if it is one of them. -/
def openPayload (packet : Incoming) (epoch : Loss.Epoch) (spaceId pn : Nat) (key : Place × Key)
    (next : Option (Key × Key)) : Attempt Key :=
  let derived := next.isSome
  let stop (error : RecvError) : Attempt Key := ⟨some key, derived, false, self, .error error⟩
  if packet.payloadLen < packet.hdr.pktNumLen then stop (self.dropPktOnErr .invalidPacket)
  else
    let payloadLen := packet.payloadLen - packet.hdr.pktNumLen
    let header := packet.head ++ packet.body.take packet.hdr.pktNumLen
    let ciphertext := packet.body.drop packet.hdr.pktNumLen
    if ciphertext.length < payloadLen then stop (self.dropPktOnErr .bufferTooShort)
    else
      -- For the flexicast flow, the space is always 1.
      let spaceIdToDecrypt := if packet.fromMc then 1 else spaceId
      match crypto.openWithU64Counter key.2 spaceIdToDecrypt pn header (ciphertext.take payloadLen) with
      | none => stop (self.dropPktOnErr .cryptoFail)
      | some payload =>
        if self.rest.recvPktNum epoch spaceId pn then stop .done
        else if payload.isEmpty then stop .invalidPacket
        else
          match packet.noPath, next with
          | some error, _ => stop error
          | none, none => ⟨some key, derived, false, self, .ok (some payload)⟩
          | none, some next =>
            match self.commit epoch pn next with
            | (.error error, conn) => ⟨some key, derived, false, conn, .error error⟩
            | (.ok (), conn) => ⟨some key, derived, true, conn, .ok (some payload)⟩

/-- Checks for a key update, and opens the payload. -/
def checkKeyUpdate (packet : Incoming) (epoch : Loss.Epoch) (spaceId pn : Nat) (key : Place × Key) : Attempt Key :=
  if self.handshakeConfirmed && packet.hdr.ty ≠ .zeroRTT && packet.hdr.keyPhase != self.keyPhase then
    -- Check if this packet arrived before key update.
    match self.updateAfter epoch pn with
    | some update => self.openPayload crypto packet epoch spaceId pn (.previous, update.cryptoOpen) none
    | none =>
      match self.deriveNext crypto epoch with
      | .error error => ⟨none, true, false, self, .error error⟩
      | .ok next => self.openPayload crypto packet epoch spaceId pn (.next, next.1) (some next)
  else self.openPayload crypto packet epoch spaceId pn key none

/-- Receives a packet, up to its payload. -/
def recvSingle (packet : Incoming) : Attempt Key :=
  let stop (error : RecvError) : Attempt Key := ⟨none, false, false, self, .error error⟩
  match packet.hdr.ty.toEpoch with
  | none => stop .invalidPacket
  | some epoch =>
    match self.selectKey packet.hdr.ty epoch packet.fromMc with
    | .error error => stop error
    | .ok none =>
      if packet.hdr.ty = .zeroRTT ∧ self.rest.undecryptablePkts < maxUndecryptablePackets ∧
          self.rest.isEstablished = false then
        ⟨none, false, false,
          { self with rest := { self.rest with undecryptablePkts := self.rest.undecryptablePkts + 1 } }, .ok none⟩
      else stop (self.dropPktOnErr .cryptoFail)
    | .ok (some key) =>
      match decryptHdr crypto key.2 packet with
      | .error error => stop (self.dropPktOnErr error)
      | .ok packet =>
        match self.spaceId packet.hdr.dcid with
        | none => stop .done
        | some spaceId =>
          let pn := decodePktNum ((self.rest.largestRxPktNum epoch spaceId).getD 0) packet.hdr.pktNum
            packet.hdr.pktNumLen
          self.checkKeyUpdate crypto packet epoch spaceId pn key

theorem commit_spec (self : Conn Key) (epoch : Loss.Epoch) (pn : Nat) (next : Key × Key) :
    (∃ error, self.commit epoch pn next = (.error error, self)) ∨
      ∃ conn, self.commit epoch pn next = (.ok (), conn) ∧ conn.keyPhase = (!self.keyPhase) ∧
        conn.handshakeConfirmed = self.handshakeConfirmed ∧ conn.rest = self.rest := by
  simp only [commit]
  split
  · exact .inl ⟨_, rfl⟩
  · split
    · exact .inl ⟨_, rfl⟩
    · exact .inr ⟨_, rfl, rfl, rfl, rfl⟩

/-- What opening a payload tries, and what it does to the connection. -/
theorem openPayload_spec (self : Conn Key) (packet : Incoming) (epoch : Loss.Epoch) (spaceId pn : Nat)
    (key : Place × Key) (next : Option (Key × Key)) :
    let attempt := self.openPayload crypto packet epoch spaceId pn key next
    attempt.tried = some key ∧ attempt.derived = next.isSome ∧
      (attempt.committed = false → attempt.conn = self) ∧
      (attempt.committed = true → next.isSome = true ∧ attempt.conn.keyPhase = !self.keyPhase) ∧
      attempt.conn.handshakeConfirmed = self.handshakeConfirmed := by
  simp only [openPayload]
  split
  · simp
  · split
    · simp
    · split
      · simp
      · split
        · simp
        · split
          · simp
          · split
            · simp
            · simp
            · -- The keys are committed, unless that fails.
              rename_i openNext _
              obtain ⟨error, failed⟩ | ⟨conn, done, flipped, confirmed, -⟩ := self.commit_spec epoch pn openNext
              · simp [failed]
              · simp [done, flipped, confirmed]

theorem openPayload_steps (self : Conn Key) (packet : Incoming) (epoch : Loss.Epoch) (spaceId pn : Nat)
    (key : Place × Key) (next : Option (Key × Key)) :
    (self.openPayload crypto packet epoch spaceId pn key next).Steps self := by
  obtain ⟨-, derived, kept, flipped, confirmed⟩ := self.openPayload_spec crypto packet epoch spaceId pn key next
  constructor
  · intro stays
    rw [kept stays]
    exact ⟨rfl, rfl⟩
  · intro done
    rw [derived]
    exact flipped done
  · exact confirmed

/-- What a received packet does to the key phase of the connection. -/
theorem recvSingle_steps (self : Conn Key) (packet : Incoming) : (self.recvSingle crypto packet).Steps self := by
  -- Only opening the payload can change the keys.
  simp only [recvSingle]
  split
  · exact .of_kept rfl rfl rfl rfl
  · split
    · exact .of_kept rfl rfl rfl rfl
    · split <;> exact .of_kept rfl rfl rfl rfl
    · split
      · exact .of_kept rfl rfl rfl rfl
      · split
        · exact .of_kept rfl rfl rfl rfl
        · unfold checkKeyUpdate
          split
          · split
            · apply openPayload_steps
            · split
              · exact .of_kept rfl rfl rfl rfl
              · apply openPayload_steps
          · apply openPayload_steps

/-- The client listens to the flexicast flow, and has got its key. -/
def Listens (self : Conn Key) (key : Key) : Prop :=
  self.rest.flexicast = some (.client .joinedAndKey, some key) ∨
    self.rest.flexicast = some (.client (.listenMcPath true), some key)

/-- The packet is tried with the shared key, and the unicast keys are left alone. -/
def Shared (self : Conn Key) (key : Key) (packet : Incoming) : Prop :=
  let attempt := self.recvSingle crypto packet
  attempt.tried = some (.flexicast, key) ∧ attempt.derived = false ∧ attempt.committed = false ∧
    attempt.conn.crypto = self.crypto ∧ attempt.conn.keyPhase = self.keyPhase

variable {key : Key} {packet : Incoming}

theorem selectKey_flexicast {self : Conn Key} (listens : self.Listens key) (epoch : Loss.Epoch) :
    self.selectKey .short epoch true = .ok (some (.flexicast, key)) := by
  rcases listens with joined | listening
  · simp [selectKey, joined]
  · simp [selectKey, listening]

theorem recvSingle_fromSource {self : Conn Key} {key : Key} {packet : Incoming} (listens : self.Listens key)
    (produced : FromSource crypto key packet) :
    ∃ opened : Incoming, opened.hdr.ty = .short ∧ opened.hdr.keyPhase = false ∧ ∃ pn : Nat → Nat,
      self.recvSingle crypto packet = match self.spaceId packet.hdr.dcid with
        | none => ⟨none, false, false, self, .error .done⟩
        | some spaceId =>
          self.checkKeyUpdate crypto opened .application spaceId (pn spaceId) (.flexicast, key) := by
  obtain ⟨fromMc, ty, -, rest, pktNum, payload, masked, some_, short, sealed, sent⟩ := produced
  -- The header is read as the source wrote it, since both ends use the shared key.
  have header := decryptHdr_encryptHdr crypto some_ short sealed ty ⟨rfl, sent⟩
  have selected := selectKey_flexicast listens Loss.Epoch.application
  refine ⟨{ packet with
    head := shortFirst pktNum.length false :: rest
    body := pktNum ++ payload
    hdr := { packet.hdr with
      pktNum := Words.ofBigEndian pktNum, pktNumLen := pktNum.length, keyPhase := false } }, ty, rfl,
    fun spaceId => decodePktNum ((self.rest.largestRxPktNum .application spaceId).getD 0)
      (Words.ofBigEndian pktNum) pktNum.length, ?_⟩
  unfold recvSingle
  simp only [ty, PacketType.toEpoch, fromMc, selected, header]

theorem checkKeyUpdate_current {self : Conn Key} (ty : packet.hdr.ty = .short) (phase : packet.hdr.keyPhase = false)
    (same : ¬ (self.handshakeConfirmed = true ∧ self.keyPhase = true)) (epoch : Loss.Epoch) (spaceId pn : Nat)
    (key : Place × Key) :
    self.checkKeyUpdate crypto packet epoch spaceId pn key =
      self.openPayload crypto packet epoch spaceId pn key none := by
  unfold checkKeyUpdate
  rw [if_neg]
  intro update
  simp only [ty, phase, Bool.and_eq_true, bne_iff_ne, ne_eq] at update
  exact same ⟨update.1.1, by simpa using Ne.symm update.2⟩

theorem checkKeyUpdate_flipped {self : Conn Key} (ty : packet.hdr.ty = .short) (phase : packet.hdr.keyPhase = false)
    (update : self.handshakeConfirmed = true ∧ self.keyPhase = true) (epoch : Loss.Epoch) (spaceId pn : Nat)
    (key : Key) :
    (self.checkKeyUpdate crypto packet epoch spaceId pn (.flexicast, key)).tried ≠ some (.flexicast, key) := by
  unfold checkKeyUpdate
  rw [if_pos]
  · -- A unicast key is taken instead, whichever it is.
    split
    · rw [(self.openPayload_spec ..).1]
      simp
    · split
      · simp
      · rw [(self.openPayload_spec ..).1]
        simp
  · simp [ty, phase, update]

/-- The shared key stays selected unless the phase of the connection was flipped. -/
theorem shared_iff {self : Conn Key} (listens : self.Listens key) (produced : FromSource crypto key packet) :
    self.Shared crypto key packet ↔
      (self.spaceId packet.hdr.dcid).isSome = true ∧ ¬ (self.handshakeConfirmed = true ∧ self.keyPhase = true) := by
  obtain ⟨opened, ty, phase, pn, received⟩ := recvSingle_fromSource crypto listens produced
  unfold Shared
  rw [received]
  cases self.spaceId packet.hdr.dcid with
  | none => simp
  | some spaceId =>
    simp only [Option.isSome_some, true_and]
    by_cases update : self.handshakeConfirmed = true ∧ self.keyPhase = true
    · have tried := checkKeyUpdate_flipped crypto ty phase update .application spaceId (pn spaceId) key
      exact iff_of_false (fun shared => tried shared.1) (fun same => same update)
    · -- Without further keys, nothing can be committed.
      rw [checkKeyUpdate_current crypto ty phase update]
      obtain ⟨tried, derived, -, flipped, -⟩ :=
        self.openPayload_spec crypto opened .application spaceId (pn spaceId) (.flexicast, key) none
      have kept : (self.openPayload crypto opened .application spaceId (pn spaceId) (.flexicast, key) none).committed
          = false := by
        apply Bool.eq_false_iff.mpr
        intro done
        exact Bool.false_ne_true (flipped done).1
      have steps := openPayload_steps crypto self opened .application spaceId (pn spaceId) (.flexicast, key) none
      exact iff_of_true ⟨tried, derived, kept, steps.kept kept⟩ update

end Conn

/-- What happens to the keys of a connection. -/
inductive KeyEvent (Key : Type) where
  | recv (packet : Incoming)
  /-- Everything but the unicast keys changes. -/
  | around (rest : Surroundings Key)
  | install (epoch : Loss.Epoch) (openKey sealKey zeroRttKey : Option Key)
  | handshakeConfirmed
  /-- A packet with the new keys was acknowledged. -/
  | updateAcked (epoch : Loss.Epoch)
  | keyUpdateTimer

/-- A connection, and how many times its unicast keys were updated. -/
structure KeyRun (Key : Type) where
  conn : Conn Key
  updates : Nat

namespace KeyRun

/-- A new connection, without keys. -/
def new (rest : Surroundings Key) : KeyRun Key := ⟨⟨fun _ => ⟨none, none, none, none⟩, false, false, rest⟩, 0⟩

/-- Changes the keys of an epoch. -/
def withSpace (self : KeyRun Key) (epoch : Loss.Epoch)
    (f : PktNumSpaceCrypto Key → PktNumSpaceCrypto Key) : KeyRun Key :=
  { self with conn := { self.conn with crypto := Function.update self.conn.crypto epoch (f (self.conn.crypto epoch)) } }

/-- What an event does. -/
def next (self : KeyRun Key) : KeyEvent Key → KeyRun Key
  | .recv packet =>
    let attempt := self.conn.recvSingle crypto packet
    ⟨attempt.conn, if attempt.committed then self.updates + 1 else self.updates⟩
  | .around rest => { self with conn := { self.conn with rest := rest } }
  | .install epoch openKey sealKey zeroRttKey =>
    self.withSpace epoch fun space =>
      { space with cryptoOpen := openKey, cryptoSeal := sealKey, crypto0rttOpen := zeroRttKey }
  | .handshakeConfirmed => { self with conn := { self.conn with handshakeConfirmed := true } }
  | .updateAcked epoch =>
    self.withSpace epoch fun space =>
      { space with keyUpdate := space.keyUpdate.map fun update => { update with updateAcked := true } }
  | .keyUpdateTimer => self.withSpace .application fun space => { space with keyUpdate := none }

/-- The key phase tells whether the number of updates is odd. -/
def Phased (self : KeyRun Key) : Prop := self.conn.keyPhase = true ↔ Odd self.updates

/-- Every event keeps the key phase in step with the updates. -/
theorem phased_next (self : KeyRun Key) (event : KeyEvent Key) (phased : self.Phased) :
    (self.next crypto event).Phased := by
  cases event with
  | recv packet =>
    have steps := self.conn.recvSingle_steps crypto packet
    simp only [Phased, next] at phased ⊢
    rcases Bool.eq_false_or_eq_true (self.conn.recvSingle crypto packet).committed with done | done
    · -- The phase and the parity are flipped together.
      rw [(steps.flipped done).2, if_pos done, Nat.odd_add_one, ← phased]
      simp
    · rw [(steps.kept done).2, if_neg (by simp [done])]
      exact phased
  | around rest => exact phased
  | install epoch openKey sealKey zeroRttKey => exact phased
  | handshakeConfirmed => exact phased
  | updateAcked epoch => exact phased
  | keyUpdateTimer => exact phased

theorem phased_run (rest : Surroundings Key) (events : List (KeyEvent Key)) :
    (Runs.run (next crypto) (new rest) events).Phased := by
  -- The phase and the parity agree at the start.
  apply Runs.run_keeps (phased_next crypto)
  simp [Phased, new]

end KeyRun

/-- After any number of updates of the unicast keys, a flexicast packet is opened with the shared key alone
just when its path is known and that number is even, or the handshake is not confirmed. -/
theorem shared_iff_even (rest : Surroundings Key) (events : List (KeyEvent Key)) (key : Key) (packet : Incoming)
    (listens : (Runs.run (KeyRun.next crypto) (.new rest) events).conn.Listens key)
    (produced : FromSource crypto key packet) :
    (Runs.run (KeyRun.next crypto) (.new rest) events).conn.Shared crypto key packet ↔
      ((Runs.run (KeyRun.next crypto) (.new rest) events).conn.spaceId packet.hdr.dcid).isSome = true ∧
        ((Runs.run (KeyRun.next crypto) (.new rest) events).conn.handshakeConfirmed = true →
          Even (Runs.run (KeyRun.next crypto) (.new rest) events).updates) := by
  have phased := KeyRun.phased_run crypto rest events
  unfold KeyRun.Phased at phased
  rw [Conn.shared_iff crypto listens produced, phased, not_and, Nat.not_odd_iff_even]

end Receiving

section Updated

/-- Keys of two numbers, for the header and for the packet; updates keep the first one. -/
def numbered : Crypto (UInt8 × UInt8) where
  newMask key _ := some (key.1, fun _ => key.1)
  deriveNextPacketKey key := some (key.1, key.2 + 1)
  openWithU64Counter key _ _ _ ciphertext :=
    -- The tag repeats the number of the key.
    if ciphertext.drop (ciphertext.length - 16) = List.replicate 16 key.2 then
      some (ciphertext.take (ciphertext.length - 16))
    else none

/-- A short packet with a payload of four bytes, as its sender protects it. -/
def protectedPacket (key : UInt8 × UInt8) (keyPhase fromMc : Bool) (dcid : Bytes) (pn : UInt8) : Incoming :=
  let payload := [1, 2, 3, 4] ++ List.replicate 16 key.2
  let front := (encryptHdr numbered key (shortFirst 1 keyPhase :: dcid) [pn] payload).getD ([], [])
  { hdr := ⟨.short, dcid, 0, 0, false⟩
    head := front.1
    body := front.2 ++ payload
    payloadLen := (front.2 ++ payload).length
    fromMc := fromMc
    noPath := none }

/-- A client that listens to the flexicast flow on its second path. -/
def listeningRest : Surroundings (UInt8 × UInt8) where
  isServer := false
  recvCount := 5
  isEstablished := true
  undecryptablePkts := 0
  flexicast := some (.client (.listenMcPath true), some (9, 90))
  multipath := true
  findScidPathId dcid := if dcid = [7] then some 0 else if dcid = [8] then some 1 else none
  largestRxPktNum _ _ := none
  recvPktNum _ _ _ := false

/-- The unicast keys are updated once. -/
def updatedOnce : List (KeyEvent (UInt8 × UInt8)) :=
  [.install .application (some (3, 10)) (some (4, 20)) none, .handshakeConfirmed,
    .recv (protectedPacket (3, 11) true false [7] 1)]

/-- The unicast keys are updated twice. -/
def updatedTwice : List (KeyEvent (UInt8 × UInt8)) :=
  updatedOnce ++ [.updateAcked .application, .recv (protectedPacket (3, 12) false false [7] 2)]

theorem protectedPacket_fromSource :
    FromSource numbered (9, 90) (protectedPacket (9, 90) false true [8] 1) := by
  refine ⟨rfl, rfl, rfl, [8], [1], [1, 2, 3, 4] ++ List.replicate 16 90, [8], ?_⟩
  decide

/-- After two updates, a packet of the source is opened with the shared key. -/
theorem shared_iff_even_twice :
    (Runs.run (KeyRun.next numbered) (.new listeningRest) updatedTwice).updates = 2 ∧
      (Runs.run (KeyRun.next numbered) (.new listeningRest) updatedTwice).conn.Shared numbered (9, 90)
        (protectedPacket (9, 90) false true [8] 1) := by
  have twice : (Runs.run (KeyRun.next numbered) (.new listeningRest) updatedTwice).updates = 2 := by decide
  refine ⟨twice, (shared_iff_even numbered listeningRest updatedTwice (9, 90) _ (.inr ?_)
    protectedPacket_fromSource).mpr ⟨?_, fun _ => ?_⟩⟩
  · decide
  · decide
  · rw [twice]
    decide

/-- After one update, a packet of the source is tried with a unicast key that is derived for it. -/
theorem updated_once_not_shared :
    (Runs.run (KeyRun.next numbered) (.new listeningRest) updatedOnce).conn.Listens (9, 90) ∧
      FromSource numbered (9, 90) (protectedPacket (9, 90) false true [8] 1) ∧
      ((Runs.run (KeyRun.next numbered) (.new listeningRest) updatedOnce).conn.recvSingle numbered
        (protectedPacket (9, 90) false true [8] 1)).tried = some (.next, (3, 12)) ∧
      ¬ (Runs.run (KeyRun.next numbered) (.new listeningRest) updatedOnce).conn.Shared numbered (9, 90)
        (protectedPacket (9, 90) false true [8] 1) := by
  have tried : ((Runs.run (KeyRun.next numbered) (.new listeningRest) updatedOnce).conn.recvSingle numbered
      (protectedPacket (9, 90) false true [8] 1)).tried = some (.next, (3, 12)) := by decide
  refine ⟨.inr ?_, protectedPacket_fromSource, tried, fun shared => ?_⟩
  · decide
  · exact absurd (tried.symm.trans shared.1) (by decide)

end Updated

end KeySelection

end Flexicast
