import Flexicast.Channel.Announce
import Flexicast.Packet.Codec
import Flexicast.Packet.TransportParams

/-! The loop that packs the announcements of channels into a packet, of `lib.rs`. -/

namespace Flexicast

namespace Packing

open Cursor Octets Wire Words
open Channel (McRole)

/-- What a channel announces of itself. -/
structure McAnnounceData extends Channel.McAnnounceData where
  isIpv6Addr : Bool
  resetStreamOnJoin : Bool
  sourceIp : FixedBytes 4
  groupIp : FixedBytes 4
  udpPort : UInt16
  expirationTimer : UInt64
  publicKey : Option Bytes
  bitrate : Option UInt64
  qos : FcQos

/-- The `FC_ANNOUNCE` frame of a channel. -/
def McAnnounceData.frame (announced : McAnnounceData) : Frame :=
  .mcAnnounce announced.channelId (if announced.isIpv6Addr then 1 else 0) (if announced.probePath then 1 else 0)
    (if announced.resetStreamOnJoin then 1 else 0) announced.sourceIp announced.groupIp announced.udpPort
    announced.expirationTimer (announced.publicKey.getD []) (announced.bitrate.map UInt64.toNat) announced.qos

/-- The flexicast part of a connection, as far as packing announcements goes. -/
structure FlexicastAttributes where
  mcRole : McRole
  mcAnnounceData : List McAnnounceData

/-- A packet that is being assembled, with the connection that sends it. -/
structure Packet where
  isServer : Bool
  /-- Whether the local transport parameters support flexicast. -/
  flexicastSupport : Bool
  flexicast : Option FlexicastAttributes
  output : Output UInt8
  frames : List Frame
  left : Nat
  ackEliciting : Bool
  inFlight : Bool

/-- The first announcement that should be sent. -/
def Packet.fcShouldSendFcAnnounce (packet : Packet) : Option Nat :=
  if !packet.isServer then none
  else if !packet.flexicastSupport then none
  else
    match packet.flexicast with
    | some flexicast =>
      let idx := flexicast.mcAnnounceData.findIdx? fun announced => !announced.isProcessed
      if idx.isSome && flexicast.mcRole = .serverUnicast .unaware then idx else none
    | none => none

/-- Pushes a frame to the packet if there is enough space, and tells whether there was. -/
def Packet.pushFrameToPkt (packet : Packet) (frame : Frame) : Except WireError (Packet × Bool) := do
  let len ← frame.wireLen
  if len ≤ packet.left then
    let (_, output) ← frame.toBytes packet.output
    return ({ packet with left := packet.left - len, output := output, frames := packet.frames ++ [frame] }, true)
  else return (packet, false)

/-- Marks an announcement as processed. -/
def Packet.setMcAnnounceProcessed (packet : Packet) (idx : Nat) : Packet :=
  { packet with flexicast := packet.flexicast.map fun flexicast =>
      { flexicast with mcAnnounceData := flexicast.mcAnnounceData.modify idx fun announced =>
        { announced with isProcessed := true } } }

/-- The data of an announcement. -/
def Packet.getMcAnnounceData (packet : Packet) (idx : Nat) : Option McAnnounceData :=
  packet.flexicast.bind fun flexicast => flexicast.mcAnnounceData[idx]?

/-- One turn of the loop; no packet means that the loop ends. -/
def Packet.turn (packet : Packet) : Except WireError (Option Packet) :=
  match packet.fcShouldSendFcAnnounce with
  | none => .ok none
  | some idx =>
    match packet.getMcAnnounceData idx with
    -- The index was found among the data.
    | none => .error .panicked
    | some announced => do
      let (packet, pushed) ← packet.pushFrameToPkt announced.frame
      if pushed then
        return some { packet.setMcAnnounceProcessed idx with ackEliciting := true, inFlight := true }
      -- Nothing has changed for the next turn.
      else return some packet

/-- The loop with a bound on its turns; no result means that the bound was too low. -/
def Packet.announceLoop : Nat → Packet → Option (Except WireError Packet)
  | 0, _ => none
  | turns + 1, packet =>
    match packet.turn with
    | .error error => some (.error error)
    | .ok none => some (.ok packet)
    | .ok (some later) => Packet.announceLoop turns later

section Waiting

/-- Whether announcements are sent at all. -/
def Packet.announces (packet : Packet) : Bool :=
  packet.isServer && packet.flexicastSupport &&
    match packet.flexicast with
    | some flexicast => flexicast.mcRole = .serverUnicast .unaware
    | none => false

/-- The announcements that the loop still has to send. -/
def Packet.waiting (packet : Packet) : List McAnnounceData :=
  match packet.flexicast with
  | some flexicast => if packet.announces then flexicast.mcAnnounceData.filter (!·.isProcessed) else []
  | none => []

/-- The bytes of the frame of an announcement. -/
def McAnnounceData.bytes (announced : McAnnounceData) : Bytes := encode announced.frame.fields

/-- How many bytes the frames of announcements take. -/
def packedLen (announced : List McAnnounceData) : Nat := (announced.map fun data => data.bytes.length).sum

/-- The loop ends with the announcements packed that fit, and leaves the others for a later packet. -/
structure Packet.Packs (packet later : Packet) (sent kept : List McAnnounceData) : Prop where
  split : packet.waiting = sent ++ kept
  left : later.waiting = kept
  frames : later.frames = packet.frames ++ sent.map McAnnounceData.frame
  output : later.output = packet.output.push (sent.map McAnnounceData.bytes).flatten
  fits : packedLen sent ≤ packet.left
  most : ∀ next ∈ kept.head?, packet.left < packedLen (sent ++ [next])

theorem filter_modify_first {α : Type} {waits : α → Bool} (change : α → α)
    (served : ∀ item, waits (change item) = false) {items : List α} :
    ∀ {idx : Nat}, items.findIdx? waits = some idx →
      ∃ item, items[idx]? = some item ∧ items.filter waits = item :: (items.modify idx change).filter waits := by
  induction items with
  | nil => simp
  | cons first rest ih =>
    intro idx found
    rw [List.findIdx?_cons] at found
    split at found
    · rename_i wait
      cases found
      exact ⟨first, rfl, by simp [wait, served]⟩
    · rename_i idle
      obtain ⟨prior, further, rfl⟩ := Option.map_eq_some_iff.1 found
      obtain ⟨item, listed, filtered⟩ := ih further
      exact ⟨item, by simpa using listed, by simpa [idle] using filtered⟩

theorem fcShouldSendFcAnnounce_none (packet : Packet) :
    packet.fcShouldSendFcAnnounce = none ↔ packet.waiting = [] := by
  unfold Packet.fcShouldSendFcAnnounce Packet.waiting Packet.announces
  cases packet.isServer <;> cases packet.flexicastSupport <;> cases packet.flexicast <;>
    simp [List.filter_eq_nil_iff]
  grind

/-- The announcement that the loop takes up is the first that waits, until it is marked. -/
theorem fcShouldSendFcAnnounce_some {packet : Packet} {idx : Nat} (found : packet.fcShouldSendFcAnnounce = some idx) :
    ∃ announced, packet.getMcAnnounceData idx = some announced ∧
      packet.waiting = announced :: (packet.setMcAnnounceProcessed idx).waiting := by
  obtain ⟨isServer, support, flexicast, output, frames, left, ackEliciting, inFlight⟩ := packet
  unfold Packet.fcShouldSendFcAnnounce at found
  cases isServer with
  | false => simp at found
  | true =>
    cases support with
    | false => simp at found
    | true =>
      cases flexicast with
      | none => simp at found
      | some flexicast =>
        simp only [Bool.not_true, Bool.false_eq_true, if_false] at found
        split at found
        · rename_i guard
          simp only [Bool.and_eq_true, decide_eq_true_eq] at guard
          obtain ⟨announced, listed, filtered⟩ := filter_modify_first
            (fun announced : McAnnounceData => { announced with isProcessed := true }) (fun _ => rfl) found
          refine ⟨announced, by simpa [Packet.getMcAnnounceData] using listed, ?_⟩
          simpa [Packet.waiting, Packet.announces, Packet.setMcAnnounceProcessed, guard.2] using filtered
        · exact absurd found (by simp)

end Waiting

section Pushing

/-- Whether every part of an announcement can be written. -/
def McAnnounceData.Encodable (announced : McAnnounceData) : Prop := ∀ field ∈ announced.frame.fields, field.Valid

/-- Valid parts are written as their bytes, given the room. -/
theorem writes_putFields {fields : List Field} (valid : ∀ field ∈ fields, field.Valid) :
    Writes (putFields fields) (encode fields) := by
  induction fields with
  | nil => exact Writes.pure
  | cons field rest ih =>
    have others := ih fun other member => valid other (List.mem_cons_of_mem _ member)
    have writes : Writes field.put field.bytes := by
      cases field with
      | varint value => exact TransportParams.writes_varint (valid (.varint value) (by simp))
      | varint2 value =>
        intro output room
        exact (putVarintWithLen_eq (Or.inr (Or.inl rfl)) output).trans (if_neg (Nat.not_lt.mpr room))
      | raw bytes => exact fun output room => if_neg (Nat.not_lt.mpr room)
    exact writes.bind others

theorem writeTo_frame (announced : McAnnounceData) :
    announced.frame.writeTo = putFields announced.frame.fields := by
  unfold McAnnounceData.frame
  simp [Frame.writeTo, bitrateToBytes_eq, Frame.fields, putFields, putFields_append, Field.put, putU8, putU16, putU64]

variable {announced : McAnnounceData}

theorem toBytes_frame (encodable : announced.Encodable) {output : Output UInt8}
    (room : announced.bytes.length ≤ output.cap) :
    ∃ count, announced.frame.toBytes output = .ok (count, output.push announced.bytes) := by
  have wrote := writes_putFields encodable output room
  rw [← writeTo_frame] at wrote
  exact ⟨_, bind_eq_ok.mpr ⟨_, _, rfl, bind_eq_ok.mpr ⟨_, _, wrote, rfl⟩⟩⟩

/-- The length of an announcement leaves its bitrate out. -/
theorem wireLen_frame (encodable : announced.Encodable) :
    ∃ len, announced.frame.wireLen = .ok len ∧ len ≤ announced.bytes.length := by
  cases rated : announced.bitrate with
  | none =>
    have unrated : announced.frame.hasBitrate = false := by simp [McAnnounceData.frame, Frame.hasBitrate, rated]
    exact ⟨_, wireLen_eq trivial encodable rfl unrated, Nat.le_refl _⟩
  | some rate =>
    unfold McAnnounceData.Encodable McAnnounceData.frame at encodable
    simp only [Frame.fields, List.forall_mem_append, List.forall_mem_cons] at encodable
    obtain ⟨⟨type, -, -, -, -, -, -, -, -, -, keyLen, -⟩, -⟩ := encodable
    unfold McAnnounceData.bytes McAnnounceData.frame
    simp only [Frame.wireLen, Frame.fields, valid_varintLen type, valid_varintLen keyLen, encode, encode_append,
      raw_bytes, length_fixed, length_toBigEndian, ok_bind, pure_eq_ok, List.length_append, List.length_singleton,
      List.length_nil]
    exact ⟨_, rfl, by omega⟩

/-- A frame that is pushed is written behind the others; one that does not fit changes nothing. -/
theorem pushFrameToPkt_ok {packet later : Packet} {pushed : Bool}
    (ran : packet.pushFrameToPkt announced.frame = .ok (later, pushed)) :
    (pushed = false ∧ later = packet) ∨
      (pushed = true ∧ announced.Encodable ∧ ∃ left, later = { packet with
        left := left
        output := packet.output.push announced.bytes
        frames := packet.frames ++ [announced.frame] }) := by
  unfold Packet.pushFrameToPkt at ran
  cases sized : announced.frame.wireLen with
  | error error => simp [sized, Bind.bind, Except.bind] at ran
  | ok len =>
    simp only [sized, ok_bind] at ran
    split at ran
    · cases wrote : announced.frame.toBytes packet.output with
      | error error => simp [wrote, Bind.bind, Except.bind] at ran
      | ok result =>
        obtain ⟨count, output⟩ := result
        simp only [wrote, ok_bind, pure_eq_ok, Except.ok.injEq, Prod.mk.injEq] at ran
        obtain ⟨-, valid, same, -⟩ := toBytes_ok wrote
        exact .inr ⟨ran.2.symm, valid, packet.left - len, by rw [← ran.1, same]; rfl⟩
    · simp only [pure_eq_ok, Except.ok.injEq, Prod.mk.injEq] at ran
      exact .inl ⟨ran.2.symm, ran.1.symm⟩

theorem pushFrameToPkt_fits {packet : Packet} (encodable : announced.Encodable)
    (fits : announced.bytes.length ≤ packet.left) (room : announced.bytes.length ≤ packet.output.cap) :
    ∃ left, packet.left - announced.bytes.length ≤ left ∧
      packet.pushFrameToPkt announced.frame = .ok ({ packet with
        left := left
        output := packet.output.push announced.bytes
        frames := packet.frames ++ [announced.frame] }, true) := by
  obtain ⟨len, sized, short⟩ := wireLen_frame encodable
  obtain ⟨count, wrote⟩ := toBytes_frame encodable room
  refine ⟨packet.left - len, by omega, ?_⟩
  simp only [Packet.pushFrameToPkt, sized, ok_bind, if_pos (Nat.le_trans short fits), wrote, pure_eq_ok]

end Pushing

section Looping

/-- What a turn does that packs an announcement. -/
structure Packet.Packed (packet later : Packet) (announced : McAnnounceData) : Prop where
  encodable : announced.Encodable
  waiting : packet.waiting = announced :: later.waiting
  frames : later.frames = packet.frames ++ [announced.frame]
  output : later.output = packet.output.push announced.bytes

theorem turn_ok {packet : Packet} {result : Option Packet} (ran : packet.turn = .ok result) :
    (result = none ∧ packet.waiting = []) ∨
      ∃ later, result = some later ∧ (later = packet ∨ ∃ announced, packet.Packed later announced) := by
  unfold Packet.turn at ran
  split at ran
  · rename_i ended
    exact .inl ⟨(Except.ok.inj ran).symm, (fcShouldSendFcAnnounce_none packet).1 ended⟩
  · rename_i idx found
    obtain ⟨announced, listed, waiting⟩ := fcShouldSendFcAnnounce_some found
    simp only [listed] at ran
    cases pushing : packet.pushFrameToPkt announced.frame with
    | error error => simp [pushing, Bind.bind, Except.bind] at ran
    | ok result =>
      obtain ⟨later, pushed⟩ := result
      simp only [pushing, ok_bind] at ran
      rcases pushFrameToPkt_ok pushing with ⟨rfl, rfl⟩ | ⟨rfl, encodable, left, rfl⟩
      · exact .inr ⟨_, by simpa using ran.symm, .inl rfl⟩
      · simp only [if_true, pure_eq_ok, Except.ok.injEq] at ran
        exact .inr ⟨_, ran.symm, .inr ⟨announced, encodable, waiting, rfl, rfl⟩⟩

/-- A turn packs the first announcement that waits if it fits. -/
theorem turn_fits {packet : Packet} {announced : McAnnounceData} {rest : List McAnnounceData}
    (waiting : packet.waiting = announced :: rest) (encodable : announced.Encodable)
    (fits : announced.bytes.length ≤ packet.left) (room : announced.bytes.length ≤ packet.output.cap) :
    ∃ later, packet.turn = .ok (some later) ∧ packet.Packed later announced ∧
      packet.left - announced.bytes.length ≤ later.left := by
  cases found : packet.fcShouldSendFcAnnounce with
  | none =>
    rw [fcShouldSendFcAnnounce_none, waiting] at found
    exact absurd found (by simp)
  | some idx =>
    obtain ⟨first, listed, split⟩ := fcShouldSendFcAnnounce_some found
    obtain ⟨rfl, rfl⟩ : first = announced ∧ _ = rest := by simpa [waiting] using split.symm
    obtain ⟨left, enough, pushing⟩ := pushFrameToPkt_fits encodable fits room
    unfold Packet.turn
    simp only [found, listed, pushing, ok_bind, if_true, pure_eq_ok]
    exact ⟨_, rfl, ⟨encodable, waiting, rfl, rfl⟩, enough⟩

/-- A loop that ends has packed every announcement that was waiting. -/
theorem announceLoop_ok {turns : Nat} :
    ∀ {packet later : Packet}, Packet.announceLoop turns packet = some (.ok later) →
      later.waiting = [] ∧ ∀ announced ∈ packet.waiting, announced.Encodable := by
  induction turns with
  | zero => exact fun ended => by simp [Packet.announceLoop] at ended
  | succ turns ih =>
    intro packet later ended
    unfold Packet.announceLoop at ended
    cases ran : packet.turn with
    | error error => simp [ran] at ended
    | ok result =>
      rcases turn_ok ran with ⟨rfl, nothing⟩ | ⟨next, rfl, step⟩
      · simp only [ran, Option.some.injEq, Except.ok.injEq] at ended
        subst ended
        exact ⟨nothing, by simp [nothing]⟩
      · simp only [ran] at ended
        obtain ⟨nothing, encodable⟩ := ih ended
        rcases step with rfl | ⟨announced, packed⟩
        · exact ⟨nothing, encodable⟩
        · rw [packed.waiting]
          exact ⟨nothing, List.forall_mem_cons.2 ⟨packed.encodable, encodable⟩⟩

@[simp] theorem packedLen_cons (announced : McAnnounceData) (rest : List McAnnounceData) :
    packedLen (announced :: rest) = announced.bytes.length + packedLen rest := by
  simp [packedLen]

/-- A loop whose announcements all fit ends with all of them packed. -/
theorem announceLoop_fits {waiting : List McAnnounceData} :
    ∀ {packet : Packet}, packet.waiting = waiting → (∀ announced ∈ waiting, announced.Encodable) →
      packedLen waiting ≤ packet.left → packedLen waiting ≤ packet.output.cap →
        ∃ turns later, Packet.announceLoop turns packet = some (.ok later) ∧ later.waiting = [] ∧
          later.frames = packet.frames ++ waiting.map McAnnounceData.frame ∧
          later.output = packet.output.push (waiting.map McAnnounceData.bytes).flatten := by
  induction waiting with
  | nil =>
    intro packet nothing _ _ _
    refine ⟨1, packet, ?_, nothing, by simp, by simp⟩
    have ended := (fcShouldSendFcAnnounce_none packet).2 nothing
    simp [Packet.announceLoop, Packet.turn, ended]
  | cons announced rest ih =>
    intro packet waiting encodable fits room
    rw [packedLen_cons] at fits room
    obtain ⟨next, ran, packed, enough⟩ := turn_fits waiting (encodable announced (by simp)) (by omega) (by omega)
    have others : next.waiting = rest := by simpa [waiting] using packed.waiting.symm
    have cap : next.output.cap = packet.output.cap - announced.bytes.length := by rw [packed.output]; rfl
    obtain ⟨turns, later, ended, nothing, frames, output⟩ := ih others
      (fun other member => encodable other (List.mem_cons_of_mem _ member)) (by omega) (by omega)
    refine ⟨turns + 1, later, by simp only [Packet.announceLoop, ran, ended], nothing, ?_, ?_⟩
    · simp [frames, packed.frames]
    · simp [output, packed.output, Output.push_push]

/--
The loop ends with what fits packed exactly if everything that waits fits, counted with its bitrate.

An announcement that does not fit is offered again by every turn, and none of them changes anything.
-/
theorem packs_iff (packet : Packet) (room : packet.left ≤ packet.output.cap) :
    (∃ turns later sent kept, Packet.announceLoop turns packet = some (.ok later) ∧ packet.Packs later sent kept) ↔
      (∀ announced ∈ packet.waiting, announced.Encodable) ∧ packedLen packet.waiting ≤ packet.left := by
  constructor
  · rintro ⟨turns, later, sent, kept, ended, packs⟩
    obtain ⟨nothing, encodable⟩ := announceLoop_ok ended
    have all : packet.waiting = sent := by
      rw [packs.split, ← packs.left, nothing, List.append_nil]
    exact ⟨encodable, all ▸ packs.fits⟩
  · rintro ⟨encodable, fits⟩
    obtain ⟨turns, later, ended, nothing, frames, output⟩ :=
      announceLoop_fits rfl encodable fits (Nat.le_trans fits room)
    exact ⟨turns, later, packet.waiting, [], ended, by simp, nothing, frames, output, fits, by simp⟩

theorem announceLoop_stuck {packet : Packet} (stuck : packet.turn = .ok (some packet)) (turns : Nat) :
    Packet.announceLoop turns packet = none := by
  induction turns with
  | zero => rfl
  | succ turns ih => simp only [Packet.announceLoop, stuck, ih]

/-- A channel without a key and a bitrate. -/
def plainChannel : McAnnounceData where
  channelId := [1, 2, 3, 4, 5, 6, 7, 8]
  probePath := false
  isProcessed := false
  isIpv6Addr := false
  resetStreamOnJoin := false
  sourceIp := ⟨[127, 0, 0, 1], rfl⟩
  groupIp := ⟨[239, 239, 239, 35], rfl⟩
  udpPort := 4433
  expirationTimer := 100
  publicKey := none
  bitrate := none
  qos := ⟨false, false⟩

/-- A packet of a server that has to announce a channel, with some room left. -/
def packetWithRoom (left : Nat) : Packet where
  isServer := true
  flexicastSupport := true
  flexicast := some ⟨.serverUnicast .unaware, [plainChannel]⟩
  output := ⟨[], left + 16⟩
  frames := []
  left := left
  ackEliciting := false
  inFlight := false

theorem packs_iff_roomy :
    ∃ turns later sent kept, Packet.announceLoop turns (packetWithRoom 100) = some (.ok later) ∧
      (packetWithRoom 100).Packs later sent kept := by
  refine (packs_iff (packetWithRoom 100) (by decide)).2 ⟨?_, by decide⟩
  have waiting : (packetWithRoom 100).waiting = [plainChannel] := rfl
  rw [waiting, List.forall_mem_singleton]
  simp [McAnnounceData.Encodable, McAnnounceData.frame, plainChannel, Frame.fields, bitrateFields, Field.Valid,
    mcAnnounceCode]

/-- With room for ten bytes the loop never ends. -/
theorem announceLoop_never_ends :
    ¬ ∀ packet : Packet, packet.left ≤ packet.output.cap →
      ∃ turns later sent kept, Packet.announceLoop turns packet = some (.ok later) ∧ packet.Packs later sent kept := by
  intro always
  obtain ⟨turns, later, _, _, ended, -⟩ := always (packetWithRoom 10) (by decide)
  have stuck : (packetWithRoom 10).turn = .ok (some (packetWithRoom 10)) := by rfl
  rw [announceLoop_stuck stuck] at ended
  exact absurd ended (by simp)

end Looping

end Packing

end Flexicast
