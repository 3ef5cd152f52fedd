import Mathlib.Data.List.Nodup
import Flexicast.Lib.OrdMap
import Flexicast.Lib.Runs
import Flexicast.Lib.Words
import Flexicast.Packet.Octets
import Flexicast.Paths.SpareIds
import Flexicast.Recovery.Loss

/-! The nonces that packets are sealed with, of `crypto/mod.rs`, over the packet number spaces of `packet.rs`. -/

namespace Flexicast

namespace Packets

open Words
open ConnectionIdentifiers (IdEvent)

section Making

/-- The nonce of a packet: the path goes to the front of the IV, and the packet number to its end. -/
def makeNonce (iv : Bytes) (pathSeq counter : Nat) : Bytes :=
  List.zipWith (· ^^^ ·) (iv.take 4) (toBigEndian 4 pathSeq) ++
    List.zipWith (· ^^^ ·) (iv.drop 4) (toBigEndian 8 counter)

/-- The length of a nonce. -/
def nonceLen : Nat := 12

theorem makeNonce_inj {iv : Bytes} (whole : iv.length = nonceLen) {pathSeq other counter later : Nat}
    (paths : pathSeq < 2 ^ 32 ∧ other < 2 ^ 32) (counters : counter < 2 ^ 64 ∧ later < 2 ^ 64)
    (same : makeNonce iv pathSeq counter = makeNonce iv other later) : pathSeq = other ∧ counter = later := by
  -- Each half of the IV masks one number, and a mask merges no two numbers.
  have front : (iv.take 4).length = 4 := by
    rw [List.length_take, whole]
    rfl
  have back : (iv.drop 4).length = 8 := by rw [List.length_drop, whole]; rfl
  obtain ⟨first, second⟩ := List.append_inj same (by simp [front])
  constructor
  · apply toBigEndian_inj (by omega : pathSeq < 256 ^ 4) (by omega)
    exact zipWith_xor_inj _ (by simp [front]) (by simp [front]) first
  · apply toBigEndian_inj (by omega : counter < 256 ^ 8) (by omega)
    exact zipWith_xor_inj _ (by simp [back]) (by simp [back]) second

end Making

section Spaces

/-- The next packet number of each space: those of the handshake, and one for each path. -/
structure PktNumSpaces where
  pktNumSpaces : Loss.Epoch → Nat
  applicationPktNumSpaces : OrdMap Nat

namespace PktNumSpaces

variable (self : PktNumSpaces)

/-- The spaces of a new connection. -/
def new : PktNumSpaces := ⟨fun _ => 0, OrdMap.empty.insert 0 0⟩

/-- The next packet number of a space, which is that of a new space if there is none. -/
def nextPktNum (epoch : Loss.Epoch) (spaceId : Nat) : Nat :=
  match epoch with
  | .application => (self.applicationPktNumSpaces.find? spaceId).getD 0
  | epoch => self.pktNumSpaces epoch

/-- Makes sure that a space exists. -/
def getMutOrCreate (epoch : Loss.Epoch) (spaceId : Nat) : PktNumSpaces :=
  match epoch with
  | .application =>
    { self with
      applicationPktNumSpaces := self.applicationPktNumSpaces.insert spaceId (self.nextPktNum .application spaceId) }
  | _ => self

/-- Counts a packet that was sent. -/
def advance (epoch : Loss.Epoch) (spaceId : Nat) : PktNumSpaces :=
  let next := self.nextPktNum epoch spaceId + 1
  match epoch with
  | .application => { self with applicationPktNumSpaces := self.applicationPktNumSpaces.insert spaceId next }
  | epoch => { self with pktNumSpaces := Function.update self.pktNumSpaces epoch next }

/-- Forgets the space of a path, unless it is the last one. -/
def removeApplicationDataSpaceId (id : Nat) : Except PathError PktNumSpaces :=
  if !self.applicationPktNumSpaces.contains id then .ok self
  else if self.applicationPktNumSpaces.keys.length ≤ 1 then .error .outOfPathId
  else .ok { self with applicationPktNumSpaces := self.applicationPktNumSpaces.erase id }

variable {self}

theorem nextPktNum_new (epoch : Loss.Epoch) (spaceId : Nat) : new.nextPktNum epoch spaceId = 0 := by
  cases epoch with
  | application =>
    simp only [nextPktNum, new, OrdMap.find?_insert, OrdMap.find?_empty]
    split <;> rfl
  | _ => rfl

@[simp] theorem nextPktNum_getMutOrCreate (epoch other : Loss.Epoch) (spaceId probe : Nat) :
    (self.getMutOrCreate epoch spaceId).nextPktNum other probe = self.nextPktNum other probe := by
  cases epoch with
  | application =>
    cases other with
    | application =>
      simp only [getMutOrCreate, nextPktNum, OrdMap.find?_insert]
      split
      · rename_i same
        rw [same]
        rfl
      · rfl
    | _ => rfl
  | _ => rfl

/-- Counting a packet moves the next packet number of its space on. -/
theorem nextPktNum_advance (epoch other : Loss.Epoch) (spaceId probe : Nat) :
    (self.advance epoch spaceId).nextPktNum other probe =
      if other = epoch ∧ (epoch = .application → probe = spaceId) then self.nextPktNum epoch spaceId + 1
      else self.nextPktNum other probe := by
  cases epoch <;> cases other <;> simp [advance, nextPktNum, Function.update]
  split <;> rfl

/-- Forgetting the space of a path leaves the next packet numbers of the others. -/
theorem nextPktNum_remove {id : Nat} {after : PktNumSpaces} (done : self.removeApplicationDataSpaceId id = .ok after)
    (epoch : Loss.Epoch) (spaceId : Nat) :
    after.nextPktNum epoch spaceId =
      if epoch = .application ∧ spaceId = id then 0 else self.nextPktNum epoch spaceId := by
  unfold removeApplicationDataSpaceId at done
  split at done
  · rename_i absent
    cases done
    split
    · rename_i here
      obtain ⟨rfl, rfl⟩ := here
      have none_ : self.applicationPktNumSpaces.find? spaceId = none := by
        simpa [OrdMap.contains] using absent
      simp [nextPktNum, none_]
    · rfl
  split at done
  · cases done
  · cases done
    cases epoch with
    | application =>
      simp only [nextPktNum, OrdMap.find?_erase, true_and]
      split <;> rfl
    | _ => simp [nextPktNum]

end PktNumSpaces

/-- A packet that was sealed and sent, with the key of its epoch by then. -/
structure Sealed where
  epoch : Loss.Epoch
  generation : Nat
  spaceId : Nat
  pn : Nat
  deriving DecidableEq

/-- The nonce of the packet, given the IV of each key. -/
def Sealed.nonce (packet : Sealed) (ivs : Loss.Epoch → Nat → Bytes) : Bytes :=
  makeNonce (ivs packet.epoch packet.generation) (packet.spaceId % 2 ^ 32) packet.pn

/-- A connection, as far as sealing packets goes. -/
structure Sealing where
  ids : ConnectionIdentifiers
  spaces : PktNumSpaces
  generation : Loss.Epoch → Nat
  sent : List Sealed

/-- What matters for sealing packets. -/
inductive SealEvent where
  /-- Connection identifiers come and go. -/
  | ids (event : IdEvent)
  /-- A packet is received, or an acknowledgment is prepared. -/
  | touch (epoch : Loss.Epoch) (spaceId : Nat)
  /-- A packet is to be sent, which may fail after its number was taken. -/
  | send (epoch : Loss.Epoch) (multipath : Bool) (pathId dcidSeq : Nat) (written : Bool)
  | rekey (epoch : Loss.Epoch)
  | close (pathId : Nat)

namespace Sealing

variable (search : List Nat → Nat → Nat) (self : Sealing)

/-- The space that packets of a path are numbered in. -/
def spaceOf (epoch : Loss.Epoch) (multipath : Bool) (pathId : Nat) : Nat :=
  if multipath && epoch == .application then pathId else 0

/-- Sends a packet, if its path has the identifier of the peer. -/
def send (epoch : Loss.Epoch) (multipath : Bool) (pathId dcidSeq : Nat) (written : Bool) : Sealing :=
  let spaceId := spaceOf epoch multipath pathId
  let spaces := self.spaces.getMutOrCreate epoch spaceId
  let pn := spaces.nextPktNum epoch spaceId
  match self.ids.getDcid spaceId dcidSeq with
  | .error _ => { self with spaces := spaces }
  | .ok _ =>
    if written then
      { self with
        spaces := spaces.advance epoch spaceId
        sent := self.sent ++ [⟨epoch, self.generation epoch, spaceId, pn⟩] }
    else { self with spaces := spaces }

/-- Closes a path. -/
def closePath (pathId : Nat) : Sealing :=
  match self.ids.removePathId pathId with
  | (.error _, ids) => { self with ids := ids }
  | (.ok _, ids) =>
    match self.spaces.removeApplicationDataSpaceId pathId with
    | .error _ => { self with ids := ids }
    | .ok spaces => { self with ids := ids, spaces := spaces }

/-- One step of a connection. -/
def next : SealEvent → Sealing
  | .ids event => { self with ids := self.ids.step search event }
  | .touch epoch spaceId => { self with spaces := self.spaces.getMutOrCreate epoch spaceId }
  | .send epoch multipath pathId dcidSeq written => self.send epoch multipath pathId dcidSeq written
  | .rekey epoch => { self with generation := Function.update self.generation epoch (self.generation epoch + 1) }
  | .close pathId => self.closePath pathId

/-- A connection that has sent nothing. -/
def start (ids : ConnectionIdentifiers) : Sealing := ⟨ids, .new, fun _ => 0, []⟩

end Sealing

end Spaces

section Closing

namespace Sealing

variable {search : List Nat → Nat → Nat} {ids after : ConnectionIdentifiers} {pathId : Nat}

/-- Paths that were closed have no identifiers any more. -/
def Apart (ids : ConnectionIdentifiers) : Prop := ∀ pathId, (ids.view pathId).isSome = true → pathId ∉ ids.closedPathId

/-- What changes identifiers may create paths that were not closed, and close paths that are gone. -/
structure Proceeds (before after : ConnectionIdentifiers) : Prop where
  closed : ∀ pathId ∈ before.closedPathId, pathId ∈ after.closedPathId
  apart : Apart before → Apart after

theorem proceeds_same (seen : ∀ pathId, (after.view pathId).isSome = (ids.view pathId).isSome)
    (closed : after.closedPathId = ids.closedPathId) : Proceeds ids after := by
  refine ⟨fun pathId member => closed ▸ member, fun apart pathId there => ?_⟩
  rw [closed]
  exact apart pathId (seen pathId ▸ there)

theorem proceeds_quiet (quiet : ConnectionIdentifiers.Quiet ids after) : Proceeds ids after :=
  proceeds_same (fun pathId => by rw [quiet.view]) quiet.books.closed

/-- A path that changes is there before and after. -/
theorem proceeds_change {old new : SourceView} (at_ : ids.view pathId = some old) (own : after.view pathId = some new)
    (elsewhere : ConnectionIdentifiers.Elsewhere ids after pathId) (closed : after.closedPathId = ids.closedPathId) :
    Proceeds ids after := by
  refine proceeds_same (fun other => ?_) closed
  by_cases same : other = pathId
  · rw [same, own, at_]
    rfl
  · rw [elsewhere other same]

theorem proceeds_created {view : SourceView} (created : ConnectionIdentifiers.Created ids after pathId view) :
    Proceeds ids after := by
  refine ⟨fun other member => created.closed ▸ member, fun apart other there => ?_⟩
  rw [created.closed]
  by_cases same : other = pathId
  · exact same ▸ created.opened
  · rw [created.elsewhere other same] at there
    exact apart other there

theorem proceeds_removes (removes : ConnectionIdentifiers.Removes ids after pathId) : Proceeds ids after := by
  refine ⟨fun other member => (removes.closed other).mpr (.inl member), fun apart other there => ?_⟩
  by_cases same : other = pathId
  · subst same
    intro closed
    -- A path that is closed now has no identifiers, or had none before.
    rcases removes.gone closed with before | gone
    · rw [removes.own, if_neg (fun drops : ids.Drops other => drops.1 before)] at there
      exact apart other there before
    · rw [gone] at there
      cases there
  · rw [removes.elsewhere other same] at there
    intro closed
    rcases (removes.closed other).mp closed with before | ⟨own, -⟩
    · exact apart other there before
    · exact same own

/-- Every operation on the identifiers proceeds like this. -/
theorem proceeds_step (search : List Nat → Nat → Nat) (ids : ConnectionIdentifiers) (event : IdEvent) :
    Proceeds ids (ids.step search event) := by
  cases event with
  | newScid pathId cid resetToken advertise networkPath retireIfNeeded =>
    have outcome := ids.newScid_cases pathId cid resetToken advertise networkPath retireIfNeeded
    simp only [ConnectionIdentifiers.step]
    generalize (ids.newScid pathId cid resetToken advertise networkPath retireIfNeeded) = made at outcome ⊢
    obtain ⟨result, after⟩ := made
    cases outcome with
    | failed error quiet => exact proceeds_quiet quiet
    | known at_ some_ found same quiet => exact proceeds_quiet quiet
    | first at_ none_ token own elsewhere books queue => exact proceeds_change at_ own elsewhere books.closed
    | next at_ some_ fresh token own elsewhere books queue => exact proceeds_change at_ own elsewhere books.closed
    | created token created queue => exact proceeds_created created
  | newDcid pathId cid seq resetToken retirePriorTo =>
    have outcome := ConnectionIdentifiers.newDcid_cases search ids pathId cid seq resetToken retirePriorTo
    cases outcome with
    | quiet quiet => exact proceeds_quiet quiet
    | created created queue => exact proceeds_created created
  | retireScid pathId seq pktDcid =>
    by_cases retires : ids.RetiresScid pathId seq
    · obtain ⟨old, e, at_, -, own, elsewhere, books, -⟩ := ConnectionIdentifiers.retireScid_drops retires pktDcid
      exact proceeds_change at_ own elsewhere books.closed
    · exact proceeds_quiet (ConnectionIdentifiers.retireScid_quiet retires pktDcid)
  | consumeLowestSparePathId =>
    obtain ⟨seen, -⟩ := ids.consumeLowestSparePathId_same
    refine proceeds_same (fun pathId => by rw [ConnectionIdentifiers.step, seen]) ?_
    simp only [ConnectionIdentifiers.step, ConnectionIdentifiers.consumeLowestSparePathId]
    split <;> rfl
  | removePathId pathId => exact proceeds_removes (ids.removePathId_removes pathId)
  | setInitialDcid | retireDcid | markRetireDcidSeq | setSourceConnIdLimit | setLocalMaxPathId | setRemoteMaxPathId
  | closingPathId => exact proceeds_quiet (ConnectionIdentifiers.step_quiet search ids rfl)

/-- A path that was closed without an error is among the closed ones. -/
theorem removePathId_closes (done : ids.removePathId pathId = (.ok (), after)) : pathId ∈ after.closedPathId := by
  unfold ConnectionIdentifiers.removePathId at done
  split at done
  · rename_i closed
    cases done
    exact List.contains_iff_mem.mp closed
  split at done
  · cases done
  split at done
  · cases done
  · cases done
    exact List.mem_append_right _ (List.mem_singleton.mpr rfl)
  · simp only at done
    split at done
    · cases done
    · cases done
      exact List.mem_append_right _ (List.mem_singleton.mpr rfl)

end Sealing

end Closing

section Reusing

namespace Sealing

variable {search : List Nat → Nat → Nat} {self : Sealing}

/-- No packet number is used twice: those that were used are behind, or belong to closed paths. -/
structure Unused (state : Sealing) : Prop where
  apart : Apart state.ids
  numbered : ∀ packet ∈ state.sent, packet.pn < state.spaces.nextPktNum packet.epoch packet.spaceId ∨
    packet.epoch = .application ∧ packet.spaceId ∈ state.ids.closedPathId
  bounded : ∀ epoch spaceId, state.spaces.nextPktNum epoch spaceId ≤ state.sent.length
  small : ∀ packet ∈ state.sent, packet.pn < state.sent.length
  nodup : state.sent.Nodup

variable {ids : ConnectionIdentifiers} {spaceId : Nat}

theorem unused_start (apart : Apart ids) : (start ids).Unused := by
  refine ⟨apart, ?_, ?_, ?_, List.nodup_nil⟩
  · simp [start]
  · intro epoch spaceId
    simp [start, PktNumSpaces.nextPktNum_new]
  · simp [start]

/-- Packet numbers stay unused when the next ones stay, and paths are only closed. -/
theorem Unused.same (unused : self.Unused) {after : Sealing} (proceeds : Proceeds self.ids after.ids)
    (next : ∀ epoch spaceId, after.spaces.nextPktNum epoch spaceId = self.spaces.nextPktNum epoch spaceId)
    (sent : after.sent = self.sent) : after.Unused := by
  refine ⟨proceeds.apart unused.apart, ?_, ?_, ?_, sent ▸ unused.nodup⟩
  · intro packet member
    rw [next]
    exact (unused.numbered packet (sent ▸ member)).imp id fun closed => ⟨closed.1, proceeds.closed _ closed.2⟩
  · intro epoch spaceId
    rw [next, sent]
    exact unused.bounded epoch spaceId
  · rw [sent]
    exact unused.small

/-- A path with an identifier of the peer was not closed. -/
theorem Apart.opened (apart : Apart ids) {pathId dcidSeq : Nat} {entry : ConnectionIdEntry}
    (found : ids.getDcid pathId dcidSeq = .ok entry) : pathId ∉ ids.closedPathId := by
  apply apart
  rw [ConnectionIdentifiers.view_isSome]
  unfold ConnectionIdentifiers.getDcid at found
  split at found
  · rename_i hit
    obtain ⟨pcid, there, -⟩ := Option.bind_eq_some_iff.mp hit
    rw [there]
    rfl
  · cases found

/-- The number that comes next was not used, unless the path was closed. -/
theorem Unused.fresh (unused : self.Unused) (epoch : Loss.Epoch) (generation : Nat)
    (opened : spaceId ∉ self.ids.closedPathId) :
    (⟨epoch, generation, spaceId, self.spaces.nextPktNum epoch spaceId⟩ : Sealed) ∉ self.sent := by
  intro member
  rcases unused.numbered _ member with behind | closed
  · exact Nat.lt_irrefl _ behind
  · exact opened closed.2

/-- The number of a packet that is sealed is used now. -/
theorem Unused.seal (unused : self.Unused) (epoch : Loss.Epoch) (opened : spaceId ∉ self.ids.closedPathId) :
    Unused { self with
      spaces := self.spaces.advance epoch spaceId
      sent := self.sent ++
        [⟨epoch, self.generation epoch, spaceId, self.spaces.nextPktNum epoch spaceId⟩] } := by
  have before := unused.bounded epoch spaceId
  refine ⟨unused.apart, ?_, ?_, ?_, ?_⟩
  · intro packet member
    rw [PktNumSpaces.nextPktNum_advance]
    rcases List.mem_append.mp member with old | new
    · refine (unused.numbered packet old).imp (fun behind => ?_) id
      split
      · rename_i here
        -- Without paths, the spaces of an epoch are one.
        have same : self.spaces.nextPktNum packet.epoch packet.spaceId = self.spaces.nextPktNum epoch spaceId := by
          obtain ⟨rfl, path⟩ := here
          cases epoch : packet.epoch with
          | application => rw [path epoch]
          | _ => rfl
        omega
      · exact behind
    · obtain rfl := List.mem_singleton.mp new
      left
      rw [if_pos ⟨rfl, fun _ => rfl⟩]
      exact Nat.lt_succ_self _
  · intro other probe
    rw [PktNumSpaces.nextPktNum_advance, List.length_append, List.length_singleton]
    split
    · omega
    · exact Nat.le_succ_of_le (unused.bounded other probe)
  · intro packet member
    rw [List.length_append, List.length_singleton]
    rcases List.mem_append.mp member with old | new
    · exact Nat.lt_succ_of_lt (unused.small packet old)
    · obtain rfl := List.mem_singleton.mp new
      exact Nat.lt_succ_of_le before
  · exact unused.nodup.append (List.nodup_singleton _)
      (List.disjoint_singleton.mpr (unused.fresh epoch _ opened))

/-- A packet that is sent takes a number that was not used on its path. -/
theorem Unused.send (unused : self.Unused) (epoch : Loss.Epoch) (multipath : Bool) (pathId dcidSeq : Nat)
    (written : Bool) : (self.send epoch multipath pathId dcidSeq written).Unused := by
  have idle : Unused { self with spaces := self.spaces.getMutOrCreate epoch (spaceOf epoch multipath pathId) } :=
    unused.same ⟨fun _ member => member, id⟩ (fun other probe => PktNumSpaces.nextPktNum_getMutOrCreate ..) rfl
  simp only [Sealing.send]
  split
  · exact idle
  rename_i entry found
  split
  · exact idle.seal epoch (unused.apart.opened found)
  · exact idle

/-- The packet numbers of a path are forgotten only when the path is closed. -/
theorem Unused.closePath (unused : self.Unused) (pathId : Nat) : (self.closePath pathId).Unused := by
  have proceeds := proceeds_removes (self.ids.removePathId_removes pathId)
  unfold Sealing.closePath
  split
  · rename_i error after removed
    rw [removed] at proceeds
    exact unused.same proceeds (fun _ _ => rfl) rfl
  rename_i after removed
  have closed := removePathId_closes removed
  rw [removed] at proceeds
  split
  · exact unused.same proceeds (fun _ _ => rfl) rfl
  rename_i spaces forgot
  -- The numbers of the path start again at zero, but its identifiers are gone for good.
  have next := PktNumSpaces.nextPktNum_remove forgot
  refine ⟨proceeds.apart unused.apart, ?_, ?_, unused.small, unused.nodup⟩
  · intro packet member
    by_cases here : packet.epoch = .application ∧ packet.spaceId = pathId
    · exact .inr ⟨here.1, here.2 ▸ closed⟩
    · show packet.pn < spaces.nextPktNum _ _ ∨ _
      rw [next, if_neg here]
      exact (unused.numbered packet member).imp id fun old => ⟨old.1, proceeds.closed _ old.2⟩
  · intro epoch spaceId
    show spaces.nextPktNum epoch spaceId ≤ _
    rw [next]
    split
    · exact Nat.zero_le _
    · exact unused.bounded epoch spaceId

/-- No step uses a packet number twice. -/
theorem Unused.next (unused : self.Unused) (event : SealEvent) : (self.next search event).Unused := by
  cases event with
  | ids event => exact unused.same (proceeds_step search self.ids event) (fun _ _ => rfl) rfl
  | touch epoch spaceId =>
    exact unused.same ⟨fun _ member => member, id⟩ (fun _ _ => PktNumSpaces.nextPktNum_getMutOrCreate ..) rfl
  | send epoch multipath pathId dcidSeq written => exact unused.send epoch multipath pathId dcidSeq written
  | rekey epoch => exact unused.same ⟨fun _ member => member, id⟩ (fun _ _ => rfl) rfl
  | close pathId => exact unused.closePath pathId

/-- The path of a packet that is sent fits into its nonce. -/
def Narrow : SealEvent → Prop
  | .send _ _ pathId _ _ => pathId < 2 ^ 32
  | _ => True

/-- A step sends at most one packet, on a path that fits. -/
theorem next_sent (search : List Nat → Nat → Nat) (self : Sealing) {event : SealEvent} (narrow : Narrow event)
    (fits : ∀ packet ∈ self.sent, packet.spaceId < 2 ^ 32) :
    (self.next search event).sent.length ≤ self.sent.length + 1 ∧
      ∀ packet ∈ (self.next search event).sent, packet.spaceId < 2 ^ 32 := by
  cases event with
  | send epoch multipath pathId dcidSeq written =>
    simp only [Sealing.next, Sealing.send]
    split
    · exact ⟨Nat.le_succ _, fits⟩
    split
    · refine ⟨by simp, fun packet member => ?_⟩
      rcases List.mem_append.mp member with old | new
      · exact fits packet old
      · obtain rfl := List.mem_singleton.mp new
        show spaceOf epoch multipath pathId < 2 ^ 32
        unfold spaceOf
        split
        · exact narrow
        · decide
    · exact ⟨Nat.le_succ _, fits⟩
  | close pathId =>
    simp only [Sealing.next, Sealing.closePath]
    split
    · exact ⟨Nat.le_succ _, fits⟩
    split <;> exact ⟨Nat.le_succ _, fits⟩
  | ids event => exact ⟨Nat.le_succ _, fits⟩
  | touch epoch spaceId => exact ⟨Nat.le_succ _, fits⟩
  | rekey epoch => exact ⟨Nat.le_succ _, fits⟩

/-- A run sends at most one packet for each step. -/
theorem run_sent (search : List Nat → Nat → Nat) (events : List SealEvent) :
    ∀ self : Sealing, (∀ event ∈ events, Narrow event) → (∀ packet ∈ self.sent, packet.spaceId < 2 ^ 32) →
      (Runs.run (next search) self events).sent.length ≤ self.sent.length + events.length ∧
        ∀ packet ∈ (Runs.run (next search) self events).sent, packet.spaceId < 2 ^ 32 := by
  induction events with
  | nil => exact fun _ _ fits => ⟨Nat.le_refl _, fits⟩
  | cons event rest ih =>
    intro self narrow fits
    obtain ⟨one, fits'⟩ := next_sent search self (narrow event List.mem_cons_self) fits
    obtain ⟨many, later⟩ := ih _ (fun other member => narrow other (List.mem_cons_of_mem _ member)) fits'
    refine ⟨?_, later⟩
    rw [Runs.run_cons, List.length_cons]
    omega

/--
However paths are opened and closed, identifiers and keys replaced and packets sent, no nonce is used twice with the
key of an epoch, although closing a path forgets its packet numbers.
-/
theorem nonces_nodup (search : List Nat → Nat → Nat) (ids : ConnectionIdentifiers) (apart : Apart ids)
    (events : List SealEvent) (narrow : ∀ event ∈ events, Narrow event) (few : events.length ≤ 2 ^ 64)
    (ivs : Loss.Epoch → Nat → Bytes) (whole : ∀ epoch generation, (ivs epoch generation).length = nonceLen) :
    ((Runs.run (next search) (start ids) events).sent.map fun packet =>
      (packet.epoch, packet.generation, packet.nonce ivs)).Nodup := by
  have unused : (Runs.run (next search) (start ids) events).Unused :=
    Runs.run_keeps (fun state event unused => unused.next event) (unused_start apart) events
  -- No more packets are sent than there are steps, so their numbers fit into the nonce.
  obtain ⟨many, fits⟩ := run_sent search events (start ids) narrow (by simp [start])
  generalize Runs.run (next search) (start ids) events = state at unused many fits
  have count : state.sent.length ≤ 2 ^ 64 := Nat.le_trans many (by simpa [start] using few)
  refine List.Nodup.map_on ?_ unused.nodup
  intro left leftSent right rightSent same
  obtain ⟨epoch, generation, nonce⟩ : left.epoch = right.epoch ∧ left.generation = right.generation ∧
      left.nonce ivs = right.nonce ivs := by simpa using same
  have low := unused.small left leftSent
  have high := unused.small right rightSent
  have own := fits left leftSent
  have other := fits right rightSent
  unfold Sealed.nonce at nonce
  rw [epoch, generation, Nat.mod_eq_of_lt own, Nat.mod_eq_of_lt other] at nonce
  -- The same key has the same IV, so equal nonces name one space and one number.
  obtain ⟨space, pn⟩ := makeNonce_inj (whole _ _) ⟨own, other⟩ ⟨by omega, by omega⟩ nonce
  cases left
  cases right
  simp_all

/-- Packets on two paths, the second of which is closed and tried again. -/
def closedAgain : List SealEvent :=
  [.ids (.setInitialDcid [4] none none), .ids (.setLocalMaxPathId 1 false), .ids (.setRemoteMaxPathId 1),
    .ids (.newScid 1 [2] (some 8) true none false), .ids (.newDcid 1 [7] 0 5 0), .send .application true 0 0 true,
    .send .application true 1 0 true, .send .application true 1 0 true, .close 1, .send .application true 1 0 true,
    .rekey .application, .send .application true 0 0 true]

/-- Four of these packets are sent, with four nonces. -/
theorem nonces_nodup_closedAgain :
    let search := fun seqs bound => (seqs.takeWhile (· < bound)).length
    let final := Runs.run (next search) (start (.new 2 [1] (⟨[], 0⟩, ⟨[], 0⟩) none)) closedAgain
    final.sent.length = 4 ∧ (final.sent.map fun packet =>
      (packet.epoch, packet.generation, packet.nonce fun _ _ => List.replicate nonceLen 7)).Nodup := by
  intro search final
  have apart : Apart (.new 2 [1] (⟨[], 0⟩, ⟨[], 0⟩) none) := fun pathId _ => List.not_mem_nil
  have narrow : ∀ event ∈ closedAgain, Narrow event := by
    simp [closedAgain, Narrow]
  exact ⟨by decide, nonces_nodup search _ apart closedAgain narrow (by decide) _ fun _ _ => List.length_replicate⟩

end Sealing

end Reusing

end Packets

end Flexicast
