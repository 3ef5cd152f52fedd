import Flexicast.Channel.Keys
import Flexicast.Packet.PktNum
import Flexicast.Packet.Window

/-! The packet numbers of a receiver that joins a flow late: what `MC_KEY` leaves of them, and what it can decode. -/

namespace Flexicast

namespace Channel

section Definitions

/-- The received part of a packet number space. -/
structure PktNumSpace where
  largestRxPktNum : Nat
  recvPktNum : PktNumWindow
  deriving DecidableEq

/-- A packet number space before its first packet. -/
def PktNumSpace.new : PktNumSpace := ⟨0, .empty⟩

/-- A client, with the packet number spaces of its paths. -/
structure FlowReceiver where
  keyed : KeyedAttributes
  spaces : Nat → Option PktNumSpace

namespace FlowReceiver

/-- The packet number space of a path, which is a new one unless it exists. -/
def getOrNew (self : FlowReceiver) (spaceId : Nat) : PktNumSpace := (self.spaces spaceId).getD .new

/-- Changes the packet number space of a path. -/
def setSpace (self : FlowReceiver) (spaceId : Nat) (space : PktNumSpace) : FlowReceiver :=
  { self with spaces := fun other => if other = spaceId then some space else self.spaces other }

/-- The client processes an `MC_KEY` frame, for which the space of the flexicast path has to exist. -/
def processMcKey (fromSecret : Algorithm → Bytes → Bool) (self : FlowReceiver) (frame : McKey) :
    Except KeyError FlowReceiver :=
  match self.keyed.processMcKey fromSecret frame with
  | .error error => .error error
  | .ok keyed =>
    let self := { self with keyed := keyed }
    match keyed.flexicast.fcPathId with
    | some path => .ok (self.setSpace path (self.getOrNew path))
    | none => .ok self

/-- Records a packet whose payload was decrypted and processed; no result means that the window panics. -/
def recordPkt (self : FlowReceiver) (spaceId pn : Nat) : Option FlowReceiver :=
  let space := self.getOrNew spaceId
  -- A duplicate is ignored.
  if space.recvPktNum.contains pn then some (self.setSpace spaceId space)
  else
    (space.recvPktNum.insert pn).map fun recvPktNum =>
      { self.setSpace spaceId ⟨max space.largestRxPktNum pn, recvPktNum⟩ with
        keyed := { self.keyed with recvPktNeedAck := (spaceId, pn) :: self.keyed.recvPktNeedAck } }

/-- The largest packet number that decoding goes by; a space yet unseen counts as zero. -/
def largestRxPktNum (self : FlowReceiver) (spaceId : Nat) : Nat :=
  ((self.spaces spaceId).map PktNumSpace.largestRxPktNum).getD 0

/-- The packet number of a packet that comes with the low bytes of one. -/
def decode (self : FlowReceiver) (spaceId truncatedPn pnLen : Nat) : Nat :=
  decodePktNum (self.largestRxPktNum spaceId) truncatedPn pnLen

/-- A packet of the flow is recorded, unless the window has panicked. -/
def next (spaceId : Nat) (state : Option FlowReceiver) (pn : Nat) : Option FlowReceiver :=
  state.bind fun self => self.recordPkt spaceId pn

end FlowReceiver

/-- The largest of some packet numbers, or zero. -/
def largestOf (arrivals : List Nat) : Nat := arrivals.foldl max 0

end Definitions

section Recording

variable {space : PktNumSpace} {pn : Nat}

/-- A window with room, whose packets are at most the largest one, and which lies near it. -/
structure PktNumSpace.Tidy (space : PktNumSpace) : Prop where
  room : space.recvPktNum.Room
  held : ∀ pn, space.recvPktNum.contains pn = true → pn ≤ space.largestRxPktNum
  near : space.recvPktNum.upper ≤ max 127 space.largestRxPktNum

/-- A new space is tidy. -/
theorem PktNumSpace.new_tidy : PktNumSpace.new.Tidy := by
  refine ⟨by unfold PktNumWindow.Room; decide, fun pn found => ?_, by decide⟩
  -- No bit of the empty window is set.
  have absent := (PktNumWindow.empty_tracks.detects pn)
  by_cases small : pn ≤ maxU64
  · rw [show PktNumSpace.new.recvPktNum = PktNumWindow.empty from rfl,
      (absent small).2 List.not_mem_nil (Nat.zero_le _)] at found
    cases found
  · have above : PktNumSpace.new.recvPktNum.upper < pn := by
      have edge : PktNumSpace.new.recvPktNum.upper = 127 := by decide
      unfold maxU64 at small
      omega
    simp [PktNumWindow.contains, above] at found

/-- A window in which the bit of a packet is set. -/
def marked (window : PktNumWindow) (pn : Nat) : PktNumWindow :=
  { window with window := window.window ||| (1#128 <<< (window.upper - pn)) }

theorem contains_marked {window : PktNumWindow} (room : window.Room) (inside : pn ≤ window.upper) {other : Nat}
    (apart : other ≠ pn) :
    (marked window pn).contains other = window.contains other := by
  have edge : (marked window pn).upper = window.upper := rfl
  have base : (marked window pn).lower = window.lower := rfl
  -- Outside the window the bits do not count.
  by_cases beyond : window.upper < other
  · simp [PktNumWindow.contains, edge, beyond]
  by_cases under : other < window.lower
  · simp [PktNumWindow.contains, edge, base, beyond, under]
  · have above := Nat.le_of_not_lt under
    have below := Nat.le_of_not_lt beyond
    rw [PktNumWindow.contains_inside room above below,
      @PktNumWindow.contains_inside (marked window pn) other room above below, edge]
    have places : window.upper - pn ≠ window.upper - other := by omega
    simp [marked, ← BitVec.twoPow_eq, BitVec.getLsbD_or, BitVec.getLsbD_twoPow, places]

theorem contains_beyond {window : PktNumWindow} (beyond : window.upper < pn) : window.contains pn = false := by
  simp [PktNumWindow.contains, beyond]

/-- A packet that was not received yet is recorded, and the space stays tidy. -/
theorem PktNumSpace.Tidy.insert (tidy : space.Tidy) (fresh : space.recvPktNum.contains pn = false)
    (small : pn < 2 ^ 62) :
    ∃ window, space.recvPktNum.insert pn = some window ∧
      PktNumSpace.Tidy ⟨max space.largestRxPktNum pn, window⟩ := by
  have width := PktNumWindow.upper_eq tidy.room
  have near := tidy.near
  have room := tidy.room
  unfold PktNumWindow.Room maxU64 at room
  by_cases above : space.recvPktNum.upper < pn
  · -- The window moves up to the packet, which is now the largest one.
    have moved := PktNumWindow.insert_above tidy.room above (by unfold maxU64; omega)
    generalize PktNumWindow.checkedShl space.recvPktNum.window ((pn - space.recvPktNum.upper) % 2 ^ 32) ||| 1#128 =
      bits at moved
    have room' : PktNumWindow.Room ⟨pn - 127, bits⟩ := by
      unfold PktNumWindow.Room maxU64
      dsimp only
      omega
    have edge : PktNumWindow.upper ⟨pn - 127, bits⟩ = pn := by
      rw [PktNumWindow.upper_eq room']
      dsimp only
      omega
    refine ⟨_, moved, room', fun other found => ?_, by rw [edge]; dsimp only; omega⟩
    by_cases higher : pn < other
    · rw [contains_beyond (Nat.lt_of_le_of_lt (Nat.le_of_eq edge) higher)] at found
      cases found
    · dsimp only
      omega
  by_cases below : pn < space.recvPktNum.lower
  · simp [PktNumWindow.contains, above, below] at fresh
  · -- Inside the window one bit is set.
    have inside := Nat.le_of_not_lt above
    have lower := Nat.le_of_not_lt below
    refine ⟨marked space.recvPktNum pn, PktNumWindow.insert_inside lower inside, tidy.room, fun other found => ?_, ?_⟩
    · by_cases same : other = pn
      · rw [same]
        exact Nat.le_max_right _ _
      · rw [contains_marked tidy.room inside same] at found
        exact Nat.le_trans (tidy.held other found) (Nat.le_max_left _ _)
    · have edge : (marked space.recvPktNum pn).upper = space.recvPktNum.upper := rfl
      rw [edge]
      dsimp only
      omega

end Recording

section Joining

variable {self : FlowReceiver} {spaceId : Nat}

theorem largestRxPktNum_setSpace (self : FlowReceiver) (spaceId : Nat) (space : PktNumSpace) :
    (self.setSpace spaceId space).largestRxPktNum spaceId = space.largestRxPktNum := by
  simp [FlowReceiver.largestRxPktNum, FlowReceiver.setSpace]

theorem largestRxPktNum_getOrNew (self : FlowReceiver) (spaceId : Nat) :
    (self.getOrNew spaceId).largestRxPktNum = self.largestRxPktNum spaceId := by
  unfold FlowReceiver.getOrNew FlowReceiver.largestRxPktNum
  cases self.spaces spaceId <;> rfl

theorem recordPkt_largest (tidy : (self.getOrNew spaceId).Tidy) {pn : Nat} (small : pn < 2 ^ 62) :
    ∃ after, self.recordPkt spaceId pn = some after ∧ (after.getOrNew spaceId).Tidy ∧
      after.largestRxPktNum spaceId = max (self.largestRxPktNum spaceId) pn := by
  rw [← largestRxPktNum_getOrNew]
  unfold FlowReceiver.recordPkt
  dsimp only
  cases duplicate : (self.getOrNew spaceId).recvPktNum.contains pn with
  | true =>
    -- What counts as a duplicate is not above the largest packet number.
    have below := tidy.held pn duplicate
    refine ⟨_, if_pos rfl, ?_, ?_⟩
    · simpa [FlowReceiver.getOrNew, FlowReceiver.setSpace] using tidy
    · rw [largestRxPktNum_setSpace, Nat.max_eq_left below]
  | false =>
    obtain ⟨window, inserted, tidy'⟩ := tidy.insert duplicate small
    rw [if_neg (by simp), inserted, Option.map_some]
    refine ⟨_, rfl, ?_, ?_⟩
    · simpa [FlowReceiver.getOrNew, FlowReceiver.setSpace] using tidy'
    · exact largestRxPktNum_setSpace self spaceId _

/-- Packets raise the largest packet number to the largest of theirs. -/
theorem run_largest {arrivals : List Nat} (small : ∀ pn ∈ arrivals, pn < 2 ^ 62) :
    ∀ {self : FlowReceiver}, (self.getOrNew spaceId).Tidy →
      ∃ after, Runs.run (FlowReceiver.next spaceId) (some self) arrivals = some after ∧
        after.largestRxPktNum spaceId = arrivals.foldl max (self.largestRxPktNum spaceId) := by
  -- Induction on the packets, from whatever space they find.
  induction arrivals with
  | nil => exact fun _ => ⟨_, rfl, rfl⟩
  | cons pn rest ih =>
    intro self tidy
    obtain ⟨after, recorded, tidy', largest⟩ := recordPkt_largest tidy (small pn (List.mem_cons_self))
    obtain ⟨final, reached, raised⟩ := ih (fun other member => small other (List.mem_cons_of_mem _ member)) tidy'
    refine ⟨final, ?_, by rw [raised, largest, List.foldl_cons]⟩
    simpa [FlowReceiver.next, recorded] using reached

theorem processMcKey_getOrNew {fromSecret : Algorithm → Bytes → Bool} {frame : McKey} {after : FlowReceiver}
    (joined : self.processMcKey fromSecret frame = .ok after) : after.getOrNew spaceId = self.getOrNew spaceId := by
  unfold FlowReceiver.processMcKey at joined
  split at joined
  · cases joined
  · rename_i keyed _
    dsimp only at joined
    -- Only the space of the new path is touched, and it stays as it was.
    cases path : keyed.flexicast.fcPathId with
    | none =>
      rw [path] at joined
      cases joined
      rfl
    | some place =>
      rw [path] at joined
      cases joined
      by_cases same : spaceId = place <;> simp [FlowReceiver.getOrNew, FlowReceiver.setSpace, same]

theorem largestOf_lt {arrivals : List Nat} {bound : Nat} (below : ∀ pn ∈ arrivals, pn < bound) :
    ∀ {start : Nat}, start < bound → arrivals.foldl max start < bound := by
  induction arrivals with
  | nil => exact fun held => held
  | cons pn rest ih =>
    intro start held
    exact ih (fun other member => below other (List.mem_cons_of_mem _ member))
      (Nat.max_lt.mpr ⟨held, below pn List.mem_cons_self⟩)

theorem decodePktNum_zero (la : Nat) : decodePktNum 0 (0 % 2 ^ (8 * pktNumLen 0 la)) (pktNumLen 0 la) = 0 ∧
    NearEnough 0 la 0 := by
  have one : pktNumLen 0 la = 1 := by
    apply pktNumLen_eq (by decide) <;> simp
  rw [one]
  exact ⟨by decide, fun width _ _ => .inl (Nat.zero_le _)⟩

/-- A receiver that has joined with `MC_KEY` and recorded packets of the flow decodes a later packet just when it is
near enough to the largest recorded one, or to zero before the first. -/
theorem late_joiner_decodes_iff {fromSecret : Algorithm → Bytes → Bool} {frame : McKey} {joined : FlowReceiver}
    (join : self.processMcKey fromSecret frame = .ok joined) (empty : self.getOrNew spaceId = .new)
    (largestAcked : Option Nat) {pn : Nat} (small : pn < 2 ^ 62) {arrivals : List Nat}
    (earlier : ∀ other ∈ arrivals, other < pn) (short : pktNumLen pn (largestAckedOr largestAcked) ≤ 4) :
    ∃ receiver, Runs.run (FlowReceiver.next spaceId) (some joined) arrivals = some receiver ∧
      (receiver.decode spaceId (pn % 2 ^ (8 * pktNumLen pn (largestAckedOr largestAcked)))
          (pktNumLen pn (largestAckedOr largestAcked)) = pn ↔
        NearEnough pn (largestAckedOr largestAcked) (largestOf arrivals)) := by
  have space : joined.getOrNew spaceId = .new := (processMcKey_getOrNew join).trans empty
  have tidy : (joined.getOrNew spaceId).Tidy := space ▸ PktNumSpace.new_tidy
  -- Joining leaves the largest packet number at zero.
  have zero : joined.largestRxPktNum spaceId = 0 := by rw [← largestRxPktNum_getOrNew, space]; rfl
  obtain ⟨receiver, reached, largest⟩ :=
    run_largest (fun other member => Nat.lt_trans (earlier other member) small) tidy
  refine ⟨receiver, reached, ?_⟩
  rw [zero] at largest
  unfold FlowReceiver.decode
  rw [largest]
  change decodePktNum (largestOf arrivals) _ _ = _ ↔ _
  rcases Nat.eq_zero_or_pos pn with rfl | positive
  · -- Nothing comes before packet zero.
    have nothing : arrivals = [] := List.eq_nil_iff_forall_not_mem.mpr fun other member =>
      absurd (earlier other member) (Nat.not_lt_zero _)
    obtain ⟨decoded, near⟩ := decodePktNum_zero (largestAckedOr largestAcked)
    subst nothing
    exact iff_of_true decoded near
  · exact decodePktNum_iff_nearEnough pn _ largestAcked small (largestOf_lt earlier positive) short

/-- A client that waits for the key of its channel, with a space of the flow that was never used. -/
def newcomer : FlowReceiver where
  keyed :=
    { flexicast := ⟨.client .joinedNoKey, [⟨[1], false, true⟩], false, false, false, some 1, some ([1], 0)⟩
      channelKeys := [⟨none, none⟩]
      fcFirstPn := none
      mcCrypto := none
      recvPktNeedAck := [] }
  spaces := fun _ => none

/-- The key of a channel from some packet on. -/
def keyFrom (firstPn : Nat) : McKey := ⟨[1], [7], .aes128Gcm, firstPn⟩

/-- A client that has the key of its channel from some packet on. -/
def keyedNewcomer (firstPn : Nat) : FlowReceiver :=
  ((newcomer.processMcKey (fun _ _ => true) (keyFrom firstPn)).toOption).getD newcomer

theorem newcomer_takes_key (firstPn : Nat) :
    newcomer.processMcKey (fun _ _ => true) (keyFrom firstPn) = .ok (keyedNewcomer firstPn) := rfl

/-- A receiver joins at packet 1000, records packet 1050 of the flow, and decodes packet 1100. -/
theorem late_joiner_decodes_iff_close :
    ∃ receiver, Runs.run (FlowReceiver.next 1) (some (keyedNewcomer 1000)) [1050] = some receiver ∧
      receiver.decode 1 (1100 % 2 ^ (8 * pktNumLen 1100 (largestAckedOr (some 1040))))
        (pktNumLen 1100 (largestAckedOr (some 1040))) = 1100 := by
  obtain ⟨receiver, reached, decodes⟩ := @late_joiner_decodes_iff newcomer 1 (fun _ _ => true) (keyFrom 1000)
    (keyedNewcomer 1000) (newcomer_takes_key 1000) rfl (some 1040) 1100 (by decide) [1050] (by decide)
    (by decide)
  refine ⟨receiver, reached, decodes.mpr ?_⟩
  intro width low high
  have one : width = 1 := (pktNumLen_eq (by decide) low high).symm.trans (by decide)
  rw [one]
  decide

/-- A receiver joins at packet 1000, which comes next and is sent with one byte, and decodes it as packet 232. -/
theorem late_joiner_misreads : ¬ ∀ (self joined : FlowReceiver) (spaceId : Nat)
    (fromSecret : Algorithm → Bytes → Bool) (frame : McKey) (_ : self.processMcKey fromSecret frame = .ok joined)
    (_ : self.getOrNew spaceId = .new) (largestAcked : Option Nat) (pn : Nat) (_ : pn < 2 ^ 62)
    (_ : frame.firstPn ≤ pn) (_ : ∀ acked ∈ largestAcked, acked < pn) (arrivals : List Nat)
    (_ : ∀ other ∈ arrivals, frame.firstPn ≤ other ∧ other < pn)
    (_ : largestAckedOr largestAcked < frame.firstPn ∨ ∃ other ∈ arrivals, largestAckedOr largestAcked ≤ other)
    (_ : pktNumLen pn (largestAckedOr largestAcked) ≤ 4) (receiver : FlowReceiver)
    (_ : Runs.run (FlowReceiver.next spaceId) (some joined) arrivals = some receiver),
    receiver.decode spaceId (pn % 2 ^ (8 * pktNumLen pn (largestAckedOr largestAcked)))
      (pktNumLen pn (largestAckedOr largestAcked)) = pn := by
  intro always
  have decoded := always newcomer (keyedNewcomer 1000) 1 (fun _ _ => true) (keyFrom 1000) (newcomer_takes_key 1000) rfl
    (some 999) 1000 (by decide) (by decide) (by decide) [] (by decide) (.inl (by decide)) (by decide)
    (keyedNewcomer 1000) rfl
  exact absurd decoded (by decide)

end Joining

end Channel

end Flexicast
