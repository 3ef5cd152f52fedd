import Flexicast.Lib.Runs
import Flexicast.Recovery.Delegation
import Flexicast.Recovery.Marks
import Flexicast.Recovery.Turns

/-! The source delegates every lost packet once, of `recovery/mod.rs` and `recovery/flexicast.rs`. -/

namespace Flexicast

namespace Source

section Iteration

/-- Whether `fc_get_delegated_stream` collects the data of a frame. -/
def isStream : SentFrame → Bool
  | .streamHeader .. => true
  | .other => false

/-- The packet of a piece, with the frame that the piece holds the data of. -/
def entry (piece : FcDelegatedStream) : Nat × SentFrame :=
  (piece.pn, .streamHeader piece.streamId piece.off piece.payload.length piece.fin)

/-- A call that succeeds marks and empties what it went over, when the packets are delegated for sure. -/
def process (packet : Sent) : Sent :=
  if packet.isLost then { packet with isFcDelegated := true, frames := [] } else packet

theorem goesOn_delegates (sure : Bool) (packet : Sent) :
    FcUnicastRetransmission.goesOn (.delegates sure) packet = (packet.isLost || packet.isAcked) := by
  simp [FcUnicastRetransmission.goesOn, FcUnicastRetransmission.recvAck]

theorem picks_delegates (sure : Bool) (packet : Sent) :
    FcUnicastRetransmission.picks (.delegates sure) packet = packet.isLost := by
  simp [FcUnicastRetransmission.picks, FcUnicastRetransmission.recvAck]

theorem gatherFrames_entries {pn : Nat} {frames : List SentFrame} {streams : StreamMap}
    {pieces : List FcDelegatedStream} (done : (gatherFrames pn frames streams pieces).1 = .ok ()) :
    (gatherFrames pn frames streams pieces).2.2.map entry =
      pieces.map entry ++ (frames.filter isStream).map (Prod.mk pn) := by
  induction frames generalizing streams pieces with
  | nil => simp [gatherFrames]
  | cons frame rest ih =>
    cases frame with
    | other => exact ih done
    | streamHeader streamId off len fin =>
      simp only [gatherFrames] at done ⊢
      cases there : streams.get streamId with
      | none => simp [there] at done
      | some streamFc =>
        -- The data of the frame is read back whole, so its piece has the length of the frame.
        obtain ⟨payload, fetched, long⟩ := fetch_length streamFc.send off len
        simp only [there, fetched] at done ⊢
        rw [ih done, List.filter_cons_of_pos rfl]
        simp [entry, long]

/-- The STREAM frames of the lost packets, each with the number of its packet. -/
def lostEntries (packets : List Sent) : List (Nat × SentFrame) :=
  (packets.filter Sent.isLost).flatMap fun packet => (packet.frames.filter isStream).map (Prod.mk packet.pktNum)

theorem lostEntries_cons (packet : Sent) (rest : List Sent) :
    lostEntries (packet :: rest) =
      (if packet.isLost then (packet.frames.filter isStream).map (Prod.mk packet.pktNum) else []) ++
        lostEntries rest := by
  cases lost : packet.isLost with
  | true => simp [lostEntries, lost]
  | false => simp [lostEntries, lost]

theorem lostEntries_nil {packets : List Sent} (none_ : ∀ packet ∈ packets, packet.isLost = false) :
    lostEntries packets = [] := by
  rw [lostEntries, List.filter_eq_nil_iff.mpr fun packet member => by simp [none_ packet member], List.flatMap_nil]

/--
A call that succeeds processes every lost packet, when no lost packet comes behind one that may still arrive: it empties
the packet and collects the data of its STREAM frames.
-/
theorem gatherPackets_process {packets : List Sent} {streams : StreamMap} {pieces : List FcDelegatedStream}
    (lostFirst : packets.Pairwise fun before after => before.isLost = false → before.isAcked = false →
      after.isLost = false)
    (done : (gatherPackets (.delegates true) packets streams pieces).1 = .ok ()) :
    (gatherPackets (.delegates true) packets streams pieces).2.1 = packets.map process ∧
      (gatherPackets (.delegates true) packets streams pieces).2.2.2.map entry =
        pieces.map entry ++ lostEntries packets := by
  -- Induction along the packets; behind the one that ends the loop no packet is lost.
  induction packets generalizing streams pieces with
  | nil => exact ⟨rfl, by simp [gatherPackets, lostEntries]⟩
  | cons packet rest ih =>
    obtain ⟨first, others⟩ := List.pairwise_cons.mp lostFirst
    unfold gatherPackets at done ⊢
    simp only [goesOn_delegates, picks_delegates] at done ⊢
    cases lost : packet.isLost with
    | true =>
      simp only [lost, Bool.true_or, Bool.not_true, Bool.false_eq_true, if_false] at done ⊢
      have here := @gatherFrames_entries packet.pktNum packet.frames streams pieces
      rcases gathered : gatherFrames packet.pktNum packet.frames streams pieces with ⟨_ | _, later, found⟩
      · simp [gathered] at done
      · simp only [gathered, forall_const] at done here ⊢
        obtain ⟨marked, collected⟩ := ih others done
        refine ⟨?_, ?_⟩
        · rw [marked]
          simp [process, lost, Sent.mark, Sent.drain, FcUnicastRetransmission.isSure]
        · rw [collected, here, lostEntries_cons, if_pos lost, List.append_assoc]
    | false =>
      rw [lostEntries_cons, lost, if_neg Bool.false_ne_true, List.nil_append]
      cases acked : packet.isAcked with
      | true =>
        simp only [lost, acked, Bool.or_true, Bool.not_true, Bool.not_false, Bool.false_eq_true, if_false, if_true]
          at done ⊢
        obtain ⟨marked, collected⟩ := ih others done
        exact ⟨by rw [marked]; simp [process, lost], collected⟩
      | false =>
        have none_ : ∀ later ∈ rest, later.isLost = false := fun later member => first later member lost acked
        simp only [Bool.or_self, Bool.not_false, if_true]
        refine ⟨?_, by rw [lostEntries_nil none_, List.append_nil]⟩
        rw [List.map_cons, List.map_congr_left (g := id) fun later member => by simp [process, none_ later member]]
        simp [process, lost]

end Iteration

end Source

namespace Loss

section Definitions

/-- A packet, as the delegation sees it. -/
def Sent.seen (pkt : Sent) : Flexicast.Sent :=
  ⟨pkt.pktNum, pkt.frames, pkt.timeAcked.isSome, pkt.timeLost.isSome, pkt.isFcDelegated⟩

/-- A packet, with what the delegation made of it. -/
def Sent.settle (pkt : Sent) (seen : Flexicast.Sent) : Sent :=
  { pkt with frames := seen.frames, isFcDelegated := seen.isFcDelegated }

/-- What a call of `fc_get_delegated_stream` comes to on the queue of the application epoch. -/
def Recovery.fcGetDelegatedStream (self : Recovery) (kind : FcUnicastRetransmission) (streams : StreamMap) :
    Except StreamError (List FcDelegatedStream) × Recovery × StreamMap :=
  let state := self.epochs .application
  match Source.gatherPackets kind (state.sentPackets.map Sent.seen) streams [] with
  | (result, packets, streams, pieces) =>
    (result.map fun _ => pieces,
      self.setEpoch .application { state with sentPackets := List.zipWith Sent.settle state.sentPackets packets },
      streams)

/-- A call of `fc_get_delegated_stream` that returned. -/
structure Call where
  /-- The numbers of the packets that were declared lost before it. -/
  declared : List Nat
  pieces : List FcDelegatedStream
  deriving DecidableEq

/-- The frames of a packet that a call returned the data of. -/
def Call.framesOf (call : Call) (num : Nat) : List SentFrame :=
  ((call.pieces.map Source.entry).filter fun entry => entry.1 == num).map Prod.snd

/-- What has happened to the packets of the application epoch. -/
structure Ledger where
  sent : List Sent
  /-- The numbers of the packets that were declared lost, in order. -/
  declared : List Nat
  calls : List Call
  deriving DecidableEq

/-- What the delegations since the loss of a packet returned of it, one call after the other. -/
def Ledger.found (ledger : Ledger) (num : Nat) : List (List SentFrame) :=
  (ledger.calls.filter fun call => decide (num ∈ call.declared)).map fun call => call.framesOf num

/-- The source of a flow, with its history. -/
structure FlowSource where
  recovery : Recovery
  ledger : Ledger

/-- What happens to the source. -/
inductive SourceEvent where
  /-- A packet is sent, an aggregated acknowledgment comes, a pass runs or a timer fires. -/
  | recovery (event : Event)
  | drained (epoch : Epoch) (lossThresh : Int)
  /-- A call of `fc_get_delegated_stream`, with the streams at that time. -/
  | delegates (streams : StreamMap)

namespace FlowSource

/-- The packets of the application epoch. -/
def packets (self : FlowSource) : List Sent := (self.recovery.epochs .application).sentPackets

/-- The packets that an event sends on the application epoch. -/
def sends : Event → List Sent
  | .sent pkt .application _ => [pkt]
  | _ => []

/-- One event; no result means that the program panics. -/
def step? (search : List Nat → Nat → Nat) (self : FlowSource) : SourceEvent → Option FlowSource
  | .recovery event =>
    (Connection.step? search ⟨none, self.recovery⟩ event).map fun connection =>
      ⟨connection.recovery, { self.ledger with
        sent := self.ledger.sent ++ sends event
        declared := self.ledger.declared ++ event.declares search self.recovery }⟩
  | .drained epoch lossThresh =>
    some { self with
      recovery := self.recovery.setEpoch epoch ((self.recovery.epochs epoch).drain lossThresh) }
  | .delegates streams =>
    let (result, recovery, _) := self.recovery.fcGetDelegatedStream (.delegates true) streams
    -- Only the pieces that the call returns reach anyone.
    some ⟨recovery, { self.ledger with
      calls := self.ledger.calls ++ [⟨self.ledger.declared, result.toOption.getD []⟩] }⟩

/-- One event, after which there is no state once the program has panicked. -/
def next (search : List Nat → Nat → Nat) (state : Option FlowSource) (event : SourceEvent) : Option FlowSource :=
  state.bind fun self => self.step? search event

/-- A new source. -/
def new : FlowSource :=
  ⟨(Recovery.new.initFcRecoveryState .serverFlexicast).setFcRecoveryEpoch true, ⟨[], [], []⟩⟩

/-- Packets are sent with increasing numbers, the epoch is never discarded, and delegations return no error. -/
def Proceeds : Option FlowSource → SourceEvent → Prop
  | some self, .recovery (.sent pkt epoch _) =>
    pkt.unmarked = true ∧ pkt.isFcDelegated = false ∧
      (epoch = .application → ∀ earlier ∈ self.ledger.sent, earlier.pktNum < pkt.pktNum)
  | some _, .recovery (.discarded epoch) => epoch ≠ .application
  | some _, .recovery .markedAll => False
  | some self, .delegates streams =>
    (self.recovery.fcGetDelegatedStream (.delegates true) streams).1.isOk = true
  | _, _ => True

/-- Every lost packet comes before every packet that is neither acknowledged nor lost. -/
def LostFirst (self : FlowSource) : Prop :=
  self.packets.Pairwise fun before after => before.unmarked = true → after.timeLost = none

/-- A packet that no delegation came for since its loss is still in the queue, with the frames it was sent with. -/
def KeepsLost (self : FlowSource) : Prop :=
  ∀ num ∈ self.ledger.declared, self.ledger.found num = [] →
    ∃ pkt ∈ self.packets, pkt.pktNum = num ∧ pkt.timeLost.isSome = true ∧ pkt.isFcDelegated = false ∧
      ∃ sent ∈ self.ledger.sent, sent.pktNum = num ∧ pkt.frames = sent.frames

/-- The first delegation after the loss of a packet returns the data of all STREAM frames it was sent with, and no
other delegation returns any of it, before or after. -/
def ProcessedOnce (self : FlowSource) : Prop :=
  ∀ num, (∀ call ∈ self.ledger.calls, num ∉ call.declared → call.framesOf num = []) ∧
    (self.ledger.found num ≠ [] → num ∈ self.ledger.declared ∧
      ∃ sent ∈ self.ledger.sent, sent.pktNum = num ∧
        ∃ again, self.ledger.found num = sent.frames.filter Source.isStream :: List.replicate again [])

end FlowSource

end Definitions

section Keeping

/-- What the queue of the source keeps, against the history of its packets. -/
structure Ledger.Keeps (ledger : Ledger) (packets : List Sent) : Prop where
  lostFirst : packets.Pairwise fun before after => before.unmarked = true → after.timeLost = none
  increasing : Increasing packets
  /-- A packet is one that was sent; its frames are those sent, unless they were acknowledged or processed. -/
  frames : ∀ pkt ∈ packets, ∃ sent ∈ ledger.sent, sent.pktNum = pkt.pktNum ∧
    (pkt.isFcDelegated = false → pkt.timeAcked = none ∨ pkt.timeLost.isSome = true → pkt.frames = sent.frames)
  /-- The lost packets of the queue are those that were declared lost. -/
  lost : ∀ pkt ∈ packets, pkt.timeLost.isSome = true ↔ pkt.pktNum ∈ ledger.declared
  delegated : ∀ pkt ∈ packets, pkt.isFcDelegated = true → pkt.timeLost.isSome = true ∧ pkt.frames = []
  met : ∀ pkt ∈ packets, ledger.found pkt.pktNum = [] ↔ pkt.isFcDelegated = false
  waits : ∀ num ∈ ledger.declared, ledger.found num = [] → ∃ pkt ∈ packets, pkt.pktNum = num
  known : ∀ num ∈ ledger.declared, ∃ sent ∈ ledger.sent, sent.pktNum = num
  /-- A call is about packets that were declared lost before it. -/
  past : ∀ call ∈ ledger.calls, ∀ num, num ∉ call.declared → call.framesOf num = []
  once : ∀ num, ledger.found num ≠ [] → num ∈ ledger.declared ∧
    ∃ sent ∈ ledger.sent, sent.pktNum = num ∧
      ∃ again, ledger.found num = sent.frames.filter Source.isStream :: List.replicate again []

variable {ledger : Ledger} {packets after : List Sent}

/-- Nothing is sent yet. -/
theorem Ledger.keeps_nil : Ledger.Keeps ⟨[], [], []⟩ [] where
  lostFirst := List.Pairwise.nil
  increasing := List.Pairwise.nil
  frames := by simp
  lost := by simp
  delegated := by simp
  met := by simp
  waits := by simp
  known := by simp
  past := by simp
  once := fun num found => absurd rfl found

variable {pkt before : Sent} {declared : List Nat}

/-- Sending a packet behind all others. -/
theorem Ledger.Keeps.send (keeps : ledger.Keeps packets) (unmarked : pkt.unmarked = true)
    (undelegated : pkt.isFcDelegated = false) (last : ∀ earlier ∈ ledger.sent, earlier.pktNum < pkt.pktNum) :
    Ledger.Keeps { ledger with sent := ledger.sent ++ [pkt] } (packets ++ [pkt]) := by
  -- The number of the packet was not used before, so the history says nothing about it.
  have unlost : pkt.timeLost = none := by
    simp only [Sent.unmarked, Bool.and_eq_true, Option.isNone_iff_eq_none] at unmarked
    exact unmarked.2
  have undeclared : pkt.pktNum ∉ ledger.declared := by
    intro member
    obtain ⟨sent, there, same⟩ := keeps.known _ member
    have smaller := last sent there
    omega
  have unmet : ledger.found pkt.pktNum = [] := by
    by_cases found : ledger.found pkt.pktNum = []
    · exact found
    · exact absurd (keeps.once _ found).1 undeclared
  refine ⟨?_, keeps.increasing.snoc fun held member => ?_, ?_, ?_, ?_, ?_, ?_, ?_, keeps.past, ?_⟩
  · refine List.pairwise_append.mpr ⟨keeps.lostFirst, List.pairwise_singleton _ _, fun before _ behind alone _ => ?_⟩
    rw [List.mem_singleton.mp alone]
    exact unlost
  · obtain ⟨sent, there, same, -⟩ := keeps.frames held member
    have smaller := last sent there
    omega
  · rw [List.forall_mem_append, List.forall_mem_singleton]
    refine ⟨fun held member => ?_, pkt, List.mem_append_right _ List.mem_cons_self, rfl, fun _ _ => rfl⟩
    obtain ⟨sent, there, rest⟩ := keeps.frames held member
    exact ⟨sent, List.mem_append_left _ there, rest⟩
  · rw [List.forall_mem_append, List.forall_mem_singleton]
    exact ⟨keeps.lost, by simp [unlost, undeclared]⟩
  · rw [List.forall_mem_append, List.forall_mem_singleton]
    exact ⟨keeps.delegated, by simp [undelegated]⟩
  · rw [List.forall_mem_append, List.forall_mem_singleton]
    exact ⟨keeps.met, iff_of_true unmet undelegated⟩
  · intro num member found
    obtain ⟨held, there, same⟩ := keeps.waits num member found
    exact ⟨held, List.mem_append_left _ there, same⟩
  · intro num member
    obtain ⟨sent, there, same⟩ := keeps.known num member
    exact ⟨sent, List.mem_append_left _ there, same⟩
  · intro num found
    obtain ⟨member, sent, there, rest⟩ := keeps.once num found
    exact ⟨member, sent, List.mem_append_left _ there, rest⟩

/-- What an acknowledgment or a pass does to a packet of the source; the pass declares some packets lost. -/
structure Sent.MarkedInto (declared : List Nat) (before after : Sent) : Prop where
  pktNum : after.pktNum = before.pktNum
  isFcDelegated : after.isFcDelegated = before.isFcDelegated
  lost : after.timeLost.isSome = true ↔ before.timeLost.isSome = true ∨ before.pktNum ∈ declared
  frames : before.isFcDelegated = false → after.timeAcked = none ∨ after.timeLost.isSome = true →
    (before.timeAcked = none ∨ before.timeLost.isSome = true) ∧ after.frames = before.frames
  kept : before.timeLost.isSome = true → after.frames = before.frames

/-- An acknowledgment declares nothing lost. -/
theorem Sent.AckedInto.marked {after : Sent} (acked : before.AckedInto after) :
    Sent.MarkedInto [] before after where
  pktNum := acked.pktNum
  isFcDelegated := acked.isFcDelegated
  lost := by simp [acked.timeLost]
  frames := by
    rintro - (unacked | lost)
    · -- Without a mark of the acknowledgment the packet is the same.
      have same := acked.kept (by simp [unacked])
      rw [same] at unacked ⊢
      exact ⟨.inl unacked, rfl⟩
    · rw [acked.timeLost] at lost
      exact ⟨.inr lost, acked.frames lost⟩
  kept := acked.frames

/-- A pass of the source keeps the frames of the packets that it will delegate. -/
theorem Sent.LostInto.marked {after : Sent} (lost : before.LostInto true after)
    (declares : after.timeLost.isSome = true ↔ before.timeLost.isSome = true ∨ before.pktNum ∈ declared) :
    Sent.MarkedInto declared before after where
  pktNum := lost.pktNum
  isFcDelegated := lost.isFcDelegated
  lost := declares
  frames := by
    intro undelegated marks
    refine ⟨?_, lost.frames rfl undelegated⟩
    -- A packet that is marked keeps its mark; a fresh one is marked with its frames.
    rcases lost.fresh with same | unmarked
    · rw [← same]
      exact marks
    · simp only [Sent.unmarked, Bool.and_eq_true, Option.isNone_iff_eq_none] at unmarked
      exact .inl unmarked.1
  kept := by
    intro before_
    rcases lost.fresh with same | unmarked
    · rw [same]
    · simp [Sent.unmarked_eq, before_] at unmarked

/-- Marking the packets of the queue one by one. -/
theorem Ledger.Keeps.mark (keeps : ledger.Keeps packets)
    (marks : List.Forall₂ (Sent.MarkedInto declared) packets after)
    (lostFirst : after.Pairwise fun before after => before.unmarked = true → after.timeLost = none)
    (among : ∀ num ∈ declared, ∃ pkt ∈ packets, pkt.pktNum = num) :
    Ledger.Keeps { ledger with declared := ledger.declared ++ declared } after := by
  have nums : after.map Sent.pktNum = packets.map Sent.pktNum := by
    clear keeps lostFirst among
    induction marks with
    | nil => rfl
    | cons marked _ ih => rw [List.map_cons, List.map_cons, marked.pktNum, ih]
  have origin := forall₂_origin marks
  refine ⟨lostFirst, ?_, fun pkt member => ?_, fun pkt member => ?_, fun pkt member => ?_, fun pkt member => ?_, ?_, ?_,
    keeps.past, fun num found => ?_⟩
  · rw [Increasing, nums]
    exact keeps.increasing
  · obtain ⟨before, there, marked⟩ := origin pkt member
    obtain ⟨sent, known, same, frames⟩ := keeps.frames before there
    refine ⟨sent, known, same.trans marked.pktNum.symm, fun undelegated state => ?_⟩
    rw [marked.isFcDelegated] at undelegated
    obtain ⟨earlier, kept⟩ := marked.frames undelegated state
    exact kept.trans (frames undelegated earlier)
  · obtain ⟨before, there, marked⟩ := origin pkt member
    rw [marked.lost, marked.pktNum, keeps.lost before there]
    exact List.mem_append.symm
  · obtain ⟨before, there, marked⟩ := origin pkt member
    intro delegated
    rw [marked.isFcDelegated] at delegated
    obtain ⟨lost, empty⟩ := keeps.delegated before there delegated
    exact ⟨marked.lost.mpr (.inl lost), (marked.kept lost).trans empty⟩
  · obtain ⟨before, there, marked⟩ := origin pkt member
    rw [marked.pktNum, marked.isFcDelegated]
    exact keeps.met before there
  · -- The numbers of the queue are the same, so whoever waits still waits.
    have still : ∀ num, (∃ pkt ∈ packets, pkt.pktNum = num) → ∃ pkt ∈ after, pkt.pktNum = num := by
      intro num held
      have member := List.mem_map.mpr held
      rw [← nums] at member
      exact List.mem_map.mp member
    intro num member found
    rcases List.mem_append.mp member with earlier | new
    · exact still num (keeps.waits num earlier found)
    · exact still num (among num new)
  · intro num member
    rcases List.mem_append.mp member with earlier | new
    · exact keeps.known num earlier
    · obtain ⟨pkt, there, same⟩ := among num new
      obtain ⟨sent, known, alike, -⟩ := keeps.frames pkt there
      exact ⟨sent, known, alike.trans same⟩
  · obtain ⟨member, rest⟩ := keeps.once num found
    exact ⟨List.mem_append_left _ member, rest⟩

theorem ackedInto_lostFirst (marks : List.Forall₂ Sent.AckedInto packets after)
    (lostFirst : packets.Pairwise fun before after => before.unmarked = true → after.timeLost = none) :
    after.Pairwise fun before after => before.unmarked = true → after.timeLost = none := by
  induction marks with
  | nil => exact List.Pairwise.nil
  | cons marked others ih =>
    obtain ⟨first, rest⟩ := List.pairwise_cons.mp lostFirst
    refine List.pairwise_cons.mpr ⟨fun later member unmarked => ?_, ih rest⟩
    -- What is unmarked now was unmarked before.
    obtain ⟨before, there, acked⟩ := forall₂_origin others later member
    rw [acked.timeLost]
    exact first before there (marked.unmarked unmarked ▸ unmarked)

/-- Acknowledging packets keeps the ledger. -/
theorem Ledger.Keeps.acknowledge (keeps : ledger.Keeps packets) (marks : List.Forall₂ Sent.AckedInto packets after) :
    ledger.Keeps after := by
  have marked := keeps.mark (marks.imp fun _ _ acked => acked.marked) (ackedInto_lostFirst marks keeps.lostFirst)
    fun num member => absurd member List.not_mem_nil
  simpa using marked

/-- A pass keeps the ledger, in which it enters the packets that it declares lost. -/
theorem Ledger.Keeps.lose (keeps : ledger.Keeps packets) {rule : LossRule} {loop : LossLoop}
    {result : List Sent × LossLoop} (done : lostLoop true rule packets loop = some result) :
    Ledger.Keeps { ledger with declared := ledger.declared ++ rule.newlyLost packets } result.1 := by
  obtain ⟨declares, -⟩ := lostLoop_lost true rule done
  obtain ⟨front, passed, back, rfl, ends, marks, gone⟩ := lostLoop_front rule done
  have whole : List.Forall₂ (Sent.LostInto true) (front ++ back) result.1 := by
    rw [ends]
    exact List.rel_append marks (List.forall₂_same.mpr fun pkt _ => .refl true pkt)
  have marked := newlyMarked_iff keeps.increasing whole
  rw [declares] at marked
  refine keeps.mark (marked.imp fun _ _ both => both.1.marked both.2) ?_ fun num member => ?_
  · -- The pass marks everything up to some place, and leaves the rest in its order.
    rw [ends]
    obtain ⟨-, behind, -⟩ := List.pairwise_append.mp keeps.lostFirst
    have nothing : ∀ before ∈ passed, ∀ after : Sent, before.unmarked = true → after.timeLost = none := by
      intro before member after unmarked
      simp [gone before member] at unmarked
    refine List.pairwise_append.mpr ⟨?_, behind, fun before member after _ => nothing before member after⟩
    exact List.pairwise_iff_forall_sublist.mpr fun {before after} sub =>
      nothing before (sub.subset List.mem_cons_self) after
  · obtain ⟨pkt, there, same⟩ := List.mem_map.mp member
    refine ⟨pkt, ?_, same⟩
    have passed := (List.takeWhile_sublist _).subset there
    exact (List.takeWhile_sublist _).subset (List.mem_filter.mp passed).1

/-- Draining the queue takes no packet that waits for a delegation. -/
theorem Ledger.Keeps.drain (keeps : ledger.Keeps packets) (lossThresh : Int) :
    ledger.Keeps (drainAckedAndLostPackets true lossThresh packets) := by
  obtain ⟨front, split_, gone⟩ := drain_front true lossThresh packets
  have sub := drain_sublist true lossThresh packets
  refine ⟨keeps.lostFirst.sublist sub, keeps.increasing.sublist sub,
    fun pkt member => keeps.frames pkt (sub.subset member),
    fun pkt member => keeps.lost pkt (sub.subset member), fun pkt member => keeps.delegated pkt (sub.subset member),
    fun pkt member => keeps.met pkt (sub.subset member), fun num member found => ?_, keeps.known, keeps.past,
    keeps.once⟩
  obtain ⟨pkt, there, rfl⟩ := keeps.waits num member found
  refine ⟨pkt, ?_, rfl⟩
  rw [split_] at there
  rcases List.mem_append.mp there with dropped | stays
  · -- A packet that is drained although it was lost was delegated before.
    have held : pkt ∈ packets := by
      rw [split_]
      exact List.mem_append_left _ dropped
    have delegated := (gone pkt dropped).2 rfl ((keeps.lost pkt held).mpr member)
    rw [(keeps.met pkt held).mp found] at delegated
    simp at delegated
  · exact stays

/-- A packet of the queue after a delegation that succeeded. -/
def Sent.processed (pkt : Sent) : Sent :=
  if pkt.timeLost.isSome then { pkt with isFcDelegated := true, frames := [] } else pkt

@[simp] theorem processed_pktNum (pkt : Sent) : pkt.processed.pktNum = pkt.pktNum := by
  unfold Sent.processed
  split <;> rfl

@[simp] theorem processed_timeLost (pkt : Sent) : pkt.processed.timeLost = pkt.timeLost := by
  unfold Sent.processed
  split <;> rfl

@[simp] theorem processed_unmarked (pkt : Sent) : pkt.processed.unmarked = pkt.unmarked := by
  unfold Sent.processed
  split <;> rfl

theorem processed_lost (lost : pkt.timeLost.isSome = true) :
    pkt.processed.isFcDelegated = true ∧ pkt.processed.frames = [] := by
  simp [Sent.processed, lost]

theorem processed_present (present : pkt.timeLost.isSome = false) : pkt.processed = pkt := by
  simp [Sent.processed, present]

/-- The history after a delegation. -/
def Ledger.called (ledger : Ledger) (pieces : List FcDelegatedStream) : Ledger :=
  { ledger with calls := ledger.calls ++ [⟨ledger.declared, pieces⟩] }

theorem Ledger.found_called (ledger : Ledger) (pieces : List FcDelegatedStream) (num : Nat) :
    (ledger.called pieces).found num =
      ledger.found num ++ if num ∈ ledger.declared then [Call.framesOf ⟨ledger.declared, pieces⟩ num] else [] := by
  by_cases declared : num ∈ ledger.declared
  · simp [Ledger.called, Ledger.found, declared]
  · simp [Ledger.called, Ledger.found, declared]

section Returned

theorem lostEntries_apart {num : Nat} (none_ : ∀ pkt ∈ packets, pkt.timeLost.isSome = true → pkt.pktNum ≠ num) :
    (Source.lostEntries (packets.map Sent.seen)).filter (fun entry => entry.1 == num) = [] := by
  rw [List.filter_eq_nil_iff]
  intro entry member
  obtain ⟨seen, picked, found⟩ := List.mem_flatMap.mp member
  obtain ⟨there, lost⟩ := List.mem_filter.mp picked
  obtain ⟨pkt, held, rfl⟩ := List.mem_map.mp there
  obtain ⟨frame, -, rfl⟩ := List.mem_map.mp found
  simpa [Sent.seen] using none_ pkt held lost

theorem lostEntries_of (increasing : Increasing packets) {pkt : Sent} (member : pkt ∈ packets)
    (lost : pkt.timeLost.isSome = true) :
    (Source.lostEntries (packets.map Sent.seen)).filter (fun entry => entry.1 == pkt.pktNum) =
      (pkt.frames.filter Source.isStream).map (Prod.mk pkt.pktNum) := by
  induction packets with
  | nil => simp at member
  | cons first rest ih =>
    have later : ∀ other ∈ rest, first.pktNum < other.pktNum := by
      intro other there
      exact (List.pairwise_cons.mp increasing).1 other.pktNum (List.mem_map_of_mem there)
    rw [List.map_cons, Source.lostEntries_cons, List.filter_append]
    rcases List.mem_cons.mp member with rfl | there
    · -- The later packets have larger numbers.
      rw [lostEntries_apart fun other found _ => by have larger := later other found; omega]
      simp [Sent.seen, lost, List.filter_map, Function.comp_def]
    · have smaller := later pkt there
      rw [ih increasing.tail there, List.append_left_eq_self, List.filter_eq_nil_iff]
      intro entry found
      split at found
      · obtain ⟨frame, -, rfl⟩ := List.mem_map.mp found
        simp only [Sent.seen, beq_iff_eq]
        omega
      · simp at found

variable {declared : List Nat} {pieces : List FcDelegatedStream}

/-- A call returns nothing of a number that no lost packet of the queue has. -/
theorem framesOf_none (returned : pieces.map Source.entry = Source.lostEntries (packets.map Sent.seen)) {num : Nat}
    (none_ : ∀ pkt ∈ packets, pkt.timeLost.isSome = true → pkt.pktNum ≠ num) :
    Call.framesOf ⟨declared, pieces⟩ num = [] := by
  rw [Call.framesOf, returned, lostEntries_apart none_, List.map_nil]

/-- Of a lost packet of the queue a call returns the STREAM frames that the packet still has. -/
theorem framesOf_lost (returned : pieces.map Source.entry = Source.lostEntries (packets.map Sent.seen))
    (increasing : Increasing packets) {pkt : Sent} (member : pkt ∈ packets) (lost : pkt.timeLost.isSome = true) :
    Call.framesOf ⟨declared, pieces⟩ pkt.pktNum = pkt.frames.filter Source.isStream := by
  rw [Call.framesOf, returned, lostEntries_of increasing member lost, List.map_map]
  exact List.map_id _

end Returned

/-- A delegation that returns the frames of every lost packet keeps the ledger. -/
theorem Ledger.Keeps.delegate (keeps : ledger.Keeps packets) {pieces : List FcDelegatedStream}
    (returned : pieces.map Source.entry = Source.lostEntries (packets.map Sent.seen)) :
    (ledger.called pieces).Keeps (packets.map Sent.processed) := by
  have passes : ∀ num, num ∉ ledger.declared → (ledger.called pieces).found num = ledger.found num := by
    intro num present
    rw [Ledger.found_called, if_neg present, List.append_nil]
  -- What the call adds to the history of a packet that was declared lost.
  have adds : ∀ num ∈ ledger.declared, (ledger.called pieces).found num =
      ledger.found num ++ [Call.framesOf ⟨ledger.declared, pieces⟩ num] := by
    intro num declared
    rw [Ledger.found_called, if_pos declared]
  refine ⟨?_, ?_, ?_, ?_, ?_, ?_, fun num member found => ?_, keeps.known, ?_, fun num found => ?_⟩
  · refine List.pairwise_map.mpr (keeps.lostFirst.imp fun {before after} ordered => ?_)
    simpa using ordered
  · have nums : (packets.map Sent.processed).map Sent.pktNum = packets.map Sent.pktNum := by
      rw [List.map_map]
      exact List.map_congr_left fun pkt _ => processed_pktNum pkt
    rw [Increasing, nums]
    exact keeps.increasing
  · rw [List.forall_mem_map]
    intro pkt member
    obtain ⟨sent, there, same, frames⟩ := keeps.frames pkt member
    refine ⟨sent, there, by rw [processed_pktNum]; exact same, fun undelegated state => ?_⟩
    cases lost : pkt.timeLost.isSome with
    | true => simp [(processed_lost lost).1] at undelegated
    | false =>
      rw [processed_present lost] at undelegated state ⊢
      exact frames undelegated state
  · rw [List.forall_mem_map]
    intro pkt member
    rw [processed_timeLost, processed_pktNum]
    exact keeps.lost pkt member
  · rw [List.forall_mem_map]
    intro pkt member delegated
    cases lost : pkt.timeLost.isSome with
    | true => exact ⟨by rw [processed_timeLost]; exact lost, (processed_lost lost).2⟩
    | false =>
      rw [processed_present lost] at delegated ⊢
      exact keeps.delegated pkt member delegated
  · rw [List.forall_mem_map]
    intro pkt member
    rw [processed_pktNum]
    cases lost : pkt.timeLost.isSome with
    | true => simp [adds _ ((keeps.lost pkt member).mp lost), (processed_lost lost).1]
    | false =>
      have present : pkt.pktNum ∉ ledger.declared := by simp [← keeps.lost pkt member, lost]
      rw [processed_present lost, passes _ present]
      exact keeps.met pkt member
  · -- After the call nothing that was declared lost waits.
    rw [adds num member] at found
    simp at found
  · intro call member num
    rcases List.mem_append.mp member with earlier | new
    · exact keeps.past call earlier num
    · -- No lost packet of the queue has a number that was not declared lost.
      rw [List.mem_singleton.mp new]
      intro undeclared
      refine framesOf_none returned fun pkt there lost same => undeclared ?_
      rw [← same]
      exact (keeps.lost pkt there).mp lost
  · by_cases declared : num ∈ ledger.declared
    · rw [adds num declared]
      refine ⟨declared, ?_⟩
      by_cases first : ledger.found num = []
      · -- The packet waited in the queue with its frames.
        obtain ⟨pkt, member, rfl⟩ := keeps.waits num declared first
        have lost := (keeps.lost pkt member).mpr declared
        obtain ⟨sent, there, same, frames⟩ := keeps.frames pkt member
        refine ⟨sent, there, same, 0, ?_⟩
        rw [first, framesOf_lost returned keeps.increasing member lost,
          frames ((keeps.met pkt member).mp first) (.inr lost)]
        rfl
      · obtain ⟨-, sent, there, same, times, history⟩ := keeps.once num first
        refine ⟨sent, there, same, times + 1, ?_⟩
        have nothing : Call.framesOf ⟨ledger.declared, pieces⟩ num = [] := by
          by_cases held : ∃ pkt ∈ packets, pkt.timeLost.isSome = true ∧ pkt.pktNum = num
          · -- An earlier call emptied the packet.
            obtain ⟨pkt, member, lost, rfl⟩ := held
            have delegated : pkt.isFcDelegated = true := by
              rw [← Bool.not_eq_false]
              exact fun undelegated => first ((keeps.met pkt member).mpr undelegated)
            rw [framesOf_lost returned keeps.increasing member lost, (keeps.delegated pkt member delegated).2]
            rfl
          · exact framesOf_none returned fun pkt member lost same => held ⟨pkt, member, lost, same⟩
        rw [nothing, history, List.replicate_succ', List.cons_append]
    · rw [passes num declared] at found
      exact absurd (keeps.once num found).1 declared

end Keeping

section Steps

/-- What the recovery of the source keeps, against the history of its packets. -/
structure Flows (recovery : Recovery) (ledger : Ledger) : Prop where
  isFcSource : (recovery.epochs .application).isFcSource = true
  keeps : ledger.Keeps (recovery.epochs .application).sentPackets

variable {recovery after : Recovery} {ledger : Ledger} {epoch : Epoch}

theorem Flows.requeue (flows : Flows recovery ledger) {queue : List Sent} {more : Ledger}
    (requeued : Recovery.Requeued epoch queue recovery after) (kept : epoch = .application → more.Keeps queue)
    (other : epoch ≠ .application → more = ledger) : Flows after more := by
  -- The ledger is about the queue of the application epoch only.
  by_cases same : epoch = .application
  · subst same
    exact ⟨requeued.isFcSource.trans flows.isFcSource, requeued.queue ▸ kept rfl⟩
  · have untouched := requeued.others .application (Ne.symm same)
    rw [other same]
    exact ⟨untouched ▸ flows.isFcSource, untouched ▸ flows.keeps⟩

/-- The packets of the application epoch that a pass over an epoch declares lost. -/
def passLost (recovery : Recovery) (epoch : Epoch) (timing : Timing) (now : Int) : List Nat :=
  if epoch = .application then recovery.newlyLost epoch timing now else []

variable {timing : Timing} {now : Int} {search : List Nat → Nat → Nat}

theorem Flows.detectLostPackets (flows : Flows recovery ledger)
    (done : recovery.detectLostPackets epoch timing now = some after) :
    Flows after { ledger with declared := ledger.declared ++ passLost recovery epoch timing now } := by
  obtain ⟨loop, packets, loop', looped, requeued, -⟩ := detectLostPackets_queue done
  refine flows.requeue requeued (fun application => ?_) fun other => by simp [passLost, other]
  subst application
  rw [flows.isFcSource] at looped ⊢
  exact (flows.keeps.lose looped).drain _

theorem Flows.markAcked (flows : Flows recovery ledger) {ranges : RangeSet} {rtt : Int} {result : Recovery × AckLoop}
    (done : recovery.markAcked search ranges epoch rtt now = some result) : Flows result.1 ledger := by
  obtain ⟨largest, loop, packets, -, looped, requeued, -⟩ := markAcked_queue done
  refine flows.requeue requeued (fun application => ?_) fun _ => rfl
  subst application
  rw [flows.isFcSource]
  exact (flows.keeps.acknowledge (ackRanges_into search _ looped)).drain _

theorem Flows.settleAcked (flows : Flows recovery ledger) {ackedBytes : Nat}
    (done : recovery.settleAcked epoch ackedBytes timing now = some after) :
    Flows after { ledger with declared := ledger.declared ++ passLost recovery epoch timing now } := by
  obtain ⟨passed, pass, requeued, -⟩ := settleAcked_queue done
  -- The pass declares the packets; the drain behind it drops none that waits.
  have kept := flows.detectLostPackets pass
  refine kept.requeue requeued (fun application => ?_) fun _ => rfl
  subst application
  rw [kept.isFcSource]
  exact kept.keeps.drain _

/-- A recovery whose application epoch has the same queue and flag. -/
theorem Flows.same (flows : Flows recovery ledger)
    (isFcSource : (after.epochs .application).isFcSource = (recovery.epochs .application).isFcSource)
    (queue : (after.epochs .application).sentPackets = (recovery.epochs .application).sentPackets) :
    Flows after ledger :=
  ⟨isFcSource.trans flows.isFcSource, queue ▸ flows.keeps⟩

theorem Ledger.append_nil (ledger : Ledger) :
    { ledger with sent := ledger.sent ++ [], declared := ledger.declared ++ [] } = ledger := by
  simp

/-- Everything but a delegation. -/
theorem Flows.event (flows : Flows recovery ledger) {event : Event}
    (proceeds : FlowSource.Proceeds (some ⟨recovery, ledger⟩) (.recovery event)) {connection : Connection}
    (done : Connection.step? search ⟨none, recovery⟩ event = some connection) :
    Flows connection.recovery { ledger with
      sent := ledger.sent ++ FlowSource.sends event
      declared := ledger.declared ++ event.declares search recovery } := by
  -- One case for each event; those without a pass declare nothing lost.
  cases event with
  | sent pkt epoch now =>
    cases done
    obtain ⟨requeued, -⟩ := onPacketSent_queue recovery pkt epoch now
    obtain ⟨unmarked, undelegated, last⟩ := proceeds
    refine flows.requeue requeued (fun application => ?_) fun other => ?_
    · subst application
      simpa [FlowSource.sends, Event.declares, Event.pass?] using flows.keeps.send unmarked undelegated (last rfl)
    · cases epoch with
      | application => exact absurd rfl other
      | initial | handshake => exact ledger.append_nil
  | acked ranges epoch before later now =>
    obtain ⟨result, received, stored⟩ := Option.map_eq_some_iff.mp done
    cases stored
    unfold Recovery.onAckReceived at received
    obtain ⟨marked, acked, received⟩ := Option.bind_eq_some_iff.mp received
    have kept := flows.markAcked acked
    -- Without a newly acknowledged packet the call returns before its pass.
    cases newly : marked.2.newlyAcked.isEmpty with
    | true =>
      simp only [newly, if_true] at received
      cases received
      simpa [FlowSource.sends, Event.declares, Event.pass?, acked, newly] using kept
    | false =>
      simp only [newly, Bool.false_eq_true, if_false] at received
      simpa [FlowSource.sends, Event.declares, Event.pass?, acked, newly, passLost, Pass.lost]
        using kept.settleAcked received
  | lossDetection epoch timing now =>
    obtain ⟨result, passed, stored⟩ := Option.map_eq_some_iff.mp done
    cases stored
    simpa [FlowSource.sends, Event.declares, Event.pass?, passLost, Pass.lost] using flows.detectLostPackets passed
  | timeout status timing now =>
    obtain ⟨result, ran, stored⟩ := Option.map_eq_some_iff.mp done
    cases stored
    unfold Recovery.onLossDetectionTimeout at ran
    simp only at ran
    split at ran
    case isTrue byTime =>
      simpa [FlowSource.sends, Event.declares, Event.pass?, byTime, passLost, Pass.lost]
        using flows.detectLostPackets ran
    case isFalse unlost =>
      -- A probe only copies frames.
      cases ran
      have nothing : (Event.timeout status timing now).declares search recovery = [] := by
        simp [Event.declares, Event.pass?, unlost]
      rw [nothing]
      simp only [FlowSource.sends, ledger.append_nil]
      refine flows.same ?_ ?_
      all_goals
        simp only [setEpoch_epochs]
        split
        case isTrue same =>
          rw [same]
          rfl
        case isFalse apart => rfl
  | discarded epoch =>
    obtain ⟨result, ran, stored⟩ := Option.map_eq_some_iff.mp done
    cases stored
    unfold Recovery.onPktNumSpaceDiscarded at ran
    obtain ⟨bytes, -, stored⟩ := Option.bind_eq_some_iff.mp ran
    cases stored
    have apart : Epoch.application ≠ epoch := fun same => proceeds same.symm
    simpa [FlowSource.sends, Event.declares, Event.pass?] using flows.same (by simp [apart]) (by simp [apart])
  | markedAll => exact proceeds.elim
  | copied fcId packets now =>
    -- Without a flexicast part nothing is copied.
    cases done
    change Flows recovery _
    simpa [FlowSource.sends, Event.declares, Event.pass?] using flows
  | changed flexicast =>
    cases done
    simpa [FlowSource.sends, Event.declares, Event.pass?] using flows
  | initialised role =>
    unfold Connection.step? at done
    simp only at done
    split at done
    · cases done
      have same : Flows (recovery.initFcRecoveryState role) ledger := by
        cases role <;> exact flows.same rfl rfl
      simpa [FlowSource.sends, Event.declares, Event.pass?] using same
    · cases done
      simpa [FlowSource.sends, Event.declares, Event.pass?] using flows

/-- What a delegation that returns no error makes of the queue, and what it returns. -/
theorem fcGetDelegatedStream_queue {streams : StreamMap}
    (lostFirst : (recovery.epochs .application).sentPackets.Pairwise fun before after =>
      before.unmarked = true → after.timeLost = none)
    (done : (recovery.fcGetDelegatedStream (.delegates true) streams).1.isOk = true) :
    Recovery.Requeued .application ((recovery.epochs .application).sentPackets.map Sent.processed) recovery
        (recovery.fcGetDelegatedStream (.delegates true) streams).2.1 ∧
      ((recovery.fcGetDelegatedStream (.delegates true) streams).1.toOption.getD []).map Source.entry =
        Source.lostEntries ((recovery.epochs .application).sentPackets.map Sent.seen) := by
  have ordered : ((recovery.epochs .application).sentPackets.map Sent.seen).Pairwise fun before after =>
      before.isLost = false → before.isAcked = false → after.isLost = false := by
    refine List.pairwise_map.mpr (lostFirst.imp fun {before after} first present unacked => ?_)
    have unmarked : before.unmarked = true := by
      rw [Sent.unmarked_eq, show before.timeAcked.isSome = false from unacked,
        show before.timeLost.isSome = false from present]
      rfl
    exact Option.isSome_eq_false_iff.mpr (Option.isNone_iff_eq_none.mpr (first unmarked))
  unfold Recovery.fcGetDelegatedStream at done ⊢
  simp only at done ⊢
  have ran : (Source.gatherPackets (.delegates true) ((recovery.epochs .application).sentPackets.map Sent.seen)
      streams []).1 = .ok () := by
    rcases gathered : (Source.gatherPackets (.delegates true)
      ((recovery.epochs .application).sentPackets.map Sent.seen) streams []).1 with error | ⟨⟩
    · rw [gathered] at done
      simp [Except.map, Except.isOk, Except.toBool] at done
    · rfl
  obtain ⟨processed, returned⟩ := Source.gatherPackets_process ordered ran
  refine ⟨⟨?_, ?_, fun other apart => ?_⟩, ?_⟩
  · -- The marks are written back packet by packet.
    simp only [processed, setEpoch_epochs, if_true, List.map_map, List.zipWith_map_right, List.zipWith_self]
    refine List.map_congr_left fun pkt _ => ?_
    cases lost : pkt.timeLost.isSome with
    | true => simp [Source.process, Sent.seen, Sent.settle, Sent.processed, lost]
    | false =>
      have same : Source.process pkt.seen = pkt.seen := by simp [Source.process, Sent.seen, lost]
      rw [processed_present lost, Function.comp_apply, same]
      rfl
  · simp
  · simp [apart]
  · rw [ran]
    exact returned

namespace FlowSource

/-- Every event keeps the history. -/
theorem flows_step {search : List Nat → Nat → Nat} {self after : FlowSource} {event : SourceEvent}
    (flows : Flows self.recovery self.ledger) (proceeds : Proceeds (some self) event)
    (done : self.step? search event = some after) : Flows after.recovery after.ledger := by
  -- The recovery of the connection, a drain that the source starts, or a delegation.
  cases event with
  | recovery event =>
    obtain ⟨connection, stepped, stored⟩ := Option.map_eq_some_iff.mp done
    subst stored
    exact flows.event proceeds stepped
  | drained epoch lossThresh =>
    cases done
    by_cases same : epoch = .application
    · subst same
      refine ⟨by simp [RecoveryEpoch.drain, flows.isFcSource], ?_⟩
      simp only [setEpoch_epochs, if_true, RecoveryEpoch.drain, flows.isFcSource]
      exact flows.keeps.drain lossThresh
    · exact flows.same (by simp [Ne.symm same]) (by simp [Ne.symm same])
  | delegates streams =>
    cases done
    obtain ⟨requeued, returned⟩ := fcGetDelegatedStream_queue flows.keeps.lostFirst proceeds
    exact ⟨requeued.isFcSource.trans flows.isFcSource, requeued.queue ▸ flows.keeps.delegate returned⟩

end FlowSource

end Steps

section Runs

namespace FlowSource

/-- Every delegation goes over all packets of the queue that are lost. -/
def ReachesLost (self : FlowSource) : Prop :=
  ∀ pkt ∈ self.packets, pkt.timeLost.isSome = true →
    pkt.seen ∈ (self.packets.map Sent.seen).takeWhile (FcUnicastRetransmission.goesOn (.delegates true))

/-- In a queue whose lost packets come first the loop of a delegation reaches all of them. -/
theorem reachesLost {self : FlowSource} (lostFirst : self.LostFirst) : self.ReachesLost := by
  unfold ReachesLost
  unfold LostFirst at lostFirst
  generalize self.packets = packets at lostFirst ⊢
  induction packets with
  | nil => simp
  | cons first rest ih =>
    obtain ⟨before, others⟩ := List.pairwise_cons.mp lostFirst
    intro pkt member lost
    rw [List.map_cons, List.takeWhile_cons, Source.goesOn_delegates]
    cases unmarked : first.unmarked with
    | false =>
      have goes : (first.seen.isLost || first.seen.isAcked) = true := by
        rw [Sent.unmarked_eq, Bool.not_eq_false'] at unmarked
        rw [Bool.or_comm]
        exact unmarked
      rw [if_pos goes, List.mem_cons]
      rcases List.mem_cons.mp member with rfl | later
      · exact .inl rfl
      · exact .inr (ih others pkt later lost)
    | true =>
      -- Neither this packet nor any behind it is lost.
      exfalso
      rcases List.mem_cons.mp member with rfl | later
      · simp [Sent.unmarked_eq, lost] at unmarked
      · rw [before pkt later unmarked] at lost
        simp at lost

/--
In every run of the source the lost packets come first in the queue, a lost packet stays there with its frames until a
delegation comes, and the first delegation after its loss, and no other, returns what it carried.
-/
theorem lost_delegated_once (search : List Nat → Nat → Nat) (events : List SourceEvent)
    (proceeds : Runs.Along (next search) Proceeds (some new) events) {final : FlowSource}
    (reached : Runs.run (next search) (some new) events = some final) :
    (final.LostFirst ∧ final.ReachesLost) ∧ final.KeepsLost ∧ final.ProcessedOnce := by
  have step : ∀ (self : FlowSource) (event : SourceEvent) (after : FlowSource), Flows self.recovery self.ledger →
      Proceeds (some self) event → self.step? search event = some after → Flows after.recovery after.ledger :=
    fun _ _ _ flows met done => flows_step flows met done
  have start : Flows new.recovery new.ledger := ⟨rfl, Ledger.keeps_nil⟩
  have flows := Runs.Along.keeps_some (step? search) (fun self => Flows self.recovery self.ledger) step start proceeds
    reached
  refine ⟨⟨flows.keeps.lostFirst, reachesLost flows.keeps.lostFirst⟩, fun num member waits => ?_, fun num => ?_⟩
  · obtain ⟨pkt, there, rfl⟩ := flows.keeps.waits num member waits
    have lost := (flows.keeps.lost pkt there).mpr member
    have undelegated := (flows.keeps.met pkt there).mp waits
    obtain ⟨sent, known, same, frames⟩ := flows.keeps.frames pkt there
    exact ⟨pkt, there, rfl, lost, undelegated, sent, known, same, frames undelegated (.inr lost)⟩
  · exact ⟨fun call member => flows.keeps.past call member num, flows.keeps.once num⟩

instance : (state : Option FlowSource) → (event : SourceEvent) → Decidable (Proceeds state event)
  | some self, .recovery (.sent pkt epoch _) => inferInstanceAs (Decidable (pkt.unmarked = true ∧
      pkt.isFcDelegated = false ∧ (epoch = .application → ∀ earlier ∈ self.ledger.sent, earlier.pktNum < pkt.pktNum)))
  | some _, .recovery (.discarded epoch) => inferInstanceAs (Decidable (epoch ≠ .application))
  | some _, .recovery .markedAll => isFalse id
  | some self, .delegates streams => inferInstanceAs (Decidable (
      (self.recovery.fcGetDelegatedStream (.delegates true) streams).1.isOk = true))
  | some _, .recovery (.acked ..) | some _, .recovery (.lossDetection ..) | some _, .recovery (.timeout ..)
  | some _, .recovery (.copied ..) | some _, .recovery (.changed ..) | some _, .recovery (.initialised ..)
  | some _, .drained .. | none, _ => isTrue trivial

/-- Streams of which one was opened. -/
def oneStream : StreamMap := (StreamMap.new 8 8 100).set 3 (Stream.new 100 100 false true 100)

/-- Five packets with a byte each are sent, and the acknowledgment of the last one makes the first two lost. The first
of them is acknowledged after all, and two delegations follow. -/
def twoDelegations : List SourceEvent :=
  (List.range 5).map (fun pktNum => .recovery (.sent
    { flightPacket pktNum with frames := [.streamHeader 3 pktNum 1 false] } .application pktNum)) ++
    [.recovery (.acked (ackOf 4) .application secondTiming secondTiming 20),
      .recovery (.acked (ackOf 0) .application secondTiming secondTiming 30), .delegates oneStream,
      .delegates oneStream]

theorem lost_delegated_once_two :
    (Runs.run (next firstAtLeast) (some new) twoDelegations).map (fun final =>
        (final.ledger.declared, final.ledger.found 0, final.ledger.found 1)) =
        some ([0, 1], [[.streamHeader 3 0 1 false], []], [[.streamHeader 3 1 1 false], []]) ∧
      ∀ final, Runs.run (next firstAtLeast) (some new) twoDelegations = some final →
        (final.LostFirst ∧ final.ReachesLost) ∧ final.KeepsLost ∧ final.ProcessedOnce := by
  have proceeds : Runs.Along (next firstAtLeast) Proceeds (some new) twoDelegations := by decide
  exact ⟨by decide, fun final reached => lost_delegated_once firstAtLeast twoDelegations proceeds reached⟩

end FlowSource

end Runs

end Loss

end Flexicast
