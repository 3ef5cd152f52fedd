import Flexicast.Ack.StreamAckLaws
import Flexicast.Recovery.Accepts
import Flexicast.Recovery.Acked
import Flexicast.Recovery.Flow

/-! Runs of the flow: the bytes of delegated packets stay acknowledged or counted at the source. -/

namespace Flexicast

/-- An offset of a stream is accounted for: acknowledged at the source, or counted by its aggregator. -/
def Source.Tracks (source : Source) (streamId x : Nat) : Prop :=
  AckedAt source.streams streamId x ∨ 0 < source.mcAck.counter streamId x

section Pieces

/-- The pieces of released ranges cover exactly the released offsets. -/
theorem McAck.released_iff {streamFull : OrdMap RangeSet} {streamId x : Nat} :
    McAck.Released streamFull streamId x ↔
      ∃ piece ∈ streamPieces streamFull.entries,
        piece.1 = streamId ∧ piece.2.1 ≤ x ∧ x < piece.2.1 + piece.2.2 := by
  -- A piece is a range of the released set of its stream, given by its start and its length.
  unfold McAck.Released streamPieces
  constructor
  · intro released
    cases found : streamFull.find? streamId with
    | none =>
      rw [found] at released
      exact ((RangeSet.contains_default x).mp released).elim
    | some ranges =>
      rw [found, Option.getD_some] at released
      obtain ⟨range, member, low, high⟩ := released
      refine ⟨(streamId, range.1, range.2 - range.1), ?_, rfl, low, by simp only; omega⟩
      exact List.mem_flatMap.mpr ⟨(streamId, ranges), OrdMap.find?_eq_some_iff.mp found,
        List.mem_map_of_mem member⟩
  · rintro ⟨piece, member, rfl, low, high⟩
    obtain ⟨⟨id, ranges⟩, entry, inside⟩ := List.mem_flatMap.mp member
    obtain ⟨range, among, rfl⟩ := List.mem_map.mp inside
    rw [OrdMap.find?_eq_some_iff.mpr entry, Option.getD_some]
    simp only at low high
    exact ⟨range, among, low, by omega⟩

theorem McAck.Formed.ackPieces (pieces : List (Nat × Nat × Nat)) :
    ∀ {mcAck : McAck}, mcAck.Formed →
      ∃ after, mcAck.ackPieces pieces = some after ∧ after.Formed ∧ McAck.Accounts mcAck after := by
  -- Each piece is acknowledged at the aggregator that the earlier ones left.
  induction pieces with
  | nil => exact fun formed => ⟨_, rfl, formed, McAck.Accounts.refl _⟩
  | cons piece rest ih =>
    intro mcAck formed
    obtain ⟨middle, returned, formed', one⟩ := formed.onStreamAckReceived piece.1 piece.2.1 piece.2.2
    obtain ⟨after, ran, formed'', two⟩ := ih formed'
    exact ⟨after, by rw [McAck.ackPieces, returned]; exact ran, formed'', one.trans two⟩

/-- What the source has learned after pieces of written bytes were released to it. -/
structure Releases (run after : SourceRun) (pieces : List (Nat × Nat × Nat)) : Prop where
  sound : after.Sound
  written : after.written = run.written
  mcAck : after.source.mcAck = run.source.mcAck
  keeps : KeepsAcked run.source.streams after.source.streams
  acked : ∀ piece ∈ pieces, ∀ x, piece.2.1 ≤ x → x < piece.2.1 + piece.2.2 →
    AckedAt after.source.streams piece.1 x

/-- Pieces of written bytes may be released one after the other. -/
theorem SourceRun.Sound.releasePieces (pieces : List (Nat × Nat × Nat)) :
    ∀ {run : SourceRun}, run.Sound →
      (∀ piece ∈ pieces, ∀ x, piece.2.1 ≤ x → x < piece.2.1 + piece.2.2 → x < (run.written piece.1).length) →
      Releases run (pieces.foldl SourceRun.releasePiece run) pieces := by
  -- Each piece is acknowledged at the source as if a frame of it had arrived.
  induction pieces with
  | nil =>
    exact fun sound _ => ⟨sound, rfl, rfl, KeepsAcked.refl _, fun piece member => by simp at member⟩
  | cons piece rest ih =>
    intro run sound inside
    have here := inside piece List.mem_cons_self
    -- The last byte of the piece was written, so all of the piece was.
    have allowed : run.Allowed (.streamAck piece.1 piece.2.1 piece.2.2) := by
      rcases Nat.eq_zero_or_pos piece.2.2 with none_ | some_
      · exact Or.inl none_
      · have last := here (piece.2.1 + piece.2.2 - 1) (by omega) (by omega)
        exact Or.inr (by omega)
    have later := ih (sound.next _ allowed) fun next member => inside next (List.mem_cons_of_mem _ member)
    refine ⟨later.sound, later.written, later.mcAck, (sound.keepsAcked _).trans later.keeps, ?_⟩
    intro next member x low high
    rcases List.mem_cons.mp member with same | behind
    · subst same
      exact later.keeps _ x (sound.streams.ackedAt_onStreamAcked (here x low high) low high)
    · exact later.acked next behind x low high

end Pieces

/-- What holds of the source between the steps of the flow. -/
structure Steady (run : SourceRun) : Prop where
  sound : run.Sound
  formed : run.source.mcAck.Formed
  /-- Everything that was released was given to the source. -/
  idle : run.source.mcAck.streamFull = OrdMap.empty
  counted : ∀ streamId x, 0 < run.source.mcAck.counter streamId x → x < (run.written streamId).length

/-- Everything that was accounted for still is. -/
def KeepsTracked (run after : SourceRun) : Prop :=
  ∀ streamId x, run.source.Tracks streamId x → after.source.Tracks streamId x

theorem steady_start (maxStreamsBidi maxStreamsUni maxStreamWindow peerMaxBidi peerMaxUni : Nat) :
    Steady (SourceRun.start maxStreamsBidi maxStreamsUni maxStreamWindow peerMaxBidi peerMaxUni) :=
  ⟨SourceRun.sound_start _ _ _ _ _, ⟨fun _ => Segments.disjoint_empty, fun _ => RangeSet.wf_default⟩, rfl,
    fun _ _ some_ => absurd some_ (Nat.lt_irrefl 0)⟩

section Feedback

/-- What a receiver reports keeps the flow steady, and loses no offset. -/
theorem Steady.ucToMcControl {run : SourceRun} (steady : Steady run) (acked : List (Nat × RangeSet)) :
    Steady (run.ucToMcControl acked) ∧ KeepsTracked run (run.ucToMcControl acked) := by
  obtain ⟨mcAck, ran, formed, accounts⟩ := steady.formed.ackPieces (streamPieces acked)
  -- Nothing was released before, so all that is released now was counted.
  have nothing : ∀ streamId x, ¬ McAck.Released run.source.mcAck.streamFull streamId x := by
    intro streamId x released
    rw [steady.idle] at released
    exact (RangeSet.contains_default x).mp released
  -- Whether or not anything was released, the aggregator is emptied of it.
  have handed : (mcAck.ackedStreamOff.1.getD []) = mcAck.streamFull.entries ∧
      mcAck.ackedStreamOff.2 = { mcAck with streamFull := OrdMap.empty } := by
    unfold McAck.ackedStreamOff
    by_cases empty : mcAck.streamFull.isEmpty = true
    · have none_ := OrdMap.eq_empty_of_isEmpty empty
      rw [if_pos empty, none_]
      refine ⟨rfl, ?_⟩
      rw [← none_]
    · rw [if_neg empty]
      exact ⟨rfl, rfl⟩
  -- What is released was counted before, and only written bytes are counted.
  have inside : ∀ piece ∈ streamPieces mcAck.streamFull.entries, ∀ x, piece.2.1 ≤ x →
      x < piece.2.1 + piece.2.2 → x < (run.written piece.1).length := by
    intro piece member x low high
    have released := McAck.released_iff.mpr ⟨piece, member, rfl, low, high⟩
    rcases accounts.released piece.1 x released with before | counted
    · exact (nothing _ _ before).elim
    · exact steady.counted piece.1 x counted
  have emptied : SourceRun.Sound { run with
      source := { run.source with mcAck := { mcAck with streamFull := OrdMap.empty } } } :=
    ⟨steady.sound.streams, steady.sound.frames⟩
  have releases := emptied.releasePieces (streamPieces mcAck.streamFull.entries) inside
  unfold SourceRun.ucToMcControl
  rw [ran]
  simp only [handed.1, handed.2]
  refine ⟨⟨releases.sound, ?_, by rw [releases.mcAck], fun streamId x counted => ?_⟩, fun streamId x tracked => ?_⟩
  · rw [releases.mcAck]
    exact ⟨formed.disjoint, fun _ => RangeSet.wf_default⟩
  · rw [releases.written]
    rw [releases.mcAck] at counted
    exact steady.counted streamId x (Nat.lt_of_lt_of_le counted (accounts.fewer streamId x))
  · -- A counted offset either went over to the acknowledged ones, or is counted still.
    rcases tracked with before | counted
    · exact Or.inl (releases.keeps streamId x before)
    · rcases accounts.kept streamId x (Or.inr counted) with released | still
      · obtain ⟨piece, member, same, low, high⟩ := McAck.released_iff.mp released
        rw [← same]
        exact Or.inl (releases.acked piece member x low high)
      · refine Or.inr ?_
        rw [releases.mcAck]
        exact still

end Feedback

section Steps

theorem McAck.ackPacket_streams (state : McAck × RangeSet) (pn : Nat) :
    (McAck.ackPacket state pn).1.streamMap = state.1.streamMap ∧
      (McAck.ackPacket state pn).1.streamFull = state.1.streamFull := by
  -- Packets and streams are counted in maps of their own.
  unfold McAck.ackPacket
  cases state.1.acked.find? pn with
  | none =>
    simp only
    split
    · exact ⟨rfl, rfl⟩
    · exact ⟨rfl, rfl⟩
  | some nbRecv =>
    simp only
    split
    · exact ⟨rfl, rfl⟩
    · exact ⟨rfl, rfl⟩

/-- An acknowledgment of packets does not touch the pieces of streams. -/
theorem McAck.onAckReceived_streams (mcAck : McAck) (ranges : RangeSet) :
    (mcAck.onAckReceived ranges).streamMap = mcAck.streamMap ∧
      (mcAck.onAckReceived ranges).streamFull = mcAck.streamFull := by
  -- Induction on the acknowledged packet numbers, each of which leaves the streams alone.
  have each : ∀ (pns : List Nat) (state : McAck × RangeSet),
      (pns.foldl McAck.ackPacket state).1.streamMap = state.1.streamMap ∧
        (pns.foldl McAck.ackPacket state).1.streamFull = state.1.streamFull := by
    intro pns
    induction pns with
    | nil => exact fun _ => ⟨rfl, rfl⟩
    | cons pn rest ih =>
      intro state
      obtain ⟨map, full⟩ := ih (McAck.ackPacket state pn)
      rw [List.foldl_cons, map, full]
      exact McAck.ackPacket_streams state pn
  obtain ⟨map, full⟩ := each ranges.flatten
    ({ mcAck with ackedFull := none }, mcAck.ackedFull.getD RangeSet.default)
  unfold McAck.onAckReceived
  simp only
  split
  · exact ⟨map, full⟩
  · exact ⟨map, full⟩

/-- A call that delegates nothing does not touch the pieces of streams. -/
theorem Source.rfcDelegateStreams_streams (source : Source) (uc : Unicast) {kind : FcUnicastRetransmission}
    (none_ : kind.isDelegates = false) :
    (source.rfcDelegateStreams uc kind).source.mcAck.streamMap = source.mcAck.streamMap ∧
      (source.rfcDelegateStreams uc kind).source.mcAck.streamFull = source.mcAck.streamFull := by
  -- The other kinds of delegation report no piece, and at most acknowledge packets first.
  have started : (source.startLoop uc kind).state.mcAck.streamMap = source.mcAck.streamMap ∧
      (source.startLoop uc kind).state.mcAck.streamFull = source.mcAck.streamFull := by
    cases kind with
    | perUcPath lost => exact McAck.onAckReceived_streams source.mcAck _
    | fullRetransmit => exact ⟨rfl, rfl⟩
    | delegates sure => exact ⟨rfl, rfl⟩
  have kept := @Delegation.delegateTurns_keeps kind
    (fun state => state.mcAck = (source.startLoop uc kind).state.mcAck)
    (lostFrames kind (Source.recvPn uc) source.packets) (source.startLoop uc kind).state rfl
    fun turn _ state same => ?_
  · unfold Source.rfcDelegateStreams
    split
    · rw [(Source.delegateStreams_source source uc kind).1]
      simp only [Source.delegated, kept]
      exact started
    · exact ⟨rfl, rfl⟩
  · rcases turn with ⟨pn, frame⟩
    cases frame with
    | other => exact same
    | streamHeader streamId off len fin =>
      rcases Delegation.delegateFrame_cases kind pn streamId off len fin state with ⟨result, ran, -⟩ |
        ⟨streamFc, streamUc, payload, handed⟩
      · rw [ran]
        exact same
      · rw [handed.mcAck, if_neg (by simp [none_])]
        exact same

/-- A step that delegates nothing does not touch the pieces of streams. -/
theorem SourceRun.next_streams (run : SourceRun) {event : SourceEvent} (none_ : event.delegates = false) :
    (run.next event).source.mcAck.streamMap = run.source.mcAck.streamMap ∧
      (run.next event).source.mcAck.streamFull = run.source.mcAck.streamFull := by
  -- The aggregator changes in two events only: an acknowledgment drains it, a delegation counts.
  cases event with
  | create streamId localParams peerParams isLocal isServer =>
    simp only [SourceRun.next]
    split
    · exact ⟨rfl, rfl⟩
    · exact ⟨rfl, rfl⟩
  | write streamId data fin =>
    simp only [SourceRun.next]
    split
    · exact ⟨rfl, rfl⟩
    · split
      · exact ⟨rfl, rfl⟩
      · exact ⟨rfl, rfl⟩
  | ack ranges expired =>
    simp only [SourceRun.next, Source.fcOnAckReceived]
    split
    · exact ⟨rfl, rfl⟩
    · rename_i made
      split at made
      · simp at made
      · rename_i drained
        simp only [Option.some.injEq] at made
        subst made
        -- Draining drops counters of packets only.
        unfold McAck.drainPackets at drained
        split at drained
        · simp at drained
        · simp only [Option.some.injEq] at drained
          rw [← drained]
          exact ⟨rfl, rfl⟩
        · simp only [Option.some.injEq] at drained
          rw [← drained]
          exact ⟨rfl, rfl⟩
  | delegate uc kind => exact run.source.rfcDelegateStreams_streams uc none_
  | gather kind =>
    simp only [SourceRun.next, Source.fcGetDelegatedStream]
    rcases Source.gatherPackets kind run.source.packets run.source.streams [] with ⟨result, packets, streams, pieces⟩
    cases result with
    | error error => exact ⟨rfl, rfl⟩
    | ok _ => exact ⟨rfl, rfl⟩
  | send pktNum parts => exact ⟨rfl, rfl⟩
  | lose pktNum => exact ⟨rfl, rfl⟩
  | streamAck streamId off len => exact ⟨rfl, rfl⟩
  | maxData streamId limit => exact ⟨rfl, rfl⟩
  | shutDown streamId => exact ⟨rfl, rfl⟩
  | stop streamId code => exact ⟨rfl, rfl⟩

/-- A step of the source that delegates nothing keeps the flow steady, and loses no offset. -/
theorem Steady.next {run : SourceRun} (steady : Steady run) {event : SourceEvent} (allowed : run.Allowed event)
    (none_ : event.delegates = false) : Steady (run.next event) ∧ KeepsTracked run (run.next event) := by
  -- The counters stay as they were, while the acknowledged offsets and the history can only grow.
  obtain ⟨map, full⟩ := run.next_streams none_
  have streams : ∀ streamId, (run.next event).source.mcAck.streamOf streamId =
      run.source.mcAck.streamOf streamId := fun streamId => by rw [McAck.streamOf, map, ← McAck.streamOf]
  have counters : ∀ streamId x, (run.next event).source.mcAck.counter streamId x =
      run.source.mcAck.counter streamId x := fun streamId x => by rw [McAck.counter, streams, ← McAck.counter]
  refine ⟨⟨steady.sound.next event allowed, ⟨fun streamId => ?_, fun streamId => ?_⟩, ?_,
    fun streamId x counted => ?_⟩, fun streamId x tracked => ?_⟩
  · rw [streams]
    exact steady.formed.disjoint streamId
  · rw [full]
    exact steady.formed.full streamId
  · rw [full]
    exact steady.idle
  · rw [counters] at counted
    exact Nat.lt_of_lt_of_le (steady.counted streamId x counted) (run.written_length_le event streamId)
  · exact tracked.imp (steady.sound.keepsAcked event streamId x) fun counted => by rw [counters]; exact counted

end Steps

/-- The delegations that a call makes to a unicast connection, if its receiver listens. -/
def callsOf (packets : List Sent) (uc : Unicast) : List (Nat × Nat × Nat) :=
  if uc.listens then uc.calls (lostFrames (.delegates true) (Source.recvPn uc) packets) else []

section Rounds

variable {packets : List Sent} {uc : Unicast}

theorem mem_lostFrames {kind : FcUnicastRetransmission} {recvPn : RangeSet} {pn : Nat} {frame : SentFrame}
    (member : (pn, frame) ∈ lostFrames kind recvPn packets) : ∃ packet ∈ packets, frame ∈ packet.frames := by
  obtain ⟨packet, among, inside⟩ := List.mem_flatMap.mp member
  obtain ⟨frame', has, same⟩ := List.mem_map.mp inside
  cases same
  exact ⟨packet, List.takeWhile_subset _ (List.mem_filter.mp among).1, has⟩

/-- Every delegation is one of a frame of the packets. -/
theorem mem_callsOf {call : Nat × Nat × Nat} (member : call ∈ callsOf packets uc) :
    ∃ packet ∈ packets, ∃ fin, .streamHeader call.1 call.2.1 call.2.2 fin ∈ packet.frames := by
  unfold callsOf at member
  split at member
  · obtain ⟨⟨pn, frame⟩, lost, called⟩ := List.mem_filterMap.mp member
    obtain ⟨packet, among, inside⟩ := mem_lostFrames lost
    cases frame with
    | other => simp at called
    | streamHeader streamId off len fin =>
      simp only at called
      split at called
      · simp at called
      · simp only [Option.some.injEq] at called
        subst called
        exact ⟨packet, among, fin, inside⟩
  · simp at member

/-- What a call of delegation counts at the source: all its pieces, or those before an error. -/
theorem Source.rfcDelegateStreams_mcAck (source : Source) (uc : Unicast) (sure : Bool) :
    ∃ done, done <+: callsOf source.packets uc ∧
      (source.rfcDelegateStreams uc (.delegates sure)).source.mcAck =
        Runs.run McAck.delegatePiece source.mcAck done ∧
      ((source.rfcDelegateStreams uc (.delegates sure)).result.isOk = true →
        done = callsOf source.packets uc) := by
  -- The loop counts a first part of the delegations, and all of them unless it met an error.
  unfold Source.rfcDelegateStreams callsOf
  cases uc.listens with
  | false => exact ⟨[], List.nil_prefix, rfl, fun _ => rfl⟩
  | true =>
    obtain ⟨done, first, counted, all⟩ := @Delegation.delegateTurns_mcAck (.delegates sure) rfl uc
      (lostFrames (.delegates sure) (Source.recvPn uc) source.packets)
      (source.startLoop uc (.delegates sure)).state fun _ => rfl
    refine ⟨done, first, ?_, fun well => all ?_⟩
    · rw [if_pos rfl, (Source.delegateStreams_source source uc (.delegates sure)).1]
      exact counted
    · rw [if_pos rfl] at well
      cases result : (source.delegateStreams uc (.delegates sure)).result with
      | error error => simp [result, Except.isOk, Except.toBool] at well
      | ok value => exact (Source.delegateStreams_ok result).1

theorem Source.rfcDelegateStreams_unsure (source : Source) (uc : Unicast) :
    (source.rfcDelegateStreams uc (.delegates false)).source.packets = source.packets := by
  unfold Source.rfcDelegateStreams
  split
  · rw [(Source.delegateStreams_source source uc (.delegates false)).1]
    exact delegatePackets_unsure rfl source.packets _
  · rfl

/-- A call of delegation keeps the streams of the source on their sides. -/
theorem Source.rfcDelegateStreams_local (source : Source) (uc : Unicast) (kind : FcUnicastRetransmission)
    (probe : Nat) :
    ((source.rfcDelegateStreams uc kind).source.streams.get probe).map Stream.isLocal =
      (source.streams.get probe).map Stream.isLocal := by
  -- Reading back replaces a stream by one on the same side.
  unfold Source.rfcDelegateStreams
  split
  · rw [(Source.delegateStreams_source source uc kind).1]
    refine @Delegation.delegateTurns_keeps kind
      (fun state => (state.streams.get probe).map Stream.isLocal = (source.streams.get probe).map Stream.isLocal)
      (lostFrames kind (Source.recvPn uc) source.packets) (source.startLoop uc kind).state rfl
      fun turn _ state same => ?_
    rcases turn with ⟨pn, frame⟩
    cases frame with
    | other => exact same
    | streamHeader streamId off len fin =>
      rcases Delegation.delegateFrame_cases kind pn streamId off len fin state with ⟨result, ran, -⟩ |
        ⟨streamFc, streamUc, payload, handed⟩
      · rw [ran]
        exact same
      · rw [handed.streams_local]
        exact same
  · rfl

theorem Source.rfcDelegateStreams_sure {source : Source} (listens : uc.listens = true)
    (accepts : ∀ lost ∈ lostFrames (.delegates true) (Source.recvPn uc) source.packets,
      uc.Accepts source.streams lost.2) :
    (source.rfcDelegateStreams uc (.delegates true)).source.packets = markPackets (.delegates true) source.packets ∧
      (source.rfcDelegateStreams uc (.delegates true)).source.mcAck =
        Runs.run McAck.delegatePiece source.mcAck (callsOf source.packets uc) := by
  -- No frame is refused, so the loop runs to its end and marks every lost packet.
  have ended := @Delegation.delegateTurns_accepted (.delegates true) _
    (source.startLoop uc (.delegates true)).state accepts
  obtain ⟨done, -, counted, all⟩ := @Delegation.delegateTurns_mcAck (.delegates true) rfl uc
    (lostFrames (.delegates true) (Source.recvPn uc) source.packets)
    (source.startLoop uc (.delegates true)).state fun _ => rfl
  rw [all ended] at counted
  unfold Source.rfcDelegateStreams callsOf
  rw [listens, if_pos rfl, if_pos rfl, (Source.delegateStreams_source source uc (.delegates true)).1]
  refine ⟨delegatePackets_marks source.packets _ ?_, counted⟩
  rw [(delegatePackets_turns _ _ _ _).1]
  exact ended

/-- What a round of delegation leaves behind, whether an error ends it or not. -/
structure RoundEffect (run after : SourceRun) (ucs : List Unicast) (done : List (Nat × Nat × Nat)) : Prop where
  sound : after.Sound
  written : after.written = run.written
  keeps : KeepsAcked run.source.streams after.source.streams
  first : done <+: ucs.flatMap (callsOf run.source.packets)
  counts : after.source.mcAck = Runs.run McAck.delegatePiece run.source.mcAck done
  /-- Packets are marked only after all delegations were made. -/
  marks : after.source.packets = run.source.packets ∨
    (∃ last, ucs.getLast? = some last ∧ last.listens = true) ∧
      done = ucs.flatMap (callsOf run.source.packets) ∧
      after.source.packets = markPackets (.delegates true) run.source.packets

/-- The last unicast connection takes every lost frame without an error. -/
def LastAccepts (ucs : List Unicast) (source : Source) : Prop :=
  ∀ last, ucs.getLast? = some last → last.listens = true →
    ∀ lost ∈ lostFrames (.delegates true) (Source.recvPn last) source.packets,
      last.Accepts source.streams lost.2

/-- The only call of a round marks the lost packets, if its receiver listens. -/
theorem RoundEffect.last {run : SourceRun} (sound : run.Sound) (accepts : LastAccepts [uc] run.source) :
    ∃ done, RoundEffect run (run.next (.delegate uc (.delegates true))) [uc] done := by
  -- A receiver that does not listen is passed over, and then nothing is marked.
  have sound' := sound.next (.delegate uc (.delegates true)) trivial
  have keeps := sound.keepsAcked (.delegate uc (.delegates true))
  cases listens : uc.listens with
  | false =>
    have same : (run.next (.delegate uc (.delegates true))).source = run.source := by
      simp [SourceRun.next, Source.rfcDelegateStreams, listens]
    exact ⟨[], sound', rfl, keeps, List.nil_prefix, by rw [same]; rfl, Or.inl (by rw [same])⟩
  | true =>
    obtain ⟨marked, counted⟩ := Source.rfcDelegateStreams_sure listens (accepts uc rfl listens)
    have all : [uc].flatMap (callsOf run.source.packets) = callsOf run.source.packets uc := by
      simp
    refine ⟨callsOf run.source.packets uc, sound', rfl, keeps, ?_, counted,
      Or.inr ⟨⟨uc, rfl, listens⟩, all.symm, marked⟩⟩
    exact ⟨[], by rw [all, List.append_nil]⟩

/-- A round counts its delegations one after the other, and marks the lost packets at its end. -/
theorem RoundEffect.round (ucs : List Unicast) :
    ∀ {run : SourceRun}, run.Sound → LastAccepts ucs run.source →
      ∃ done, RoundEffect run (run.sourceDelegatesStreamsDirect ucs) ucs done := by
  -- Every call but the last leaves the packets alone, so the later ones find the same lost frames.
  induction ucs with
  | nil =>
    exact fun sound _ => ⟨[], sound, rfl, KeepsAcked.refl _, List.nil_prefix, rfl, Or.inl rfl⟩
  | cons uc rest ih =>
    intro run sound accepts
    cases rest with
    | nil => exact RoundEffect.last sound accepts
    | cons second rest =>
      have sound' := sound.next (.delegate uc (.delegates false)) trivial
      have keeps := sound.keepsAcked (.delegate uc (.delegates false))
      have same : (run.next (.delegate uc (.delegates false))).source.packets = run.source.packets :=
        run.source.rfcDelegateStreams_unsure uc
      obtain ⟨done, first, counted, all⟩ := run.source.rfcDelegateStreams_mcAck uc false
      simp only [SourceRun.sourceDelegatesStreamsDirect]
      split
      · rename_i well
        -- The delegation read pieces back, which changes nothing for what the last connection accepts.
        have still : LastAccepts (second :: rest) (run.next (.delegate uc (.delegates false))).source := by
          intro last found listens lost member
          rw [same] at member
          exact (accepts last (by rw [List.getLast?_cons_cons]; exact found) listens lost member).congr
            (run.source.rfcDelegateStreams_local uc (.delegates false))
        obtain ⟨done', effect⟩ := ih sound' still
        have whole := all well
        have packets := effect.first
        rw [same] at packets
        -- The delegations of the first call come before those of the calls behind it.
        refine ⟨done ++ done', effect.sound, effect.written, keeps.trans effect.keeps, ?_, ?_, ?_⟩
        · rw [List.flatMap_cons, whole]
          exact (List.prefix_append_right_inj _).mpr packets
        · rw [effect.counts, Runs.run_append, ← counted]
          rfl
        · have marks := effect.marks
          rw [same] at marks
          refine marks.imp_right fun marked => ⟨?_, ?_, marked.2.2⟩
          · rw [List.getLast?_cons_cons]
            exact marked.1
          · rw [List.flatMap_cons, whole, marked.2.1]
      · refine ⟨done, sound', rfl, keeps, ?_, counted, Or.inl same⟩
        rw [List.flatMap_cons]
        exact first.trans (List.prefix_append _ _)

end Rounds

section Marked

theorem newlyMarked_self (packets : List Sent) : newlyMarked packets packets = [] := by
  -- A packet compared with itself has no mark that it lacked.
  induction packets with
  | nil => rfl
  | cons packet rest ih =>
    unfold newlyMarked at ih ⊢
    rw [List.zip_cons_cons, List.flatMap_cons, ih, List.append_nil]
    exact if_neg (by simp)

/-- Frames that are newly marked are frames of lost packets that the round handles. -/
theorem mem_newlyMarked (packets : List Sent) :
    ∀ frame ∈ newlyMarked packets (markPackets (.delegates true) packets),
      ∃ pn, (pn, frame) ∈ lostFrames (.delegates true) RangeSet.default packets := by
  -- The marking follows the same loop as the delegation, packet by packet.
  induction packets with
  | nil => exact fun frame member => by simp [newlyMarked] at member
  | cons packet rest ih =>
    intro frame member
    rw [markPackets] at member
    cases goes : FcUnicastRetransmission.goesOn (.delegates true) packet with
    | false =>
      -- The loop ends here, and the packets behind it stay as they are.
      rw [goes] at member
      simp [newlyMarked_self] at member
    | true =>
      rw [goes] at member
      rw [Source.lostFrames_cons goes]
      unfold newlyMarked at member
      simp only [Bool.not_true, Bool.false_eq_true, if_false, List.zip_cons_cons, List.flatMap_cons,
        List.mem_append] at member
      -- A newly marked packet was lost, so the loop picked it.
      rcases member with here | behind
      · simp only [List.mem_ite_nil_right, Bool.and_eq_true] at here
        obtain ⟨⟨⟨lost, -⟩, -⟩, inside⟩ := here
        have picked : FcUnicastRetransmission.picks (.delegates true) packet = true := by
          simp [FcUnicastRetransmission.picks, lost]
        rw [picked, if_pos rfl]
        exact ⟨packet.pktNum, List.mem_append_left _ (List.mem_map_of_mem inside)⟩
      · obtain ⟨pn, among⟩ := ih frame behind
        exact ⟨pn, List.mem_append_right _ among⟩

end Marked

/--
What a round of delegation needs to find for no byte to get lost.

Every byte of a lost packet is accounted for, or in a piece that some unicast connection is given,
the last unicast connection takes its pieces without an error, and all pieces are counted cleanly.
-/
structure RoundCovers (source : Source) (ucs : List Unicast) : Prop where
  /-- Every byte of a packet that is to be marked is accounted for, or is given to a unicast connection. -/
  reached : (∃ last, ucs.getLast? = some last ∧ last.listens = true) →
    ∀ pn streamId off len fin,
      (pn, .streamHeader streamId off len fin) ∈ lostFrames (.delegates true) RangeSet.default source.packets →
      ∀ x, off ≤ x → x < off + len → source.Tracks streamId x ∨
        0 < McAck.coveringOf (ucs.flatMap (callsOf source.packets)) streamId x
  /-- The last unicast connection takes every lost frame without an error. -/
  accepted : LastAccepts ucs source
  clean : Runs.Along McAck.delegatePiece McAck.CleanCall source.mcAck (ucs.flatMap (callsOf source.packets))

/-- What a step of the flow needs to find for no byte to get lost. -/
def Flow.Covers (flow : Flow) : FlowEvent → Prop
  | .round ucs => RoundCovers flow.run.source ucs
  | _ => True

section Invariant

/-- A round keeps the flow steady and loses no offset, and accounts for every byte that it marks. -/
theorem Steady.round {run : SourceRun} (steady : Steady run) {ucs : List Unicast}
    (covers : RoundCovers run.source ucs) :
    Steady (run.sourceDelegatesStreamsDirect ucs) ∧
      KeepsTracked run (run.sourceDelegatesStreamsDirect ucs) ∧
      ∀ streamId off len fin,
        .streamHeader streamId off len fin ∈
          newlyMarked run.source.packets (run.sourceDelegatesStreamsDirect ucs).source.packets →
        ∀ x, off ≤ x → x < off + len →
          (run.sourceDelegatesStreamsDirect ucs).source.Tracks streamId x := by
  -- The counters grow by the delegations that were made, and the call marks packets only after all of them.
  obtain ⟨done, effect⟩ := RoundEffect.round ucs steady.sound covers.accepted
  generalize run.sourceDelegatesStreamsDirect ucs = after at effect ⊢
  obtain ⟨rest, whole⟩ := effect.first
  have clean := covers.clean
  rw [← whole] at clean
  have counted := McAck.counter_delegatePieces done run.source.mcAck (fun call _ _ => steady.formed.disjoint call.1)
    (Runs.along_append.mp clean).1
  rw [← effect.counts] at counted
  -- Only pieces of written bytes were counted.
  have inside : ∀ streamId x, 0 < McAck.coveringOf done streamId x → x < (run.written streamId).length := by
    intro streamId x some_
    obtain ⟨call, member, range⟩ := List.countP_pos_iff.mp some_
    simp only [decide_eq_true_eq] at range
    have among : call ∈ ucs.flatMap (callsOf run.source.packets) := by
      rw [← whole]
      exact List.mem_append_left _ member
    obtain ⟨uc, -, called⟩ := List.mem_flatMap.mp among
    obtain ⟨packet, sent, fin, frame⟩ := mem_callsOf called
    have within_ := steady.sound.frames packet sent _ frame
    simp only [SentFrame.Within] at within_
    rw [← range.1]
    omega
  have tracks : KeepsTracked run after := by
    intro streamId x tracked
    refine tracked.imp (effect.keeps streamId x) fun before => ?_
    rw [(counted streamId).2]
    omega
  have full : after.source.mcAck.streamFull = run.source.mcAck.streamFull := by
    rw [effect.counts]
    exact McAck.delegatePieces_full done run.source.mcAck
  refine ⟨⟨effect.sound,
    ⟨fun streamId => (counted streamId).1 (steady.formed.disjoint streamId), fun streamId => ?_⟩, ?_, ?_⟩, tracks, ?_⟩
  · rw [full]
    exact steady.formed.full streamId
  · rw [full]
    exact steady.idle
  · intro streamId x some_
    rw [(counted streamId).2] at some_
    rw [effect.written]
    by_cases before : 0 < run.source.mcAck.counter streamId x
    · exact steady.counted streamId x before
    · exact inside streamId x (by omega)
  · -- A marked byte was accounted for before the round, or a delegation of the round covers it.
    intro streamId off len fin member x low high
    rcases effect.marks with same | ⟨last, all, marked⟩
    · rw [same, newlyMarked_self] at member
      simp at member
    · rw [marked] at member
      obtain ⟨pn, lost⟩ := mem_newlyMarked _ _ member
      rcases covers.reached last pn streamId off len fin lost x low high with before | covered
      · exact tracks streamId x before
      · refine Or.inr ?_
        rw [(counted streamId).2, all]
        omega

/-- The flow is steady, and every byte of a marked packet is accounted for. -/
structure FlowInv (flow : Flow) : Prop where
  steady : Steady flow.run
  /-- The bytes of the marked packets are accounted for. -/
  tracked : ∀ streamId off len fin, .streamHeader streamId off len fin ∈ flow.marked →
    ∀ x, off ≤ x → x < off + len → flow.run.source.Tracks streamId x

/-- Every step of the flow keeps the bytes of the marked packets accounted for. -/
theorem FlowInv.next {flow : Flow} (inv : FlowInv flow) {event : FlowEvent} (allowed : flow.Allowed event)
    (covers : flow.Covers event) : FlowInv (flow.next event) := by
  -- Nothing is marked outside a round, and no step loses an offset that is accounted for.
  cases event with
  | source event =>
    obtain ⟨steady, tracks⟩ := inv.steady.next allowed.1 allowed.2
    exact ⟨steady, fun streamId off len fin member x low high =>
      tracks streamId x (inv.tracked streamId off len fin member x low high)⟩
  | feedback acked =>
    obtain ⟨steady, tracks⟩ := inv.steady.ucToMcControl acked
    exact ⟨steady, fun streamId off len fin member x low high =>
      tracks streamId x (inv.tracked streamId off len fin member x low high)⟩
  | round ucs =>
    obtain ⟨steady, tracks, marked⟩ := inv.steady.round covers
    refine ⟨steady, fun streamId off len fin member x low high => ?_⟩
    rcases List.mem_append.mp member with old | new
    · exact tracks streamId x (inv.tracked streamId off len fin old x low high)
    · exact marked streamId off len fin new x low high

end Invariant

namespace Flow

/--
In every run whose rounds each reach all bytes of the packets that they mark,
every byte of a marked packet is acknowledged at the source or still counted by its aggregator.
-/
theorem marked_bytes_accounted (maxStreamsBidi maxStreamsUni maxStreamWindow peerMaxBidi peerMaxUni : Nat)
    (events : List FlowEvent)
    (met : Runs.Along next (fun flow event => flow.Allowed event ∧ flow.Covers event)
      (start maxStreamsBidi maxStreamsUni maxStreamWindow peerMaxBidi peerMaxUni) events)
    (streamId off len : Nat) (fin : Bool)
    (member : .streamHeader streamId off len fin ∈
      (Runs.run next (start maxStreamsBidi maxStreamsUni maxStreamWindow peerMaxBidi peerMaxUni) events).marked)
    (x : Nat) (low : off ≤ x) (high : x < off + len) :
    AckedAt (Runs.run next (start maxStreamsBidi maxStreamsUni maxStreamWindow peerMaxBidi peerMaxUni)
        events).run.source.streams streamId x ∨
      0 < (Runs.run next (start maxStreamsBidi maxStreamsUni maxStreamWindow peerMaxBidi peerMaxUni)
        events).run.source.mcAck.counter streamId x := by
  -- The invariant is carried along the run; every step meets its condition.
  have held := @Runs.Along.keeps _ _ next _ FlowInv (fun flow event inv ok => inv.next ok.1 ok.2) events _
    ⟨steady_start maxStreamsBidi maxStreamsUni maxStreamWindow peerMaxBidi peerMaxUni,
      fun _ _ _ _ member => by simp [start] at member⟩ met
  exact held.tracked streamId off len fin member x low high

/-- The source writes eight bytes on a stream, sends the first four in a packet, and loses it. -/
def lossSteps : List FlowEvent :=
  [.source (.create 3 SourceRun.smallParams SourceRun.smallParams true true),
    .source (.write 3 [97, 98, 99, 100, 101, 102, 103, 104] false), .source (.send 1 [(3, 4)]),
    .source (.lose 1)]

/-- The lost packet reaches a receiver that has nothing of it. -/
theorem listener_covers :
    RoundCovers (Runs.run next (start 8 8 100 8 8) lossSteps).run.source [SourceRun.listener] := by
  have lost : lostFrames (.delegates true) RangeSet.default
      (Runs.run next (start 8 8 100 8 8) lossSteps).run.source.packets = [(1, .streamHeader 3 0 4 false)] := by
    decide
  refine ⟨fun _ pn streamId off len fin member x low high => ?_, fun last found _ => ?_, by decide⟩
  · rw [lost, List.mem_singleton] at member
    cases member
    -- The one delegation covers each of the four bytes.
    have each : ∀ y < 4, 0 < McAck.coveringOf ([SourceRun.listener].flatMap
        (callsOf (Runs.run next (start 8 8 100 8 8) lossSteps).run.source.packets)) 3 y := by
      decide
    exact Or.inr (each x (by omega))
  · rw [List.getLast?_singleton, Option.some.injEq] at found
    subst found
    decide

/-- A round over one receiver marks the packet, and its bytes are counted until the receiver has them. -/
theorem marked_bytes_accounted_once :
    .streamHeader 3 0 4 false ∈ (Runs.run next (start 8 8 100 8 8)
        (lossSteps ++ [.round [SourceRun.listener]])).marked ∧
      (AckedAt (Runs.run next (start 8 8 100 8 8)
          (lossSteps ++ [.round [SourceRun.listener]])).run.source.streams 3 2 ∨
        0 < (Runs.run next (start 8 8 100 8 8)
          (lossSteps ++ [.round [SourceRun.listener]])).run.source.mcAck.counter 3 2) := by
  have marked : .streamHeader 3 0 4 false ∈ (Runs.run next (start 8 8 100 8 8)
      (lossSteps ++ [.round [SourceRun.listener]])).marked := by
    decide
  refine ⟨marked, marked_bytes_accounted 8 8 100 8 8 (lossSteps ++ [.round [SourceRun.listener]]) ?_ 3 0 4 false
    marked 2 (by decide) (by decide)⟩
  refine Runs.along_append.mpr ⟨?_, ⟨trivial, listener_covers⟩, trivial⟩
  exact ⟨⟨by decide, trivial⟩, ⟨by decide, trivial⟩, ⟨by decide, trivial⟩, ⟨by decide, trivial⟩, trivial⟩

/-- A unicast connection whose receiver has the packet after all. -/
def lateReceiver : Unicast :=
  { SourceRun.listener with server := some ⟨RangeSet.default.insert 1 2, McAck.new⟩ }

/-- The lost packet turns out to be received, and a round marks and empties it. -/
def lateSteps : List FlowEvent :=
  lossSteps ++
    [.source (.ack (RangeSet.default.insert 1 2) fun _ => false), .round [lateReceiver]]

/-- The bytes of the packet are then neither acknowledged at the source nor counted. -/
theorem received_packet_forgotten :
    Runs.Along next Allowed (start 8 8 100 8 8) lateSteps ∧
      .streamHeader 3 0 4 false ∈ (Runs.run next (start 8 8 100 8 8) lateSteps).marked ∧
      ¬ (AckedAt (Runs.run next (start 8 8 100 8 8) lateSteps).run.source.streams 3 2 ∨
        0 < (Runs.run next (start 8 8 100 8 8) lateSteps).run.source.mcAck.counter 3 2) := by
  decide

end Flow

end Flexicast
