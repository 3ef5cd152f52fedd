import Flexicast.Recovery.Intact
import Flexicast.Recovery.Source
import Flexicast.Recovery.Turns

/-! Runs of the source: every delegated piece carries the bytes that the application wrote. -/

namespace Flexicast

/-- What holds of the streams of the source and the bytes written to them. -/
structure StreamsSound (written : Nat → Bytes) (streams : StreamMap) : Prop where
  /-- Every stream keeps what was written, and does not rotate. -/
  intact : ∀ id stream, streams.get id = some stream →
    stream.send.fcSendBuf = none ∧ Intact (written id) stream.send.main
  /-- A stream that is not there was collected, or nothing was written to it yet. -/
  fresh : ∀ id, streams.get id = none → streams.isCollected id = true ∨ written id = []

section Streams

variable {written : Nat → Bytes} {streams : StreamMap}

variable {id : Nat} {stream : Stream}

/-- A stream may be replaced by one that keeps what was written. -/
theorem StreamsSound.set (sound : StreamsSound written streams) (plain : stream.send.fcSendBuf = none)
    (intact : Intact (written id) stream.send.main) : StreamsSound written (streams.set id stream) := by
  -- Only the replaced stream is looked at again, and it is present afterwards.
  refine ⟨fun probe other found => ?_, fun probe absent => ?_⟩
  · rw [StreamMap.get_set] at found
    split at found
    · rename_i same
      cases found
      rw [same]
      exact ⟨plain, intact⟩
    · exact sound.intact probe other found
  · rw [StreamMap.get_set] at absent
    split at absent
    · simp at absent
    · exact sound.fresh probe absent

/-- A stream may be collected. -/
theorem StreamsSound.collect (sound : StreamsSound written streams) (id : Nat) (isLocal : Bool) :
    StreamsSound written (streams.collect id isLocal) := by
  -- The collected stream is absent and recorded as collected; the others are looked up as before.
  refine ⟨fun probe stream found => ?_, fun probe absent => ?_⟩
  · rw [StreamMap.get_collect] at found
    split at found
    · simp at found
    · exact sound.intact probe stream found
  · rw [StreamMap.get_collect] at absent
    rw [StreamMap.isCollected_collect]
    split at absent
    · rename_i same
      exact Or.inl (by simp [same])
    · exact (sound.fresh probe absent).imp (fun collected => by simp [collected]) fun nothing => nothing

/-- An acknowledged frame of written bytes keeps the streams sound. -/
theorem StreamsSound.onStreamAcked (sound : StreamsSound written streams) {off len : Nat}
    (inside : len = 0 ∨ off + len ≤ (written id).length) : StreamsSound written (streams.onStreamAcked id off len) := by
  -- An acknowledgment for an unknown stream changes nothing.
  cases found : streams.get id with
  | none =>
    rw [StreamMap.onStreamAcked_absent found]
    exact sound
  | some stream =>
    obtain ⟨plain, intact⟩ := sound.intact id stream found
    -- The stream does not rotate, so the acknowledgment reaches the main buffer alone.
    have same : stream.send = ⟨stream.send.main, none⟩ := by rw [← plain]
    have main : stream.send.ackAndDrop off len = ⟨stream.send.main.ackAndDrop off len, none⟩ := by
      rw [same, RotSendBuf.ackAndDrop_main]
    have acked : StreamsSound written
        (streams.set id { stream with send := stream.send.ackAndDrop off len }) :=
      sound.set (by rw [main]) (by rw [main]; exact intact.ackAndDrop inside)
    -- The acknowledged stream either stays or is complete and collected.
    rcases StreamMap.onStreamAcked_present found off len with kept | gone
    · rw [kept]
      exact acked
    · rw [gone]
      exact acked.collect id stream.isLocal

theorem StreamsSound.fetch (sound : StreamsSound written streams) (found : streams.get id = some stream)
    (off len : Nat) : StreamsSound written (streams.set id { stream with send := (fetch stream.send off len).2 }) := by
  obtain ⟨plain, intact⟩ := sound.intact id stream found
  obtain ⟨plain', intact'⟩ := intact.fetch plain off len
  exact sound.set plain' intact'

/-- A stream that is opened is sound when nothing was written to it before. -/
theorem StreamsSound.opened (sound : StreamsSound written streams) {opened : StreamMap} {isLocal : Bool}
    {maxTxData : Nat} (made : StreamMap.Opened streams id isLocal maxTxData stream opened) :
    StreamsSound written opened := by
  -- Opening changes the lookup at the opened identifier only.
  refine ⟨fun probe other found => ?_, fun probe absent => ?_⟩
  · rw [made.get] at found
    split at found
    · rename_i same
      cases found
      rw [same]
      rcases made.origin with present | ⟨absent, fresh, maxRxData, maxWindow, new⟩
      · exact sound.intact id stream present
      · -- Nothing was written to a stream that is neither there nor collected.
        have nothing : written id = [] := (sound.fresh id absent).resolve_left (by simp [fresh])
        rw [nothing, new]
        exact ⟨rfl, intact_new maxTxData⟩
    · exact sound.intact probe other found
  · rw [made.get] at absent
    split at absent
    · simp at absent
    · rw [made.collected]
      exact sound.fresh probe absent

end Streams

/-- The frame of a packet lies within the bytes written to its stream. -/
def SentFrame.Within (written : Nat → Bytes) : SentFrame → Prop
  | .streamHeader streamId off len _ => off + len ≤ (written streamId).length
  | .other => True

variable {written : Nat → Bytes}

variable {written' : Nat → Bytes} {kind : FcUnicastRetransmission} {state : Delegation}

theorem SentFrame.Within.mono (grows : ∀ id, (written id).length ≤ (written' id).length) {frame : SentFrame}
    (inside : frame.Within written) : frame.Within written' := by
  cases frame with
  | other => trivial
  | streamHeader streamId off len fin => exact Nat.le_trans inside (grows streamId)

theorem StreamsSound.ackFrames (frames : List SentFrame) :
    ∀ {streams : StreamMap}, StreamsSound written streams → (∀ frame ∈ frames, frame.Within written) →
      StreamsSound written (frames.foldl ackFrame streams) := by
  -- Induction on the frames; only stream headers touch the streams.
  induction frames with
  | nil => exact fun sound _ => sound
  | cons frame rest ih =>
    intro streams sound inside
    have here := inside frame List.mem_cons_self
    refine ih ?_ fun later member => inside later (List.mem_cons_of_mem _ member)
    cases frame with
    | other => exact sound
    | streamHeader streamId off len fin => exact sound.onStreamAcked (Or.inr here)

/-- The data taken into a packet keeps the streams sound, and its frames lie within what was written. -/
theorem StreamsSound.sendPart {state : StreamMap × List SentFrame} (sound : StreamsSound written state.1)
    (inside : ∀ frame ∈ state.2, frame.Within written) (part : Nat × Nat) :
    StreamsSound written (Source.sendPart state part).1 ∧
      ∀ frame ∈ (Source.sendPart state part).2, frame.Within written := by
  unfold Source.sendPart
  cases found : state.1.get part.1 with
  | none => exact ⟨sound, inside⟩
  | some stream =>
    obtain ⟨plain, intact⟩ := sound.intact part.1 stream found
    have same : stream.send = ⟨stream.send.main, none⟩ := by rw [← plain]
    have sent := intact.emit part.2
    obtain ⟨out, data, pos, ran, taken, -⟩ := intact.shape.emit_eq part.2
    -- Without a rotation buffer the main buffer alone is sent from.
    have emits : stream.send.emit part.2 =
        (.ok (stream.send.main.emit part.2).1, ⟨(stream.send.main.emit part.2).2, none⟩) := by
      rw [same]
      simp [RotSendBuf.emit]
    simp only [emits]
    -- The emitted bytes end at the new send offset, which lies within what was written.
    refine ⟨sound.set rfl sent, fun frame member => ?_⟩
    rcases List.mem_append.mp member with old | new
    · exact inside frame old
    · rw [List.mem_singleton] at new
      rw [new, ran]
      show stream.send.main.offFront + out.length ≤ (written part.1).length
      have reaches := intact.off_le
      have emitted := sent.emitted
      rw [ran] at emitted
      simp only at emitted
      omega

theorem StreamsSound.sendParts (parts : List (Nat × Nat)) :
    ∀ {state : StreamMap × List SentFrame}, StreamsSound written state.1 →
      (∀ frame ∈ state.2, frame.Within written) →
      StreamsSound written (parts.foldl Source.sendPart state).1 ∧
        ∀ frame ∈ (parts.foldl Source.sendPart state).2, frame.Within written := by
  -- The frames collected so far are carried along, since each part adds one.
  induction parts with
  | nil => exact fun sound inside => ⟨sound, inside⟩
  | cons part rest ih =>
    intro state sound inside
    obtain ⟨sound', inside'⟩ := sound.sendPart inside part
    exact ih sound' inside'

theorem StreamsSound.delegateTurns (turns : List (Nat × SentFrame)) (sound : StreamsSound written state.streams) :
    StreamsSound written (Delegation.delegateTurns kind turns state).2.streams := by
  -- A turn hands nothing over, or reads back one piece of one stream.
  refine @Delegation.delegateTurns_keeps kind (fun state => StreamsSound written state.streams) turns state
    sound fun turn _ state sound => ?_
  cases frame : turn.2 with
  | other => exact sound
  | streamHeader streamId off len fin =>
    rcases Delegation.delegateFrame_cases kind turn.1 streamId off len fin state with ⟨result, ran, -⟩ |
      ⟨streamFc, streamUc, payload, handed⟩
    · rw [ran]
      exact sound
    · rw [handed.streams]
      exact sound.fetch handed.found off len

/-- Acknowledged packets keep their frames or lose them, and pass on frames of their own. -/
theorem ackPackets_frames (acked : RangeSet) (packets : List Sent) :
    FramesKept packets (ackPackets acked packets).1 ∧
      ∀ frame ∈ (ackPackets acked packets).2, ∃ packet ∈ packets, frame ∈ packet.frames := by
  -- A packet acknowledged now passes its frames on; every other packet keeps its own.
  induction packets with
  | nil => exact ⟨FramesKept.refl [], fun frame member => by simp [ackPackets] at member⟩
  | cons packet rest ih =>
    obtain ⟨kept, passed⟩ := ih
    have later : ∀ frame ∈ (ackPackets acked rest).2, ∃ earlier ∈ packet :: rest, frame ∈ earlier.frames := by
      intro frame member
      obtain ⟨earlier, among, inside⟩ := passed frame member
      exact ⟨earlier, List.mem_cons_of_mem _ among, inside⟩
    simp only [ackPackets]
    split
    · exact ⟨kept.cons fun _ inside => inside, later⟩
    · split
      · exact ⟨kept.cons fun _ inside => inside, later⟩
      · refine ⟨kept.cons fun _ inside => by simp at inside, fun frame member => ?_⟩
        rcases List.mem_append.mp member with own | other
        · exact ⟨packet, List.mem_cons_self, own⟩
        · exact later frame other

/-- Draining drops packets and changes none. -/
theorem drainSent_subset (expired : Nat → Bool) (packets : List Sent) :
    ∀ packet ∈ drainSent expired packets, packet ∈ packets := by
  -- Draining stops at the first packet that has to stay.
  induction packets with
  | nil => exact fun packet member => member
  | cons first rest ih =>
    intro packet member
    simp only [drainSent] at member
    split at member
    · exact member
    · split at member
      · exact member
      · exact List.mem_cons_of_mem _ (ih packet member)

/-- A lost packet keeps its frames or loses them. -/
theorem losePacket_frames (pn : Nat) (packets : List Sent) :
    FramesKept packets (packets.map (losePacket pn)) := by
  -- Only the named packet changes, and it either keeps all its frames or has none left.
  induction packets with
  | nil => exact FramesKept.refl []
  | cons packet rest ih =>
    refine ih.cons fun frame inside => ?_
    unfold losePacket at inside
    split at inside
    · simp only at inside
      split at inside
      · simp at inside
      · exact inside
    · exact inside

namespace SourceRun

/-- What holds of the source and its history along every run. -/
structure Sound (run : SourceRun) : Prop where
  streams : StreamsSound run.written run.source.streams
  /-- The frames of the packets lie within what was written. -/
  frames : ∀ packet ∈ run.source.packets, ∀ frame ∈ packet.frames, frame.Within run.written

theorem sound_start (maxStreamsBidi maxStreamsUni maxStreamWindow peerMaxBidi peerMaxUni : Nat) :
    Sound (start maxStreamsBidi maxStreamsUni maxStreamWindow peerMaxBidi peerMaxUni) :=
  ⟨⟨fun id stream found => by simp [start, StreamMap.get, StreamMap.new] at found, fun _ _ => Or.inr rfl⟩,
    fun packet member => by simp [start] at member⟩

variable {run : SourceRun}

/-- Packets whose frames were there before are as sound as before. -/
theorem Sound.packets (sound : Sound run) {packets : List Sent} (kept : FramesKept run.source.packets packets) :
    ∀ packet ∈ packets, ∀ frame ∈ packet.frames, frame.Within run.written := by
  intro packet member frame inside
  obtain ⟨earlier, among, contained⟩ := kept packet member frame inside
  exact sound.frames earlier among frame contained

/-- A write keeps the source sound, with what it stored added to the history. -/
theorem Sound.write (sound : Sound run) (streamId : Nat) (data : Bytes) (fin : Bool) :
    Sound (run.next (.write streamId data fin)) := by
  simp only [next]
  cases found : run.source.streams.get streamId with
  | none => exact sound
  | some stream =>
    simp only [RotSendBuf.write]
    cases ran : stream.send.main.write data fin with
    | error error => exact sound
    | ok result =>
      rcases result with ⟨count, main⟩
      obtain ⟨plain, intact⟩ := sound.streams.intact streamId stream found
      -- The written stream grows by what was stored; the frames sent before stay within the longer history.
      refine ⟨⟨fun id other among => ?_, fun id absent => ?_⟩, fun packet member frame inside => ?_⟩
      · simp only at among ⊢
        rw [StreamMap.get_set] at among
        split at among
        · rename_i same
          cases among
          rw [if_pos same, same]
          exact ⟨plain, intact.write ran⟩
        · rename_i different
          rw [if_neg different]
          exact sound.streams.intact id other among
      · simp only at absent ⊢
        rw [StreamMap.get_set] at absent
        split at absent
        · simp at absent
        · rename_i different
          rw [if_neg different]
          exact sound.streams.fresh id absent
      · refine (sound.frames packet member frame inside).mono fun id => ?_
        simp only
        split
        · rw [List.length_append]
          exact Nat.le_add_right _ _
        · exact Nat.le_refl _

theorem Sound.withSend (sound : Sound run) (streamId : Nat) (change : SendBuf → SendBuf)
    (keeps : ∀ send, Intact (run.written streamId) send → Intact (run.written streamId) (change send)) :
    StreamsSound run.written (withSend run.source.streams streamId change) := by
  unfold SourceRun.withSend
  cases found : run.source.streams.get streamId with
  | none => exact sound.streams
  | some stream =>
    obtain ⟨plain, intact⟩ := sound.streams.intact streamId stream found
    exact sound.streams.set plain (keeps _ intact)

/-- Every step keeps the source sound. -/
theorem Sound.next (sound : Sound run) (event : SourceEvent) (allowed : run.Allowed event) :
    Sound (run.next event) := by
  cases event with
  -- Opening a stream writes nothing, so the history stays as it is.
  | create streamId localParams peerParams isLocal isServer =>
    simp only [SourceRun.next]
    split
    · exact sound
    · rename_i made
      exact ⟨sound.streams.opened (StreamMap.getOrCreate_ok made), sound.frames⟩
  | write streamId data fin => exact sound.write streamId data fin
  -- The new packet holds exactly the frames that were emitted for it.
  | send pktNum parts =>
    obtain ⟨streams, frames⟩ := @StreamsSound.sendParts run.written parts (run.source.streams, [])
      sound.streams fun frame member => by simp at member
    refine ⟨streams, fun packet member frame inside => ?_⟩
    rcases List.mem_append.mp member with old | new
    · exact sound.frames packet old frame inside
    · rw [List.mem_singleton] at new
      rw [new] at inside
      exact frames frame inside
  | lose pktNum => exact ⟨sound.streams, sound.packets (losePacket_frames pktNum run.source.packets)⟩
  -- Acknowledged frames come from packets that were sent, so they lie within what was written.
  | ack ranges expired =>
    simp only [SourceRun.next, Source.fcOnAckReceived]
    obtain ⟨kept, passed⟩ := ackPackets_frames ranges run.source.packets
    split
    · exact sound
    · rename_i source made
      split at made
      · simp at made
      · simp only [Option.some.injEq] at made
        subst made
        refine ⟨sound.streams.ackFrames _ fun frame member => ?_, fun packet member frame inside => ?_⟩
        · obtain ⟨packet, among, inside⟩ := passed frame member
          exact sound.frames packet among frame inside
        · exact sound.packets kept packet (drainSent_subset expired _ packet member) frame inside
  -- An acknowledgment of sent bytes is the one event whose numbers come from outside.
  | streamAck streamId off len => exact ⟨sound.streams.onStreamAcked allowed, sound.frames⟩
  | maxData streamId limit =>
    exact ⟨sound.withSend streamId (fun send => send.updateMaxData limit) fun send intact =>
      intact.updateMaxData limit, sound.frames⟩
  | shutDown streamId =>
    refine ⟨sound.withSend streamId shutSend fun send intact => ?_, sound.frames⟩
    unfold shutSend
    split
    · exact intact
    · rename_i ran
      exact intact.shutDown ran
  | stop streamId code =>
    refine ⟨sound.withSend streamId (stopSend code) fun send intact => ?_, sound.frames⟩
    unfold stopSend
    split
    · exact intact
    · rename_i ran
      exact intact.stop ran
  -- Delegation reads pieces back, and takes packets off or keeps them with their frames.
  | delegate uc kind =>
    simp only [SourceRun.next, Source.rfcDelegateStreams]
    split
    · have made := (Source.delegateStreams_source run.source uc kind).1
      rw [made]
      exact ⟨sound.streams.delegateTurns _, sound.packets (delegatePackets_frames _ _)⟩
    · exact ⟨sound.streams, sound.frames⟩
  | gather kind =>
    have streams := @Source.gatherPackets_keeps kind (fun streams _ => StreamsSound run.written streams)
      run.source.packets run.source.streams [] sound.streams
      fun pn streamId off len fin _ streams pieces streamFc payload sound found _ => sound.fetch found off len
    have kept := @Source.gatherPackets_frames kind run.source.packets run.source.streams []
    simp only [SourceRun.next, Source.fcGetDelegatedStream]
    rcases gathered : Source.gatherPackets kind run.source.packets run.source.streams [] with
      ⟨result, packets, streams', pieces⟩
    rw [gathered] at streams kept
    -- A failed collection leaves what it had reached, which is as sound as a finished one.
    cases result with
    | error error => exact ⟨streams, sound.packets kept⟩
    | ok _ => exact ⟨streams, sound.packets kept⟩

end SourceRun

/-- A piece carries the bytes that were written at its offset. -/
def FcDelegatedStream.Right (written : Nat → Bytes) (piece : FcDelegatedStream) : Prop :=
  piece.payload = ((written piece.streamId).drop piece.off).take piece.payload.length

theorem FcDelegatedStream.Right.mono {piece : FcDelegatedStream}
    (grows : ∃ more, written' piece.streamId = written piece.streamId ++ more) (right : piece.Right written) :
    piece.Right written' := by
  obtain ⟨more, longer⟩ := grows
  unfold Right at right ⊢
  -- The piece lies within the bytes written before.
  have fits := congrArg List.length right
  rw [List.length_take, List.length_drop] at fits
  -- An empty piece says nothing about its offset, so it is set apart.
  rcases Nat.eq_zero_or_pos piece.payload.length with none_ | some_
  · rw [none_, List.take_zero]
    exact List.eq_nil_of_length_eq_zero none_
  · rw [longer, List.drop_append_of_le_length (by omega),
      List.take_append_of_le_length (by rw [List.length_drop]; omega)]
    exact right

/-- A frame can be read back from its stream, if that is there. -/
def Recovers (streams : StreamMap) : SentFrame → Prop
  | .streamHeader streamId off len _ => ∀ stream, streams.get streamId = some stream →
      len = 0 ∨ Recoverable stream.send.main off len
  | .other => True

instance (streams : StreamMap) : (frame : SentFrame) → Decidable (Recovers streams frame)
  | .other => isTrue trivial
  | .streamHeader streamId off len fin =>
    match found : streams.get streamId with
    | none => isTrue fun stream present => by rw [found] at present; cases present
    | some stream =>
      decidable_of_iff (len = 0 ∨ Recoverable stream.send.main off len)
        ⟨fun range other present => by rw [found] at present; cases present; exact range,
          fun all => all stream found⟩

section Recovers

variable {written : Nat → Bytes} {streams : StreamMap} {streamId off len : Nat} {fin : Bool} {stream : Stream}

/-- A frame that can be read back gives a piece that carries the right bytes. -/
theorem StreamsSound.right (sound : StreamsSound written streams) (found : streams.get streamId = some stream)
    (recovers : Recovers streams (.streamHeader streamId off len fin)) {payload : Bytes}
    (fetched : (Flexicast.fetch stream.send off len).1 = some payload) (pn : Nat) :
    FcDelegatedStream.Right written ⟨streamId, off, payload, pn, fin⟩ := by
  -- What is read back is the written part itself, cut to its own length.
  obtain ⟨plain, intact⟩ := sound.intact streamId stream found
  rw [intact.fetch_written plain (recovers stream found), Option.some.injEq] at fetched
  show payload = ((written streamId).drop off).take payload.length
  rw [← fetched, List.length_take, ← List.take_take, List.take_length]

/-- Reading a frame back leaves the others as recoverable as they were. -/
theorem StreamsSound.recovers (sound : StreamsSound written streams)
    (found : streams.get streamId = some stream)
    (recovers : Recovers streams (.streamHeader streamId off len fin)) {frame : SentFrame}
    (also : Recovers streams frame) :
    Recovers (streams.set streamId { stream with send := (Flexicast.fetch stream.send off len).2 }) frame := by
  -- Reading back moves nothing out of the buffer of its own stream, and touches no other stream.
  cases frame with
  | other => trivial
  | streamHeader streamId' off' len' fin' =>
    intro stream' found'
    rw [StreamMap.get_set] at found'
    split at found'
    · rename_i same
      cases found'
      obtain ⟨plain, intact⟩ := sound.intact streamId stream found
      refine (also stream (by rw [same]; exact found)).imp (fun none_ => none_) fun range => ?_
      exact intact.fetch_recoverable plain (recovers stream found) range
    · exact also stream' found'

end Recovers

/-- What a turn of delegation keeps while every frame that is asked for can be read back. -/
structure Carries (written : Nat → Bytes) (uc : Unicast) (turns : List (Nat × SentFrame)) (state : Delegation) :
    Prop where
  sound : StreamsSound written state.streams
  /-- The unicast connection passes the same streams over. -/
  skips : ∀ streamId, state.uc.skips streamId = uc.skips streamId
  right : ∀ piece ∈ state.pieces, piece.Right written
  /-- The frames that are asked for can be read back. -/
  recovers : ∀ turn ∈ turns, uc.wants turn.2 = true → Recovers state.streams turn.2

/-- One turn hands over a piece that carries the right bytes, or none. -/
theorem Carries.turn {uc : Unicast} {turns : List (Nat × SentFrame)} (carries : Carries written uc turns state)
    {turn : Nat × SentFrame} (member : turn ∈ turns) :
    Carries written uc turns (state.delegateFrame kind turn.1 turn.2).2 := by
  rcases turn with ⟨pn, frame⟩
  cases frame with
  | other => exact carries
  | streamHeader streamId off len fin =>
    rcases Delegation.delegateFrame_cases kind pn streamId off len fin state with ⟨result, ran, -⟩ |
      ⟨streamFc, streamUc, payload, handed⟩
    · rw [ran]
      exact ⟨carries.sound, carries.skips, carries.right, carries.recovers⟩
    · obtain ⟨open_, skips⟩ := handed.skips
      -- The turn went through, so the connection had asked for this frame.
      have wanted : uc.wants (.streamHeader streamId off len fin) = true := by
        simp [Unicast.wants, ← carries.skips, open_]
      have recovers := carries.recovers _ member wanted
      -- The new piece is right, and the frames still to come stay recoverable.
      refine ⟨?_, fun probe => (skips probe).trans (carries.skips probe), ?_, ?_⟩
      · rw [handed.streams]
        exact carries.sound.fetch handed.found off len
      · rw [handed.pieces]
        intro piece among
        rcases List.mem_append.mp among with old | new
        · exact carries.right piece old
        · rw [List.mem_singleton] at new
          rw [new]
          exact carries.sound.right handed.found recovers handed.fetched pn
      · rw [handed.streams]
        exact fun other among asked => carries.sound.recovers handed.found recovers
          (carries.recovers other among asked)

namespace SourceRun

/-- Every frame that a step reads back can be read back before the step. -/
def Retrievable (run : SourceRun) : SourceEvent → Prop
  | .delegate uc kind => uc.listens = true →
      ∀ turn ∈ lostFrames kind (Source.recvPn uc) run.source.packets, uc.wants turn.2 = true →
        Recovers run.source.streams turn.2
  | .gather kind => ∀ turn ∈ lostFrames kind RangeSet.default run.source.packets,
      Recovers run.source.streams turn.2
  | _ => True

instance (run : SourceRun) : (event : SourceEvent) → Decidable (run.Retrievable event)
  | .delegate uc kind => inferInstanceAs (Decidable (uc.listens = true →
      ∀ turn ∈ lostFrames kind (Source.recvPn uc) run.source.packets, uc.wants turn.2 = true →
        Recovers run.source.streams turn.2))
  | .gather kind => inferInstanceAs (Decidable
      (∀ turn ∈ lostFrames kind RangeSet.default run.source.packets, Recovers run.source.streams turn.2))
  | .create _ _ _ _ _ => isTrue trivial
  | .write _ _ _ => isTrue trivial
  | .send _ _ => isTrue trivial
  | .lose _ => isTrue trivial
  | .ack _ _ => isTrue trivial
  | .streamAck _ _ _ => isTrue trivial
  | .maxData _ _ => isTrue trivial
  | .shutDown _ => isTrue trivial
  | .stop _ _ => isTrue trivial

/-- The pieces given away so far carry the bytes written so far. -/
def PiecesRight (run : SourceRun) : Prop := ∀ piece ∈ run.pieces, piece.Right run.written

variable {run : SourceRun} {kind : FcUnicastRetransmission}

/-- The pieces of one delegation carry the right bytes. -/
theorem Sound.delegate_right (sound : Sound run) {uc : Unicast} (retrievable : run.Retrievable (.delegate uc kind)) :
    ∀ piece ∈ (run.source.rfcDelegateStreams uc kind).pieces, piece.Right run.written := by
  -- The loop starts with no piece and every frame that it asks for recoverable.
  unfold Source.rfcDelegateStreams
  cases listens : uc.listens with
  | false => simp
  | true =>
    rw [if_pos rfl, (Source.delegateStreams_source run.source uc kind).2]
    have started : Carries run.written uc (lostFrames kind (Source.recvPn uc) run.source.packets)
        (run.source.startLoop uc kind).state :=
      ⟨sound.streams, fun _ => rfl, fun piece member => by simp [Source.startLoop] at member,
        retrievable listens⟩
    exact (Delegation.delegateTurns_keeps _ started fun turn member state carries =>
      carries.turn member).right

/-- The pieces collected for a controller carry the right bytes. -/
theorem Sound.gather_right (sound : Sound run) (retrievable : run.Retrievable (.gather kind)) :
    ∀ piece ∈ (Source.gatherPackets kind run.source.packets run.source.streams []).2.2.2,
      piece.Right run.written := by
  -- The collection has no connection to ask, so all lost frames have to be recoverable.
  have kept := @Source.gatherPackets_keeps kind
    (fun streams pieces => StreamsSound run.written streams ∧ (∀ piece ∈ pieces, piece.Right run.written) ∧
      ∀ turn ∈ lostFrames kind RangeSet.default run.source.packets, Recovers streams turn.2)
    run.source.packets run.source.streams [] ⟨sound.streams, fun piece member => by simp at member, retrievable⟩
    fun pn streamId off len fin member streams pieces streamFc payload held found fetched => by
      obtain ⟨sound, right, recovers⟩ := held
      have here := recovers _ member
      refine ⟨sound.fetch found off len, fun piece among => ?_, fun other among => ?_⟩
      · rcases List.mem_append.mp among with old | new
        · exact right piece old
        · rw [List.mem_singleton] at new
          rw [new]
          exact sound.right found here fetched pn
      · exact sound.recovers found here (recovers other among)
  exact kept.2.1

/-- Every step that reads back what can be read back keeps the pieces right. -/
theorem Sound.next_right (sound : Sound run) (right : run.PiecesRight) (event : SourceEvent)
    (retrievable : run.Retrievable event) : (run.next event).PiecesRight := by
  -- Only the two steps that give pieces away can break this, and a write lengthens the history.
  cases event with
  | create streamId localParams peerParams isLocal isServer =>
    simp only [SourceRun.next]
    split
    · exact right
    · exact right
  | write streamId data fin =>
    simp only [SourceRun.next]
    split
    · exact right
    · split
      · exact right
      · refine fun piece member => (right piece member).mono ?_
        simp only
        split
        · exact ⟨_, rfl⟩
        · exact ⟨[], (List.append_nil _).symm⟩
  | ack ranges expired =>
    simp only [SourceRun.next]
    split
    · exact right
    · exact right
  | delegate uc kind =>
    intro piece member
    rcases List.mem_append.mp member with old | new
    · exact right piece old
    · exact sound.delegate_right retrievable piece new
  | gather kind =>
    intro piece member
    rcases List.mem_append.mp member with old | new
    · exact right piece old
    · exact sound.gather_right retrievable piece new
  | send pktNum parts => exact right
  | lose pktNum => exact right
  | streamAck streamId off len => exact right
  | maxData streamId limit => exact right
  | shutDown streamId => exact right
  | stop streamId code => exact right

/--
In every run in which each delegated frame can be read back from its stream before the call,
every piece given away carries the bytes that the application wrote at its offset.
-/
theorem pieces_carry_written (maxStreamsBidi maxStreamsUni maxStreamWindow peerMaxBidi peerMaxUni : Nat)
    (events : List SourceEvent)
    (met : Runs.Along next (fun run event => run.Allowed event ∧ run.Retrievable event)
      (start maxStreamsBidi maxStreamsUni maxStreamWindow peerMaxBidi peerMaxUni) events) :
    ∀ piece ∈ (Runs.run next
        (start maxStreamsBidi maxStreamsUni maxStreamWindow peerMaxBidi peerMaxUni) events).pieces,
      piece.payload =
        (((Runs.run next (start maxStreamsBidi maxStreamsUni maxStreamWindow peerMaxBidi peerMaxUni)
          events).written piece.streamId).drop piece.off).take piece.payload.length := by
  -- Soundness and right pieces are carried together along the run.
  have held := @Runs.Along.keeps _ _ next _ (fun run => Sound run ∧ run.PiecesRight)
    (fun run event kept ok => ⟨kept.1.next event ok.1, kept.1.next_right kept.2 event ok.2⟩)
    events _ ⟨sound_start maxStreamsBidi maxStreamsUni maxStreamWindow peerMaxBidi peerMaxUni,
      fun piece member => by simp [start] at member⟩ met
  exact held.2

/-- Limits that leave room for a few bytes on every stream. -/
def smallParams : StreamParams := ⟨100, 100, 100⟩

/-- A unicast connection of a server, whose receiver listens and has received nothing yet. -/
def listener : Unicast where
  streams := { StreamMap.new 8 8 100 with peerMaxStreamsBidi := 8, peerMaxStreamsUni := 8 }
  localParams := smallParams
  peerParams := smallParams
  isServer := true
  listens := true
  server := some ⟨RangeSet.default, McAck.new⟩

/-- The first half of eight bytes is sent and lost, and delegated to a first receiver. -/
def lossEvents : List SourceEvent :=
  [.create 3 smallParams smallParams true true, .write 3 [97, 98, 99, 100, 101, 102, 103, 104] false,
    .send 0 [(3, 4)], .lose 0, .delegate listener (.delegates false)]

/-- The piece that the receiver is given carries the lost half. -/
theorem pieces_carry_written_once :
    (Runs.run next (start 8 8 100 8 8) lossEvents).pieces = [⟨3, 0, [97, 98, 99, 100], 0, false⟩] ∧
      ∀ piece ∈ (Runs.run next (start 8 8 100 8 8) lossEvents).pieces,
        piece.payload = (((Runs.run next (start 8 8 100 8 8) lossEvents).written piece.streamId).drop
          piece.off).take piece.payload.length :=
  ⟨by decide, pieces_carry_written 8 8 100 8 8 lossEvents (by decide)⟩

/-- The first receiver acknowledges its piece before the packet is delegated to a second one. -/
def releasedEvents : List SourceEvent :=
  lossEvents ++ [.streamAck 3 0 4, .delegate listener (.delegates true)]

/-- The second receiver is given the second half of the bytes, as if it were the first. -/
theorem released_piece_carries_other_bytes :
    Runs.Along next Allowed (start 8 8 100 8 8) releasedEvents ∧
      (Runs.run next (start 8 8 100 8 8) releasedEvents).written 3 =
        [97, 98, 99, 100, 101, 102, 103, 104] ∧
      (Runs.run next (start 8 8 100 8 8) releasedEvents).pieces =
        [⟨3, 0, [97, 98, 99, 100], 0, false⟩, ⟨3, 0, [101, 102, 103, 104], 0, false⟩] ∧
      ∃ piece ∈ (Runs.run next (start 8 8 100 8 8) releasedEvents).pieces,
        piece.payload ≠ (((Runs.run next (start 8 8 100 8 8) releasedEvents).written piece.streamId).drop
          piece.off).take piece.payload.length := by
  decide

end SourceRun

end Flexicast
