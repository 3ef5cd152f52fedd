import Flexicast.Recovery.Payload

/-! Runs of the source: what was acknowledged stays so, and only delegation is counted. -/

namespace Flexicast

/-- An offset of a stream was acknowledged: the send buffer says so, or the stream was complete and is gone. -/
def AckedAt (streams : StreamMap) (streamId x : Nat) : Prop :=
  streams.isCollected streamId = true ∨
    ∃ stream, streams.get streamId = some stream ∧ stream.send.main.acked.Contains x

instance (streams : StreamMap) (streamId x : Nat) : Decidable (AckedAt streams streamId x) :=
  match found : streams.get streamId with
  | none =>
    decidable_of_iff (streams.isCollected streamId = true)
      ⟨Or.inl, fun acked => acked.resolve_right fun ⟨_, present, _⟩ => by rw [found] at present; cases present⟩
  | some stream =>
    decidable_of_iff (streams.isCollected streamId = true ∨ stream.send.main.acked.Contains x)
      ⟨fun acked => acked.imp_right fun contains => ⟨stream, found, contains⟩,
        fun acked => acked.imp_right fun ⟨_, present, contains⟩ => by
          rw [found] at present; cases present; exact contains⟩

/-- Everything that was acknowledged still is. -/
def KeepsAcked (before after : StreamMap) : Prop :=
  ∀ streamId x, AckedAt before streamId x → AckedAt after streamId x

theorem KeepsAcked.refl (streams : StreamMap) : KeepsAcked streams streams := fun _ _ acked => acked

theorem KeepsAcked.trans {before middle after : StreamMap} (one : KeepsAcked before middle)
    (two : KeepsAcked middle after) : KeepsAcked before after :=
  fun streamId x acked => two streamId x (one streamId x acked)

section Streams

variable {written : Nat → Bytes} {streams : StreamMap} {streamId : Nat} {stream : Stream}

/-- A stream may be replaced by one that has acknowledged at least as much. -/
theorem KeepsAcked.set {changed : Stream} (found : streams.get streamId = some stream)
    (more : ∀ x, stream.send.main.acked.Contains x → changed.send.main.acked.Contains x) :
    KeepsAcked streams (streams.set streamId changed) := by
  -- The replaced stream stands in for the one it replaces; all others are looked up as before.
  intro probe x acked
  rcases acked with collected | ⟨present, there, contains⟩
  · exact Or.inl collected
  · refine Or.inr ?_
    by_cases same : probe = streamId
    · rw [same, found, Option.some.injEq] at there
      subst there
      exact ⟨changed, by rw [StreamMap.get_set, if_pos same], more x contains⟩
    · exact ⟨present, by rw [StreamMap.get_set, if_neg same]; exact there, contains⟩

/-- A stream that is collected counts as acknowledged. -/
theorem KeepsAcked.collect (streams : StreamMap) (streamId : Nat) (isLocal : Bool) :
    KeepsAcked streams (streams.collect streamId isLocal) := by
  -- The collected stream moves from the second alternative to the first.
  intro probe x acked
  by_cases same : probe = streamId
  · exact Or.inl (by simp [same])
  · rcases acked with collected | ⟨present, there, contains⟩
    · exact Or.inl (by simp [collected])
    · exact Or.inr ⟨present, by rw [StreamMap.get_collect, if_neg same]; exact there, contains⟩

/-- Opening a stream takes no acknowledgment back. -/
theorem KeepsAcked.opened {opened : StreamMap} {isLocal : Bool} {maxTxData : Nat}
    (made : StreamMap.Opened streams streamId isLocal maxTxData stream opened) : KeepsAcked streams opened := by
  intro probe x acked
  rcases acked with collected | ⟨present, there, contains⟩
  · exact Or.inl (by rw [made.collected]; exact collected)
  · refine Or.inr ⟨present, ?_, contains⟩
    rw [made.get]
    split
    · rename_i same
      -- A stream that was there is the one that is opened.
      rcases made.origin with origin | ⟨absent, -⟩
      · rw [← origin, ← same]
        exact there
      · rw [← same, there] at absent
        cases absent
    · exact there

theorem StreamsSound.ackAndDrop_acked (sound : StreamsSound written streams)
    (found : streams.get streamId = some stream) (off len x : Nat) :
    (stream.send.ackAndDrop off len).main.acked.Contains x ↔
      (off ≤ x ∧ x < off + len) ∨ stream.send.main.acked.Contains x := by
  obtain ⟨plain, intact⟩ := sound.intact streamId stream found
  have same : stream.send = ⟨stream.send.main, none⟩ := by rw [← plain]
  -- Dropping acknowledged buffers leaves the acknowledged ranges to the one insertion.
  obtain ⟨-, ⟨data, pos, frame⟩, -⟩ := intact.shape.ackAndDrop off len intact.still
  rw [same, RotSendBuf.ackAndDrop_main, frame]
  exact RangeSet.contains_insert intact.ranges (Nat.le_add_right off len) x

/-- An acknowledged frame keeps all earlier acknowledgments. -/
theorem StreamsSound.keepsAcked_onStreamAcked (sound : StreamsSound written streams) (streamId off len : Nat) :
    KeepsAcked streams (streams.onStreamAcked streamId off len) := by
  -- The insertion only adds ranges, and a stream that is complete then counts as a whole.
  cases found : streams.get streamId with
  | none =>
    rw [StreamMap.onStreamAcked_absent found]
    exact KeepsAcked.refl streams
  | some stream =>
    have kept : KeepsAcked streams
        (streams.set streamId { stream with send := stream.send.ackAndDrop off len }) :=
      KeepsAcked.set found fun x contains => (sound.ackAndDrop_acked found off len x).mpr (Or.inr contains)
    rcases StreamMap.onStreamAcked_present found off len with there | gone
    · rw [there]
      exact kept
    · rw [gone]
      exact kept.trans (KeepsAcked.collect _ _ _)

/-- An acknowledged frame of written bytes acknowledges all of them. -/
theorem StreamsSound.ackedAt_onStreamAcked (sound : StreamsSound written streams) {streamId off len x : Nat}
    (written_ : x < (written streamId).length) (low : off ≤ x) (high : x < off + len) :
    AckedAt (streams.onStreamAcked streamId off len) streamId x := by
  cases found : streams.get streamId with
  | none =>
    -- Something was written to the stream, so it is gone because it was collected.
    rw [StreamMap.onStreamAcked_absent found]
    refine Or.inl ((sound.fresh streamId found).resolve_right fun nothing => ?_)
    rw [nothing] at written_
    exact absurd written_ (Nat.not_lt_zero x)
  | some stream =>
    rcases StreamMap.onStreamAcked_present found off len with there | gone
    · rw [there]
      exact Or.inr ⟨_, by rw [StreamMap.get_set, if_pos rfl],
        (sound.ackAndDrop_acked found off len x).mpr (Or.inl ⟨low, high⟩)⟩
    · rw [gone]
      exact Or.inl (by simp)

/-- Acknowledged frames keep all earlier acknowledgments. -/
theorem StreamsSound.keepsAcked_ackFrames (frames : List SentFrame) :
    ∀ {streams : StreamMap}, StreamsSound written streams → (∀ frame ∈ frames, frame.Within written) →
      KeepsAcked streams (frames.foldl ackFrame streams) := by
  -- The streams stay sound after every frame, so the next one may be acknowledged in turn.
  induction frames with
  | nil => exact fun _ _ => KeepsAcked.refl _
  | cons frame rest ih =>
    intro streams sound inside
    have here := inside frame List.mem_cons_self
    have later := fun next member => inside next (List.mem_cons_of_mem frame member)
    cases frame with
    | other => exact ih sound later
    | streamHeader streamId off len fin =>
      exact (sound.keepsAcked_onStreamAcked streamId off len).trans (ih (sound.onStreamAcked (Or.inr here)) later)

theorem StreamsSound.keepsAcked_fetch (sound : StreamsSound written streams)
    (found : streams.get streamId = some stream) (off len : Nat) :
    KeepsAcked streams (streams.set streamId { stream with send := (Flexicast.fetch stream.send off len).2 }) := by
  -- Reading back changes only where the buffer is read next.
  obtain ⟨plain, intact⟩ := sound.intact streamId stream found
  obtain ⟨data, pos, len', emitOff, frame⟩ := intact.fetch_frame plain off len
  refine KeepsAcked.set found fun x contains => ?_
  rw [frame]
  exact contains

end Streams

variable {written : Nat → Bytes}

/-- The data taken into a packet keeps all acknowledgments. -/
theorem StreamsSound.keepsAcked_sendPart {state : StreamMap × List SentFrame} (sound : StreamsSound written state.1)
    (part : Nat × Nat) : KeepsAcked state.1 (Source.sendPart state part).1 := by
  unfold Source.sendPart
  cases found : state.1.get part.1 with
  | none => exact KeepsAcked.refl _
  | some stream =>
    obtain ⟨plain, intact⟩ := sound.intact part.1 stream found
    have same : stream.send = ⟨stream.send.main, none⟩ := by rw [← plain]
    obtain ⟨out, data, pos, ran, -⟩ := intact.shape.emit_eq part.2
    have emits : stream.send.emit part.2 =
        (.ok (stream.send.main.emit part.2).1, ⟨(stream.send.main.emit part.2).2, none⟩) := by
      rw [same]
      simp [RotSendBuf.emit]
    -- Sending moves the position only, never the acknowledged ranges.
    simp only [emits]
    refine KeepsAcked.set found fun x contains => ?_
    simp only [ran]
    exact contains

theorem StreamsSound.keepsAcked_sendParts (parts : List (Nat × Nat)) :
    ∀ {state : StreamMap × List SentFrame}, StreamsSound written state.1 →
      (∀ frame ∈ state.2, frame.Within written) →
      KeepsAcked state.1 (parts.foldl Source.sendPart state).1 := by
  induction parts with
  | nil => exact fun _ _ => KeepsAcked.refl _
  | cons part rest ih =>
    intro state sound inside
    obtain ⟨sound', inside'⟩ := sound.sendPart inside part
    exact (sound.keepsAcked_sendPart part).trans (ih sound' inside')

/-- The loop of delegation keeps all acknowledgments. -/
theorem StreamsSound.keepsAcked_delegateTurns {kind : FcUnicastRetransmission} (turns : List (Nat × SentFrame))
    {state : Delegation} (sound : StreamsSound written state.streams) :
    KeepsAcked state.streams (Delegation.delegateTurns kind turns state).2.streams := by
  -- Soundness goes along, since each turn reads back from the streams the last one left.
  have kept := @Delegation.delegateTurns_keeps kind
    (fun after => StreamsSound written after.streams ∧ KeepsAcked state.streams after.streams) turns state
    ⟨sound, KeepsAcked.refl _⟩ fun turn _ middle held => ?_
  · exact kept.2
  · obtain ⟨sound', so_far⟩ := held
    rcases turn with ⟨pn, frame⟩
    cases frame with
    | other => exact ⟨sound', so_far⟩
    | streamHeader streamId off len fin =>
      rcases Delegation.delegateFrame_cases kind pn streamId off len fin middle with ⟨result, ran, -⟩ |
        ⟨streamFc, streamUc, payload, handed⟩
      · rw [ran]
        exact ⟨sound', so_far⟩
      · rw [handed.streams]
        exact ⟨sound'.fetch handed.found off len, so_far.trans (sound'.keepsAcked_fetch handed.found off len)⟩

theorem Intact.reset_acked {written : Bytes} {send : SendBuf} (intact : Intact written send) {x : Nat}
    (contains : send.acked.Contains x) : send.reset.2.acked.Contains x :=
  (RangeSet.contains_insert intact.ranges (Nat.zero_le _) x).mpr (Or.inr contains)

namespace SourceRun

variable {written : Bytes} {send : SendBuf} {x : Nat} {run : SourceRun}

theorem shutSend_acked (intact : Intact written send) (contains : send.acked.Contains x) :
    (shutSend send).acked.Contains x := by
  -- A buffer that is already down does not change; the others are reset.
  unfold shutSend SendBuf.shutDown
  by_cases down : send.shutdown = true
  · simpa [down] using contains
  · simp only [down, Bool.false_eq_true, if_false]
    exact intact.reset_acked contains

theorem stopSend_acked (intact : Intact written send) (code : Nat) (contains : send.acked.Contains x) :
    (stopSend code send).acked.Contains x := by
  -- The first stop resets the buffer, and a later one does nothing.
  unfold stopSend SendBuf.stop
  by_cases stopped : send.error.isSome = true
  · simpa [stopped] using contains
  · simp only [stopped, Bool.false_eq_true, if_false]
    exact intact.reset_acked contains

theorem Sound.keepsAcked_withSend (sound : Sound run) (streamId : Nat) (change : SendBuf → SendBuf)
    (more : ∀ send, Intact (run.written streamId) send → ∀ x, send.acked.Contains x →
      (change send).acked.Contains x) :
    KeepsAcked run.source.streams (SourceRun.withSend run.source.streams streamId change) := by
  unfold SourceRun.withSend
  cases found : run.source.streams.get streamId with
  | none => exact KeepsAcked.refl _
  | some stream => exact KeepsAcked.set found (more _ (sound.streams.intact streamId stream found).2)

/-- Every step keeps all acknowledgments. -/
theorem Sound.keepsAcked (sound : Sound run) (event : SourceEvent) :
    KeepsAcked run.source.streams (run.next event).source.streams := by
  -- One case for each event; those that touch no stream keep the acknowledgments as they are.
  cases event with
  | create streamId localParams peerParams isLocal isServer =>
    simp only [SourceRun.next]
    split
    · exact KeepsAcked.refl _
    · rename_i made
      exact KeepsAcked.opened (StreamMap.getOrCreate_ok made)
  | write streamId data fin =>
    simp only [SourceRun.next]
    cases found : run.source.streams.get streamId with
    | none => exact KeepsAcked.refl _
    | some stream =>
      simp only [RotSendBuf.write]
      cases ran : stream.send.main.write data fin with
      | error error => exact KeepsAcked.refl _
      | ok result =>
        obtain ⟨bufs, off, len, finOff, frame⟩ := SendBuf.write_frame ran
        refine KeepsAcked.set found fun x contains => ?_
        show result.2.acked.Contains x
        rw [frame]
        exact contains
  | send pktNum parts =>
    exact @StreamsSound.keepsAcked_sendParts run.written parts (run.source.streams, []) sound.streams
      fun frame member => by simp at member
  | lose pktNum => exact KeepsAcked.refl _
  -- The acknowledged frames belong to packets that were sent, so they lie within what was written.
  | ack ranges expired =>
    simp only [SourceRun.next, Source.fcOnAckReceived]
    obtain ⟨-, passed⟩ := ackPackets_frames ranges run.source.packets
    split
    · exact KeepsAcked.refl _
    · rename_i source made
      split at made
      · simp at made
      · simp only [Option.some.injEq] at made
        subst made
        refine StreamsSound.keepsAcked_ackFrames _ sound.streams fun frame member => ?_
        obtain ⟨packet, among, inside⟩ := passed frame member
        exact sound.frames packet among frame inside
  | streamAck streamId off len => exact sound.streams.keepsAcked_onStreamAcked streamId off len
  | maxData streamId limit => exact sound.keepsAcked_withSend streamId _ fun _ _ _ contains => contains
  | shutDown streamId =>
    exact sound.keepsAcked_withSend streamId _ fun _ intact _ contains => shutSend_acked intact contains
  | stop streamId code =>
    exact sound.keepsAcked_withSend streamId _ fun _ intact _ contains => stopSend_acked intact code contains
  | delegate uc kind =>
    simp only [SourceRun.next, Source.rfcDelegateStreams]
    split
    · rw [(Source.delegateStreams_source run.source uc kind).1]
      exact @StreamsSound.keepsAcked_delegateTurns run.written kind _ (run.source.startLoop uc kind).state sound.streams
    · exact KeepsAcked.refl _
  -- Collecting reads back frame by frame, from the streams the last frame left.
  | gather kind =>
    have kept := @Source.gatherPackets_keeps kind
      (fun streams _ => StreamsSound run.written streams ∧ KeepsAcked run.source.streams streams)
      run.source.packets run.source.streams [] ⟨sound.streams, KeepsAcked.refl _⟩
      fun pn streamId off len fin _ streams pieces streamFc payload held found _ =>
        ⟨held.1.fetch found off len, held.2.trans (held.1.keepsAcked_fetch found off len)⟩
    simp only [SourceRun.next, Source.fcGetDelegatedStream]
    rcases gathered : Source.gatherPackets kind run.source.packets run.source.streams [] with
      ⟨result, packets, streams, pieces⟩
    rw [gathered] at kept
    cases result with
    | error error => exact kept.2
    | ok _ => exact kept.2

/-- No step takes a written byte back. -/
theorem written_length_le (run : SourceRun) (event : SourceEvent) (streamId : Nat) :
    (run.written streamId).length ≤ ((run.next event).written streamId).length := by
  -- Only a write that stores something changes the history, and it appends to it.
  cases event with
  | write id data fin =>
    simp only [SourceRun.next]
    split
    · exact Nat.le_refl _
    · split
      · exact Nat.le_refl _
      · simp only
        split
        · rw [List.length_append]
          exact Nat.le_add_right _ _
        · exact Nat.le_refl _
  | create id localParams peerParams isLocal isServer =>
    simp only [SourceRun.next]
    split
    · exact Nat.le_refl _
    · exact Nat.le_refl _
  | ack ranges expired =>
    simp only [SourceRun.next]
    split
    · exact Nat.le_refl _
    · exact Nat.le_refl _
  | _ => exact Nat.le_refl _

end SourceRun

end Flexicast
