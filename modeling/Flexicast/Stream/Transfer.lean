import Flexicast.Credit.FlowControl
import Flexicast.Stream.Receiver
import Flexicast.Stream.Sender

/-! A stream between two endpoints: what one writes and the other reads, over a network that loses, repeats and
reorders. -/

namespace Flexicast

/-- A STREAM frame with its data, on its way. -/
structure Segment where
  off : Nat
  data : Bytes
  fin : Bool
  deriving DecidableEq

namespace Segment

/-- What the sender remembers of a segment. -/
def frame (segment : Segment) : Frame := ⟨segment.off, segment.data.length, segment.fin⟩

end Segment

/-- What happens to a stream. -/
inductive TransferEvent where
  /-- The application of the sender writes. -/
  | write (data : Bytes) (fin : Bool)
  /-- A frame is sent. -/
  | emit (outLen : Nat)
  | lost (frame : Frame)
  | ack (frame : Frame)
  | limit (maxData : Nat)
  | arrive (segment : Segment)
  /-- The application of the receiver reads. -/
  | read (outLen : Nat)
  /-- The receiver sends a new limit, shortly after the last one or not. -/
  | grant (recent : Bool)
  | lostLimit

/-- Both ends of a stream, and what was sent from one to the other. -/
structure Transfer where
  sender : Sender
  recv : RecvBuf
  almostFull : Bool
  /-- The frames sent so far, each of which may arrive at any time, any number of times or never. -/
  sent : List Segment
  arrived : List Segment
  limits : List Nat
  out : Bytes
  refused : Bool

namespace Transfer

/-- A stream before its first write; the receiver has told its limit in the transport parameters. -/
def start (maxData maxWindow : Nat) : Transfer :=
  ⟨Sender.start maxData, RecvBuf.new maxData maxWindow, false, [], [], [], [], false⟩

/-- Whether a new limit should be sent; a stream whose final size is known needs none. -/
def needsLimit (recv : RecvBuf) : Bool :=
  recv.finOff.isNone && recv.flowControl.shouldUpdateMaxData == some true

/-- The frame that is sent next. -/
def segmentOf (transfer : Transfer) (outLen : Nat) : Segment :=
  let emission := transfer.sender.send.emit outLen
  ⟨transfer.sender.send.offFront, emission.1.1, emission.1.2⟩

/-- One step of a stream. -/
def next (transfer : Transfer) : TransferEvent → Transfer
  | .write data fin => { transfer with sender := transfer.sender.next (.write data fin) }
  | .emit outLen =>
    { transfer with
      sender := transfer.sender.next (.emit outLen)
      sent := transfer.sent ++ [transfer.segmentOf outLen] }
  | .lost frame => { transfer with sender := transfer.sender.next (.retransmit frame) }
  | .ack frame => { transfer with sender := transfer.sender.next (.ack frame) }
  | .limit maxData =>
    { transfer with sender := { transfer.sender with send := transfer.sender.send.updateMaxData maxData } }
  | .arrive segment =>
    match transfer.recv.write (RangeBuf.fromSlice segment.data segment.off segment.fin) with
    | .error _ => { transfer with refused := true }
    | .ok recv => { transfer with recv := recv, arrived := transfer.arrived ++ [segment] }
  | .read outLen =>
    match transfer.recv.emit outLen with
    | (.error _, recv) => { transfer with recv := recv }
    | (.ok (out, _), recv) =>
      { transfer with
        recv := recv
        out := transfer.out ++ out
        almostFull := transfer.almostFull || needsLimit recv }
  | .grant recent =>
    if transfer.almostFull then
      let flow := transfer.recv.flowControl.autotuneWindow recent
      { transfer with
        recv := { transfer.recv with flowControl := flow.updateMaxData }
        limits := transfer.limits ++ [flow.maxDataNext]
        almostFull := false }
    else transfer
  -- The limit is sent again as it is by then.
  | .lostLimit => { transfer with almostFull := true }

/-- Only what was sent arrives, is lost or is acknowledged, and only what has arrived is acknowledged. -/
def Allowed (transfer : Transfer) : TransferEvent → Prop
  | .lost frame => frame ∈ transfer.sender.frames
  | .ack frame => ∃ segment ∈ transfer.arrived, segment.frame = frame
  | .limit maxData => maxData ∈ transfer.limits
  | .arrive segment => segment ∈ transfer.sent
  -- Tuning the window does not shrink it below what was granted.
  | .grant recent => transfer.recv.flowControl.Tunable recent
  | .lostLimit => transfer.limits ≠ []
  | _ => True

end Transfer

section Growing

namespace Sender

/-- A step only adds to what was written, and keeps a final offset. -/
structure Grows (before after : Sender) : Prop where
  written : before.written <+: after.written
  final : ∀ finOff, before.send.finOff = some finOff → after.send.finOff = some finOff

variable {sender : Sender}

theorem Grows.refl (sender : Sender) : Grows sender sender := ⟨List.prefix_refl _, fun _ known => known⟩

theorem Grows.trans {middle after : Sender} (first : Grows sender middle) (second : Grows middle after) :
    Grows sender after :=
  ⟨first.written.trans second.written, fun finOff known => second.final finOff (first.final finOff known)⟩

/-- A step of the sender leaves its limit as it is. -/
theorem Inv.next_grows (inv : Inv sender) (event : SendEvent) :
    Grows sender (sender.next event) ∧ (sender.next event).send.maxData = sender.send.maxData := by
  cases event with
  | write data fin =>
    rcases inv.shape.write data fin inv.running.1 inv.ackOff_le with ⟨_, refused⟩ | ⟨count, after, stored, spec⟩
    · simp only [Sender.next, refused]
      exact ⟨Grows.refl sender, trivial⟩
    · simp only [Sender.next, stored]
      obtain ⟨bufs, len, frame⟩ := spec.frame
      subst frame
      refine ⟨⟨List.prefix_append _ _, fun finOff known => ?_⟩, rfl⟩
      show (if _ then _ else _) = _
      split
      · -- The final offset is the end of what was written, so only an empty write agrees with it.
        have same := inv.final finOff known
        have agrees := spec.agrees
        unfold SendBuf.finConflict at agrees
        rw [known] at agrees
        simp only [Bool.or_eq_false_iff, decide_eq_false_iff_not] at agrees
        exact congrArg some (by omega)
      · exact known
  | emit outLen =>
    obtain ⟨out, data, pos, ran, _⟩ := inv.shape.emit_eq outLen
    simp only [Sender.next, ran]
    exact ⟨⟨List.prefix_refl _, fun _ known => known⟩, trivial⟩
  | retransmit frame =>
    obtain ⟨data, pos, len, same⟩ := SendBuf.retransmit_frame sender.send frame.off frame.len
    simp only [Sender.next, same]
    exact ⟨⟨List.prefix_refl _, fun _ known => known⟩, trivial⟩
  | ack frame =>
    obtain ⟨_, ⟨data, pos, same⟩, _⟩ := inv.shape.ackAndDrop frame.off frame.len inv.running.2.1
    simp only [Sender.next, same]
    exact ⟨⟨List.prefix_refl _, fun _ known => known⟩, trivial⟩

/-- A limit that arrives keeps the invariant. -/
theorem Inv.limit (inv : Inv sender) (maxData : Nat) :
    Inv { sender with send := sender.send.updateMaxData maxData } := by
  obtain ⟨⟨size, holds, ordered, index, consumed, flow, room⟩, running, wf, final, emitted, reach, acked, backed,
    kept, covered⟩ := inv
  exact ⟨⟨size, holds, ordered, index, consumed, Nat.le_trans flow (Nat.le_max_left _ _), room⟩, running, wf, final,
    emitted, reach, acked, backed, kept, covered⟩

end Sender

end Growing

namespace Transfer

open RecvBuf (Has Spans)

/-- What is known of the sending end, given the whole stream and what was sent and has arrived. -/
structure Sending (stream : Bytes) (sender : Sender) (sent arrived : List Segment) : Prop where
  inv : sender.Inv
  begins : sender.written <+: stream
  final : ∀ finOff, sender.send.finOff = some finOff → finOff = stream.length
  cut : ∀ segment ∈ sent, segment.off + segment.data.length ≤ sender.written.length ∧
    segment.data = (stream.drop segment.off).take segment.data.length ∧
    (segment.fin = true → sender.send.finOff = some (segment.off + segment.data.length))
  frames : ∀ frame, frame ∈ sender.frames ↔ ∃ segment ∈ sent, segment.frame = frame
  acked : ∀ frame ∈ sender.delivered, ∃ segment ∈ arrived, segment.frame = frame

/-- What is known of the receiving end. -/
structure Receiving (stream : Bytes) (recv : RecvBuf) (arrived : List Segment) (out : Bytes) : Prop where
  shape : RecvBuf.Shape stream recv
  out : out = stream.take recv.off
  has : ∀ x, Has recv x ↔ ∃ segment ∈ arrived, segment.frame.Covers x
  final : ∀ finOff, recv.finOff = some finOff → ∃ segment ∈ arrived, segment.fin = true

/-- What is known of both ends, and of the limits between them. -/
structure Joined (stream : Bytes) (transfer : Transfer) : Prop where
  sending : Sending stream transfer.sender transfer.sent transfer.arrived
  receiving : Receiving stream transfer.recv transfer.arrived transfer.out
  arrived : ∀ segment ∈ transfer.arrived, segment ∈ transfer.sent
  /-- The sender uses a limit that was granted, and limits do not fall. -/
  used : transfer.sender.send.maxData ≤ transfer.recv.maxData
  granted : ∀ maxData ∈ transfer.limits, maxData ≤ transfer.recv.maxData
  ahead : transfer.almostFull = true ∨ transfer.limits ≠ [] → transfer.recv.flowControl.Ahead
  accepted : transfer.refused = false

section Steps

variable {stream : Bytes} {sender : Sender} {sent arrived : List Segment}

variable {after : Sender} {recv : RecvBuf} {out : Bytes} {segment : Segment} {event : TransferEvent}

/-- A step of the sender that sends nothing keeps what is known of it. -/
theorem Sending.keep (sending : Sending stream sender sent arrived) (inv : after.Inv) (grows : sender.Grows after)
    (begins : after.written <+: stream) (final : ∀ finOff, after.send.finOff = some finOff → finOff = stream.length)
    (frames : after.frames = sender.frames)
    (acked : ∀ frame ∈ after.delivered, frame ∈ sender.delivered ∨ ∃ segment ∈ arrived, segment.frame = frame) :
    Sending stream after sent arrived := by
  refine ⟨inv, begins, final, ?_, ?_, ?_⟩
  · intro segment member
    obtain ⟨inside, bytes, ends⟩ := sending.cut segment member
    exact ⟨Nat.le_trans inside grows.written.length_le, bytes, fun fin => grows.final _ (ends fin)⟩
  · rw [frames]
    exact sending.frames
  · exact fun frame member => (acked frame member).elim (sending.acked frame) id

/-- What is acknowledged has arrived, offset by offset. -/
theorem Sending.arrived_of_acknowledged (sending : Sending stream sender sent arrived) {x : Nat}
    (acked : sender.Acknowledged x) : ∃ segment ∈ arrived, segment.frame.Covers x := by
  obtain ⟨frame, member, covers⟩ := acked
  obtain ⟨segment, there, same⟩ := sending.acked frame member
  exact ⟨segment, there, same ▸ covers⟩

theorem cut_prefix {written : Bytes} (begins : written <+: stream) {off len : Nat}
    (inside : off + len ≤ written.length) : (written.drop off).take len = (stream.drop off).take len := by
  -- What was written so far is the start of the stream, and the segment lies inside of it.
  obtain ⟨rest, rfl⟩ := begins
  rw [List.drop_append_of_le_length (by omega), List.take_append_of_le_length (by rw [List.length_drop]; omega)]

/-- A frame that is sent is cut out of what was written. -/
theorem Sending.emit (sending : Sending stream sender sent arrived) (outLen : Nat)
    (begins : (sender.next (.emit outLen)).written <+: stream) :
    Sending stream (sender.next (.emit outLen))
      (sent ++ [⟨sender.send.offFront, (sender.send.emit outLen).1.1, (sender.send.emit outLen).1.2⟩]) arrived := by
  have inv := sending.inv
  have promises := inv.faithful
  have finOff : (sender.next (.emit outLen)).send.finOff = sender.send.finOff := by
    obtain ⟨out, data, pos, ran, _⟩ := inv.shape.emit_eq outLen
    simp only [Sender.next, ran]
  refine ⟨inv.emit outLen, begins, ?_, ?_, ?_, sending.acked⟩
  · rw [finOff]
    exact sending.final
  · intro segment member
    rw [finOff]
    rcases List.mem_append.mp member with old | new
    · exact sending.cut segment old
    · obtain rfl := List.mem_singleton.mp new
      refine ⟨promises.within outLen, ?_, fun fin => (promises.fin outLen).mp fin⟩
      rw [← cut_prefix sending.begins (promises.within outLen)]
      exact promises.bytes outLen
  · intro frame
    show frame ∈ sender.frames ++ [sender.frameOf outLen] ↔ _
    simp only [List.mem_append, List.mem_singleton, sending.frames, or_and_right, exists_or, exists_eq_left]
    exact or_congr Iff.rfl eq_comm

/-- More frames that have arrived can be acknowledged. -/
theorem Sending.arrives (sending : Sending stream sender sent arrived) (segment : Segment) :
    Sending stream sender sent (arrived ++ [segment]) := by
  refine ⟨sending.inv, sending.begins, sending.final, sending.cut, sending.frames, ?_⟩
  intro frame member
  obtain ⟨earlier, there, same⟩ := sending.acked frame member
  exact ⟨earlier, List.mem_append_left _ there, same⟩

/-- A segment that arrives is accepted, and its bytes are held or were read. -/
theorem Receiving.arrive (receiving : Receiving stream recv arrived out)
    (inside : segment.off + segment.data.length ≤ stream.length)
    (cut : segment.data = (stream.drop segment.off).take segment.data.length)
    (ends : segment.fin = true → segment.off + segment.data.length = stream.length)
    (flow : segment.off + segment.data.length ≤ recv.maxData) :
    ∃ after, recv.write (RangeBuf.fromSlice segment.data segment.off segment.fin) = .ok after ∧
      after.flowControl = recv.flowControl ∧ Receiving stream after (arrived ++ [segment]) out := by
  obtain ⟨sound, stop, start⟩ := Receiver.sound_chunk inside ends
  rw [Receiver.chunk, ← cut] at sound stop start
  obtain ⟨after, stored, written⟩ := receiving.shape.write sound (by omega)
  refine ⟨after, stored, by rw [written.frame], written.shape, ?_, ?_, ?_⟩
  · rw [show after.off = recv.off by rw [written.frame]]
    exact receiving.out
  · intro x
    rw [written.has, receiving.has, Spans, start, stop]
    simp only [List.mem_append, List.mem_singleton, or_and_right, exists_or, exists_eq_left]
    rfl
  · intro finOff known
    rw [written.frame] at known
    by_cases fin : segment.fin = true
    · exact ⟨segment, List.mem_append_right _ (List.mem_singleton.mpr rfl), fin⟩
    · -- Only a final segment tells the final offset.
      have plain : (RangeBuf.fromSlice segment.data segment.off segment.fin).fin = false := Bool.eq_false_iff.mpr fin
      simp only [plain, Bool.false_eq_true, if_false] at known
      obtain ⟨earlier, member, last⟩ := receiving.final finOff known
      exact ⟨earlier, List.mem_append_left _ member, last⟩

/-- A read takes the next bytes of the stream, and counts them for the next limit. -/
theorem Receiving.read (receiving : Receiving stream recv arrived out) (outLen : Nat) :
    recv.emit outLen = (.error .done, recv) ∨
      ∃ bytes after, recv.emit outLen = (.ok (bytes, after.isFin), after) ∧
        after.flowControl = recv.flowControl.addConsumed bytes.length ∧
        Receiving stream after arrived (out ++ bytes) := by
  rcases receiving.shape.emit outLen with ⟨_, ran⟩ | ⟨ready, bytes, after, ran, emits⟩
  · exact .inl ran
  · right
    refine ⟨bytes, after, ran, ?_, emits.shape, ?_, ?_, ?_⟩
    · -- The loop over the chunks leaves the flow controller alone.
      have looped := RecvBuf.Shape.emitLoop recv.data.entries.length outLen receiving.shape
      rw [RecvBuf.emit, if_neg (by simp [ready]), receiving.shape.running.1] at ran
      simp only [Prod.mk.injEq, Except.ok.injEq] at ran
      obtain ⟨⟨rfl, -⟩, rfl⟩ := ran
      rw [looped.frame]
    · rw [emits.off, List.take_add, ← emits.bytes, ← receiving.out]
    · exact fun x => (emits.has x).trans (receiving.has x)
    · rw [emits.finOff]
      exact receiving.final

theorem Receiving.withFlow (receiving : Receiving stream recv arrived out) (flow : FlowControl) :
    Receiving stream { recv with flowControl := flow } arrived out := by
  obtain ⟨⟨holds, keyed, apart, above, marks, reach, read, inside, final, running⟩, bytes, has, last⟩ := receiving
  exact ⟨⟨holds, keyed, apart, above, marks, reach, read, inside, final, running⟩, bytes, has, last⟩

/-- Both ends are known at the start. -/
theorem joined_start (stream : Bytes) (maxData maxWindow : Nat) : Joined stream (start maxData maxWindow) := by
  have recv := Receiver.inv_start stream maxData maxWindow
  refine ⟨⟨Sender.inv_start maxData, List.nil_prefix, ?_, ?_, ?_, ?_⟩, ⟨recv.shape, rfl, ?_, ?_⟩, ?_,
    Nat.le_refl _, ?_, ?_, rfl⟩
  · intro finOff known
    cases known
  · simp [start]
  · simp [start, Sender.start]
  · simp [start, Sender.start]
  · intro x
    simp [start, RecvBuf.new, Has, OrdMap.empty]
  · intro finOff known
    cases known
  · simp [start]
  · simp [start]
  · simp [start]

variable {stream : Bytes} {transfer : Transfer}

theorem Joined.withSender (joined : Joined stream transfer)
    (sending : Sending stream after transfer.sent transfer.arrived)
    (used : after.send.maxData ≤ transfer.recv.maxData) : Joined stream { transfer with sender := after } :=
  ⟨sending, joined.receiving, joined.arrived, used, joined.granted, joined.ahead, joined.accepted⟩

/-- A segment that was sent is accepted, whenever it arrives. -/
theorem Joined.arrive (joined : Joined stream transfer) (allowed : segment ∈ transfer.sent) :
    Joined stream (transfer.next (.arrive segment)) := by
  have sending := joined.sending
  obtain ⟨inside, cut, ends⟩ := sending.cut segment allowed
  -- The sender stays below its limit, which is one that the receiver granted.
  have whole := sending.begins.length_le
  have size := sending.inv.shape.size
  have flow := sending.inv.shape.flow
  have used := joined.used
  obtain ⟨after, stored, same, receiving⟩ := joined.receiving.arrive (by omega) cut
    (fun fin => sending.final _ (ends fin)) (by omega)
  simp only [Transfer.next, stored]
  refine ⟨sending.arrives segment, receiving, ?_, ?_, ?_, ?_, joined.accepted⟩
  · intro other member
    rcases List.mem_append.mp member with old | new
    · exact joined.arrived other old
    · exact List.mem_singleton.mp new ▸ allowed
  all_goals simp only [RecvBuf.maxData, same]
  · exact joined.used
  · exact joined.granted
  · exact joined.ahead

/-- A read asks for a new limit only when it is ahead of the old one. -/
theorem Joined.read (joined : Joined stream transfer) (outLen : Nat) :
    Joined stream (transfer.next (.read outLen)) := by
  rcases joined.receiving.read outLen with ran | ⟨bytes, after, ran, same, receiving⟩
  · simp only [Transfer.next, ran]
    exact joined
  · simp only [Transfer.next, ran]
    refine ⟨joined.sending, receiving, joined.arrived, ?_, ?_, ?_, joined.accepted⟩
    · simp only [RecvBuf.maxData, same, FlowControl.addConsumed_maxData]
      exact joined.used
    · simp only [RecvBuf.maxData, same, FlowControl.addConsumed_maxData]
      exact joined.granted
    · intro asked
      -- A limit is asked for when it is ahead, and reading on leaves it ahead.
      by_cases before : transfer.almostFull = true ∨ transfer.limits ≠ []
      · rw [same]
        exact (joined.ahead before).addConsumed _
      · rw [not_or] at before
        have needs : needsLimit after = true := by
          have either := asked.resolve_right before.2
          exact (Bool.or_eq_true_iff.mp either).resolve_left before.1
        unfold needsLimit at needs
        exact FlowControl.ahead_of_due (beq_iff_eq.mp (Bool.and_eq_true_iff.mp needs).2)

/-- A new limit is not below the old one. -/
theorem Joined.grant (joined : Joined stream transfer) {recent : Bool}
    (allowed : transfer.recv.flowControl.Tunable recent) : Joined stream (transfer.next (.grant recent)) := by
  simp only [Transfer.next]
  split
  · rename_i asked
    have ahead : transfer.recv.maxData ≤ (transfer.recv.flowControl.autotuneWindow recent).maxDataNext := by
      have tuned := (joined.ahead (.inl asked)).autotune_iff.mpr allowed
      unfold FlowControl.Ahead at tuned
      rwa [FlowControl.autotuneWindow_maxData] at tuned
    refine ⟨joined.sending, joined.receiving.withFlow _, joined.arrived, Nat.le_trans joined.used ahead, ?_, ?_,
      joined.accepted⟩
    · intro maxData member
      rcases List.mem_append.mp member with old | new
      · exact Nat.le_trans (joined.granted maxData old) ahead
      · exact Nat.le_of_eq (List.mem_singleton.mp new)
    · exact fun _ => FlowControl.ahead_updateMaxData _
  · exact joined

/-- Every step that can happen keeps what is known of both ends, as long as the stream goes on as expected. -/
theorem Joined.next (joined : Joined stream transfer) (allowed : transfer.Allowed event)
    (begins : (transfer.next event).sender.written <+: stream)
    (final : ∀ finOff, (transfer.next event).sender.send.finOff = some finOff → finOff = stream.length) :
    Joined stream (transfer.next event) := by
  have sending := joined.sending
  have inv := sending.inv
  -- What the sender does by itself leaves its limit as it is.
  have used (event : SendEvent) : (transfer.sender.next event).send.maxData ≤ transfer.recv.maxData := by
    rw [(inv.next_grows event).2]
    exact joined.used
  cases event with
  | write data fin =>
    refine joined.withSender (sending.keep (inv.write data fin) (inv.next_grows _).1 begins final ?_ ?_)
      (used (.write data fin))
    · simp only [Sender.next]
      split <;> rfl
    · intro frame member
      simp only [Sender.next] at member
      split at member <;> exact .inl member
  | emit outLen =>
    refine ⟨sending.emit outLen begins, joined.receiving, ?_, used (.emit outLen), joined.granted, joined.ahead,
      joined.accepted⟩
    exact fun segment member => List.mem_append_left _ (joined.arrived segment member)
  | lost frame =>
    exact joined.withSender (sending.keep (inv.retransmit frame) (inv.next_grows _).1 begins final rfl
      fun _ member => .inl member) (used (.retransmit frame))
  | ack frame =>
    obtain ⟨segment, there, rfl⟩ := allowed
    have emitted : transfer.sender.Emitted segment.frame := fun x covers =>
      ⟨segment.frame, (sending.frames _).mpr ⟨segment, joined.arrived segment there, rfl⟩, covers⟩
    refine joined.withSender (sending.keep (inv.ack segment.frame emitted) (inv.next_grows _).1 begins
      final rfl ?_) (used (.ack segment.frame))
    intro frame member
    rcases List.mem_append.mp member with old | new
    · exact .inl old
    · exact .inr ⟨segment, there, (List.mem_singleton.mp new).symm⟩
  | limit maxData =>
    refine joined.withSender (sending.keep (inv.limit maxData) ⟨List.prefix_refl _, fun _ known => known⟩ begins final
      rfl fun _ member => .inl member) ?_
    exact Nat.max_le.mpr ⟨joined.used, joined.granted maxData allowed⟩
  | arrive segment => exact joined.arrive allowed
  | read outLen => exact joined.read outLen
  | grant recent => exact joined.grant allowed
  | lostLimit =>
    exact ⟨sending, joined.receiving, joined.arrived, joined.used, joined.granted,
      fun _ => joined.ahead (.inr allowed), joined.accepted⟩

/-- What is known without the whole stream. -/
structure Based (transfer : Transfer) : Prop where
  inv : transfer.sender.Inv
  frames : ∀ segment ∈ transfer.sent, segment.frame ∈ transfer.sender.frames
  arrived : ∀ segment ∈ transfer.arrived, segment ∈ transfer.sent

theorem based_start (maxData maxWindow : Nat) : Based (start maxData maxWindow) :=
  ⟨Sender.inv_start maxData, by simp [start], by simp [start]⟩

/-- Every step that can happen keeps this, and only adds to what was written. -/
theorem Based.next (based : Based transfer) (allowed : transfer.Allowed event) :
    Based (transfer.next event) ∧ transfer.sender.Grows (transfer.next event).sender := by
  obtain ⟨inv, frames, arrived⟩ := based
  cases event with
  | write data fin =>
    refine ⟨⟨inv.write data fin, ?_, arrived⟩, (inv.next_grows (.write data fin)).1⟩
    have same : (transfer.sender.next (.write data fin)).frames = transfer.sender.frames := by
      simp only [Sender.next]
      split <;> rfl
    exact fun segment member => same ▸ frames segment member
  | emit outLen =>
    refine ⟨⟨inv.emit outLen, ?_, ?_⟩, (inv.next_grows (.emit outLen)).1⟩
    · intro segment member
      rcases List.mem_append.mp member with old | new
      · exact List.mem_append_left _ (frames segment old)
      · exact List.mem_append_right _ (List.mem_singleton.mpr (congrArg Segment.frame (List.mem_singleton.mp new)))
    · exact fun segment member => List.mem_append_left _ (arrived segment member)
  | lost frame => exact ⟨⟨inv.retransmit frame, frames, arrived⟩, (inv.next_grows (.retransmit frame)).1⟩
  | ack frame =>
    obtain ⟨segment, member, rfl⟩ := allowed
    have emitted : transfer.sender.Emitted segment.frame :=
      fun x covers => ⟨_, frames segment (arrived segment member), covers⟩
    exact ⟨⟨inv.ack segment.frame emitted, frames, arrived⟩, (inv.next_grows (.ack segment.frame)).1⟩
  | limit maxData => exact ⟨⟨inv.limit maxData, frames, arrived⟩, List.prefix_refl _, fun _ known => known⟩
  | arrive segment =>
    simp only [Transfer.next]
    split
    · exact ⟨⟨inv, frames, arrived⟩, Sender.Grows.refl _⟩
    · refine ⟨⟨inv, frames, ?_⟩, Sender.Grows.refl _⟩
      intro other member
      rcases List.mem_append.mp member with old | new
      · exact arrived other old
      · exact List.mem_singleton.mp new ▸ allowed
  | read outLen =>
    simp only [Transfer.next]
    split <;> exact ⟨⟨inv, frames, arrived⟩, Sender.Grows.refl _⟩
  | grant recent =>
    simp only [Transfer.next]
    split <;> exact ⟨⟨inv, frames, arrived⟩, Sender.Grows.refl _⟩
  | lostLimit => exact ⟨⟨inv, frames, arrived⟩, Sender.Grows.refl _⟩

/-- A run only adds to what was written. -/
theorem Based.run (events : List TransferEvent) : ∀ {transfer : Transfer}, Based transfer →
    Runs.Along Transfer.next Allowed transfer events →
      Based (Runs.run Transfer.next transfer events) ∧
        transfer.sender.Grows (Runs.run Transfer.next transfer events).sender := by
  induction events with
  | nil => exact fun based _ => ⟨based, Sender.Grows.refl _⟩
  | cons event rest ih =>
    intro transfer based along
    -- Induction over the run; what is written grows with each step.
    obtain ⟨kept, grows⟩ := based.next along.1
    obtain ⟨last, later⟩ := ih kept along.2
    exact ⟨last, grows.trans later⟩

/-- What is known of both ends is kept along a run, for the stream that it ends with. -/
theorem Joined.run (events : List TransferEvent) : ∀ {transfer : Transfer}, Joined stream transfer → Based transfer →
    Runs.Along Transfer.next Allowed transfer events →
      (Runs.run Transfer.next transfer events).sender.written = stream →
        Joined stream (Runs.run Transfer.next transfer events) := by
  induction events with
  | nil => exact fun joined _ _ _ => joined
  | cons event rest ih =>
    intro transfer joined based along whole
    -- The stream is known only at the end of the run, and each state holds a start of it.
    obtain ⟨kept, -⟩ := based.next along.1
    obtain ⟨last, grows⟩ := kept.run rest along.2
    have written : (transfer.next event).sender.written <+: stream := whole ▸ grows.written
    refine ih (joined.next along.1 written fun finOff known => ?_) kept along.2 whole
    -- A final offset stays to the end of the run, where it is that of all that was written.
    have final := last.inv.final finOff (grows.final finOff known)
    rw [final, ← last.inv.shape.size]
    exact congrArg List.length whole

end Steps

end Transfer

end Flexicast
