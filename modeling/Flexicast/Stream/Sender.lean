import Flexicast.Lib.Runs
import Flexicast.Stream.SendBufLaws

/-! Runs of the send side of a stream: what is written, emitted, sent again and acknowledged. -/

namespace Flexicast

/-- A STREAM frame that was emitted. -/
structure Frame where
  off : Nat
  len : Nat
  fin : Bool
  deriving DecidableEq

/-- A frame carries the byte at an offset. -/
def Frame.Covers (frame : Frame) (x : Nat) : Prop := frame.off ≤ x ∧ x < frame.off + frame.len

/-- What happens to the send side of a stream. -/
inductive SendEvent where
  | write (data : Bytes) (fin : Bool)
  /-- Data is written into an output of some size. -/
  | emit (outLen : Nat)
  /-- A frame is lost and marked to be sent again. -/
  | retransmit (frame : Frame)
  | ack (frame : Frame)

/-- The send side of a stream with its history. -/
structure Sender where
  send : SendBuf
  /-- The bytes accepted from the application. -/
  written : Bytes
  frames : List Frame
  delivered : List Frame
  /-- Whether an offset was emitted since it was last marked to be sent again. -/
  sent : Nat → Bool

namespace Sender

open SendBuf

/-- A stream before its first write. -/
def start (maxData : Nat) : Sender := ⟨SendBuf.new maxData, [], [], [], fun _ => false⟩

/-- The frame that an emission produces. -/
def frameOf (sender : Sender) (outLen : Nat) : Frame :=
  ⟨sender.send.offFront, (sender.send.emit outLen).1.1.length, (sender.send.emit outLen).1.2⟩

/-- One step of the send side. -/
def next (sender : Sender) : SendEvent → Sender
  | .write data fin =>
    match sender.send.write data fin with
    | .error _ => sender
    | .ok (count, send) => { sender with send := send, written := sender.written ++ data.take count }
  | .emit outLen =>
    { sender with
      send := (sender.send.emit outLen).2
      frames := sender.frames ++ [sender.frameOf outLen]
      sent := fun x =>
        sender.sent x || decide ((sender.frameOf outLen).off ≤ x ∧
          x < (sender.frameOf outLen).off + (sender.frameOf outLen).len) }
  | .retransmit frame =>
    { sender with
      send := sender.send.retransmit frame.off frame.len
      sent := fun x => sender.sent x && !decide (frame.off ≤ x ∧ x < frame.off + frame.len) }
  | .ack frame =>
    { sender with
      send := sender.send.ackAndDrop frame.off frame.len
      delivered := sender.delivered ++ [frame] }

/-- Only what was emitted is sent again or acknowledged. -/
def Emitted (sender : Sender) (frame : Frame) : Prop :=
  ∀ x, frame.Covers x → ∃ earlier ∈ sender.frames, earlier.Covers x

/-- An offset lies in a frame that was acknowledged. -/
def Acknowledged (sender : Sender) (x : Nat) : Prop := ∃ frame ∈ sender.delivered, frame.Covers x

/-- The steps of the send side that can happen. -/
def Allowed (sender : Sender) : SendEvent → Prop
  | .write _ _ => True
  | .emit _ => True
  | .retransmit frame => sender.Emitted frame
  | .ack frame => sender.Emitted frame

/-- What holds of every send side that runs without reset, shutdown and rotation. -/
structure Inv (sender : Sender) : Prop where
  shape : Shape sender.written sender.send
  running : sender.send.error = none ∧ sender.send.fcStreamRotate = false ∧
    sender.send.fcMaxOffset = none
  /-- The acknowledged ranges are well formed. -/
  wf : sender.send.acked.Wf
  final : ∀ finOff, sender.send.finOff = some finOff → finOff = sender.send.off
  /-- Frames end at or below the largest emitted offset. -/
  emitted : ∀ frame ∈ sender.frames, frame.off + frame.len ≤ sender.send.emitOff
  /-- Nothing is emitted that was not written. -/
  reach : sender.send.emitOff ≤ sender.send.off
  /-- Only emitted offsets are acknowledged. -/
  acked : ∀ x, sender.send.acked.Contains x → x < sender.send.emitOff
  /-- What the buffer has as acknowledged lies in a frame that was. -/
  backed : ∀ x, sender.send.acked.Contains x → sender.Acknowledged x
  kept : ∀ x, x < sender.send.off → ¬ sender.send.acked.Contains x → Held sender.send.data x
  /-- What is not acknowledged is pending, or was sent since it was last marked. -/
  covered : ∀ x, x < sender.send.off → ¬ sender.send.acked.Contains x →
    Pending sender.send.data x ∨ sender.sent x = true

variable {sender : Sender}

theorem Inv.ackOff_le (inv : Inv sender) : sender.send.ackOff ≤ sender.send.off := by
  have reach := inv.reach
  by_cases zero : sender.send.ackOff = 0
  · omega
  · -- The last acknowledged offset was emitted.
    have last : sender.send.acked.Contains (sender.send.ackOff - 1) := acked_of_lt_ackOff (by omega)
    have := inv.acked _ last
    omega

/-- A new stream satisfies the invariant. -/
theorem inv_start (maxData : Nat) : Inv (start maxData) := by
  -- Nothing was written, sent or acknowledged.
  refine ⟨⟨rfl, ?_, Nat.le_refl _, Nat.le_refl _, ?_, Nat.zero_le _, Nat.le_refl _⟩, ⟨rfl, rfl, rfl⟩,
    RangeSet.wf_default, ?_, ?_, Nat.le_refl _, ?_, ?_, ?_, ?_⟩
  · simp [start, SendBuf.new]
  · simp [start, SendBuf.new]
  · intro finOff known
    simp [start, SendBuf.new] at known
  · simp [start]
  · intro x acked
    exact absurd acked (by show ¬ RangeSet.default.Contains x; simp)
  · intro x acked
    exact absurd acked (by show ¬ RangeSet.default.Contains x; simp)
  · exact fun x below => absurd below (Nat.not_lt_zero x)
  · exact fun x below => absurd below (Nat.not_lt_zero x)

/-- The final offset after a write that was not refused is the end of the stream. -/
theorem finOff_write {send : SendBuf} (data : Bytes) (fin : Bool)
    (final : ∀ finOff, send.finOff = some finOff → finOff = send.off)
    (accepted : send.finConflict (send.off + data.length)
      (fin && decide (data.length ≤ send.maxData - send.off)) = false) (count : Nat)
    (stored : count = min data.length (send.maxData - send.off)) (finOff : Nat)
    (known : (if fin && decide (data.length ≤ send.maxData - send.off) then
        some (send.off + data.length) else send.finOff) = some finOff) :
    finOff = send.off + count := by
  by_cases ends : (fin && decide (data.length ≤ send.maxData - send.off)) = true
  · rw [if_pos ends, Option.some.injEq] at known
    simp only [Bool.and_eq_true, decide_eq_true_eq] at ends
    omega
  · -- The final offset was known before, so nothing could be written.
    rw [if_neg ends] at known
    have same := final finOff known
    have unfin : (fin && decide (data.length ≤ send.maxData - send.off)) = false := by simpa using ends
    unfold finConflict at accepted
    rw [known, unfin] at accepted
    simp only [Bool.not_false, Bool.and_true, Bool.or_eq_false_iff, decide_eq_false_iff_not,
      beq_eq_false_iff_ne] at accepted
    omega

/-- A write keeps the invariant. -/
theorem Inv.write (inv : Inv sender) (data : Bytes) (fin : Bool) : Inv (sender.next (.write data fin)) := by
  have acks := inv.ackOff_le
  obtain ⟨shape, ⟨open_, still, unclosed⟩, wf, final, emitted, reach, acked, backed, kept, covered⟩ := inv
  rcases shape.write data fin open_ acks with ⟨_, refused⟩ | ⟨count, after, stored, spec⟩
  · -- A refused write changes nothing.
    simp only [next, refused]
    exact ⟨shape, ⟨open_, still, unclosed⟩, wf, final, emitted, reach, acked, backed, kept, covered⟩
  · simp only [next, stored]
    obtain ⟨amount, agrees, shape', ⟨bufs, len, frame⟩, held, pending⟩ := spec
    have ends := finOff_write data fin final agrees count amount
    subst frame
    refine ⟨shape', ⟨open_, still, unclosed⟩, wf, ends, emitted, ?_, acked, backed, ?_, ?_⟩
    · exact Nat.le_trans reach (Nat.le_add_right _ _)
    · -- What is new is held, and what is old is still held.
      intro x below unacked
      rw [held]
      by_cases old : x < sender.send.off
      · exact Or.inl (kept x old unacked)
      · exact Or.inr ⟨by omega, below⟩
    · intro x below unacked
      show Pending bufs x ∨ _
      rw [pending]
      by_cases old : x < sender.send.off
      · exact (covered x old unacked).imp Or.inl id
      · exact Or.inl (Or.inr ⟨by omega, below⟩)

/-- An emission keeps the invariant. -/
theorem Inv.emit (inv : Inv sender) (outLen : Nat) : Inv (sender.next (.emit outLen)) := by
  have ends := inv.shape.emit_within outLen
  obtain ⟨shape, ⟨open_, still, unclosed⟩, wf, final, emitted, reach, acked, backed, kept, covered⟩ := inv
  have shape' := shape.emit outLen
  obtain ⟨out, data, pos, ran, taken, _⟩ := shape.emit_eq outLen
  have made : sender.frameOf outLen =
      ⟨sender.send.offFront, out.length, sender.send.finOff == some (sender.send.offFront + out.length)⟩ := by
    rw [frameOf, ran]
  simp only [next]
  rw [made]
  rw [ran] at ends shape' ⊢
  simp only at ends
  refine ⟨shape', ⟨open_, still, unclosed⟩, wf, final, ?_, ?_, ?_, backed, ?_, ?_⟩
  · -- The new frame ends at the new largest emitted offset, or below.
    intro frame member
    show frame.off + frame.len ≤ max _ _
    rcases List.mem_append.mp member with old | new
    · have := emitted frame old
      omega
    · rw [List.mem_singleton] at new
      subst new
      show sender.send.offFront + out.length ≤ _
      omega
  · show max _ _ ≤ sender.send.off
    omega
  · intro x contains
    show x < max _ _
    have := acked x contains
    omega
  · exact fun x below unacked => (taken.held x).mpr (kept x below unacked)
  · intro x below unacked
    show Pending data x ∨ (sender.sent x || _) = true
    rw [Bool.or_eq_true, decide_eq_true_eq]
    -- A byte that was pending stays so, unless it is in the frame.
    rcases covered x below unacked with pending | sent
    · by_cases inside : sender.send.offFront ≤ x ∧ x < sender.send.offFront + out.length
      · exact Or.inr (Or.inr inside)
      · exact Or.inl ((taken.pending x).mpr ⟨pending, inside⟩)
    · exact Or.inr (Or.inl sent)

/-- Marking an emitted range to be sent again keeps the invariant. -/
theorem Inv.retransmit (inv : Inv sender) (frame : Frame) : Inv (sender.next (.retransmit frame)) := by
  obtain ⟨shape, ⟨open_, still, unclosed⟩, wf, final, emitted, reach, acked, backed, kept, covered⟩ := inv
  obtain ⟨shape', held, keeps, _, marks⟩ := shape.retransmit frame.off frame.len
  obtain ⟨data, pos, len, same⟩ := retransmit_frame sender.send frame.off frame.len
  simp only [next]
  generalize sender.send.retransmit frame.off frame.len = after at *
  subst same
  refine ⟨shape', ⟨open_, still, unclosed⟩, wf, final, emitted, reach, acked, backed, ?_, ?_⟩
  · exact fun x below unacked => (held x).mpr (kept x below unacked)
  · intro x below unacked
    show Pending data x ∨ (sender.sent x && _) = true
    rw [Bool.and_eq_true, Bool.not_eq_true', decide_eq_false_iff_not]
    by_cases inside : frame.off ≤ x ∧ x < frame.off + frame.len
    · -- A byte of the range that is not acknowledged makes the loop run, and is held.
      have above : sender.send.ackOff ≤ x :=
        Nat.le_of_not_lt fun below => unacked (acked_of_lt_ackOff below)
      exact Or.inl (marks (by omega) x inside (kept x below unacked))
    · rcases covered x below unacked with pending | sent
      · exact Or.inl (keeps x pending)
      · exact Or.inr ⟨sent, inside⟩

/-- Acknowledging an emitted range keeps the invariant. -/
theorem Inv.ack (inv : Inv sender) (frame : Frame) (was : sender.Emitted frame) : Inv (sender.next (.ack frame)) := by
  obtain ⟨shape, ⟨open_, still, unclosed⟩, wf, final, emitted, reach, acked, backed, kept, covered⟩ := inv
  obtain ⟨shape', ⟨data, pos, same⟩, _, held, _, pending⟩ := shape.ackAndDrop frame.off frame.len still
  have wider := fun x => RangeSet.contains_insert wf (Nat.le_add_right frame.off frame.len) x
  simp only [next]
  generalize sender.send.ackAndDrop frame.off frame.len = after at *
  subst same
  refine ⟨shape', ⟨open_, still, unclosed⟩, wf.insert (Nat.le_add_right _ _), final, emitted, reach,
    ?_, ?_, ?_, ?_⟩
  · -- What is newly acknowledged lies in an emitted frame.
    intro x contains
    rcases (wider x).mp contains with inside | old
    · obtain ⟨earlier, member, covers⟩ := was x inside
      have := emitted earlier member
      have := covers.2
      show x < sender.send.emitOff
      omega
    · exact acked x old
  · intro x contains
    rcases (wider x).mp contains with inside | old
    · exact ⟨frame, List.mem_append_right _ (List.mem_singleton.mpr rfl), inside⟩
    · obtain ⟨earlier, member, covers⟩ := backed x old
      exact ⟨earlier, List.mem_append_left _ member, covers⟩
  · -- A dropped chunk was acknowledged as a whole.
    intro x below unacked
    have before : ¬ sender.send.acked.Contains x := fun old => unacked ((wider x).mpr (Or.inr old))
    exact (held x (kept x below before)).resolve_right unacked
  · intro x below unacked
    have before : ¬ sender.send.acked.Contains x := fun old => unacked ((wider x).mpr (Or.inr old))
    rcases covered x below before with left | sent
    · exact Or.inl ((pending x left).resolve_right unacked)
    · exact Or.inr sent

/-- Every step that can happen keeps the invariant. -/
theorem Inv.next (sender : Sender) (event : SendEvent) (inv : Inv sender)
    (allowed : sender.Allowed event) : Inv (sender.next event) := by
  cases event with
  | write data fin => exact inv.write data fin
  | emit outLen => exact inv.emit outLen
  | retransmit frame => exact inv.retransmit frame
  | ack frame => exact inv.ack frame allowed

/-- The frames of a row of emissions, each with its offset and its bytes. -/
def emitAll (send : SendBuf) : List Nat → List (Nat × Bytes)
  | [] => []
  | outLen :: sizes =>
    (send.offFront, (send.emit outLen).1.1) :: emitAll (send.emit outLen).2 sizes

/-- A pending byte is produced once there were more emissions than bytes in front of it. -/
theorem emitAll_reaches {stream : Bytes} {x : Nat} (sizes : List Nat) :
    ∀ {send : SendBuf}, Shape stream send → Pending send.data x → (∀ size ∈ sizes, 0 < size) →
      x < send.offFront + sizes.length →
      ∃ out ∈ emitAll send sizes, out.1 ≤ x ∧ x < out.1 + out.2.length := by
  -- Each emission makes progress, so the front moves until it passes the byte.
  induction sizes with
  | nil =>
    intro send shape pending _ near
    -- The byte is not in front of the front.
    rcases shape.offFront_spec with ⟨_, least⟩ | ⟨none_, _⟩
    · have := least x pending
      simp only [List.length_nil] at near
      omega
    · exact absurd pending (none_ x)
  | cons size sizes ih =>
    intro send shape pending positive near
    have taken := shape.emit_taken size
    have progress := shape.emit_progress (positive size List.mem_cons_self) pending
    by_cases inside : send.offFront ≤ x ∧ x < send.offFront + (send.emit size).1.1.length
    · exact ⟨_, List.mem_cons_self, inside⟩
    · -- The byte is still pending, and the front is further.
      have left : Pending (send.emit size).2.data x := (taken.pending x).mpr ⟨pending, inside⟩
      have further : send.offFront < (send.emit size).2.offFront := by
        rcases (shape.emit size).offFront_spec with ⟨front, _⟩ | ⟨none_, _⟩
        · obtain ⟨was, outside⟩ := (taken.pending _).mp front
          rcases shape.offFront_spec with ⟨_, least⟩ | ⟨none_, _⟩
          · have := least _ was
            omega
          · exact absurd was (none_ _)
        · exact absurd left (none_ x)
      obtain ⟨out, member, covers⟩ := ih (shape.emit size) left
        (fun other member => positive other (List.mem_cons_of_mem _ member))
        (by simp only [List.length_cons] at near; omega)
      exact ⟨out, List.mem_cons_of_mem _ member, covers⟩

/-- What the send side promises about its emissions and about the bytes that it was given. -/
structure Faithful (sender : Sender) : Prop where
  /-- An emission returns the bytes that were written at the offsets from the front on. -/
  bytes : ∀ outLen, (sender.send.emit outLen).1.1 =
    (sender.written.drop sender.send.offFront).take (sender.send.emit outLen).1.1.length
  fits : ∀ outLen, (sender.send.emit outLen).1.1.length ≤ outLen
  within : ∀ outLen,
    sender.send.offFront + (sender.send.emit outLen).1.1.length ≤ sender.written.length
  /-- It is final exactly when it ends at the final offset that is known. -/
  fin : ∀ outLen, (sender.send.emit outLen).1.2 = true ↔
    sender.send.finOff = some (sender.send.offFront + (sender.send.emit outLen).1.1.length)
  final : ∀ finOff, sender.send.finOff = some finOff → finOff = sender.written.length
  /-- A byte of no frame that was acknowledged is in a chunk, with the value that was written. -/
  kept : ∀ x, x < sender.written.length → ¬ sender.Acknowledged x →
    ∃ buf ∈ sender.send.data, buf.off ≤ x ∧ x < buf.off + buf.len ∧
      buf.window[x - buf.off]? = sender.written[x]?
  /-- Such a byte will be produced by the next emissions, or it was emitted since it was last marked. -/
  covered : ∀ x, x < sender.written.length → ¬ sender.Acknowledged x →
    (∀ sizes : List Nat, (∀ size ∈ sizes, 0 < size) → x < sizes.length →
      ∃ out ∈ emitAll sender.send sizes, out.1 ≤ x ∧ x < out.1 + out.2.length) ∨
    sender.sent x = true

/-- The invariant gives what the send side promises. -/
theorem Inv.faithful (inv : Inv sender) : Faithful sender := by
  have size := inv.shape.size
  refine ⟨?_, ?_, ?_, ?_, ?_, ?_, ?_⟩
  · exact fun outLen => (inv.shape.emit_taken outLen).bytes
  · exact fun outLen => (inv.shape.emit_taken outLen).fits
  · intro outLen
    rw [size]
    exact inv.shape.emit_within outLen
  · intro outLen
    obtain ⟨out, data, pos, ran, _⟩ := inv.shape.emit_eq outLen
    rw [ran]
    exact beq_iff_eq
  · intro finOff known
    rw [size]
    exact inv.final finOff known
  · -- The chunk that holds the byte shows the byte of the stream.
    intro x below unacked
    obtain ⟨buf, member, low, high⟩ := inv.kept x (by omega) fun acked => unacked (inv.backed x acked)
    exact ⟨buf, member, low, high, (inv.shape.holds buf member).window_at low high⟩
  · intro x below unacked
    rcases inv.covered x (by omega) fun acked => unacked (inv.backed x acked) with pending | sent
    · exact Or.inl fun sizes positive enough =>
        emitAll_reaches sizes inv.shape pending positive (by omega)
    · exact Or.inr sent

/-- Every state of the send side keeps its promises, whatever was written, sent, lost and acknowledged. -/
theorem faithful_always (maxData : Nat) (events : List SendEvent)
    (allowed : Runs.Along next Allowed (start maxData) events) :
    Faithful (Runs.run next (start maxData) events) :=
  -- The invariant holds at the start and survives every step.
  (Runs.Along.keeps Inv.next (inv_start maxData) allowed).faithful

/-- The promises hold after a stream was sent in part, lost in part and acknowledged in part. -/
theorem faithful_always_partial :
    Runs.Along next Allowed (start 20) [.write [10, 20, 30, 40, 50] true, .emit 3, .retransmit ⟨0, 2, false⟩,
        .emit 1, .ack ⟨1, 2, false⟩] ∧
      Faithful (Runs.run next (start 20) [.write [10, 20, 30, 40, 50] true, .emit 3,
        .retransmit ⟨0, 2, false⟩, .emit 1, .ack ⟨1, 2, false⟩]) := by
  have allowed : Runs.Along next Allowed (start 20) [.write [10, 20, 30, 40, 50] true, .emit 3,
      .retransmit ⟨0, 2, false⟩, .emit 1, .ack ⟨1, 2, false⟩] := by
    refine ⟨trivial, trivial, ?_, trivial, ?_, trivial⟩
    -- The lost range and the acknowledged one lie in the first frame.
    · exact fun x covers => ⟨⟨0, 3, false⟩, by decide, covers.1, Nat.lt_of_lt_of_le covers.2 (by decide)⟩
    · exact fun x covers => ⟨⟨0, 3, false⟩, by decide, Nat.zero_le x, covers.2⟩
  exact ⟨allowed, faithful_always 20 _ allowed⟩

end Sender

end Flexicast
