import Flexicast.Stream.Sender
import Flexicast.Stream.StreamsLaws

/-! When a send side counts as complete, and when the connection collects its stream. -/

namespace Flexicast

namespace Sender

open SendBuf

/-- Frames are lost and acknowledged as they were emitted. -/
def Framed (sender : Sender) : SendEvent → Prop
  | .write _ _ => True
  | .emit _ => True
  | .retransmit frame => frame ∈ sender.frames
  | .ack frame => frame ∈ sender.frames

/-- The end of the stream is written with data, before all data was emitted, or before anything was. -/
def FinInTime (sender : Sender) : SendEvent → Prop
  | .write data fin =>
    -- Only a write that fits and brings the first final flag sets the final offset.
    fin = true → sender.send.finOff = none → data.length ≤ sender.send.maxData - sender.send.off →
      data ≠ [] ∨ sender.send.emitOff < sender.send.off ∨ (sender.send.off = 0 ∧ sender.frames = [])
  | _ => True

/-- Frames with all bytes up to the final offset were acknowledged, and so was one that ends the stream. -/
def Delivered (sender : Sender) : Prop :=
  ∃ finOff, sender.send.finOff = some finOff ∧ finOff = sender.written.length ∧
    (∀ x, x < finOff → sender.Acknowledged x) ∧
    ∃ frame ∈ sender.delivered, frame ∈ sender.frames ∧ frame.fin = true

/-- What holds besides when frames are acknowledged as emitted and the end is written in time. -/
structure FinInv (sender : Sender) : Prop where
  base : Inv sender
  genuine : ∀ frame ∈ sender.delivered, frame ∈ sender.frames
  /-- Without an acknowledged frame no range is acknowledged. -/
  silent : sender.delivered = [] → sender.send.acked.iter = []
  /-- Frames with the last byte end the stream, and all frames of an empty stream do. -/
  ends : ∀ finOff, sender.send.finOff = some finOff → ∀ frame ∈ sender.frames,
    finOff = 0 ∨ frame.Covers (finOff - 1) → frame.fin = true

theorem finInv_start (maxData : Nat) : FinInv (start maxData) := by
  exact ⟨inv_start maxData, by simp [start], fun _ => rfl, by simp [start]⟩

variable {sender : Sender}

/-- A write that sets the final offset in time leaves no frame with the last byte unmarked. -/
theorem FinInv.write (inv : FinInv sender) (data : Bytes) (fin : Bool) (inTime : sender.FinInTime (.write data fin)) :
    FinInv (sender.next (.write data fin)) := by
  obtain ⟨base, genuine, silent, ends⟩ := inv
  have next_base := base.write data fin
  have reach := base.reach
  rcases base.shape.write data fin base.running.1 base.ackOff_le with
    ⟨_, refused⟩ | ⟨count, after, stored, spec⟩
  · simp only [next, refused]
    exact ⟨base, genuine, silent, ends⟩
  · simp only [next, stored] at next_base ⊢
    obtain ⟨bufs, len, frame⟩ := spec.frame
    subst frame
    refine ⟨next_base, genuine, silent, ?_⟩
    intro finOff known frame member last
    have emitted := base.emitted frame member
    simp only at known
    by_cases sets : (fin && decide (data.length ≤ sender.send.maxData - sender.send.off)) = true
    · rw [if_pos sets, Option.some.injEq] at known
      obtain ⟨final, fits⟩ := Bool.and_eq_true_iff.mp sets
      have fits := of_decide_eq_true fits
      cases before : sender.send.finOff with
      | some old =>
        -- The final offset was known, so the write brings no data.
        have same := base.final old before
        have agrees := spec.agrees
        rw [finConflict, before] at agrees
        simp only [Bool.or_eq_false_iff, decide_eq_false_iff_not] at agrees
        have : old = finOff := by omega
        exact ends old before frame member (by rw [this]; exact last)
      | none =>
        have some_ : data ≠ [] → 0 < data.length := List.length_pos_iff.mpr
        rcases inTime final before fits with filled | unsent | ⟨_, none_⟩
        · have := some_ filled
          unfold Frame.Covers at last
          omega
        · unfold Frame.Covers at last
          omega
        · rw [none_] at member
          simp at member
    · rw [if_neg sets] at known
      exact ends finOff known frame member last

/-- An emission that reaches the final offset is marked as the end of the stream. -/
theorem FinInv.emit (inv : FinInv sender) (outLen : Nat) : FinInv (sender.next (.emit outLen)) := by
  obtain ⟨base, genuine, silent, ends⟩ := inv
  have next_base := base.emit outLen
  have within_ := base.shape.emit_within outLen
  obtain ⟨out, data, pos, ran, _⟩ := base.shape.emit_eq outLen
  have made : sender.frameOf outLen =
      ⟨sender.send.offFront, out.length, sender.send.finOff == some (sender.send.offFront + out.length)⟩ := by
    rw [frameOf, ran]
  simp only [next] at next_base ⊢
  rw [made, ran] at next_base ⊢
  rw [ran] at within_
  refine ⟨next_base, ?_, silent, ?_⟩
  · exact fun frame member => List.mem_append.mpr (Or.inl (genuine frame member))
  · intro finOff known frame member last
    rcases List.mem_append.mp member with old | new
    · exact ends finOff known frame old last
    · -- The frame covers the last byte, and ends where the stream does.
      rw [List.mem_singleton] at new
      subst new
      have final := base.final finOff known
      have stop : finOff = sender.send.offFront + out.length := by
        simp only [Frame.Covers] at last within_
        omega
      show (sender.send.finOff == some (sender.send.offFront + out.length)) = true
      rw [← stop, show sender.send.finOff = some finOff from known]
      exact beq_self_eq_true _

/-- Marking a frame to be sent again acknowledges nothing. -/
theorem FinInv.retransmit (inv : FinInv sender) (frame : Frame) : FinInv (sender.next (.retransmit frame)) := by
  obtain ⟨base, genuine, silent, ends⟩ := inv
  have next_base := base.retransmit frame
  obtain ⟨data, pos, len, same⟩ := retransmit_frame sender.send frame.off frame.len
  simp only [next] at next_base ⊢
  rw [same] at next_base ⊢
  exact ⟨next_base, genuine, silent, ends⟩

/-- Acknowledging an emitted frame acknowledges its bytes. -/
theorem FinInv.ack (inv : FinInv sender) (frame : Frame) (was : frame ∈ sender.frames) :
    FinInv (sender.next (.ack frame)) := by
  -- The acknowledgment adds one range, which is that of a frame on record.
  obtain ⟨base, genuine, silent, ends⟩ := inv
  have next_base := base.ack frame fun x covers => ⟨frame, was, covers⟩
  obtain ⟨_, ⟨data, pos, same⟩, _⟩ := base.shape.ackAndDrop frame.off frame.len base.running.2.1
  simp only [next] at next_base ⊢
  rw [same] at next_base ⊢
  refine ⟨next_base, ?_, ?_, ends⟩
  · intro other member
    rcases List.mem_append.mp member with old | new
    · exact genuine other old
    · rw [List.mem_singleton] at new
      rw [new]
      exact was
  · intro none_
    simp at none_

/-- Every step that can happen in time keeps the invariant. -/
theorem FinInv.next (sender : Sender) (event : SendEvent) (inv : FinInv sender)
    (met : sender.Framed event ∧ sender.FinInTime event) : FinInv (sender.next event) := by
  cases event with
  | write data fin => exact inv.write data fin met.2
  | emit outLen => exact inv.emit outLen
  | retransmit frame => exact inv.retransmit frame
  | ack frame => exact inv.ack frame met.1

/-- A complete send side was delivered. -/
theorem FinInv.delivered (inv : FinInv sender) (complete : sender.send.isComplete = true) : sender.Delivered := by
  obtain ⟨base, genuine, silent, ends⟩ := inv
  have unclosed := base.running.2.2
  rw [isComplete, unclosed, Bool.or_false] at complete
  cases known : sender.send.finOff with
  | none => simp [known] at complete
  | some finOff =>
    rw [known] at complete
    have ranges : sender.send.acked.iter = [(0, finOff)] := by
      simpa [RangeSet.eqRange] using complete
    have all : ∀ x, x < finOff → sender.send.acked.Contains x := by
      intro x below
      refine ⟨(0, finOff), ?_, Nat.zero_le x, below⟩
      rw [ranges]
      exact List.mem_singleton.mpr rfl
    refine ⟨finOff, known, ?_, fun x below => base.backed x (all x below), ?_⟩
    · rw [base.final finOff known, base.shape.size]
    · by_cases empty : finOff = 0
      · -- An empty stream is complete once any frame was acknowledged, and all of them end it.
        have some_ : sender.delivered ≠ [] := fun none_ => by
          rw [silent none_] at ranges
          cases ranges
        obtain ⟨frame, rest, listed⟩ := List.exists_cons_of_ne_nil some_
        have member : frame ∈ sender.delivered := by
          rw [listed]
          exact List.mem_cons_self
        exact ⟨frame, member, genuine frame member, ends finOff known frame (genuine frame member) (Or.inl empty)⟩
      · -- The frame that acknowledged the last byte ends the stream.
        obtain ⟨frame, member, covers⟩ := base.backed (finOff - 1) (all _ (by omega))
        exact ⟨frame, member, genuine frame member, ends finOff known frame (genuine frame member) (Or.inr covers)⟩

theorem complete_of_collected {map : StreamMap} {id off len : Nat} {recv : RecvBuf} {send : SendBuf}
    (live : map.get id = some ⟨recv, ⟨send, none⟩, false, true⟩) (before : map.isCollected id = false)
    (after : (map.onStreamAcked id off len).isCollected id = true) :
    (send.ackAndDrop off len).isComplete = true := by
  unfold StreamMap.onStreamAcked at after
  rw [live] at after
  simp only [RotSendBuf.ackAndDrop_main] at after
  split at after
  · rename_i complete
    simpa [Stream.isComplete, RotSendBuf.isComplete] using (Bool.and_eq_true_iff.mp complete).1
  · -- The stream stays, and was not collected before.
    rw [StreamMap.isCollected_set, before] at after
    cases after

/-- A send side is complete, and a local unidirectional stream is collected, only once its end was delivered. -/
theorem complete_once_delivered (maxData : Nat) (events : List SendEvent)
    (met : Runs.Along Sender.next (fun sender event => sender.Framed event ∧ sender.FinInTime event)
      (start maxData) events) :
    ((Runs.run Sender.next (start maxData) events).send.isComplete = true →
        Delivered (Runs.run Sender.next (start maxData) events)) ∧
      ∀ (map : StreamMap) (id : Nat) (recv : RecvBuf) (frame : Frame),
        frame ∈ (Runs.run Sender.next (start maxData) events).frames →
        map.get id = some
          ⟨recv, ⟨(Runs.run Sender.next (start maxData) events).send, none⟩, false, true⟩ →
        map.isCollected id = false →
        (map.onStreamAcked id frame.off frame.len).isCollected id = true →
        Delivered ((Runs.run Sender.next (start maxData) events).next (.ack frame)) := by
  have inv := Runs.Along.keeps FinInv.next (finInv_start maxData) met
  refine ⟨inv.delivered, ?_⟩
  intro map id recv frame emitted live before after
  -- The connection collects the stream in the state after the acknowledgment.
  exact (inv.ack frame emitted).delivered (complete_of_collected live before after)

/-- A stream whose end is written with its last bytes is complete once all of it was acknowledged. -/
theorem complete_once_delivered_in_two_frames :
    (Runs.run Sender.next (start 100) [.write [1, 2, 3] false, .emit 2, .write [4] true, .emit 9,
        .ack ⟨2, 2, true⟩, .ack ⟨0, 2, false⟩]).send.isComplete = true ∧
      Delivered (Runs.run Sender.next (start 100) [.write [1, 2, 3] false, .emit 2, .write [4] true, .emit 9,
        .ack ⟨2, 2, true⟩, .ack ⟨0, 2, false⟩]) := by
  have complete : (Runs.run Sender.next (start 100) [.write [1, 2, 3] false, .emit 2, .write [4] true,
      .emit 9, .ack ⟨2, 2, true⟩, .ack ⟨0, 2, false⟩]).send.isComplete = true := by decide
  refine ⟨complete, (complete_once_delivered 100 _ ?_).1 complete⟩
  refine ⟨⟨trivial, ?_⟩, ⟨trivial, trivial⟩, ⟨trivial, ?_⟩, ⟨trivial, trivial⟩, ⟨?_, trivial⟩, ⟨?_, trivial⟩,
    trivial⟩
  · exact fun final => absurd final (by decide)
  · exact fun _ _ _ => Or.inl (by decide)
  · exact show _ ∈ _ by decide
  · exact show _ ∈ _ by decide

/-- A stream whose end is written on its own, after all of its bytes were emitted. -/
def lateEnd : Sender :=
  Runs.run Sender.next (start 100) [.write [104, 101, 108, 108, 111] false, .emit 10, .write [] true]

/-- The stream is complete, and is collected, when its bytes were acknowledged but its end was never sent. -/
theorem complete_without_end :
    Runs.Along Sender.next Framed (start 100)
        [.write [104, 101, 108, 108, 111] false, .emit 10, .write [] true, .ack ⟨0, 5, false⟩] ∧
      (lateEnd.next (.ack ⟨0, 5, false⟩)).send.isComplete = true ∧
      (∀ frame ∈ (lateEnd.next (.ack ⟨0, 5, false⟩)).frames, frame.fin = false) ∧
      (((StreamMap.new 0 0 0).set 3 ⟨RecvBuf.new 0 0, ⟨lateEnd.send, none⟩, false, true⟩).onStreamAcked
        3 0 5).isCollected 3 = true := by
  refine ⟨⟨trivial, trivial, trivial, show _ ∈ _ by decide, trivial⟩, ?_, ?_, ?_⟩
  · decide
  · decide
  · decide

end Sender

end Flexicast
