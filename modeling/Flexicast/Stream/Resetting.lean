import Flexicast.Stream.Sender

/-! Send buffers that may be reset: what they keep, and what they give back. -/

namespace Flexicast

namespace SendBuf

/-- What holds of a send buffer, whatever was written, sent, acknowledged and reset. -/
structure Bounded (frames : List Frame) (send : SendBuf) : Prop where
  shape : ∃ stream, Shape stream send
  still : send.fcStreamRotate = false
  /-- The acknowledged ranges are well formed. -/
  wf : send.acked.Wf
  /-- Frames end at or below the largest emitted offset. -/
  emitted : ∀ frame ∈ frames, frame.off + frame.len ≤ send.emitOff
  /-- Nothing is emitted that was not written. -/
  reach : send.emitOff ≤ send.off
  /-- Only what was emitted is acknowledged, unless the stream ended and holds nothing. -/
  acked : ∀ x, send.acked.Contains x → x < send.emitOff ∨
    (x < send.off ∧ send.finOff = some send.off ∧ ∀ y, ¬ Held send.data y)

variable {frames : List Frame} {send : SendBuf}

theorem bounded_new (maxData : Nat) : Bounded [] (new maxData) := by
  obtain ⟨shape, -, wf, -, -, reach, -⟩ := Sender.inv_start maxData
  refine ⟨⟨[], shape⟩, rfl, wf, ?_, reach, ?_⟩
  · exact fun frame member => absurd member List.not_mem_nil
  · intro x contains
    exact absurd contains (by show ¬ RangeSet.default.Contains x; simp)

theorem Bounded.acked_lt (bounded : Bounded frames send) {x : Nat} (contains : send.acked.Contains x) :
    x < send.off := by
  have reach := bounded.reach
  rcases bounded.acked x contains with below | ended
  · omega
  · exact ended.1

theorem Bounded.ackOff_le (bounded : Bounded frames send) : send.ackOff ≤ send.off := by
  -- The byte in front of the offset is acknowledged, so it was written.
  by_cases zero : send.ackOff = 0
  · omega
  · have last := bounded.acked_lt (acked_of_lt_ackOff (show send.ackOff - 1 < send.ackOff by omega))
    omega

variable {data : Bytes} {fin : Bool} {after : SendBuf} {finalSize unsent : Nat}

/-- A write stores as much as it returns. -/
theorem Bounded.write (bounded : Bounded frames send) {count : Nat} (ran : send.write data fin = .ok (count, after)) :
    Bounded frames after ∧ after.off = send.off + count ∧ count ≤ data.length := by
  have acks := bounded.ackOff_le
  -- A stream that was stopped refuses the write.
  have open_ : send.error = none := by
    cases stopped : send.error with
    | none => rfl
    | some code =>
      rw [SendBuf.write, cap, stopped] at ran
      cases ran
  obtain ⟨⟨stream, shape⟩, still, wf, emitted, reach, acked⟩ := bounded
  rcases shape.write data fin open_ acks with ⟨-, refused⟩ | ⟨stored, later, done, spec⟩
  · rw [refused] at ran
    cases ran
  · rw [done] at ran
    cases ran
    obtain ⟨amount, agrees, shape', ⟨bufs, len, frame⟩, held, -⟩ := spec
    subst frame
    refine ⟨⟨⟨_, shape'⟩, still, wf, emitted, Nat.le_trans reach (Nat.le_add_right _ _), ?_⟩, rfl, by omega⟩
    intro x contains
    rcases acked x contains with below | ⟨below, ended, nothing⟩
    · exact .inl below
    · -- Nothing is stored behind the end of the stream.
      have empty : data.length = 0 := by
        rw [finConflict, ended] at agrees
        simp only [Bool.or_eq_false_iff, decide_eq_false_iff_not] at agrees
        omega
      have zero : count = 0 := by omega
      subst zero
      right
      refine ⟨below, ?_, ?_⟩
      · show (if _ then some (send.off + data.length) else send.finOff) = some (send.off + 0)
        rw [empty, ended]
        split <;> rfl
      · intro y inside
        rcases (held y).mp inside with old | new
        · exact nothing y old
        · omega

theorem Bounded.write_overflow (bounded : Bounded frames send) : send.write data fin ≠ .error .overflow := by
  intro failed
  obtain ⟨stream, shape⟩ := bounded.shape
  cases stopped : send.error with
  | none =>
    have other := write_error stopped shape.flow failed
    cases other
  | some code =>
    rw [SendBuf.write, cap, stopped] at failed
    cases failed

/-- What is sent ends within what was written. -/
theorem Bounded.emit (bounded : Bounded frames send) (outLen : Nat) :
    Bounded (frames ++ [⟨send.offFront, (send.emit outLen).1.1.length, (send.emit outLen).1.2⟩]) (send.emit outLen).2 ∧
      (send.emit outLen).2.off = send.off := by
  obtain ⟨⟨stream, shape⟩, still, wf, emitted, reach, acked⟩ := bounded
  -- The frame ends within what was written, so the largest emitted offset does as well.
  have ends := shape.emit_within outLen
  have shape' := shape.emit outLen
  obtain ⟨out, data, pos, ran, taken, -⟩ := shape.emit_eq outLen
  rw [ran] at ends shape' ⊢
  dsimp only at ends
  refine ⟨⟨⟨stream, shape'⟩, still, wf, ?_, ?_, ?_⟩, rfl⟩
  · intro frame member
    show frame.off + frame.len ≤ max _ _
    rcases List.mem_append.mp member with old | new
    · have := emitted frame old
      omega
    · rw [List.mem_singleton.mp new]
      exact Nat.le_max_right _ _
  · show max _ _ ≤ send.off
    omega
  · intro x contains
    rcases acked x contains with below | ⟨below, ended, nothing⟩
    · left
      show x < max _ _
      omega
    · exact .inr ⟨below, ended, fun y inside => nothing y ((taken.held y).mp inside)⟩

/-- What is marked to be sent again was written. -/
theorem Bounded.retransmit (bounded : Bounded frames send) (off len : Nat) :
    Bounded frames (send.retransmit off len) ∧ (send.retransmit off len).off = send.off := by
  obtain ⟨⟨stream, shape⟩, still, wf, emitted, reach, acked⟩ := bounded
  obtain ⟨shape', held, -⟩ := shape.retransmit off len
  obtain ⟨data, pos, len', same⟩ := retransmit_frame send off len
  generalize send.retransmit off len = after at *
  subst same
  refine ⟨⟨⟨stream, shape'⟩, still, wf, emitted, reach, ?_⟩, rfl⟩
  intro x contains
  -- What was acknowledged stays; an ended stream without chunks has nothing to send again.
  rcases acked x contains with below | ⟨below, ended, nothing⟩
  · exact .inl below
  · exact .inr ⟨below, ended, fun y inside => nothing y ((held y).mp inside)⟩

/-- A frame that was emitted is acknowledged. -/
theorem Bounded.ackAndDrop (bounded : Bounded frames send) {frame : Frame} (sent : frame ∈ frames) :
    Bounded frames (send.ackAndDrop frame.off frame.len) ∧ (send.ackAndDrop frame.off frame.len).off = send.off := by
  obtain ⟨⟨stream, shape⟩, still, wf, emitted, reach, acked⟩ := bounded
  obtain ⟨shape', ⟨data, pos, same⟩, held, -⟩ := shape.ackAndDrop frame.off frame.len still
  have wider := fun x => RangeSet.contains_insert wf (Nat.le_add_right frame.off frame.len) x
  generalize send.ackAndDrop frame.off frame.len = after at *
  subst same
  refine ⟨⟨⟨stream, shape'⟩, still, wf.insert (Nat.le_add_right _ _), emitted, reach, ?_⟩, rfl⟩
  intro x contains
  -- The frame was emitted, and the earlier ranges were acknowledged before.
  rcases (wider x).mp contains with inside | old
  · have ends := emitted frame sent
    left
    show x < send.emitOff
    omega
  · rcases acked x old with below | ⟨below, ended, nothing⟩
    · exact .inl below
    · exact .inr ⟨below, ended, fun y inside => nothing y (held y inside)⟩

theorem Bounded.updateMaxData (bounded : Bounded frames send) (maxData : Nat) :
    Bounded frames (send.updateMaxData maxData) := by
  obtain ⟨⟨stream, shape⟩, still, wf, emitted, reach, acked⟩ := bounded
  exact ⟨⟨stream, shape.size, shape.holds, shape.ordered, shape.index, shape.consumed,
    Nat.le_trans shape.flow (Nat.le_max_left _ _), shape.room⟩, still, wf, emitted, reach, acked⟩

/-- A reset gives back what was written and not sent. -/
theorem Bounded.reset (bounded : Bounded frames send) :
    Bounded frames send.reset.2 ∧ send.reset.2.off + send.reset.1.2 = send.off := by
  obtain ⟨⟨stream, shape⟩, still, wf, emitted, reach, acked⟩ := bounded
  -- The next byte to be sent is one that was written, or the end.
  have front : send.offFront ≤ send.off := by
    rcases shape.offFront_spec with ⟨pending, -⟩ | ⟨-, same⟩
    · exact Nat.le_of_lt (shape.ordered.bounds (pending.held shape.holds)).2
    · exact Nat.le_of_eq same
  have size := shape.size
  have flow := shape.flow
  -- The final size is at most what was written, so the subtraction is exact.
  have least : max send.offFront send.emitOff ≤ send.off := by omega
  have none_ : ∀ y, ¬ Held [] y := by simp
  refine ⟨⟨⟨stream.take (max send.offFront send.emitOff), ?_⟩, still, wf.insert (Nat.zero_le _), ?_, ?_, ?_⟩, ?_⟩
  · refine ⟨?_, fun buf member => absurd member List.not_mem_nil, Nat.zero_le _, Nat.zero_le _,
      fun buf member => absurd member List.not_mem_nil, Nat.le_trans least flow, Nat.zero_le _⟩
    rw [List.length_take]
    show min _ _ = max send.offFront send.emitOff
    omega
  · exact emitted
  · exact Nat.le_max_right _ _
  · intro x contains
    right
    refine ⟨?_, rfl, none_⟩
    show x < max send.offFront send.emitOff
    rcases (RangeSet.contains_insert wf (Nat.zero_le _) x).mp contains with inside | old
    · exact inside.2
    · rcases acked x old with below | ⟨below, -, nothing⟩
      · omega
      · -- A buffer that holds nothing has nothing to send.
        rcases shape.offFront_spec with ⟨pending, -⟩ | ⟨-, same⟩
        · exact absurd (pending.held shape.holds) (nothing _)
        · omega
  · show max send.offFront send.emitOff + (send.off - max send.offFront send.emitOff) = send.off
    omega

/-- A buffer that is stopped gives back what was written and not sent. -/
theorem Bounded.stop (bounded : Bounded frames send) {errorCode : Nat}
    (ran : send.stop errorCode = .ok ((finalSize, unsent), after)) :
    Bounded frames after ∧ after.off + unsent = send.off := by
  unfold SendBuf.stop at ran
  split at ran
  · cases ran
  · obtain ⟨⟨⟨stream, shape⟩, still, wf, emitted, reach, acked⟩, back⟩ := bounded.reset
    cases ran
    exact ⟨⟨⟨stream, shape.size, shape.holds, shape.ordered, shape.index, shape.consumed, shape.flow, shape.room⟩,
      still, wf, emitted, reach, acked⟩, back⟩

theorem Bounded.shutDown (bounded : Bounded frames send) (ran : send.shutDown = .ok ((finalSize, unsent), after)) :
    Bounded frames after ∧ after.off + unsent = send.off := by
  unfold SendBuf.shutDown at ran
  split at ran
  · cases ran
  · obtain ⟨⟨stream, shape⟩, still, wf, emitted, reach, acked⟩ := bounded
    -- The mark of the shutdown comes first and touches nothing else.
    have marked : Bounded frames { send with shutdown := true } :=
      ⟨⟨stream, shape.size, shape.holds, shape.ordered, shape.index, shape.consumed, shape.flow, shape.room⟩,
        still, wf, emitted, reach, acked⟩
    obtain ⟨bounded, back⟩ := marked.reset
    cases ran
    exact ⟨bounded, back⟩

end SendBuf

end Flexicast
