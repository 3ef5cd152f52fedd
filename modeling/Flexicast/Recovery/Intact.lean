import Flexicast.Recovery.Delegation
import Flexicast.Stream.SendBufLaws

/-! Send buffers of the source: what they keep of the written bytes, and what can be read back. -/

namespace Flexicast

open SendBuf (Shape Held Pending)

/-- What holds of a send buffer of the source and the bytes written to its stream. -/
structure Intact (written : Bytes) (send : SendBuf) : Prop where
  /-- The chunks hold what was written, up to the end of the buffer. -/
  shape : Shape (written.take send.off) send
  /-- A buffer that ends early was reset, and takes no more data. -/
  ended : send.off < written.length → send.finOff = some send.off
  final : ∀ finOff, send.finOff = some finOff → finOff = send.off
  /-- Nothing was sent that was not buffered. -/
  emitted : send.emitOff ≤ send.off
  /-- The acknowledged ranges are well formed. -/
  ranges : send.acked.Wf
  acked : ∀ x, send.acked.Contains x → x < written.length
  still : send.fcStreamRotate = false

section Steps

variable {written : Bytes} {send : SendBuf}

theorem intact_new (maxData : Nat) : Intact [] (SendBuf.new maxData) :=
  ⟨⟨rfl, by simp [SendBuf.new], Nat.le_refl 0, Nat.le_refl 0, by simp [SendBuf.new], Nat.zero_le _,
      Nat.le_refl 0⟩,
    fun ends => by simp [SendBuf.new] at ends, fun _ known => by simp [SendBuf.new] at known, Nat.le_refl 0,
    RangeSet.wf_default, fun x inside => ((RangeSet.contains_default x).mp inside).elim, rfl⟩

theorem Intact.off_le (intact : Intact written send) : send.off ≤ written.length := by
  have size := intact.shape.size
  rw [List.length_take] at size
  omega

theorem Intact.offFront_le (intact : Intact written send) : send.offFront ≤ send.off := by
  rcases intact.shape.offFront_spec with ⟨pending, -⟩ | ⟨-, end_⟩
  · exact Nat.le_of_lt (intact.shape.ordered.bounds (pending.held intact.shape.holds)).2
  · exact Nat.le_of_eq end_

/-- Marking a range to be sent again loses nothing. -/
theorem Intact.retransmit (intact : Intact written send) (off len : Nat) :
    Intact written (send.retransmit off len) := by
  have shape := (intact.shape.retransmit off len).1
  obtain ⟨data, pos, len', frame⟩ := SendBuf.retransmit_frame send off len
  rw [frame] at shape ⊢
  exact ⟨shape, intact.ended, intact.final, intact.emitted, intact.ranges, intact.acked, intact.still⟩

/-- Sending loses nothing. -/
theorem Intact.emit (intact : Intact written send) (outLen : Nat) : Intact written (send.emit outLen).2 := by
  have shape := intact.shape.emit outLen
  obtain ⟨out, data, pos, ran, taken, -⟩ := intact.shape.emit_eq outLen
  rw [ran] at shape ⊢
  -- What was sent was pending, and thus lies before the end.
  have within_ : send.offFront + out.length ≤ send.off := by
    have front := intact.offFront_le
    rcases Nat.eq_zero_or_pos out.length with none_ | some_
    · omega
    · have last := taken.were (send.offFront + out.length - 1) (by omega) (by omega)
      have below := (intact.shape.ordered.bounds (last.held intact.shape.holds)).2
      omega
  refine ⟨shape, intact.ended, intact.final, ?_, intact.ranges, intact.acked, intact.still⟩
  have emitted := intact.emitted
  show max send.emitOff (send.offFront + out.length) ≤ send.off
  omega

theorem Intact.updateMaxData (intact : Intact written send) (limit : Nat) :
    Intact written (send.updateMaxData limit) :=
  ⟨⟨intact.shape.size, intact.shape.holds, intact.shape.ordered, intact.shape.index, intact.shape.consumed,
      Nat.le_trans intact.shape.flow (Nat.le_max_left _ _), intact.shape.room⟩,
    intact.ended, intact.final, intact.emitted, intact.ranges, intact.acked, intact.still⟩

theorem Intact.ackAndDrop (intact : Intact written send) {off len : Nat}
    (inside : len = 0 ∨ off + len ≤ written.length) : Intact written (send.ackAndDrop off len) := by
  -- Acknowledged chunks are dropped, and the range is within what was written.
  obtain ⟨shape, ⟨data, pos, frame⟩, -⟩ := intact.shape.ackAndDrop off len intact.still
  rw [frame] at shape ⊢
  refine ⟨shape, intact.ended, intact.final, intact.emitted,
    intact.ranges.insert (Nat.le_add_right off len), fun x contained => ?_, intact.still⟩
  rcases (RangeSet.contains_insert intact.ranges (Nat.le_add_right off len) x).mp contained with new | old
  · omega
  · exact intact.acked x old

/-- A reset ends the buffer where the stream was sent up to. -/
theorem Intact.reset (intact : Intact written send) : Intact written send.reset.2 := by
  -- The buffer is emptied, and its end moves back to what was sent of the stream.
  have size := intact.off_le
  have front := intact.offFront_le
  have emitted := intact.emitted
  have flow := intact.shape.flow
  have room := intact.shape.room
  have cut : max send.offFront send.emitOff ≤ written.length := by omega
  refine ⟨⟨?_, by simp [SendBuf.reset], ?_, Nat.le_refl 0, by simp [SendBuf.reset], ?_, Nat.le_refl 0⟩,
    fun _ => rfl, fun finOff known => ?_, ?_, intact.ranges.insert (Nat.zero_le _), fun x contained => ?_,
    intact.still⟩
  · show (written.take (max send.offFront send.emitOff)).length = max send.offFront send.emitOff
    rw [List.length_take]
    omega
  · exact Nat.zero_le _
  · show max send.offFront send.emitOff ≤ send.maxData
    omega
  · exact (Option.some.inj known).symm
  · show send.emitOff ≤ max send.offFront send.emitOff
    omega
  · rcases (RangeSet.contains_insert intact.ranges (Nat.zero_le _) x).mp contained with new | old
    · omega
    · exact intact.acked x old

variable {result : Nat × Nat} {after : SendBuf} {data : Bytes} {fin : Bool} {count : Nat}

/-- A shut down ends the buffer as a reset does. -/
theorem Intact.shutDown (intact : Intact written send) (ran : send.shutDown = .ok (result, after)) :
    Intact written after := by
  -- The flag takes no part in what is kept.
  unfold SendBuf.shutDown at ran
  split at ran
  · simp at ran
  · have marked : Intact written { send with shutdown := true } :=
      ⟨⟨intact.shape.size, intact.shape.holds, intact.shape.ordered, intact.shape.index,
          intact.shape.consumed, intact.shape.flow, intact.shape.room⟩,
        intact.ended, intact.final, intact.emitted, intact.ranges, intact.acked, intact.still⟩
    have kept := marked.reset
    simp only [Except.ok.injEq] at ran
    rw [ran] at kept
    exact kept

/-- A request to stop ends the buffer as a reset does. -/
theorem Intact.stop (intact : Intact written send) {code : Nat} (ran : send.stop code = .ok (result, after)) :
    Intact written after := by
  -- The error code takes no part in what is kept.
  unfold SendBuf.stop at ran
  split at ran
  · simp at ran
  · have kept := intact.reset
    simp only [Except.ok.injEq, Prod.mk.injEq] at ran
    rw [← ran.2]
    exact ⟨⟨kept.shape.size, kept.shape.holds, kept.shape.ordered, kept.shape.index, kept.shape.consumed,
        kept.shape.flow, kept.shape.room⟩,
      kept.ended, kept.final, kept.emitted, kept.ranges, kept.acked, kept.still⟩

/-- A buffer that ended early refuses all data. -/
theorem Intact.write_ended (intact : Intact written send) (short : send.off < written.length)
    (ran : send.write data fin = .ok (count, after)) : count = 0 ∧ after = send := by
  have known := intact.ended short
  unfold SendBuf.write at ran
  split at ran
  · simp at ran
  · rename_i capacity _
    simp only at ran
    cases data with
    | cons byte rest =>
      -- Any data goes beyond the final size.
      have conflict : ∀ flag, send.finConflict (send.off + (byte :: rest).length) flag = true := by
        intro flag
        simp [SendBuf.finConflict, known]
      rw [if_pos (conflict _)] at ran
      simp at ran
    | nil =>
      have same : { send with finOff := some (send.off + ([] : Bytes).length) } = send := by
        rw [List.length_nil, Nat.add_zero, ← known]
      have fits : ¬ capacity < ([] : Bytes).length := Nat.not_lt_zero _
      simp only [if_neg fits, same, ite_self, List.isEmpty_nil, if_true] at ran
      split at ran
      · simp at ran
      · simp only [Except.ok.injEq, Prod.mk.injEq] at ran
        exact ⟨ran.1.symm, ran.2.symm⟩

/-- A write that is not refused adds what it stores to the written bytes. -/
theorem Intact.write (intact : Intact written send) (ran : send.write data fin = .ok (count, after)) :
    Intact (written ++ data.take count) after := by
  by_cases short : send.off < written.length
  · obtain ⟨none_, same⟩ := intact.write_ended short ran
    rw [none_, same, List.take_zero, List.append_nil]
    exact intact
  · have size := intact.off_le
    have whole : written.take send.off = written := List.take_of_length_le (by omega)
    have shape := intact.shape
    rw [whole] at shape
    have acks : send.ackOff ≤ send.off := by
      refine Nat.le_of_not_lt fun beyond => ?_
      have := intact.acked send.off (SendBuf.acked_of_lt_ackOff beyond)
      omega
    cases stopped : send.error with
    | some code =>
      simp [SendBuf.write, SendBuf.cap, stopped] at ran
    | none =>
      rcases shape.write data fin stopped acks with ⟨-, refused⟩ | ⟨count', after', stored, effect⟩
      · rw [refused] at ran
        simp at ran
      · rw [stored] at ran
        simp only [Except.ok.injEq, Prod.mk.injEq] at ran
        obtain ⟨rfl, rfl⟩ := ran
        have shaped := effect.shape
        have amount := effect.amount
        have agrees := effect.agrees
        obtain ⟨bufs, len, frame⟩ := effect.frame
        have longer : (written ++ data.take count').length = send.off + count' := by
          rw [List.length_append, List.length_take]
          omega
        have all : (written ++ data.take count').take (send.off + count') = written ++ data.take count' :=
          List.take_of_length_le (by omega)
        rw [frame] at shaped ⊢
        refine ⟨?_, fun ends => ?_, fun finOff known => ?_, ?_, intact.ranges, fun x inside => ?_, intact.still⟩
        · rw [all]
          exact shaped
        · simp only at ends
          omega
        · -- A final size that was known before leaves room for nothing more.
          simp only at known
          show finOff = send.off + count'
          by_cases last : (fin && decide (data.length ≤ send.maxData - send.off)) = true
          · rw [if_pos last, Option.some.injEq] at known
            simp only [Bool.and_eq_true, decide_eq_true_eq] at last
            omega
          · rw [if_neg last] at known
            have old := intact.final finOff known
            rw [SendBuf.finConflict, known] at agrees
            simp only [Bool.or_eq_false_iff, decide_eq_false_iff_not] at agrees
            have fits : data.length = 0 := by omega
            omega
        · have := intact.emitted
          show send.emitOff ≤ send.off + count'
          omega
        · have := intact.acked x inside
          omega

end Steps

/-- A range can be read back: it is buffered, not all acknowledged, and nothing before it is to be sent. -/
structure Recoverable (send : SendBuf) (off len : Nat) : Prop where
  /-- The range reaches beyond what was acknowledged from the start of the stream on. -/
  beyond : send.ackOff < off + len
  held : ∀ x, off ≤ x → x < off + len → Held send.data x
  /-- Nothing before the range is to be sent. -/
  front : ∀ x, Pending send.data x → off ≤ x

theorem recoverable_iff {send : SendBuf} {off len : Nat} :
    Recoverable send off len ↔ send.ackOff < off + len ∧ (∀ i < len, Held send.data (off + i)) ∧
      ∀ buf ∈ send.data, buf.curOff < buf.off + buf.len → off ≤ buf.curOff := by
  -- A chunk is asked about its first pending offset, which is the least one.
  constructor
  · intro range
    exact ⟨range.beyond, fun i below => range.held _ (by omega) (by omega),
      fun buf member left => range.front _ ⟨buf, member, Nat.le_refl _, left⟩⟩
  · intro given
    obtain ⟨beyond, held, front⟩ := given
    refine ⟨beyond, fun x low high => ?_, fun x pending => ?_⟩
    · have there := held (x - off) (by omega)
      rw [Nat.add_sub_cancel' low] at there
      exact there
    · obtain ⟨buf, member, low, high⟩ := pending
      have := front buf member (by omega)
      omega

instance (send : SendBuf) (off len : Nat) : Decidable (Recoverable send off len) :=
  decidable_of_iff _ recoverable_iff.symm

section Fetch

variable {written : Bytes} {send : RotSendBuf} {off len : Nat}

/-- Reading back from a buffer without a rotation buffer marks the range and sends it. -/
theorem fetch_plain (plain : send.fcSendBuf = none) (off len : Nat) :
    fetch send off len =
      (some (((send.main.retransmit off len).emit len).1.1 ++
          List.replicate (len - ((send.main.retransmit off len).emit len).1.1.length) 0),
        ⟨((send.main.retransmit off len).emit len).2, none⟩) := by
  -- The main buffer alone is read, which never fails.
  rcases send with ⟨main, fcSendBuf⟩
  simp only at plain
  subst plain
  rcases emitted : (main.retransmit off len).emit len with ⟨⟨out, fin⟩, after⟩
  simp only [fetch, RotSendBuf.retransmit, RotSendBuf.emit, emitted]
  split
  · rename_i failed
    split at failed <;> simp at failed
  · rename_i failed
    split at failed <;> simp at failed
  · rename_i sent
    split at sent
    · simp only [Prod.mk.injEq, Except.ok.injEq] at sent
      obtain ⟨⟨rfl, -⟩, rfl⟩ := sent
      rfl
    · simp only [Prod.mk.injEq, Except.ok.injEq] at sent
      obtain ⟨⟨rfl, -⟩, rfl⟩ := sent
      rfl

theorem Intact.fetch (intact : Intact written send.main) (plain : send.fcSendBuf = none) (off len : Nat) :
    (fetch send off len).2.fcSendBuf = none ∧ Intact written (fetch send off len).2.main := by
  rw [fetch_plain plain]
  exact ⟨rfl, (intact.retransmit off len).emit len⟩

theorem Intact.fetch_frame (intact : Intact written send.main) (plain : send.fcSendBuf = none) (off len : Nat) :
    ∃ data pos len' emitOff, (Flexicast.fetch send off len).2.main =
      { send.main with data := data, pos := pos, len := len', emitOff := emitOff } := by
  -- Marking and sending both leave the acknowledged ranges and the limits alone.
  rw [fetch_plain plain]
  obtain ⟨data, pos, len', frame⟩ := SendBuf.retransmit_frame send.main off len
  obtain ⟨out, data', pos', ran, -⟩ := (intact.retransmit off len).shape.emit_eq len
  simp only [ran]
  rw [frame]
  exact ⟨data', pos', _, _, rfl⟩

theorem Intact.offFront_marked (intact : Intact written send.main) (some_ : 0 < len)
    (range : Recoverable send.main off len) :
    (send.main.retransmit off len).offFront = off ∧
      ∀ x, off ≤ x → x < off + len → Pending (send.main.retransmit off len).data x := by
  -- Nothing else is pending before the range, so its start is the least pending offset.
  obtain ⟨shape, -, -, only, marks⟩ := intact.shape.retransmit off len
  have marked : ∀ x, off ≤ x → x < off + len → Pending (send.main.retransmit off len).data x :=
    fun x low high => marks range.beyond x ⟨low, high⟩ (range.held x low high)
  refine ⟨?_, marked⟩
  rcases shape.offFront_spec with ⟨pending, least⟩ | ⟨none_, -⟩
  · have upper := least off (marked off (Nat.le_refl _) (by omega))
    have lower : off ≤ (send.main.retransmit off len).offFront := by
      rcases only _ pending with old | ⟨new, -⟩
      · exact range.front _ old
      · exact new.1
    omega
  · exact absurd (marked off (Nat.le_refl _) (by omega)) (none_ off)

/-- A recoverable range is read back as it was written. -/
theorem Intact.fetch_written (intact : Intact written send.main) (plain : send.fcSendBuf = none)
    (range : len = 0 ∨ Recoverable send.main off len) :
    (Flexicast.fetch send off len).1 = some ((written.drop off).take len) := by
  rw [fetch_plain plain]
  rcases Nat.eq_zero_or_pos len with none_ | some_
  · -- Nothing is read.
    subst none_
    have nothing := ((intact.retransmit off 0).shape.emit_taken 0).fits
    simp only [Nat.le_zero_eq, List.length_eq_zero_iff] at nothing
    simp [nothing]
  · obtain ⟨front, marked⟩ := intact.offFront_marked some_ (range.resolve_left (by omega))
    have shape := (intact.retransmit off len).shape
    have full := shape.emit_full len (by rw [front]; exact marked)
    have taken := shape.emit_taken len
    have bytes := taken.bytes
    rw [full, front] at bytes
    -- The buffer reaches up to the end of the range, so its bytes are those of the whole stream.
    have last := (shape.ordered.bounds ((marked (off + len - 1) (by omega) (by omega)).held shape.holds)).2
    obtain ⟨data, pos, len', frame⟩ := SendBuf.retransmit_frame send.main off len
    have reaches : off + len ≤ (send.main.retransmit off len).off := by omega
    rw [full, bytes, Nat.sub_self, List.replicate_zero, List.append_nil, List.drop_take, List.take_take,
      Nat.min_eq_left (by omega)]

/-- What can be read back stays so while other ranges are read back. -/
theorem Intact.fetch_recoverable (intact : Intact written send.main) (plain : send.fcSendBuf = none)
    (range : len = 0 ∨ Recoverable send.main off len) {off' len' : Nat}
    (other : Recoverable send.main off' len') : Recoverable (Flexicast.fetch send off len).2.main off' len' := by
  obtain ⟨data, pos, rest, emitOff, frame⟩ := intact.fetch_frame plain off len
  have acks : (Flexicast.fetch send off len).2.main.ackOff = send.main.ackOff := by
    rw [frame]
    rfl
  obtain ⟨-, held, -, only, -⟩ := intact.shape.retransmit off len
  have shape := (intact.retransmit off len).shape
  have taken := shape.emit_taken len
  have same : (Flexicast.fetch send off len).2.main = ((send.main.retransmit off len).emit len).2 := by
    rw [fetch_plain plain]
  refine ⟨by rw [acks]; exact other.beyond, fun x low high => ?_, fun x pending => ?_⟩
  · rw [same, taken.held, held]
    exact other.held x low high
  · rw [same, taken.pending] at pending
    obtain ⟨pending, outside⟩ := pending
    rcases only x pending with old | ⟨new, -⟩
    · exact other.front x old
    · -- The bytes that were marked were all sent.
      have some_ : 0 < len := by omega
      obtain ⟨front, marked⟩ := intact.offFront_marked some_ (range.resolve_left (by omega))
      have full := shape.emit_full len (by rw [front]; exact marked)
      rw [front, full] at outside
      exact absurd new outside

end Fetch

end Flexicast
