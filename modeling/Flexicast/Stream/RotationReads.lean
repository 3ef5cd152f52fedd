import Flexicast.Stream.RotationLaws

/-! What reading from a rotating receive buffer returns, and when it loops back or stops. -/

namespace Flexicast

namespace RotatingRecvBuf

open RecvBuf

section Reading

variable {stream : Bytes} {recv : RecvBuf} {base : Nat} {bound : Option Nat}

/-- Reading does not see the base or the final offset. -/
theorem emitLoop_core (fuel : Nat) : ∀ capacity (recv : RecvBuf),
    emitLoop bound fuel capacity (core base recv) =
      ((emitLoop bound fuel capacity recv).1, core base (emitLoop bound fuel capacity recv).2) := by
  -- The loop looks at the chunks and at the offset that is read next, and at nothing else.
  induction fuel with
  | zero => exact fun _ _ => rfl
  | succ fuel ih =>
    intro capacity recv
    have ready : (core base recv).ready = recv.ready := rfl
    have data : (core base recv).data = recv.data := rfl
    have off : (core base recv).off = recv.off := rfl
    simp only [emitLoop, ready, data, off]
    split
    · rfl
    cases recv.data.entries.head? with
    | none => rfl
    | some entry =>
      simp only
      split
      · rfl
      · -- The rest is read from what the first chunk leaves behind.
        have rest := ih (capacity - readLen bound recv.off capacity entry.2)
          { recv with
            off := recv.off + readLen bound recv.off capacity entry.2
            data := recv.data.erase entry.1 }
        exact congrArg (fun read : Bytes × RecvBuf => (entry.2.bytes.take _ ++ read.1, read.2)) rest

variable {key fuel capacity : Nat} {buf : RangeBuf}

theorem filled_readPart (filled : Filled recv) {count : Nat} (holds : RangeBuf.Holds stream buf)
    (short : count < buf.curLen) :
    Filled { recv with off := recv.off + count, data := recv.data.insert key (buf.consume count) } := by
  -- Fewer bytes are consumed than the chunk has.
  intro entry member
  rcases OrdMap.mem_insert_iff.mp member with new | ⟨old, _⟩
  · rw [new]
    have low := holds.wf.low
    unfold RangeBuf.curLen at short
    simp only [RangeBuf.isEmpty, RangeBuf.curLen, RangeBuf.consume, beq_eq_false_iff_ne, ne_eq]
    omega
  · exact filled entry old

/-- The loop of `emit` reads from the front of the buffer, and not beyond the bound. -/
theorem emitLoop_bounded {stop : Nat} (fuel : Nat) : ∀ {recv : RecvBuf} (capacity : Nat), Shape stream recv →
    recv.off ≤ stop → Filled recv →
    Read stream recv (emitLoop (some stop) fuel capacity recv).2 (emitLoop (some stop) fuel capacity recv).1
        capacity ∧
      (emitLoop (some stop) fuel capacity recv).2.off ≤ stop ∧
      Filled (emitLoop (some stop) fuel capacity recv).2 := by
  -- Induction on the fuel, one turn for each chunk that is read from the front.
  induction fuel with
  | zero => exact fun capacity shape low filled => ⟨Read.refl shape capacity, low, filled⟩
  | succ fuel ih =>
    intro recv capacity shape low filled
    simp only [emitLoop]
    by_cases full : capacity = 0 ∨ recv.ready = false
    · rw [if_pos full]
      exact ⟨Read.refl shape capacity, low, filled⟩
    rw [if_neg full]
    have ready : recv.ready = true := by
      cases ready : recv.ready with
      | true => rfl
      | false => exact absurd (Or.inr ready) full
    obtain ⟨key, buf, first, front⟩ := ready_iff.mp ready
    obtain ⟨rest, listed⟩ := List.head?_eq_some_iff.mp first
    have holds := (shape.first listed).2.1
    -- What is read of a chunk fits the output, the bound and the chunk.
    have count : readLen (some stop) recv.off capacity buf ≤ capacity ∧
        readLen (some stop) recv.off capacity buf ≤ stop - recv.off ∧
        readLen (some stop) recv.off capacity buf ≤ buf.curLen := by
      unfold readLen
      simp only
      omega
    rw [first]
    simp only
    by_cases part : readLen (some stop) recv.off capacity buf < buf.curLen
    · -- The chunk is not read as a whole, because of the output or because of the bound.
      rw [if_pos part]
      have one := shape.readPart listed front part
      refine ⟨⟨one.shape, one.frame, one.bytes, Nat.le_trans one.fits count.1, one.has⟩, ?_,
        filled_readPart filled holds part⟩
      show recv.off + _ ≤ stop
      omega
    · have whole : readLen (some stop) recv.off capacity buf = buf.curLen := by omega
      rw [if_neg part, whole]
      rw [whole] at count
      have one := shape.readChunk listed front
      obtain ⟨measure, _⟩ := take_bytes holds (Nat.le_refl buf.curLen)
      have left : Filled { recv with off := recv.off + buf.curLen, data := recv.data.erase key } := by
        have rest_ : (recv.data.erase key).entries = rest := @OrdMap.entries_erase _ _ _ _ [] rest listed
        intro entry member
        apply filled entry
        rw [listed]
        exact List.mem_cons_of_mem _ (rest_ ▸ member)
      obtain ⟨two, bounded, filled'⟩ := ih (capacity - buf.curLen) one.shape
        (show recv.off + buf.curLen ≤ stop by omega) left
      have wide : Read stream recv { recv with off := recv.off + buf.curLen, data := recv.data.erase key }
          (buf.bytes.take buf.curLen) capacity :=
        ⟨one.shape, one.frame, one.bytes, by omega, one.has⟩
      exact ⟨wide.trans two (by omega), bounded, filled'⟩

theorem emitLoop_advances (holds : RangeBuf.Holds stream buf) (first : recv.data.entries.head? = some (key, buf))
    (front : buf.curOff = recv.off) (room : 0 < capacity) (some_ : 0 < readLen bound recv.off capacity buf) :
    0 < (emitLoop bound (fuel + 1) capacity recv).1.length := by
  -- The first turn alone returns something, whatever the later ones do.
  have ready : recv.ready = true := ready_iff.mpr ⟨key, buf, first, front⟩
  have measure := holds.length_bytes
  have short : readLen bound recv.off capacity buf ≤ buf.curLen := by
    unfold readLen
    split <;> omega
  simp only [emitLoop]
  rw [if_neg (by simp [ready]; omega), first]
  simp only
  split
  · rw [List.length_take]
    omega
  · rw [List.length_append, List.length_take]
    omega

/-- Reading leaves the final offset alone. -/
theorem finOff_emitLoop (fuel : Nat) : ∀ capacity (recv : RecvBuf),
    (emitLoop bound fuel capacity recv).2.finOff = recv.finOff := by
  induction fuel with
  | zero => exact fun _ _ => rfl
  | succ fuel ih =>
    intro capacity recv
    simp only [emitLoop]
    split
    · rfl
    cases recv.data.entries.head? with
    | none => rfl
    | some entry =>
      simp only
      split
      · rfl
      · exact ih _ _

/-- What the loop of `emit` did to a buffer whose bytes are then counted as consumed. -/
structure Took (stream : Bytes) (base : Nat) (recv after : RecvBuf) (out : Bytes) : Prop where
  shape : Shape stream (core base after)
  /-- The bytes that are returned count as read. -/
  off : after.off = recv.off + out.length
  /-- The bytes are those of the stream from the offset that was read next. -/
  bytes : out = (stream.drop recv.off).take out.length
  has : ∀ x, Has after x ↔ Has recv x
  finOff : after.finOff = recv.finOff
  maxData : after.maxData = recv.maxData

theorem Took.of_read (read : Read stream (core base recv) (core base (emitLoop bound fuel capacity recv).2)
      (emitLoop bound fuel capacity recv).1 capacity) (consumed : Nat) :
    Took stream base recv
      { (emitLoop bound fuel capacity recv).2 with
        flowControl := (emitLoop bound fuel capacity recv).2.flowControl.addConsumed consumed }
      (emitLoop bound fuel capacity recv).1 := by
  obtain ⟨shape, frame, bytes, _, has⟩ := read
  refine ⟨⟨shape.holds, shape.keyed, shape.apart, shape.above, shape.marks, shape.reach, shape.read,
    shape.inside, shape.final, shape.running⟩, ?_, bytes, has, finOff_emitLoop fuel capacity recv, ?_⟩
  · show (core base (emitLoop bound fuel capacity recv).2).off = _
    rw [frame]
    rfl
  · show (core base (emitLoop bound fuel capacity recv).2).flowControl.maxData = _
    rw [frame]
    rfl

end Reading

section EmitBefore

variable {stream : Bytes} {start maxData : Nat} {inner : RecvBuf} {rot : RotatingRecvBuf}

/-- The buffer that is read stays as it is until it was read as a whole. -/
theorem Upper.took (upper : Upper stream start maxData rot.recv) {after : RecvBuf} {out : Bytes}
    (took : Took stream start rot.recv after out) (going : after.isFin = false) :
    Upper stream start maxData after := by
  have known : start < stream.length → Has after (stream.length - 1) → after.finOff = some stream.length := by
    intro short last
    rw [took.finOff]
    exact upper.known short ((took.has _).mp last)
  refine ⟨took.shape, ?_, ?_, ?_, ?_, known⟩
  · have := upper.front
    rw [took.off]
    omega
  · rw [took.finOff]
    exact upper.finOff
  · rw [took.maxData]
    exact upper.flow
  · -- At the end of the stream the last byte was read, and the final offset would be known.
    intro short
    have read : after.off ≤ max after.len start := took.shape.read
    have inside : max after.len start ≤ stream.length := took.shape.inside
    refine Nat.lt_of_le_of_ne (Nat.le_trans read inside) fun all => ?_
    have final := known short (Or.inl (by omega))
    simp [RecvBuf.isFin, final, all] at going

/-- What an `emit` before the loop leaves behind. -/
structure Forward (stream : Bytes) (start maxData : Nat) (inner : RecvBuf) (rot after : RotatingRecvBuf)
    (out : Bytes) : Prop where
  /-- The bytes are those of the stream from the offset that was read next. -/
  bytes : out = (stream.drop rot.recv.off).take out.length
  /-- The buffer is read on, or everything above the start offset was read and it looped. -/
  result : (Ahead stream start maxData inner after ∧ after.recv.off = rot.recv.off + out.length ∧
      ∀ x, Has after.recv x ↔ Has rot.recv x) ∨
    (Looped stream start maxData after ∧ rot.recv.off + out.length = stream.length ∧
      after.recv = { inner with finOff := some start })

/-- Before the loop a read does not report the end, and loops when everything above the start offset was read. -/
theorem Ahead.report (ahead : Ahead stream start maxData inner rot) (positive : 0 < start)
    (inside : start ≤ stream.length) {recv : RecvBuf} {out : Bytes} (took : Took stream start rot.recv recv out) :
    ∃ after, report ⟨recv, rot.fcData⟩ out = (.ok (out, false), after) ∧
      Forward stream start maxData inner rot after out := by
  -- The end can be reached only at the end of the stream, where the buffer loops back.
  unfold RotatingRecvBuf.report
  cases whole : recv.isFin with
  | true =>
    have all : recv.finOff = some recv.off := by simpa [RecvBuf.isFin] using whole
    have stop : recv.off = stream.length := by
      rw [took.finOff] at all
      exact ahead.upper.finOff _ all
    rw [stop] at all
    have extended : (RotatingRecvBuf.mk recv rot.fcData).fcData = some ⟨start, false, some inner, none⟩ :=
      ahead.fcData
    obtain ⟨after, looped, back, same⟩ := ahead.lower.loops extended inside all
    -- The stream goes on from its beginning, which is not where it ends now.
    have going : after.recv.isFin = false := by
      rw [same]
      simp [RecvBuf.isFin, ahead.lower.unread]
      omega
    refine ⟨after, ?_, took.bytes, Or.inr ⟨back, ?_, same⟩⟩
    · have rotates : rot.fcData.isSome = true := by rw [ahead.fcData]; rfl
      simp only [rotates, Bool.and_self, if_true, looped, going]
    · rw [← took.off]
      exact stop
  | false =>
    -- Before the loop there is no bound that could report the end.
    refine ⟨⟨recv, rot.fcData⟩, ?_, took.bytes,
      Or.inl ⟨⟨ahead.fcData, ahead.upper.took took whole, ahead.lower⟩, took.off, took.has⟩⟩
    simp [RotatingRecvBuf.bound, ahead.fcData]

/-- Before the loop an `emit` reads on. -/
theorem Ahead.emit (ahead : Ahead stream start maxData inner rot) (positive : 0 < start)
    (inside : start ≤ stream.length) (outLen : Nat) :
    (rot.recv.ready = false ∧ rot.emit outLen = (.error .done, rot)) ∨
      (rot.recv.ready = true ∧ ∃ after, rot.emit outLen = (.ok ((rot.afterRead outLen).1, false), after) ∧
        Forward stream start maxData inner rot after (rot.afterRead outLen).1) := by
  -- Nothing at the front means that the call is done, and otherwise it reads without a bound.
  have shape := ahead.upper.shape
  cases ready : rot.recv.ready with
  | false =>
    left
    exact ⟨rfl, by rw [RotatingRecvBuf.emit, if_pos ready]⟩
  | true =>
    right
    have running : rot.recv.error = none := shape.running.1
    have unbounded : rot.bound = none := by simp [RotatingRecvBuf.bound, ahead.fcData]
    have read := Shape.emitLoop rot.recv.data.entries.length outLen shape
    rw [← emitLoop_unbounded, emitLoop_core] at read
    obtain ⟨after, ran, forward⟩ := ahead.report positive inside (Took.of_read read _)
    refine ⟨rfl, after, ?_⟩
    rw [RotatingRecvBuf.emit, if_neg (by simp [ready]), running]
    simp only [afterRead, unbounded]
    exact ⟨ran, forward⟩

end EmitBefore

section EmitAfter

variable {stream : Bytes} {start maxData : Nat} {rot : RotatingRecvBuf}

/-- What an `emit` after the loop leaves behind. -/
structure Backward (stream : Bytes) (start maxData : Nat) (rot after : RotatingRecvBuf) (out : Bytes) : Prop where
  looped : Looped stream start maxData after
  /-- The bytes that are returned count as read. -/
  off : after.recv.off = rot.recv.off + out.length
  /-- The bytes are those of the stream from the offset that was read next. -/
  bytes : out = (stream.drop rot.recv.off).take out.length
  has : ∀ x, Has after.recv x ↔ Has rot.recv x

theorem Looped.off_lt (looped : Looped stream start maxData rot) (ready : rot.recv.ready = true) :
    rot.recv.off < start := by
  refine Nat.lt_of_le_of_ne looped.back fun reached => looped.spare ?_
  -- A chunk with bytes at the start offset would hold the byte there.
  obtain ⟨key, buf, first, front⟩ := ready_iff.mp ready
  have member := List.mem_of_mem_head? first
  have some_ := looped.filled (key, buf) member
  rw [← Bool.not_eq_true, isEmpty_iff_maxOff] at some_
  refine Or.inr ⟨(key, buf), member, ?_⟩
  unfold Spans
  simp only at some_ ⊢
  omega

/-- After the loop a read reports the end exactly when it reaches the start offset. -/
theorem Looped.report (looped : Looped stream start maxData rot) (out : Bytes) :
    rot.report out = (.ok (out, decide (rot.recv.off = start)), rot) := by
  obtain ⟨finOff, known, low, _⟩ := looped.finOff
  have back := looped.back
  have rotates : rot.fcData.isSome = true := by rw [looped.fcData]; rfl
  have bound : rot.bound = some start := by simp [RotatingRecvBuf.bound, looped.fcData]
  unfold RotatingRecvBuf.report
  cases whole : rot.recv.isFin with
  | true =>
    -- The final offset is not below the start offset, so both were reached.
    have reached : rot.recv.off = start := by
      have : finOff = rot.recv.off := by simpa [RecvBuf.isFin, known] using whole
      omega
    have again : rot.fcLoopRecv = (.ok (), rot) := by simp [fcLoopRecv, looped.fcData]
    simp [rotates, again, whole, reached]
  | false =>
    -- The final offset may have moved behind the start offset, and then the bound reports the end.
    by_cases reached : rot.recv.off = start
    · simp [bound, reached]
    · have short : ¬ start ≤ rot.recv.off := by omega
      simp [bound, reached, short]

/-- After the loop an `emit` reads on, and reports the end when it reaches the start offset. -/
theorem Looped.emit (looped : Looped stream start maxData rot) (outLen : Nat) :
    (rot.recv.ready = false ∧ rot.emit outLen = (.error .done, rot)) ∨
      (rot.recv.ready = true ∧ ∃ after,
        rot.emit outLen = (.ok ((rot.afterRead outLen).1, decide (after.recv.off = start)), after) ∧
        Backward stream start maxData rot after (rot.afterRead outLen).1) := by
  -- After the loop the start offset bounds every read.
  cases ready : rot.recv.ready with
  | false =>
    left
    exact ⟨rfl, by rw [RotatingRecvBuf.emit, if_pos ready]⟩
  | true =>
    right
    have running : rot.recv.error = none := looped.shape.running.1
    have bound : rot.bound = some start := by simp [RotatingRecvBuf.bound, looped.fcData]
    obtain ⟨read, stops, filled⟩ := emitLoop_bounded rot.recv.data.entries.length outLen looped.shape
      (show (core 0 rot.recv).off ≤ start from looped.back) looped.filled
    rw [emitLoop_core] at read stops filled
    have took := Took.of_read read (emitLoop (some start) rot.recv.data.entries.length outLen rot.recv).1.length
    have after : Looped stream start maxData (rot.afterRead outLen).2 := by
      simp only [afterRead, bound]
      refine ⟨looped.fcData, took.shape, filled, stops, ?_, ?_, ?_⟩
      · rw [took.finOff]
        exact looped.finOff
      · rw [took.maxData]
        exact looped.flow
      · rw [took.has]
        exact looped.spare
    refine ⟨rfl, (rot.afterRead outLen).2, ?_, after, ?_, ?_, ?_⟩
    · rw [RotatingRecvBuf.emit, if_neg (by simp [ready]), running]
      exact after.report _
    · simp only [afterRead, bound]
      exact took.off
    · simp only [afterRead, bound]
      exact took.bytes
    · simp only [afterRead, bound]
      exact took.has

end EmitAfter

/-- Something is read whenever the byte read next is held, and neither the output nor the bound is in the way. -/
theorem afterRead_advances {stream : Bytes} {base outLen : Nat} {rot : RotatingRecvBuf}
    (shape : Shape stream (core base rot.recv)) (has : Has rot.recv rot.recv.off) (room : 0 < outLen)
    (gap : ∀ stop, rot.bound = some stop → rot.recv.off < stop) :
    rot.recv.ready = true ∧ 0 < (rot.afterRead outLen).1.length := by
  -- The byte that is read next lies in the first chunk, which then is not empty.
  obtain ⟨key, buf, first, front, filled⟩ := shape.ready_of_has has
  have first : rot.recv.data.entries.head? = some (key, buf) := first
  have front : buf.curOff = rot.recv.off := front
  obtain ⟨rest, listed⟩ := List.head?_eq_some_iff.mp first
  have some_ : buf.curLen ≠ 0 := by simpa [RangeBuf.isEmpty] using filled
  have positive : 0 < readLen rot.bound rot.recv.off outLen buf := by
    cases bounded : rot.bound with
    | none =>
      simp only [readLen]
      omega
    | some stop =>
      have := gap stop bounded
      simp only [readLen]
      omega
  refine ⟨ready_iff.mpr ⟨key, buf, first, front⟩, ?_⟩
  simp only [afterRead]
  rw [listed]
  exact emitLoop_advances (shape.first listed).2.1 first front room positive

section Stuck

variable {start : Nat} {rot : RotatingRecvBuf}

/-- A buffer that looped, reached the start offset and holds the byte there again. -/
structure Stuck (start : Nat) (rot : RotatingRecvBuf) : Prop where
  bound : rot.bound = some start
  reached : rot.recv.off = start
  running : rot.recv.error = none
  first : ∃ key buf, rot.recv.data.entries.head? = some (key, buf) ∧ buf.curOff = start ∧ 0 < buf.curLen

/-- Nothing is read at the bound, and the first chunk stays first. -/
theorem Stuck.afterRead (stuck : Stuck start rot) (outLen : Nat) :
    (rot.afterRead outLen).1 = [] ∧ Stuck start (rot.afterRead outLen).2 := by
  -- The bound leaves nothing to read of the first chunk, which is put back as it was.
  obtain ⟨key, buf, first, front, some_⟩ := stuck.first
  obtain ⟨rest, listed⟩ := List.head?_eq_some_iff.mp first
  have ready : rot.recv.ready = true := ready_iff.mpr ⟨key, buf, first, front.trans stuck.reached.symm⟩
  have nothing : readLen (some start) rot.recv.off outLen buf = 0 := by
    simp [readLen, stuck.reached]
  simp only [RotatingRecvBuf.afterRead, stuck.bound, listed, List.length_cons, emitLoop]
  by_cases full : outLen = 0 ∨ rot.recv.ready = false
  · rw [if_pos full]
    exact ⟨rfl, stuck.bound, stuck.reached, stuck.running, stuck.first⟩
  · rw [if_neg full]
    simp only [List.head?_cons, nothing, if_pos some_]
    refine ⟨rfl, stuck.bound, stuck.reached, stuck.running, key, buf, ?_, front, some_⟩
    show (OrdMap.store key buf rot.recv.data.entries).head? = _
    rw [listed]
    simp [OrdMap.store]

/-- A stuck buffer reports the end with every read, and never is done. -/
theorem Stuck.emit (stuck : Stuck start rot) (outLen : Nat) :
    ∃ after, rot.emit outLen = (.ok ([], true), after) ∧ Stuck start after := by
  -- The chunk at the front keeps the buffer ready, so the call never comes to its first return.
  obtain ⟨key, buf, first, front, _⟩ := stuck.first
  have ready : rot.recv.ready = true := ready_iff.mpr ⟨key, buf, first, front.trans stuck.reached.symm⟩
  obtain ⟨none_, stuck'⟩ := stuck.afterRead outLen
  refine ⟨(rot.afterRead outLen).2, ?_, stuck'⟩
  rw [RotatingRecvBuf.emit, if_neg (by simp [ready]), stuck.running, none_]
  generalize (rot.afterRead outLen).2 = rot at stuck' ⊢
  have reached : start ≤ rot.recv.off := Nat.le_of_eq stuck'.reached.symm
  simp only [RotatingRecvBuf.report]
  split
  · rename_i whole
    -- A buffer that looped does not loop again.
    have bound := stuck'.bound
    have again : rot.fcLoopRecv = (.ok (), rot) := by
      unfold RotatingRecvBuf.bound at bound
      unfold fcLoopRecv
      split at bound
      · rename_i fc extended
        split at bound
        · rename_i looped
          simp [extended, looped]
        · cases bound
      · cases bound
    simp only [again, (Bool.and_eq_true_iff.mp whole).1]
  · simp [stuck'.bound, reached]

end Stuck

end RotatingRecvBuf

end Flexicast
