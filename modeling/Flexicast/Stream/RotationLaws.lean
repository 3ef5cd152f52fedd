import Flexicast.Stream.RecvBufLaws
import Flexicast.Stream.Rotation

/-! What a rotating receive buffer holds after chunks were written to it, before and after the loop. -/

namespace Flexicast

namespace RotatingRecvBuf

open RecvBuf

section Plain

variable {recv : RecvBuf}

theorem strip_plain (buf : RangeBuf) : strip ⟨recv, none⟩ buf = .ok (buf, ⟨recv, none⟩) := rfl

theorem writeTurn_plain (buf : RangeBuf) (recv : RecvBuf) :
    writeTurn buf (.ok (), ⟨recv, none⟩) =
      (RecvBuf.writeTurn buf recv).map fun after => (.ok (), ⟨after, none⟩) := by
  -- A turn that panics does so before the extension is asked.
  unfold writeTurn
  cases cut : recv.discardRead buf with
  | none => simp [cut, RecvBuf.writeTurn, Turn.map]
  | some part => simp [keepBelow]

/-- A write to a buffer without the extension did what a write to the plain buffer does. -/
def Agrees (result : Except StreamError Unit × RotatingRecvBuf) (plain : Except StreamError RecvBuf) : Prop :=
  result.1 = plain.map (fun _ => ()) ∧ ∀ after, plain = .ok after → result.2 = ⟨after, none⟩

theorem agrees_ok (recv : RecvBuf) : Agrees (.ok (), ⟨recv, none⟩) (.ok recv) :=
  ⟨rfl, fun _ same => congrArg (fun after => RotatingRecvBuf.mk after none) (Except.ok.inj same)⟩

theorem agrees_error (error : StreamError) (rot : RotatingRecvBuf) : Agrees (.error error, rot) (.error error) :=
  ⟨rfl, fun _ same => nomatch same⟩

/-- A chunk goes into a buffer without the extension as it goes into the plain buffer. -/
theorem write_plain (recv : RecvBuf) (buf : RangeBuf) : Agrees (write ⟨recv, none⟩ buf) (recv.write buf) := by
  -- The checks are those of the plain buffer, in the same order.
  simp only [write, RecvBuf.write, strip_plain]
  by_cases flow : recv.maxData < buf.maxOff
  · rw [if_pos flow, if_pos flow]
    exact agrees_error _ _
  rw [if_neg flow, if_neg flow]
  simp only [writeKept]
  by_cases conflict : recv.finConflict buf = true
  · rw [if_pos conflict, if_pos conflict]
    exact agrees_error _ _
  rw [if_neg conflict, if_neg conflict]
  by_cases known : (recv.finOff.isSome && buf.isEmpty) = true
  · rw [if_pos known, if_pos known]
    exact agrees_ok _
  rw [if_neg known, if_neg known]
  have recorded : record ⟨recv, none⟩ buf =
      ⟨if buf.fin then { recv with finOff := some buf.maxOff } else recv, none⟩ := by
    unfold record
    split <;> rfl
  have off : (if buf.fin then { recv with finOff := some buf.maxOff } else recv).off = recv.off := by
    split <;> rfl
  by_cases nothing : (!buf.fin && buf.isEmpty) = true
  · -- An empty chunk that is not final records nothing.
    have notFin : buf.fin = false := by simpa using (Bool.and_eq_true_iff.mp nothing).1
    rw [if_pos nothing, if_pos nothing, notFin]
    exact agrees_ok _
  rw [if_neg nothing, if_neg nothing, recorded, off]
  by_cases old : (decide (buf.maxOff ≤ recv.off) && !buf.isEmpty) = true
  · rw [if_pos old, if_pos old]
    exact agrees_ok _
  rw [if_neg old, if_neg old, WorkQueue.drain_map writeTurn_plain]
  cases WorkQueue.drain RecvBuf.writeTurn (buf.curLen + 1) [buf]
      (if buf.fin = true then { recv with finOff := some buf.maxOff } else recv) with
  | none => exact agrees_error _ _
  | some after => exact agrees_ok _

theorem emitLoop_unbounded (fuel : Nat) :
    ∀ capacity recv, emitLoop none fuel capacity recv = RecvBuf.emitLoop fuel capacity recv := by
  -- Without a bound as much is read of a chunk as the output has room for.
  induction fuel with
  | zero => exact fun _ _ => rfl
  | succ fuel ih =>
    intro capacity recv
    simp only [emitLoop, RecvBuf.emitLoop, readLen]
    split
    · rfl
    cases recv.data.entries.head? with
    | none => rfl
    | some entry => simp only [ih]

theorem emit_plain (recv : RecvBuf) (outLen : Nat) :
    (emit ⟨recv, none⟩ outLen) = ((recv.emit outLen).1, ⟨(recv.emit outLen).2, none⟩) := by
  simp only [emit, RecvBuf.emit]
  by_cases unready : recv.ready = false
  · rw [if_pos unready, if_pos unready]
  rw [if_neg unready, if_neg unready]
  cases recv.error with
  | some code => rfl
  | none => simp [afterRead, bound, report, emitLoop_unbounded]

end Plain

/-- No chunk that is held is empty. -/
def Filled (recv : RecvBuf) : Prop := ∀ entry ∈ recv.data.entries, entry.2.isEmpty = false

/-- The buffer as if it had received something up to a base and knew no final offset. -/
def core (base : Nat) (recv : RecvBuf) : RecvBuf := { recv with len := max recv.len base, finOff := none }

section Core

variable {stream : Bytes} {recv : RecvBuf} {base : Nat}

/-- A final offset of its own does not change the shape of a buffer. -/
theorem shape_core_zero (shape : Shape stream recv) (finOff : Option Nat) :
    Shape stream (core 0 { recv with finOff := finOff }) := by
  have same : max recv.len 0 = recv.len := Nat.max_zero _
  constructor
  · exact shape.holds
  · exact shape.keyed
  · exact shape.apart
  · exact shape.above
  · exact shape.marks
  · exact fun entry member => by
      show entry.1 ≤ max recv.len 0
      rw [same]
      exact shape.reach entry member
  · show recv.off ≤ max recv.len 0
    rw [same]
    exact shape.read
  · show max recv.len 0 ≤ stream.length
    rw [same]
    exact shape.inside
  · exact fun _ known => nomatch known
  · exact shape.running

theorem storeChunk_core (recv : RecvBuf) (base : Nat) (buf : RangeBuf) :
    (core base recv).storeChunk buf = core base (recv.storeChunk buf) := by
  have raised : max (max recv.len base) buf.maxOff = max (max recv.len buf.maxOff) base := by omega
  simp only [core, RecvBuf.storeChunk, raised]
  rfl

variable {buf : RangeBuf} {after : RecvBuf} {more : List RangeBuf}

theorem writeTurn_core (shape : Shape stream (core base recv)) (low : base ≤ recv.off)
    (task : Task stream recv.off buf) :
    RecvBuf.writeTurn buf (core base recv) = (RecvBuf.writeTurn buf recv).map (core base) := by
  -- The largest offset is compared only with the part that lies above what was read.
  obtain ⟨part, cut, _, front, _⟩ := shape.discardRead task
  have front : recv.off ≤ part.curOff := front
  have cut' : recv.discardRead buf = some part := cut
  have same : (part.curOff < (core base recv).maxOff) = (part.curOff < recv.maxOff) := by
    apply propext
    show part.curOff < max recv.len base ↔ part.curOff < recv.len
    omega
  have data : (core base recv).data = recv.data := rfl
  simp only [RecvBuf.writeTurn, cut, cut', same, data]
  -- What overlaps is the same, and so is what is left of the part.
  split
  · rfl
  · rfl
  · exact congrArg (Turn.next · _) (storeChunk_core recv base _)

/-- A turn leaves the final offset alone. -/
theorem finOff_writeTurn (ran : RecvBuf.writeTurn buf recv = .next after more) : after.finOff = recv.finOff := by
  unfold RecvBuf.writeTurn at ran
  split at ran
  · cases ran
  · simp only at ran
    split at ran
    · cases ran
    · cases ran
      rfl
    · cases ran
      rfl

/-- What a turn leaves for later has bytes above what was read, and a chunk with bytes leaves no empty one. -/
theorem writeTurn_pieces (shape : Shape stream recv) (task : Task stream recv.off buf)
    (ran : RecvBuf.writeTurn buf recv = .next after more) :
    (∀ piece ∈ more, recv.off ≤ piece.curOff ∧ piece.isEmpty = false) ∧
      (buf.isEmpty = false → Filled recv → Filled after) := by
  -- Read bytes are cut off first, so what is queued again starts above them.
  obtain ⟨part, cut, fresh, front, _, _, empties, _⟩ := shape.discardRead task
  obtain ⟨result, pushed, overlapped, fits⟩ := shape.overlaps fresh
  have pieces : ∀ piece ∈ pushed, recv.off ≤ piece.curOff ∧ piece.isEmpty = false := by
    intro piece member
    obtain ⟨_, filled, low, _⟩ := fits.later piece member
    exact ⟨by omega, filled⟩
  unfold RecvBuf.writeTurn at ran
  simp only [cut, overlapped] at ran
  cases result with
  | none =>
    cases ran
    exact ⟨pieces, fun _ filled => filled⟩
  | some kept =>
    cases ran
    refine ⟨pieces, fun some_ filled => ?_⟩
    -- An empty chunk is stored only when the new one is empty.
    have keptFilled : kept.isEmpty = false := by
      rw [← Bool.not_eq_true]
      intro empty
      have := (fits.alone kept rfl empty).2
      rw [empties, some_] at this
      cases this
    have open_ := shape.running.2
    intro entry member
    have data : (recv.storeChunk kept).data = recv.data.insert kept.maxOff kept := by
      simp [RecvBuf.storeChunk, open_]
    rw [data] at member
    rcases OrdMap.mem_insert_iff.mp member with new | ⟨old, _⟩
    · rw [new]
      exact keptFilled
    · exact filled entry old

end Core

/-- What holds while the parts of a chunk are stored in the buffer that is read. -/
structure Placing (stream : Bytes) (base : Nat) (recv : RecvBuf) (buf : RangeBuf) (queue : List RangeBuf)
    (state : RecvBuf) : Prop where
  /-- Above the base the chunk is stored as in a plain buffer. -/
  storing : Storing stream (core base recv) buf queue (core base state)
  parts : buf.isEmpty = false → ∀ part ∈ queue, part.isEmpty = false
  filled : buf.isEmpty = false → Filled recv → Filled state
  finOff : state.finOff = recv.finOff

section Place

variable {stream : Bytes} {recv : RecvBuf} {base : Nat} {buf : RangeBuf}

/-- A chunk that is still to be stored is queued as a whole. -/
theorem Placing.start (shape : Shape stream (core base recv)) (task : Task stream recv.off buf) :
    Placing stream base recv buf [buf] recv := by
  refine ⟨Storing.start shape task, ?_, fun _ filled => filled, rfl⟩
  intro some_ part member
  rw [List.mem_singleton.mp member]
  exact some_

variable {queue : List RangeBuf} {state : RecvBuf}

/-- Placing a chunk does not move what is read next. -/
theorem Placing.off (placing : Placing stream base recv buf queue state) : state.off = recv.off := by
  show (core base state).off = (core base recv).off
  rw [placing.storing.frame]

theorem Placing.flowControl (placing : Placing stream base recv buf queue state) :
    state.flowControl = recv.flowControl := by
  show (core base state).flowControl = (core base recv).flowControl
  rw [placing.storing.frame]

/-- A chunk that was placed is held. -/
theorem Placing.has (placing : Placing stream base recv buf [] state) (x : Nat) :
    Has state x ↔ Has recv x ∨ Spans buf x := by
  have stored := placing.storing.has x
  simp only [List.not_mem_nil, false_and, exists_false, or_false] at stored
  exact stored

/-- A turn goes on placing the chunk, and leaves for later only what lies above what was read. -/
theorem Placing.turn {item : RangeBuf} (low : base ≤ recv.off)
    (placing : Placing stream base recv buf (item :: queue) state) :
    ∃ after more, RecvBuf.writeTurn item state = .next after more ∧
      Placing stream base recv buf (queue ++ more) after ∧
      WorkQueue.load (fun part => part.curLen + 1) more < item.curLen + 1 ∧
      ∀ piece ∈ more, recv.off ≤ piece.curOff := by
  -- The turn is taken on the buffer above the base, where the laws of the plain buffer hold.
  have off := placing.off
  have shape := placing.storing.shape
  have task : Task stream state.off item := by
    rw [off]
    exact placing.storing.tasks item List.mem_cons_self
  obtain ⟨seen, more, ran, storing, less⟩ := placing.storing.turn
  obtain ⟨pieces, keeps⟩ := writeTurn_pieces shape task ran
  -- The turn on the buffer itself is the one on the buffer as it is seen above the base.
  rw [writeTurn_core shape (by omega) task] at ran
  cases turned : RecvBuf.writeTurn item state with
  | next after pushed =>
    rw [turned] at ran
    simp only [Turn.map, Turn.next.injEq] at ran
    obtain ⟨same, rfl⟩ := ran
    refine ⟨after, pushed, rfl, ⟨?_, ?_, ?_, ?_⟩, less, ?_⟩
    · rw [same]
      exact storing
    · intro some_ part member
      rcases List.mem_append.mp member with queued | left
      · exact placing.parts some_ part (List.mem_cons_of_mem _ queued)
      · exact (pieces part left).2
    · intro some_ filled
      have kept := keeps (placing.parts some_ item List.mem_cons_self) (placing.filled some_ filled)
      rw [← same] at kept
      exact kept
    · rw [finOff_writeTurn turned]
      exact placing.finOff
    · intro piece member
      rw [← off]
      exact (pieces piece member).1
  | halt after =>
    rw [turned] at ran
    cases ran
  | panic =>
    rw [turned] at ran
    cases ran

/-- A plain buffer without empty chunks has none after a chunk with bytes was written. -/
theorem filled_write (shape : Shape stream recv) (filled : Filled recv) (sound : Sound stream buf)
    (some_ : buf.isEmpty = false) {after : RecvBuf} (stored : recv.write buf = .ok after) : Filled after := by
  -- The checks let the chunk pass or the write fails; what is left is the loop.
  unfold RecvBuf.write at stored
  split at stored
  · cases stored
  split at stored
  · cases stored
  simp only [some_, Bool.and_false, Bool.false_eq_true, if_false, Bool.not_false, Bool.and_true,
    decide_eq_true_eq] at stored
  -- Recording the final offset touches no chunk.
  have recorded : Filled (if buf.fin = true then { recv with finOff := some buf.maxOff } else recv) := by
    split
    · exact filled
    · exact filled
  rw [(shape.record sound).1] at stored recorded
  by_cases old : buf.maxOff ≤ recv.off
  · rw [if_pos old] at stored
    cases stored
    exact recorded
  rw [if_neg old] at stored
  have task : Task stream recv.off buf := by
    refine ⟨⟨sound.holds, sound.unread, fun empty => ?_⟩, fun _ => Nat.lt_of_not_le old⟩
    rw [empty] at some_
    cases some_
  obtain ⟨final, drained, placing⟩ := WorkQueue.drain_keeps
    (fun item queue state (placing : Placing stream 0 _ buf (item :: queue) state) => by
      obtain ⟨after, more, ran, placing, less, _⟩ := placing.turn (Nat.zero_le _)
      exact ⟨after, more, ran, placing, less⟩) (buf.curLen + 1) [buf] _
    (Placing.start (shape_core_zero shape (if buf.fin then some stream.length else recv.finOff)) task) (by simp)
  rw [drained] at stored
  cases stored
  exact placing.filled some_ recorded

end Place

section Loop

variable {stream : Bytes} {rot : RotatingRecvBuf} {base : Nat} {buf : RangeBuf} {fcData : Option FcRecvBuf}

theorem keepBelow_above (above : rot.recv.off ≤ buf.curOff) : rot.keepBelow buf = (.ok (), rot) := by
  unfold keepBelow
  cases rot.fcData with
  | none => rfl
  | some fc => exact if_neg (Nat.not_lt.mpr above)

theorem writeTurn_next (shape : Shape stream (core base rot.recv)) (task : Task stream rot.recv.off buf)
    (kept : rot.keepBelow buf = (.ok (), ⟨rot.recv, fcData⟩)) {after : RecvBuf} {more : List RangeBuf}
    (ran : RecvBuf.writeTurn buf rot.recv = .next after more) :
    writeTurn buf (.ok (), rot) = .next (.ok (), ⟨after, fcData⟩) more := by
  obtain ⟨part, cut, _⟩ := shape.discardRead task
  have cut : rot.recv.discardRead buf = some part := cut
  simp [writeTurn, cut, kept, ran, Turn.map]

/-- What holds once the extension has got its part: everything queued lies above what was read. -/
def Going (stream : Bytes) (base : Nat) (recv : RecvBuf) (buf : RangeBuf) (fcData : Option FcRecvBuf)
    (queue : List RangeBuf) (state : Except StreamError Unit × RotatingRecvBuf) : Prop :=
  ∃ after, state = (.ok (), ⟨after, fcData⟩) ∧ Placing stream base recv buf queue after ∧
    ∀ part ∈ queue, recv.off ≤ part.curOff

/-- A later turn goes on, and leaves the extension alone. -/
theorem Going.turn {recv : RecvBuf} {item : RangeBuf} {queue : List RangeBuf}
    {state : Except StreamError Unit × RotatingRecvBuf} (low : base ≤ recv.off)
    (going : Going stream base recv buf fcData (item :: queue) state) :
    ∃ after more, writeTurn item state = .next after more ∧
      Going stream base recv buf fcData (queue ++ more) after ∧
      WorkQueue.load (fun part => part.curLen + 1) more < item.curLen + 1 := by
  -- What is queued lies above what was read, so nothing of it goes to the extension.
  obtain ⟨held, rfl, placing, above⟩ := going
  obtain ⟨after, more, ran, placing', less, pieces⟩ := placing.turn low
  have off := placing.off
  have task : Task stream held.off item := by
    rw [off]
    exact placing.storing.tasks item List.mem_cons_self
  have front : held.off ≤ item.curOff := by
    rw [off]
    exact above item List.mem_cons_self
  have kept : keepBelow ⟨held, fcData⟩ item = (.ok (), ⟨held, fcData⟩) := keepBelow_above front
  have next := writeTurn_next placing.storing.shape task kept ran
  refine ⟨_, more, next, ⟨after, rfl, placing', ?_⟩, less⟩
  intro part member
  rcases List.mem_append.mp member with queued | left
  · exact above part (List.mem_cons_of_mem _ queued)
  · exact pieces part left

theorem drain_places (low : base ≤ rot.recv.off) (shape : Shape stream (core base rot.recv))
    (task : Task stream rot.recv.off buf) (kept : rot.keepBelow buf = (.ok (), ⟨rot.recv, fcData⟩)) :
    ∃ after, WorkQueue.drain writeTurn (buf.curLen + 1) [buf] (.ok (), rot) = some (.ok (), ⟨after, fcData⟩) ∧
      Placing stream base rot.recv buf [] after := by
  -- The first turn hands the lower part of the chunk to the extension, and the others find none.
  obtain ⟨first, more, ran, placing, less, pieces⟩ := (Placing.start shape task).turn low
  have going : Going stream base rot.recv buf fcData ([] ++ more) (.ok (), ⟨first, fcData⟩) :=
    ⟨first, rfl, placing, by simpa using pieces⟩
  obtain ⟨final, drained, after, same, placed, _⟩ := WorkQueue.drain_keeps (fun _ _ _ => Going.turn low)
    buf.curLen _ _ going (by rw [List.nil_append]; omega)
  refine ⟨after, ?_, placed⟩
  rw [WorkQueue.drain_next (writeTurn_next shape task kept ran), drained, same]

end Loop

/-- The buffer for what lies below the start offset, before the loop: nothing of it was read. -/
structure Lower (stream : Bytes) (start maxData : Nat) (inner : RecvBuf) : Prop where
  shape : Shape stream inner
  unread : inner.off = 0
  filled : Filled inner
  flow : inner.maxData = maxData
  spare : ¬ Has inner start

/-- The buffer that is read before the loop, from the start offset on. -/
structure Upper (stream : Bytes) (start maxData : Nat) (recv : RecvBuf) : Prop where
  shape : Shape stream (core start recv)
  front : start ≤ recv.off
  finOff : ∀ finOff, recv.finOff = some finOff → finOff = stream.length
  flow : recv.maxData = maxData
  /-- The end of the stream was not reached, unless reading started there. -/
  ends : start < stream.length → recv.off < stream.length
  /-- The final offset is known once the last byte is held. -/
  known : start < stream.length → Has recv (stream.length - 1) → recv.finOff = some stream.length

/-- A rotating buffer before the loop. -/
structure Ahead (stream : Bytes) (start maxData : Nat) (inner : RecvBuf) (rot : RotatingRecvBuf) : Prop where
  /-- The extension holds a buffer for what lies below the start offset. -/
  fcData : rot.fcData = some ⟨start, false, some inner, none⟩
  /-- The buffer that is read holds what lies above. -/
  upper : Upper stream start maxData rot.recv
  /-- The other one holds what lies below. -/
  lower : Lower stream start maxData inner

/-- A rotating buffer after the loop, which is read up to the start offset. -/
structure Looped (stream : Bytes) (start maxData : Nat) (rot : RotatingRecvBuf) : Prop where
  fcData : rot.fcData = some ⟨start, true, none, some stream.length⟩
  /-- The buffer holds chunks of the stream. -/
  shape : Shape stream (core 0 rot.recv)
  filled : Filled rot.recv
  back : rot.recv.off ≤ start
  finOff : ∃ finOff, rot.recv.finOff = some finOff ∧ start ≤ finOff ∧ finOff ≤ stream.length
  flow : rot.recv.maxData = maxData
  spare : ¬ Has rot.recv start

section Before

variable {stream : Bytes} {start maxData : Nat} {inner recv : RecvBuf} {rot : RotatingRecvBuf} {buf : RangeBuf}

/-- A chunk with bytes that misses the start offset is set aside. -/
theorem Lower.write (lower : Lower stream start maxData inner) (sound : Sound stream buf)
    (some_ : buf.isEmpty = false) (flow : buf.maxOff ≤ maxData) (misses : ¬ Spans buf start) :
    ∃ after, inner.write buf = .ok after ∧ Lower stream start maxData after ∧
      ∀ x, Has after x ↔ Has inner x ∨ Spans buf x := by
  -- The buffer below the start offset is a plain one, so the laws of the plain buffer apply.
  obtain ⟨after, stored, written⟩ := lower.shape.write sound (by rw [lower.flow]; exact flow)
  refine ⟨after, stored, ⟨written.shape, ?_, ?_, ?_, ?_⟩, written.has⟩
  · rw [written.frame]
    exact lower.unread
  · exact filled_write lower.shape lower.filled sound some_ stored
  · rw [written.frame]
    exact lower.flow
  · rw [written.has]
    exact fun either => either.elim lower.spare misses

/-- Recording a final offset keeps the buffer that is read. -/
theorem Upper.record (upper : Upper stream start maxData recv) :
    Upper stream start maxData { recv with finOff := some stream.length } := by
  refine ⟨upper.shape, upper.front, ?_, upper.flow, upper.ends, fun _ _ => rfl⟩
  intro finOff known
  exact (Option.some.inj known).symm

/-- A chunk that was placed is held by the buffer that is read. -/
theorem Upper.placed (upper : Upper stream start maxData recv) {after : RecvBuf}
    (final : Spans buf (stream.length - 1) → recv.finOff = some stream.length)
    (placing : Placing stream start recv buf [] after) :
    Upper stream start maxData after ∧ ∀ x, Has after x ↔ Has recv x ∨ Spans buf x := by
  refine ⟨⟨placing.storing.shape, ?_, ?_, ?_, ?_, ?_⟩, placing.has⟩
  · rw [placing.off]
    exact upper.front
  · rw [placing.finOff]
    exact upper.finOff
  · rw [RecvBuf.maxData, placing.flowControl]
    exact upper.flow
  · rw [placing.off]
    exact upper.ends
  · intro short last
    rw [placing.finOff]
    exact ((placing.has _).mp last).elim (upper.known short) final

/-- Looping back makes the buffer that was set aside the one that is read. -/
theorem Lower.loops (lower : Lower stream start maxData inner)
    (extended : rot.fcData = some ⟨start, false, some inner, none⟩) (inside : start ≤ stream.length)
    (final : rot.recv.finOff = some stream.length) :
    ∃ after, rot.fcLoopRecv = (.ok (), after) ∧ Looped stream start maxData after ∧
      after.recv = { inner with finOff := some start } := by
  refine ⟨⟨{ inner with finOff := some start }, some ⟨start, true, none, some stream.length⟩⟩, ?_, ?_, rfl⟩
  · simp [fcLoopRecv, extended, fcCopy, final]
  · refine ⟨rfl, shape_core_zero lower.shape _, lower.filled, ?_,
      ⟨start, rfl, Nat.le_refl _, inside⟩, lower.flow, lower.spare⟩
    show inner.off ≤ start
    rw [lower.unread]
    exact Nat.zero_le _

/-- What of a chunk lies below what is read next is set aside. -/
theorem Ahead.keepBelow (ahead : Ahead stream start maxData inner rot) (task : Task stream rot.recv.off buf)
    (flow : buf.maxOff ≤ maxData) (misses : Spans buf start → rot.recv.off ≤ start) :
    ∃ inner', rot.keepBelow buf = (.ok (), ⟨rot.recv, some ⟨start, false, some inner', none⟩⟩) ∧
      Lower stream start maxData inner' ∧
      ∀ x, Has inner' x ↔ Has inner x ∨ (Spans buf x ∧ x < rot.recv.off) := by
  by_cases low : buf.curOff < rot.recv.off
  · -- An empty chunk is not below what was read, so both halves have bytes.
    have some_ : buf.isEmpty = false := by
      have read := ahead.upper.shape.read
      have inside := ahead.upper.shape.inside
      have off : (core start rot.recv).off = rot.recv.off := rfl
      rw [← Bool.not_eq_true]
      intro empty
      have := task.fresh.marks empty
      rw [isEmpty_iff_maxOff] at empty
      omega
    have high := task.unread some_
    obtain ⟨_, fresh, _, from_, to_, _, _⟩ := splitOff_spans task.fresh low high
    have sound : Sound stream (buf.splitOff (rot.recv.off - buf.curOff)).1 :=
      ⟨fresh.holds, fresh.unread, fun final => absurd final Bool.false_ne_true⟩
    have part : (buf.splitOff (rot.recv.off - buf.curOff)).1.isEmpty = false := by
      rw [← Bool.not_eq_true, isEmpty_iff_maxOff, from_, to_]
      omega
    have spans : ∀ x, Spans (buf.splitOff (rot.recv.off - buf.curOff)).1 x ↔ Spans buf x ∧ x < rot.recv.off := by
      intro x
      unfold Spans
      rw [from_, to_]
      omega
    obtain ⟨inner', stored, lower, has⟩ := ahead.lower.write sound part (by omega) (by
      rw [spans]
      exact fun covers => Nat.not_lt.mpr (misses covers.1) covers.2)
    refine ⟨inner', ?_, lower, fun x => by rw [has, spans]⟩
    simp [RotatingRecvBuf.keepBelow, ahead.fcData, RecvBuf.offFront, low, FcRecvBuf.write, stored]
  · -- Nothing of the chunk lies below what was read.
    refine ⟨inner, ?_, ahead.lower, fun x => ⟨Or.inl, ?_⟩⟩
    · rw [keepBelow_above (Nat.le_of_not_lt low), ← ahead.fcData]
    · intro either
      rcases either with has | ⟨spans, below⟩
      · exact has
      · unfold Spans at spans
        omega

end Before

/-- A chunk went into a buffer before the loop, and each of its bytes is held on its side of the start offset. -/
structure Advanced (stream : Bytes) (start maxData : Nat) (inner : RecvBuf) (rot : RotatingRecvBuf)
    (buf : RangeBuf) (inner' : RecvBuf) (after : RotatingRecvBuf) : Prop where
  ahead : Ahead stream start maxData inner' after
  off : after.recv.off = rot.recv.off
  /-- The buffer that is read holds the bytes from the start offset on. -/
  high : ∀ x, Has rot.recv x ∨ Spans buf x → start ≤ x → Has after.recv x
  /-- The other one holds the bytes below it. -/
  low : ∀ x, Has inner x ∨ Spans buf x → x < start → Has inner' x
  /-- The last byte of the stream would have made it loop, if reading started behind it. -/
  last : start = stream.length → ¬ Spans buf (stream.length - 1)

/-- A chunk ended a stream that is read from its very end, and the buffer looped. -/
structure Rewound (stream : Bytes) (start maxData : Nat) (inner : RecvBuf) (buf : RangeBuf)
    (after : RotatingRecvBuf) : Prop where
  looped : Looped stream start maxData after
  whole : start = stream.length
  /-- The stream is read from its beginning. -/
  off : after.recv.off = 0
  low : ∀ x, Has inner x ∨ Spans buf x → Has after.recv x

section WriteBefore

variable {stream : Bytes} {start maxData : Nat} {inner : RecvBuf} {rot : RotatingRecvBuf} {buf : RangeBuf}

/-- Before the loop nothing is stripped. -/
theorem Ahead.strip (ahead : Ahead stream start maxData inner rot) : rot.strip buf = .ok (buf, rot) := by
  have none_ : rot.pastFin buf = none := by
    unfold pastFin
    rw [ahead.fcData]
    cases rot.recv.finOff with
    | none => rfl
    | some finOff => rfl
  rw [RotatingRecvBuf.strip, none_]

theorem Ahead.finConflict (ahead : Ahead stream start maxData inner rot) (sound : Sound stream buf) :
    rot.recv.finConflict buf = false := by
  -- The final offset, if it is known, is the end of the stream, which no chunk of it passes.
  have inside : max rot.recv.len start ≤ stream.length := ahead.upper.shape.inside
  apply finConflict_eq_false
  · intro finOff known
    rw [ahead.upper.finOff finOff known]
    exact ⟨maxOff_le sound.holds, fun fin => (sound.final fin).symm⟩
  · intro fin
    rw [sound.final fin]
    omega

/-- Recording the final offset that a chunk brings changes nothing else. -/
theorem Ahead.record (ahead : Ahead stream start maxData inner rot) (sound : Sound stream buf) :
    Ahead stream start maxData inner (rot.record buf) ∧ (rot.record buf).recv.off = rot.recv.off ∧
      (∀ x, Has (rot.record buf).recv x ↔ Has rot.recv x) ∧
      (buf.fin = true → (rot.record buf).recv.finOff = some stream.length) := by
  unfold RotatingRecvBuf.record
  cases ends : buf.fin with
  | false => exact ⟨ahead, rfl, fun _ => Iff.rfl, fun final => absurd final Bool.false_ne_true⟩
  | true =>
    rw [sound.final ends]
    exact ⟨⟨ahead.fcData, ahead.upper.record, ahead.lower⟩, rfl, fun _ => Iff.rfl, fun _ => rfl⟩

/-- A chunk that lies below what is read next is set aside, and may end the stream. -/
theorem Ahead.writeBelow (ahead : Ahead stream start maxData inner rot) (inside : start ≤ stream.length)
    (sound : Sound stream buf) (marked : buf.maxOff = stream.length → buf.fin = true)
    (some_ : buf.isEmpty = false) (flow : buf.maxOff ≤ maxData)
    (misses : Spans buf start → rot.recv.off ≤ start) (old : buf.maxOff ≤ rot.recv.off)
    (recorded : buf.fin = true → rot.recv.finOff = some stream.length) :
    ∃ after, rot.writeBelow buf = (.ok (), after) ∧
      ((∃ inner', Advanced stream start maxData inner rot buf inner' after) ∨
        Rewound stream start maxData inner buf after) := by
  -- The chunk cannot cover the start offset, since what is read next lies behind its end.
  have clear : ¬ Spans buf start := by
    intro covers
    have := misses covers
    unfold Spans at covers
    omega
  obtain ⟨inner', stored, lower, has⟩ := ahead.lower.write sound some_ flow clear
  have after : Ahead stream start maxData inner' ⟨rot.recv, some ⟨start, false, some inner', none⟩⟩ :=
    ⟨rfl, ahead.upper, lower⟩
  cases ends : buf.fin with
  | false =>
    refine ⟨_, ?_, Or.inl ⟨inner', after, rfl, ?_, fun x either _ => (has x).mpr either, ?_⟩⟩
    · simp [RotatingRecvBuf.writeBelow, ahead.fcData, FcRecvBuf.write, stored, ends]
    · -- What the chunk has above the start offset was read.
      intro x either _
      rcases either with held | spans
      · exact held
      · unfold Spans at spans
        exact Or.inl (Nat.lt_of_lt_of_le spans.2 old)
    · intro whole spans
      have short := maxOff_le sound.holds
      have : buf.maxOff = stream.length := by
        unfold Spans at spans
        omega
      rw [marked this] at ends
      cases ends
  | true =>
    -- The end of the stream was not read, so reading started there.
    have stop := sound.final ends
    have whole : start = stream.length := by
      refine Classical.byContradiction fun short => ?_
      have := ahead.upper.ends (by omega)
      omega
    obtain ⟨final, looped, back, same⟩ := lower.loops after.fcData inside (recorded ends)
    refine ⟨final, ?_, Or.inr ⟨back, whole, ?_, ?_⟩⟩
    · simp [RotatingRecvBuf.writeBelow, ahead.fcData, FcRecvBuf.write, stored, ends, stop, whole]
      rw [← whole]
      exact looped
    · rw [same]
      exact lower.unread
    · intro x either
      rw [same]
      exact (has x).mpr either

/-- Before the loop a chunk of the stream is accepted. -/
theorem Ahead.write (ahead : Ahead stream start maxData inner rot) (inside : start ≤ stream.length)
    (sound : Sound stream buf) (marked : buf.maxOff = stream.length → buf.fin = true)
    (flow : buf.maxOff ≤ maxData) (misses : Spans buf start → rot.recv.off ≤ start) :
    ∃ after, rot.write buf = (.ok (), after) ∧
      ((∃ inner', Advanced stream start maxData inner rot buf inner' after) ∨
        Rewound stream start maxData inner buf after) := by
  obtain ⟨recorded, off, has, final⟩ := ahead.record sound
  -- An empty chunk holds no byte, and a buffer that stays as it is holds what it held.
  have idle : buf.isEmpty = true → Advanced stream start maxData inner rot buf inner rot := fun empty =>
    ⟨ahead, rfl, fun x either _ => either.resolve_right (not_spans_of_empty empty x),
      fun x either _ => either.resolve_right (not_spans_of_empty empty x), fun _ => not_spans_of_empty empty _⟩
  have within_ : ¬ rot.recv.maxData < buf.maxOff := by
    rw [ahead.upper.flow]
    exact Nat.not_lt.mpr flow
  have calm : ¬ rot.recv.finConflict buf = true := by rw [ahead.finConflict sound]; decide
  simp only [RotatingRecvBuf.write, if_neg within_, ahead.strip, writeKept, if_neg calm]
  by_cases known : (rot.recv.finOff.isSome && buf.isEmpty) = true
  · rw [if_pos known]
    exact ⟨rot, rfl, Or.inl ⟨inner, idle (Bool.and_eq_true_iff.mp known).2⟩⟩
  rw [if_neg known]
  by_cases nothing : (!buf.fin && buf.isEmpty) = true
  · rw [if_pos nothing]
    exact ⟨rot, rfl, Or.inl ⟨inner, idle (Bool.and_eq_true_iff.mp nothing).2⟩⟩
  rw [if_neg nothing]
  by_cases old : (decide (buf.maxOff ≤ rot.recv.off) && !buf.isEmpty) = true
  · -- The whole chunk lies below what is read next.
    rw [if_pos old]
    obtain ⟨low, filled⟩ := Bool.and_eq_true_iff.mp old
    rw [← off] at misses low
    obtain ⟨after, ran, result⟩ := recorded.writeBelow inside sound marked (by simpa using filled) flow misses
      (of_decide_eq_true low) final
    refine ⟨after, ran, result.imp ?_ id⟩
    intro advanced
    obtain ⟨inner', advanced⟩ := advanced
    refine ⟨inner', advanced.ahead, advanced.off.trans off, ?_, advanced.low, advanced.last⟩
    exact fun x either => advanced.high x (either.imp (has x).mpr id)
  rw [if_neg old]
  -- The chunk reaches above what is read next, so the loop places it.
  have task : Task stream rot.recv.off buf := by
    refine ⟨⟨sound.holds, sound.unread, fun empty => ?_⟩, fun filled => ?_⟩
    · refine sound.final ?_
      simpa [empty] using nothing
    · simpa [filled] using old
  rw [← off] at task misses
  obtain ⟨inner', kept, lower, below⟩ := recorded.keepBelow task flow misses
  obtain ⟨after, drained, placing⟩ := drain_places recorded.upper.front recorded.upper.shape task kept
  rw [drained]
  obtain ⟨upper, above⟩ := recorded.upper.placed (fun spans => final (marked (by
    have short := maxOff_le sound.holds
    unfold Spans at spans
    omega))) placing
  refine ⟨_, rfl, Or.inl ⟨inner', ⟨rfl, upper, lower⟩, placing.off.trans off, ?_, ?_, ?_⟩⟩
  · exact fun x either _ => (above x).mpr (either.imp (has x).mpr id)
  · -- Below the start offset every byte of the chunk lies below what is read next.
    intro x either low
    refine (below x).mpr (either.imp id fun spans => ⟨spans, ?_⟩)
    exact Nat.lt_of_lt_of_le low recorded.upper.front
  · -- A chunk with bytes ends above what is read next, and so above the start offset.
    intro whole spans
    have short := maxOff_le sound.holds
    have front := recorded.upper.front
    have some_ : buf.isEmpty = false := by
      rw [← Bool.not_eq_true]
      exact fun empty => not_spans_of_empty empty _ spans
    have := task.unread some_
    omega

end WriteBefore

/-- What a write after the loop does. -/
structure Refilled (stream : Bytes) (start maxData : Nat) (rot : RotatingRecvBuf) (buf : RangeBuf)
    (after : RotatingRecvBuf) : Prop where
  looped : Looped stream start maxData after
  off : after.recv.off = rot.recv.off
  low : ∀ x, Has rot.recv x ∨ Spans buf x → x < start → Has after.recv x

section WriteAfter

variable {stream : Bytes} {start maxData : Nat} {rot : RotatingRecvBuf} {buf : RangeBuf}

theorem Looped.strip_within (looped : Looped stream start maxData rot) {finOff : Nat}
    (known : rot.recv.finOff = some finOff) (short : buf.maxOff ≤ finOff) : rot.strip buf = .ok (buf, rot) := by
  have none_ : rot.pastFin buf = none := by
    simp [pastFin, looped.fcData, known]
    omega
  rw [RotatingRecvBuf.strip, none_]

/-- A chunk that passes the final offset is cut there, or gets empty and moves the final offset to where it starts. -/
theorem Looped.strip_past (looped : Looped stream start maxData rot) (sound : Sound stream buf) {finOff : Nat}
    (known : rot.recv.finOff = some finOff) (past : finOff < buf.maxOff) :
    ∃ kept, rot.strip buf = .ok (kept, { rot with recv := { rot.recv with finOff := some kept.maxOff } }) ∧
      Sound stream kept ∧ kept.fin = false ∧ finOff ≤ kept.maxOff ∧
      ∀ x, Spans kept x ↔ Spans buf x ∧ x < finOff := by
  -- The chunk is cut at the final offset; a chunk that starts behind it is left empty.
  have short := maxOff_le sound.holds
  have stop := sound.holds.wf.maxOff_eq
  have from_ := sound.holds.wf.curOff_eq
  have shifted := sound.holds.wf.shifted
  have unread := sound.unread
  have within_ : finOff - buf.off ≤ buf.len := by omega
  have pastFin_ : rot.pastFin buf = some (⟨start, true, none, some stream.length⟩, finOff) := by
    simp [pastFin, looped.fcData, known, past]
  have holds := (sound.holds.splitOff within_).1
  have unread' : (buf.splitOff (finOff - buf.off)).1.pos = (buf.splitOff (finOff - buf.off)).1.start := by
    simp only [RangeBuf.splitOff]
    omega
  have stop' : (buf.splitOff (finOff - buf.off)).1.maxOff = buf.off + (finOff - buf.off) := holds.wf.maxOff_eq
  have from' : (buf.splitOff (finOff - buf.off)).1.curOff = buf.off := by
    rw [holds.wf.curOff_eq, unread', Nat.sub_self]
    rfl
  have kept : Sound stream (buf.splitOff (finOff - buf.off)).1 :=
    ⟨holds, unread', fun final => absurd final Bool.false_ne_true⟩
  refine ⟨(buf.splitOff (finOff - buf.off)).1, ?_, kept, rfl, ?_, ?_⟩
  · -- The chunk ends within the stream as it was before the loop, so it is a duplicate.
    rw [RotatingRecvBuf.strip, pastFin_]
    simp only [Option.any_some, decide_eq_true_eq, if_pos short, if_neg (Nat.not_lt.mpr within_)]
  · omega
  · intro x
    unfold Spans
    rw [from', stop']
    omega

theorem Looped.keepBelow (looped : Looped stream start maxData rot) : rot.keepBelow buf = (.ok (), rot) := by
  have same : { rot with fcData := some ⟨start, true, none, some stream.length⟩ } = rot := by
    rw [← looped.fcData]
  simp [RotatingRecvBuf.keepBelow, looped.fcData, FcRecvBuf.write, same]

theorem Looped.writeBelow (looped : Looped stream start maxData rot) (inside : start ≤ stream.length)
    (sound : Sound stream buf) : rot.writeBelow buf = (.ok (), rot) := by
  -- The buffer below is gone, and the loop back that a final chunk asks for is refused.
  have same : { rot with fcData := some ⟨start, true, none, some stream.length⟩ } = rot := by
    rw [← looped.fcData]
  simp only [RotatingRecvBuf.writeBelow, looped.fcData, FcRecvBuf.write, same]
  cases ends : buf.fin with
  | false => rfl
  | true =>
    rw [sound.final ends]
    simp only [if_true, if_neg (Nat.not_lt.mpr inside)]
    split
    · simp [fcLoopRecv, looped.fcData]
    · rfl

/-- After the loop a chunk within the final offset that misses the start offset is stored. -/
theorem Looped.writeKept (looped : Looped stream start maxData rot) (inside : start ≤ stream.length)
    (sound : Sound stream buf) {finOff : Nat} (known : rot.recv.finOff = some finOff)
    (short : buf.maxOff ≤ finOff) (ends : buf.fin = true → finOff = buf.maxOff) (misses : ¬ Spans buf start) :
    ∃ after, rot.writeKept buf = (.ok (), after) ∧ Looped stream start maxData after ∧
      after.recv.off = rot.recv.off ∧ ∀ x, Has rot.recv x ∨ Spans buf x → Has after.recv x := by
  -- The chunk passes the checks, since it agrees with the final offset that is known.
  have recorded : rot.record buf = rot := by
    -- The final offset that the chunk brings is the one that is known.
    unfold RotatingRecvBuf.record
    split
    · rename_i final
      rw [← ends final, ← known]
    · rfl
  have calm : ¬ rot.recv.finConflict buf = true := by
    rw [Bool.not_eq_true]
    apply finConflict_eq_false
    · intro other same
      rw [known] at same
      cases same
      exact ⟨short, ends⟩
    · intro final
      have reach : max rot.recv.len 0 ≤ stream.length := looped.shape.inside
      rw [sound.final final]
      omega
  simp only [RotatingRecvBuf.writeKept, if_neg calm, known, Option.isSome_some, Bool.true_and, recorded]
  cases empty : buf.isEmpty with
  | true =>
    refine ⟨rot, by simp, looped, rfl, ?_⟩
    exact fun x either => either.resolve_right (not_spans_of_empty empty x)
  | false =>
    simp only [Bool.false_eq_true, if_false, Bool.and_false, Bool.not_false, Bool.and_true, decide_eq_true_eq]
    by_cases old : buf.maxOff ≤ rot.recv.off
    · -- The chunk was read, or lies where reading never stopped.
      rw [if_pos old, looped.writeBelow inside sound]
      refine ⟨rot, rfl, looped, rfl, ?_⟩
      intro x either
      rcases either with held | spans
      · exact held
      · unfold Spans at spans
        exact Or.inl (Nat.lt_of_lt_of_le spans.2 old)
    rw [if_neg old]
    have task : Task stream rot.recv.off buf := by
      refine ⟨⟨sound.holds, sound.unread, fun none_ => ?_⟩, fun _ => Nat.lt_of_not_le old⟩
      rw [none_] at empty
      cases empty
    obtain ⟨after, drained, placing⟩ := drain_places (Nat.zero_le _) looped.shape task looped.keepBelow
    rw [drained]
    refine ⟨_, rfl, ⟨looped.fcData, placing.storing.shape, placing.filled empty looped.filled, ?_, ?_, ?_, ?_⟩,
      placing.off, fun x => (placing.has x).mpr⟩
    · rw [placing.off]
      exact looped.back
    · rw [placing.finOff]
      exact looped.finOff
    · rw [RecvBuf.maxData, placing.flowControl]
      exact looped.flow
    · rw [placing.has]
      exact fun either => either.elim looped.spare misses

/-- After the loop a chunk of the stream is accepted. -/
theorem Looped.write (looped : Looped stream start maxData rot) (inside : start ≤ stream.length)
    (sound : Sound stream buf) (flow : buf.maxOff ≤ maxData)
    (spares : Spans buf start → rot.recv.finOff = some start) :
    ∃ after, rot.write buf = (.ok (), after) ∧ Refilled stream start maxData rot buf after := by
  obtain ⟨finOff, known, low, high⟩ := looped.finOff
  have within_ : ¬ rot.recv.maxData < buf.maxOff := by
    rw [looped.flow]
    exact Nat.not_lt.mpr flow
  -- A chunk that covers the start offset finds the final offset there.
  have meets : Spans buf start → finOff = start := by
    intro covers
    rw [spares covers] at known
    exact (Option.some.inj known).symm
  simp only [RotatingRecvBuf.write, if_neg within_]
  by_cases past : finOff < buf.maxOff
  · -- The cut chunk ends at the final offset, and may move it.
    obtain ⟨kept, stripped, sound', notFin, grows, spans⟩ := looped.strip_past sound known past
    have moved : Looped stream start maxData { rot with recv := { rot.recv with finOff := some kept.maxOff } } :=
      ⟨looped.fcData, looped.shape, looped.filled, looped.back,
        ⟨kept.maxOff, rfl, Nat.le_trans low grows, maxOff_le sound'.holds⟩, looped.flow, looped.spare⟩
    obtain ⟨after, ran, looped', off, has⟩ := moved.writeKept inside sound' rfl (Nat.le_refl _)
      (fun final => absurd final (by rw [notFin]; decide)) (by
        rw [spans]
        intro covers
        have := meets covers.1
        omega)
    rw [stripped]
    refine ⟨after, ran, ⟨looped', off, fun x either below => has x (either.imp id fun covers => ?_)⟩⟩
    exact (spans x).mpr ⟨covers, Nat.lt_of_lt_of_le below low⟩
  · -- The chunk lies within the final offset, and nothing is cut.
    have short : buf.maxOff ≤ finOff := Nat.le_of_not_lt past
    obtain ⟨after, ran, looped', off, has⟩ := looped.writeKept inside sound known short (fun final => by
        have := sound.final final
        omega) (by
        intro covers
        have := meets covers
        unfold Spans at covers
        omega)
    rw [looped.strip_within known short]
    exact ⟨after, ran, ⟨looped', off, fun x either _ => has x either⟩⟩

end WriteAfter

end RotatingRecvBuf

end Flexicast
