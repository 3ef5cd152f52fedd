/-! The byte chunk `RangeBuf` of `stream/mod.rs`, shared by the send and receive buffers. -/

namespace Flexicast

/-- Application data. -/
abbrev Bytes := List UInt8

/-- Errors of the stream layer. -/
inductive StreamError where
  /-- Nothing was left to do. -/
  | done
  | finalSize
  /-- The peer sent more than it was allowed to. -/
  | flowControl
  /-- The peer asked to stop sending. -/
  | streamStopped (code : Nat)
  | streamReset (code : Nat)
  /-- More streams were opened than allowed. -/
  | streamLimit
  /-- The stream does not exist, or its identifier does not fit the request. -/
  | invalidStreamState (id : Nat)
  /-- The rotation extension was used without its buffer. -/
  | fcStreamRotation
  /-- An unsigned subtraction underflowed, which aborts a checked build. -/
  | overflow
  /-- A value that must be there was missing, which aborts the program. -/
  | aborted
  deriving DecidableEq

/-- Data at an offset of a stream, held as a window of a shared buffer. -/
structure RangeBuf where
  data : Bytes
  /-- Where the window starts in the buffer. -/
  start : Nat
  /-- The current position in the buffer. -/
  pos : Nat
  len : Nat
  off : Nat
  /-- Whether this holds the final byte of the stream. -/
  fin : Bool
  deriving DecidableEq

namespace RangeBuf

/-- A chunk made from a slice. -/
def fromSlice (buf : Bytes) (off : Nat) (fin : Bool) : RangeBuf :=
  { data := buf, start := 0, pos := 0, len := buf.length, off := off, fin := fin }

/-- The stream offset of the first byte not consumed. -/
def curOff (buf : RangeBuf) : Nat := buf.off - buf.start + buf.pos

/-- The number of bytes not consumed. -/
def curLen (buf : RangeBuf) : Nat := buf.len - (buf.pos - buf.start)

/-- The stream offset behind the last byte. -/
def maxOff (buf : RangeBuf) : Nat := buf.curOff + buf.curLen

/-- Whether every byte was consumed. -/
def isEmpty (buf : RangeBuf) : Bool := buf.curLen == 0

/-- Consumes bytes from the front. -/
def consume (buf : RangeBuf) (count : Nat) : RangeBuf := { buf with pos := buf.pos + count }

/-- Splits a chunk at an index, which the source asserts to be within the chunk. -/
def splitOff (buf : RangeBuf) (index : Nat) : RangeBuf × RangeBuf :=
  ({ buf with pos := min buf.pos (buf.start + index), len := index, fin := false },
    { data := buf.data
      start := buf.start + index
      pos := max buf.pos (buf.start + index)
      len := buf.len - index
      off := buf.off + index
      fin := buf.fin })

/-- The bytes not consumed. -/
def bytes (buf : RangeBuf) : Bytes := (buf.data.drop buf.pos).take (buf.start + buf.len - buf.pos)

/-- The bytes of the whole window, consumed or not. -/
def window (buf : RangeBuf) : Bytes := (buf.data.drop buf.start).take buf.len

/-- A chunk whose window lies in its buffer and whose position lies in its window. -/
structure Wf (buf : RangeBuf) : Prop where
  fits : buf.start + buf.len ≤ buf.data.length
  /-- The position is not before the window. -/
  low : buf.start ≤ buf.pos
  /-- The position is not behind the window. -/
  high : buf.pos ≤ buf.start + buf.len
  /-- The stream offset counts the bytes before the window. -/
  shifted : buf.start ≤ buf.off

variable {buf : RangeBuf}

theorem Wf.maxOff_eq (wf : Wf buf) : buf.maxOff = buf.off + buf.len := by
  -- What consuming adds to the offset it takes from the length.
  have low := wf.low
  have high := wf.high
  have shifted := wf.shifted
  unfold maxOff curOff curLen
  omega

theorem Wf.curOff_eq (wf : Wf buf) : buf.curOff = buf.off + (buf.pos - buf.start) := by
  have low := wf.low
  have shifted := wf.shifted
  unfold curOff
  omega

theorem Wf.isEmpty_iff (wf : Wf buf) : buf.isEmpty = true ↔ buf.pos = buf.start + buf.len := by
  have low := wf.low
  have high := wf.high
  simp only [isEmpty, curLen, beq_iff_eq]
  omega

theorem Wf.bytes_eq (wf : Wf buf) : buf.bytes = buf.window.drop (buf.pos - buf.start) := by
  have low := wf.low
  unfold bytes window
  rw [List.drop_take, List.drop_drop]
  congr 1
  · omega
  · congr 1
    omega

theorem wf_fromSlice (bytes : Bytes) (off : Nat) (fin : Bool) : Wf (fromSlice bytes off fin) :=
  ⟨by simp [fromSlice], Nat.le_refl _, Nat.zero_le _, Nat.zero_le _⟩

theorem window_fromSlice (bytes : Bytes) (off : Nat) (fin : Bool) :
    (fromSlice bytes off fin).window = bytes := by
  simp [fromSlice, window]

theorem Wf.splitOff (wf : Wf buf) {index : Nat} (inside : index ≤ buf.len) :
    Wf (buf.splitOff index).1 ∧ Wf (buf.splitOff index).2 := by
  obtain ⟨fits, low, high, shifted⟩ := wf
  constructor
  · refine ⟨?_, ?_, ?_, shifted⟩ <;> simp only [RangeBuf.splitOff] <;> omega
  · refine ⟨?_, ?_, ?_, ?_⟩ <;> simp only [RangeBuf.splitOff] <;> omega

theorem window_splitOff (buf : RangeBuf) {index : Nat} (inside : index ≤ buf.len) :
    (buf.splitOff index).1.window = buf.window.take index ∧
      (buf.splitOff index).2.window = buf.window.drop index := by
  constructor
  · simp only [RangeBuf.splitOff, window, List.take_take]
    rw [Nat.min_eq_left inside]
  · simp only [RangeBuf.splitOff, window, List.drop_take, List.drop_drop]

/-- A chunk is well formed and holds the bytes that a stream has at its offsets. -/
structure Holds (stream : Bytes) (buf : RangeBuf) : Prop where
  wf : buf.Wf
  inside : buf.off + buf.len ≤ stream.length
  window : buf.window = (stream.drop buf.off).take buf.len

variable {stream : Bytes}

theorem Holds.bytes_eq (holds : Holds stream buf) :
    buf.bytes = (stream.drop buf.curOff).take buf.curLen := by
  have low := holds.wf.low
  have high := holds.wf.high
  -- Dropping the consumed bytes of the window is dropping them from the stream.
  rw [holds.wf.bytes_eq, holds.window, List.drop_take, List.drop_drop, holds.wf.curOff_eq,
    curLen]

theorem Holds.length_bytes (holds : Holds stream buf) :
    buf.bytes.length = buf.curLen := by
  -- The window of the chunk lies within the stream, so it has its full length.
  have inside := holds.inside
  have from_ := holds.wf.curOff_eq
  have low := holds.wf.low
  have high := holds.wf.high
  rw [holds.bytes_eq, List.length_take, List.length_drop]
  unfold RangeBuf.curLen
  omega

theorem Holds.consume (holds : Holds stream buf) {count : Nat}
    (within_ : count ≤ buf.curLen) : Holds stream (buf.consume count) := by
  obtain ⟨⟨fits, low, high, shifted⟩, inside, window⟩ := holds
  unfold RangeBuf.curLen at within_
  refine ⟨⟨fits, ?_, ?_, shifted⟩, inside, window⟩
  · exact Nat.le_trans low (Nat.le_add_right _ _)
  · show buf.pos + count ≤ buf.start + buf.len
    omega

/-- Both halves of a split hold what the chunk held. -/
theorem Holds.splitOff (holds : Holds stream buf) {index : Nat} (within_ : index ≤ buf.len) :
    Holds stream (buf.splitOff index).1 ∧ Holds stream (buf.splitOff index).2 := by
  have wfs := holds.wf.splitOff within_
  have windows := buf.window_splitOff within_
  have inside := holds.inside
  refine ⟨⟨wfs.1, ?_, ?_⟩, ⟨wfs.2, ?_, ?_⟩⟩
  · simp only [RangeBuf.splitOff]
    omega
  · -- The first half shows the first bytes of the window.
    rw [windows.1, holds.window, List.take_take]
    simp only [RangeBuf.splitOff]
    rw [Nat.min_eq_left (by omega)]
  · simp only [RangeBuf.splitOff]
    omega
  · -- The second half shows the bytes behind them.
    rw [windows.2, holds.window, List.drop_take, List.drop_drop]
    simp only [RangeBuf.splitOff]

theorem Holds.extend (holds : Holds stream buf) (more : Bytes) :
    Holds (stream ++ more) buf := by
  have inside := holds.inside
  refine ⟨holds.wf, by rw [List.length_append]; omega, ?_⟩
  rw [holds.window, List.drop_append, List.take_append, List.length_drop]
  -- The window ends within the old stream, so nothing of the new bytes shows.
  simp [show buf.len - (stream.length - buf.off) = 0 by omega]

theorem holds_fromSlice (stream chunk : Bytes) (fin : Bool) :
    Holds (stream ++ chunk) (fromSlice chunk stream.length fin) := by
  refine ⟨wf_fromSlice _ _ _, by simp [fromSlice], ?_⟩
  rw [window_fromSlice]
  simp [fromSlice]

theorem Holds.window_at (holds : Holds stream buf) {x : Nat}
    (low : buf.off ≤ x) (high : x < buf.off + buf.len) : buf.window[x - buf.off]? = stream[x]? := by
  -- Position by position, the window is the stream shifted to the offset of the chunk.
  rw [holds.window, List.getElem?_take_of_lt (by omega), List.getElem?_drop]
  congr 1
  omega

end RangeBuf

end Flexicast
