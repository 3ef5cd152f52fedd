import Flexicast.Lib.Runs
import Flexicast.Stream.SendBufLaws

/-! Writing at an offset: when a send buffer takes a piece, and what it has queued then. -/

namespace Flexicast

/-- What decides whether a send buffer takes a piece. -/
structure Cursor where
  /-- The error code received with a request to stop sending. -/
  error : Option Nat
  off : Nat
  maxData : Nat
  /-- The final offset, once it was written. -/
  finOff : Option Nat
  deriving DecidableEq

namespace Cursor

/-- A piece fits behind the buffered data, below the limit and the final offset. -/
structure Room (cursor : Cursor) (off len : Nat) (fin : Bool) : Prop where
  /-- The peer did not ask to stop sending. -/
  running : cursor.error = none
  /-- The piece does not start before the end of the buffered data. -/
  behind : cursor.off ≤ off
  below : off + len ≤ cursor.maxData
  /-- The piece respects a final offset that is known. -/
  agrees : ∀ finOff, cursor.finOff = some finOff → off + len ≤ finOff ∧ (off + len = finOff → fin = true)

variable {cursor : Cursor} {off len : Nat} {fin : Bool}

theorem room_iff :
    cursor.Room off len fin ↔ cursor.error = none ∧ cursor.off ≤ off ∧ off + len ≤ cursor.maxData ∧
      ∀ finOff ∈ cursor.finOff, off + len ≤ finOff ∧ (off + len = finOff → fin = true) :=
  ⟨fun room => ⟨room.running, room.behind, room.below, room.agrees⟩,
    fun ⟨running, behind, below, agrees⟩ => ⟨running, behind, below, agrees⟩⟩

instance (cursor : Cursor) (off len : Nat) (fin : Bool) : Decidable (cursor.Room off len fin) :=
  decidable_of_iff _ room_iff.symm

/-- The cursor behind a piece that was taken. -/
def advance (cursor : Cursor) (off len : Nat) (fin : Bool) : Cursor :=
  { cursor with off := off + len, finOff := if fin then some (off + len) else cursor.finOff }

/-- The cursor behind a piece without bytes, which moves a buffer forward and may set the final offset. -/
def pass (cursor : Cursor) (off : Nat) (fin : Bool) : Cursor :=
  if off < cursor.off then cursor
  else
    { cursor with
      off := off
      finOff := if fin ∧ ∀ finOff ∈ cursor.finOff, off ≤ finOff then some off else cursor.finOff }

/-- The cursor behind a piece that was handled. -/
def step (cursor : Cursor) (off len : Nat) (fin : Bool) : Cursor :=
  if len = 0 then cursor.pass off fin else cursor.advance off len fin

/-- A piece that respects the final offset moves the cursor behind it, also when it has no bytes. -/
theorem step_eq_advance (behind : cursor.off ≤ off)
    (agrees : fin = true → ∀ finOff ∈ cursor.finOff, off + len ≤ finOff) :
    cursor.step off len fin = cursor.advance off len fin := by
  unfold step
  split
  · rename_i none_
    subst none_
    rw [pass, if_neg (by omega), advance]
    by_cases set : fin = true
    · rw [if_pos set, if_pos ⟨set, agrees set⟩]
      rfl
    · rw [if_neg set, if_neg (fun both => set both.1)]
      rfl
  · rfl

end Cursor

namespace SendBuf

/-- What of a send buffer decides whether it takes a piece. -/
def cursor (send : SendBuf) : Cursor := ⟨send.error, send.off, send.maxData, send.finOff⟩

/-- A byte waits in the buffer to be sent at an offset. -/
def Queues (send : SendBuf) (x : Nat) (byte : UInt8) : Prop :=
  ∃ buf ∈ send.data.drop send.pos, buf.curOff ≤ x ∧ x < buf.off + buf.len ∧
    buf.data[buf.start + (x - buf.off)]? = some byte

/-- What holds of every send buffer: its chunks are in order, and only offsets before its end were acknowledged. -/
structure Formed (send : SendBuf) : Prop where
  /-- The chunks hold the bytes of some stream that ends where the buffer does. -/
  shape : ∃ content, Shape content send
  /-- The acknowledged ranges are well formed. -/
  ranges : send.acked.Wf
  /-- Nothing behind the end was acknowledged. -/
  acked : ∀ x, send.acked.Contains x → x < send.off

section Queues

variable {content : Bytes} {send : SendBuf}

/-- A byte is queued when its offset is pending and the stream has the byte there. -/
theorem Shape.queues_iff (shape : Shape content send) (x : Nat) (byte : UInt8) :
    send.Queues x byte ↔ Pending send.data x ∧ content[x]? = some byte := by
  -- A chunk shows the byte of the stream at each of its offsets.
  have shows : ∀ buf ∈ send.data, buf.curOff ≤ x → x < buf.off + buf.len →
      buf.data[buf.start + (x - buf.off)]? = content[x]? := by
    intro buf member low high
    have holds := shape.holds buf member
    have from_ := holds.wf.curOff_eq
    rw [← holds.window_at (by omega) high, RangeBuf.window, List.getElem?_take_of_lt (by omega),
      List.getElem?_drop]
  constructor
  · intro given
    obtain ⟨buf, member, low, high, there⟩ := given
    have among := List.mem_of_mem_drop member
    exact ⟨⟨buf, among, low, high⟩, by rw [← shows buf among low high]; exact there⟩
  · intro given
    obtain ⟨⟨buf, member, low, high⟩, there⟩ := given
    refine ⟨buf, ?_, low, high, by rw [shows buf member low high]; exact there⟩
    -- A chunk before the index was consumed, and has nothing pending.
    rw [← List.take_append_drop send.pos send.data] at member
    rcases List.mem_append.mp member with before | behind
    · exact absurd ⟨low, high⟩ (not_pending_of_empty (shape.holds buf (List.mem_of_mem_take before))
        (shape.consumed buf before))
    · exact behind

theorem Formed.ackOff_le (formed : Formed send) : send.ackOff ≤ send.off := by
  -- The end itself would be acknowledged otherwise, and it holds no byte yet.
  refine Nat.le_of_not_lt fun beyond => ?_
  have := formed.acked send.off (acked_of_lt_ackOff beyond)
  omega

theorem formed_new (maxData : Nat) : Formed (SendBuf.new maxData) :=
  ⟨⟨[], rfl, by simp [SendBuf.new], Nat.le_refl 0, Nat.le_refl 0, by simp [SendBuf.new], Nat.zero_le _,
      Nat.le_refl 0⟩,
    RangeSet.wf_default, fun x inside => ((RangeSet.contains_default x).mp inside).elim⟩

end Queues

/-- The buffer moved to an offset that is not before its end. -/
def moved (send : SendBuf) (off : Nat) : SendBuf := if send.off = off then send else send.resetAt off

theorem writeAtOffset_behind {send : SendBuf} {off : Nat} (behind : send.off ≤ off) (data : Bytes) (fin : Bool) :
    send.writeAtOffset data off fin =
      match (send.moved off).write data fin with
      | .error error => (.error error, send.moved off)
      | .ok (written, send) => (.ok written, send.retransmit off written) := by
  rw [SendBuf.writeAtOffset, if_neg (by omega)]
  rfl

theorem moved_frame (send : SendBuf) (off : Nat) :
    (send.moved off).off = off ∧ (send.moved off).data = send.data ∧ (send.moved off).pos = send.pos ∧
      (send.moved off).len = send.len ∧ (send.moved off).maxData = send.maxData ∧
      (send.moved off).error = send.error ∧ (send.moved off).finOff = send.finOff := by
  unfold moved
  split
  · rename_i same
    exact ⟨same, rfl, rfl, rfl, rfl, rfl, rfl⟩
  · exact ⟨rfl, rfl, rfl, rfl, rfl, rfl, rfl⟩

theorem Ordered.grow {lo hi hi' : Nat} {bufs : List RangeBuf} (ordered : Ordered lo bufs hi) (more : hi ≤ hi') :
    Ordered lo bufs hi' := by
  -- Only the bound behind the last chunk is concerned.
  induction bufs generalizing lo with
  | nil => exact Nat.le_trans ordered more
  | cons buf rest ih => exact ⟨ordered.1, ih ordered.2⟩

section Moved

variable {content : Bytes} {send : SendBuf} {off : Nat}

/-- Moving to an offset skips some of the stream, and keeps the chunks. -/
theorem Shape.moved (shape : Shape content send) (behind : send.off ≤ off) (below : off ≤ send.maxData) :
    Shape (content ++ List.replicate (off - send.off) 0) (send.moved off) := by
  -- The skipped offsets count as zero bytes that no chunk holds.
  obtain ⟨ends, data, pos, len, limit, -, -⟩ := moved_frame send off
  have size := shape.size
  refine ⟨?_, ?_, ?_, ?_, ?_, ?_, ?_⟩
  · rw [List.length_append, List.length_replicate, ends]
    omega
  · rw [data]
    exact fun buf member => (shape.holds buf member).extend _
  · rw [data, ends]
    exact shape.ordered.grow behind
  · rw [data, pos]
    exact shape.index
  · rw [data, pos]
    exact shape.consumed
  · rw [ends, limit]
    exact below
  · rw [data, len]
    exact shape.room

/-- Moving to an offset acknowledges only what was skipped. -/
theorem Formed.moved (formed : Formed send) (behind : send.off ≤ off) (below : off ≤ send.maxData) :
    Formed (send.moved off) := by
  -- The range that is inserted ends at the new end of the buffer.
  obtain ⟨content, shape⟩ := formed.shape
  refine ⟨⟨_, shape.moved behind below⟩, ?_, ?_⟩
  · unfold SendBuf.moved
    split
    · exact formed.ranges
    · exact formed.ranges.insert (Nat.le_add_right _ _)
  · intro x inside
    rw [(moved_frame send off).1]
    unfold SendBuf.moved at inside
    split at inside
    · have := formed.acked x inside
      omega
    · rcases (RangeSet.contains_insert formed.ranges (Nat.le_add_right _ _) x).mp inside with new | old
      · omega
      · have := formed.acked x old
        omega

end Moved

/-- What a buffer has after it handled a piece. -/
structure Takes (send after : SendBuf) (payload : Bytes) (off : Nat) (fin : Bool) : Prop where
  formed : Formed after
  keeps : ∀ x byte, send.Queues x byte → after.Queues x byte
  queues : ∀ i byte, payload[i]? = some byte → after.Queues (off + i) byte
  cursor : after.cursor = send.cursor.step off payload.length fin

section Takes

variable {send : SendBuf} {payload : Bytes} {off : Nat} {fin : Bool}

/-- A write at the end of the moved buffer that stores the whole piece takes it. -/
theorem Formed.takes {content : Bytes} {after : SendBuf} (formed : Formed send) (shape : Shape content send)
    (behind : send.off ≤ off) (below : off ≤ send.maxData)
    (stored : Stored (content ++ List.replicate (off - send.off) 0) (send.moved off) after payload fin payload.length) :
    Takes send (after.retransmit off payload.length) payload off fin := by
  obtain ⟨ends, data, pos, len, limit, error, final⟩ := moved_frame send off
  have ready := formed.moved behind below
  have size := shape.size
  have amount := stored.amount
  rw [ends, limit] at amount
  obtain ⟨bufs, size', frame⟩ := stored.frame
  obtain ⟨again, -, pendingKept, -, -⟩ := stored.shape.retransmit off payload.length
  obtain ⟨data', pos', len', resent⟩ := SendBuf.retransmit_frame after off payload.length
  have stream : content ++ List.replicate (off - send.off) 0 ++ payload.take payload.length =
      content ++ List.replicate (off - send.off) 0 ++ payload := by rw [List.take_length]
  rw [stream] at again
  have start : (content ++ List.replicate (off - send.off) 0).length = off := by
    rw [List.length_append, List.length_replicate]
    omega
  -- Scheduling again forgets nothing that was pending, neither old bytes nor those of the piece.
  refine ⟨⟨⟨_, again⟩, ?_, ?_⟩, ?_, ?_, ?_⟩
  · rw [resent, frame]
    exact ready.ranges
  · intro x inside
    rw [resent, frame] at inside
    have before := ready.acked x inside
    rw [resent, frame]
    show x < (send.moved off).off + payload.length
    omega
  · intro x byte queued
    obtain ⟨pending, there⟩ := (shape.queues_iff x byte).mp queued
    refine (again.queues_iff x byte).mpr ⟨pendingKept x ((stored.pending x).mpr (Or.inl ?_)), ?_⟩
    · rw [data]
      exact pending
    · have inside := (List.getElem?_eq_some_iff.mp there).1
      rw [List.append_assoc, List.getElem?_append_left inside]
      exact there
  · intro i byte there
    have inside := (List.getElem?_eq_some_iff.mp there).1
    refine (again.queues_iff (off + i) byte).mpr
      ⟨pendingKept _ ((stored.pending _).mpr (Or.inr ?_)), ?_⟩
    · omega
    · rw [List.getElem?_append_right (by omega), start, Nat.add_sub_cancel_left]
      exact there
  · have fits : decide (payload.length ≤ send.maxData - off) = true := by
      rw [decide_eq_true_eq]
      omega
    have agrees := stored.agrees
    rw [ends, limit, fits, Bool.and_true, finConflict, final] at agrees
    -- A final offset that is set is not before one that is known.
    rw [Cursor.step_eq_advance behind, resent, frame]
    · simp only [SendBuf.cursor, Cursor.advance, ends, limit, error, final, fits, Bool.and_true]
    · intro set finOff known
      have there : send.finOff = some finOff := known
      rw [there, set] at agrees
      simpa using agrees

/-- A write behind the data that ends without another error met no stop, and starts below the limit. -/
theorem running_of_refused (behind : send.off ≤ off)
    (refused : ∀ error, (send.writeAtOffset payload off fin).1 = .error error → error = .finalSize) :
    send.error = none ∧ off ≤ send.maxData := by
  obtain ⟨ends, -, -, -, limit, error, -⟩ := moved_frame send off
  rw [writeAtOffset_behind behind, write, cap, error, ends, limit] at refused
  cases running : send.error with
  | some code =>
    rw [running] at refused
    cases refused _ rfl
  | none =>
    rw [running] at refused
    refine ⟨rfl, Nat.le_of_not_lt fun beyond => ?_⟩
    simp only [if_pos beyond] at refused
    cases refused _ rfl

/-- A write behind the data is refused because of the final size, or stores what fits. -/
theorem Formed.writeAtOffset_cases {content : Bytes} (formed : Formed send) (shape : Shape content send)
    (payload : Bytes) (fin : Bool) (running : send.error = none) (behind : send.off ≤ off)
    (below : off ≤ send.maxData) :
    send.finConflict (off + payload.length) (fin && decide (payload.length ≤ send.maxData - off)) = true ∧
        send.writeAtOffset payload off fin = (.error .finalSize, send.moved off) ∨
      ∃ count after, send.writeAtOffset payload off fin = (.ok count, after.retransmit off count) ∧
        Stored (content ++ List.replicate (off - send.off) 0) (send.moved off) after payload fin count := by
  obtain ⟨ends, -, -, -, limit, error, final⟩ := moved_frame send off
  rw [writeAtOffset_behind behind]
  rcases (shape.moved behind below).write payload fin (by rw [error]; exact running)
      (formed.moved behind below).ackOff_le with ⟨conflict, failed⟩ | ⟨count, after, wrote, stored⟩
  · rw [failed]
    rw [finConflict, final, ends, limit] at conflict
    exact Or.inl ⟨conflict, rfl⟩
  · rw [wrote]
    exact Or.inr ⟨count, after, rfl, stored⟩

/-- Only a piece that has room is stored as a whole. -/
theorem Formed.room_of_stored (formed : Formed send)
    (whole : (send.writeAtOffset payload off fin).1 = .ok payload.length) :
    send.cursor.Room off payload.length fin := by
  obtain ⟨content, shape⟩ := formed.shape
  by_cases low : off < send.off
  · rw [SendBuf.writeAtOffset, if_pos low] at whole
    cases whole
  · have behind := Nat.le_of_not_lt low
    obtain ⟨ends, -, -, -, limit, -, final⟩ := moved_frame send off
    obtain ⟨running, below⟩ := running_of_refused behind fun error failed => by rw [whole] at failed; cases failed
    rcases formed.writeAtOffset_cases shape payload fin running behind below with
      ⟨-, failed⟩ | ⟨count, after, wrote, stored⟩
    · rw [failed] at whole
      cases whole
    · rw [wrote] at whole
      cases whole
      -- As much was stored as the limit allows, so the limit allows all of it.
      have amount := stored.amount
      have agrees := stored.agrees
      rw [ends, limit] at amount agrees
      have fits : decide (payload.length ≤ send.maxData - off) = true := by
        rw [decide_eq_true_eq]
        omega
      rw [fits, Bool.and_true, finConflict, final] at agrees
      refine ⟨running, behind, show off + payload.length ≤ send.maxData by omega, fun finOff known => ?_⟩
      have there : send.finOff = some finOff := known
      rw [there] at agrees
      simp only [Bool.or_eq_false_iff, decide_eq_false_iff_not, Bool.and_eq_false_imp, beq_iff_eq,
        Bool.not_eq_false'] at agrees
      exact ⟨by omega, agrees.2⟩

/-- A piece that has room is stored as a whole. -/
theorem Formed.stores (formed : Formed send) (room : send.cursor.Room off payload.length fin) :
    (send.writeAtOffset payload off fin).1 = .ok payload.length := by
  obtain ⟨running, behind, below, agrees⟩ := room
  simp only [SendBuf.cursor] at running behind below agrees
  obtain ⟨content, shape⟩ := formed.shape
  obtain ⟨ends, -, -, -, limit, -, -⟩ := moved_frame send off
  have fits : decide (payload.length ≤ send.maxData - off) = true := by
    rw [decide_eq_true_eq]
    omega
  rcases formed.writeAtOffset_cases shape payload fin running behind (by omega) with
    ⟨conflict, -⟩ | ⟨count, after, wrote, stored⟩
  · -- The final offset, if known, leaves room for the piece.
    exfalso
    rw [finConflict, fits, Bool.and_true] at conflict
    cases known : send.finOff with
    | none => simp [known] at conflict
    | some finOff =>
      obtain ⟨within_, last⟩ := agrees finOff known
      rw [known] at conflict
      simp only [Bool.or_eq_true, decide_eq_true_eq, Bool.and_eq_true, beq_iff_eq, Bool.not_eq_true'] at conflict
      rcases conflict with beyond | ⟨same, cleared⟩
      · omega
      · rw [last same] at cleared
        cases cleared
  · have amount := stored.amount
    rw [ends, limit] at amount
    rw [wrote]
    exact congrArg Except.ok (by omega)

/-- A piece that has room, or no bytes, is taken. -/
theorem Formed.writeAtOffset (formed : Formed send)
    (room : payload.length = 0 ∨ send.cursor.Room off payload.length fin)
    (refused : ∀ error, (send.writeAtOffset payload off fin).1 = .error error → error = .finalSize) :
    Takes send (send.writeAtOffset payload off fin).2 payload off fin := by
  obtain ⟨content, shape⟩ := formed.shape
  by_cases low : off < send.off
  · -- Only a piece without bytes can lie before the end, and it changes nothing.
    have none_ : payload.length = 0 := room.resolve_right fun room => by
      have := room.behind
      simp only [SendBuf.cursor] at this
      omega
    rw [SendBuf.writeAtOffset, if_pos low]
    refine ⟨formed, fun _ _ queued => queued, fun i byte there => ?_, ?_⟩
    · have := (List.getElem?_eq_some_iff.mp there).1
      omega
    · rw [Cursor.step, if_pos none_, Cursor.pass, if_pos (show off < send.cursor.off from low)]
  · have behind := Nat.le_of_not_lt low
    obtain ⟨running, below⟩ := running_of_refused behind refused
    obtain ⟨ends, data, pos, -, limit, error, final⟩ := moved_frame send off
    rcases formed.writeAtOffset_cases shape payload fin running behind below with
      ⟨conflict, failed⟩ | ⟨count, after, wrote, stored⟩
    · -- A piece that is refused has no bytes, and leaves the buffer moved.
      have none_ : payload.length = 0 := room.resolve_right fun room => by
        have stores := formed.stores room
        rw [failed] at stores
        cases stores
      rw [failed]
      refine ⟨formed.moved behind below, fun x byte queued => ?_, fun i byte there => ?_, ?_⟩
      · rw [Queues, data, pos]
        exact queued
      · have := (List.getElem?_eq_some_iff.mp there).1
        omega
      · have kept : ¬ (fin = true ∧ ∀ finOff ∈ send.cursor.finOff, off ≤ finOff) := by
          intro both
          cases known : send.finOff with
          | none => simp [finConflict, known] at conflict
          | some finOff =>
            have := both.2 finOff known
            rw [finConflict, known, none_, both.1] at conflict
            simp at conflict
            omega
        rw [Cursor.step, if_pos none_, Cursor.pass, if_neg (show ¬ off < send.cursor.off from low), if_neg kept]
        simp only [SendBuf.cursor, ends, limit, error, final]
    · have whole : count = payload.length := by
        rcases room with none_ | room
        · have amount := stored.amount
          omega
        · have stores := formed.stores room
          rw [wrote] at stores
          exact Except.ok.inj stores
      subst whole
      rw [wrote]
      exact formed.takes shape behind below stored

end Takes

end SendBuf

namespace RotSendBuf

/-- The buffer for lower offsets, when there is one. -/
def rotation (send : RotSendBuf) : Option SendBuf := send.fcSendBuf.bind FcSendBuf.inner

/-- What of both buffers decides whether they take a piece. -/
def cursors (send : RotSendBuf) : Cursor × Option Cursor := (send.main.cursor, send.rotation.map SendBuf.cursor)

/-- A byte waits in one of the buffers to be sent at an offset. -/
def Queues (send : RotSendBuf) (x : Nat) (byte : UInt8) : Prop :=
  send.main.Queues x byte ∨ ∃ inner, send.rotation = some inner ∧ inner.Queues x byte

/-- What holds of every send buffer with its rotation buffer. -/
structure Formed (send : RotSendBuf) : Prop where
  main : SendBuf.Formed send.main
  rotation : ∀ inner, send.rotation = some inner → SendBuf.Formed inner

theorem formed_new (maxData : Nat) : Formed (RotSendBuf.new maxData) :=
  ⟨SendBuf.formed_new maxData, fun inner found => by simp [rotation, RotSendBuf.new] at found⟩

end RotSendBuf

/-- Buffers have room for a piece with bytes; one before the end of the main buffer goes to the rotation buffer. -/
def Admits (cursors : Cursor × Option Cursor) (piece : Nat × Nat × Bool) : Prop :=
  piece.2.1 = 0 ∨
    if piece.1 < cursors.1.off then ∃ inner, cursors.2 = some inner ∧ inner.Room piece.1 piece.2.1 piece.2.2
    else cursors.1.Room piece.1 piece.2.1 piece.2.2

instance : (cursors : Cursor × Option Cursor) → (piece : Nat × Nat × Bool) → Decidable (Admits cursors piece)
  | (main, none), piece => decidable_of_iff
      (piece.2.1 = 0 ∨ ¬ piece.1 < main.off ∧ main.Room piece.1 piece.2.1 piece.2.2) (by
        unfold Admits
        by_cases low : piece.1 < main.off <;> simp [low])
  | (main, some inner), piece => decidable_of_iff
      (piece.2.1 = 0 ∨ if piece.1 < main.off then inner.Room piece.1 piece.2.1 piece.2.2
        else main.Room piece.1 piece.2.1 piece.2.2) (by simp [Admits])

/-- The cursors behind a piece. -/
def stepCursors (cursors : Cursor × Option Cursor) (piece : Nat × Nat × Bool) : Cursor × Option Cursor :=
  if piece.1 < cursors.1.off then (cursors.1, cursors.2.map fun inner => inner.step piece.1 piece.2.1 piece.2.2)
  else (cursors.1.step piece.1 piece.2.1 piece.2.2, cursors.2)

section Cursors

variable {main : Cursor} {rotation : Option Cursor} {off len : Nat} {fin : Bool}

theorem admits_low (low : off < main.off) :
    Admits (main, rotation) (off, len, fin) ↔ len = 0 ∨ ∃ inner, rotation = some inner ∧ inner.Room off len fin := by
  simp only [Admits, if_pos low]

theorem admits_high (high : ¬ off < main.off) :
    Admits (main, rotation) (off, len, fin) ↔ len = 0 ∨ main.Room off len fin := by
  simp only [Admits, if_neg high]

theorem stepCursors_low (low : off < main.off) :
    stepCursors (main, rotation) (off, len, fin) = (main, rotation.map fun inner => inner.step off len fin) :=
  if_pos low

theorem stepCursors_high (high : ¬ off < main.off) :
    stepCursors (main, rotation) (off, len, fin) = (main.step off len fin, rotation) :=
  if_neg high

end Cursors

/-- Pieces fit one after the other. -/
def Fits : Cursor × Option Cursor → List (Nat × Nat × Bool) → Prop := Runs.Along stepCursors Admits

instance (cursors : Cursor × Option Cursor) (pieces : List (Nat × Nat × Bool)) : Decidable (Fits cursors pieces) :=
  inferInstanceAs (Decidable (Runs.Along _ _ _ _))

/-- Pieces without bytes always fit. -/
theorem fits_of_empty {pieces : List (Nat × Nat × Bool)} (empty : ∀ piece ∈ pieces, piece.2.1 = 0)
    (cursors : Cursor × Option Cursor) : Fits cursors pieces :=
  Runs.along_of_mem fun piece member _ => Or.inl (empty piece member)

namespace RotSendBuf

/-- What both buffers have after one of them handled a piece. -/
structure Takes (send after : RotSendBuf) (payload : Bytes) (off : Nat) (fin : Bool) : Prop where
  formed : RotSendBuf.Formed after
  keeps : ∀ x byte, send.Queues x byte → after.Queues x byte
  queues : ∀ i byte, payload[i]? = some byte → after.Queues (off + i) byte
  cursors : after.cursors = stepCursors send.cursors (off, payload.length, fin)

variable {send : RotSendBuf} {payload : Bytes} {off : Nat} {fin : Bool}

/-- Only a piece that the buffers have room for is stored as a whole. -/
theorem Formed.stores_iff (formed : RotSendBuf.Formed send) (some_ : 0 < payload.length) :
    (send.writeAtOffset payload off fin).1 = .ok payload.length ↔
      Admits send.cursors (off, payload.length, fin) := by
  rcases send with ⟨main, fcSendBuf⟩
  have bytes : ¬ payload.length = 0 := by omega
  unfold RotSendBuf.writeAtOffset cursors
  by_cases low : off < main.off
  · -- The piece goes to the rotation buffer, if there is one.
    rw [admits_low (show off < main.cursor.off from low), or_iff_right bytes]
    simp only [if_pos low]
    rcases fcSendBuf with _ | ⟨_ | inner⟩
    · simp [RotSendBuf.rotation]
    · simp [RotSendBuf.rotation]
    · have inside := formed.rotation inner rfl
      refine ⟨fun whole => ⟨inner.cursor, rfl, inside.room_of_stored whole⟩, ?_⟩
      rintro ⟨cursor, there, room⟩
      cases there
      exact inside.stores room
  · rw [admits_high (show ¬ off < main.cursor.off from low), or_iff_right bytes]
    simp only [if_neg low]
    exact ⟨formed.main.room_of_stored, formed.main.stores⟩

/-- Buffers take a piece that they admit. -/
theorem Formed.writeAtOffset (formed : RotSendBuf.Formed send)
    (admits : Admits send.cursors (off, payload.length, fin))
    (refused : ∀ error, (send.writeAtOffset payload off fin).1 = .error error → error = .finalSize) :
    RotSendBuf.Takes send (send.writeAtOffset payload off fin).2 payload off fin := by
  rcases send with ⟨main, fcSendBuf⟩
  unfold cursors at admits
  unfold RotSendBuf.writeAtOffset at refused ⊢
  by_cases low : off < main.off
  · have before : off < main.cursor.off := low
    rw [admits_low before] at admits
    simp only [if_pos low] at refused ⊢
    rcases fcSendBuf with _ | ⟨_ | inner⟩
    · -- Without a rotation buffer only a piece without bytes is admitted, and nothing changes.
      have none_ : payload.length = 0 := by simpa [RotSendBuf.rotation] using admits
      refine ⟨formed, fun _ _ queued => queued, fun i byte there => ?_, ?_⟩
      · have := (List.getElem?_eq_some_iff.mp there).1
        omega
      · exact Eq.symm (stepCursors_low before)
    · cases refused _ rfl
    · have room : payload.length = 0 ∨ inner.cursor.Room off payload.length fin := by
        simpa [RotSendBuf.rotation] using admits
      have takes := (formed.rotation inner rfl).writeAtOffset room refused
      refine ⟨⟨formed.main, ?_⟩, ?_, ?_, ?_⟩
      · intro other found
        cases found
        exact takes.formed
      · intro x byte either
        rcases either with inMain | ⟨other, found, queued⟩
        · exact Or.inl inMain
        · cases found
          exact Or.inr ⟨_, rfl, takes.keeps x byte queued⟩
      · exact fun i byte there => Or.inr ⟨_, rfl, takes.queues i byte there⟩
      · refine Eq.trans ?_ (stepCursors_low before).symm
        exact congrArg (fun cursor => (main.cursor, some cursor)) takes.cursor
  · -- The piece goes behind the data of the main buffer.
    have behind : ¬ off < main.cursor.off := low
    rw [admits_high behind] at admits
    simp only [if_neg low] at refused ⊢
    have takes := formed.main.writeAtOffset admits refused
    refine ⟨⟨takes.formed, formed.rotation⟩, ?_, ?_, ?_⟩
    · intro x byte either
      rcases either with inMain | inRotation
      · exact Or.inl (takes.keeps x byte inMain)
      · exact Or.inr inRotation
    · exact fun i byte there => Or.inl (takes.queues i byte there)
    · refine Eq.trans ?_ (stepCursors_high behind).symm
      exact congrArg (fun cursor => (cursor, _)) takes.cursor

end RotSendBuf

namespace SendBuf

/-- Where a chunk lies in its stream and in its shared buffer. -/
def window (buf : RangeBuf) : Nat × Nat × Nat × Bytes := (buf.off, buf.len, buf.start, buf.data)

/-- A byte is held at an offset, whether it was sent or not. -/
def Buffers (send : SendBuf) (x : Nat) (byte : UInt8) : Prop :=
  ∃ place ∈ send.data.map window, place.1 ≤ x ∧ x < place.1 + place.2.1 ∧
    place.2.2.2[place.2.2.1 + (x - place.1)]? = some byte

/-- The chunks are well formed and end where the buffer does, or before. -/
def Closed (send : SendBuf) : Prop := ∀ buf ∈ send.data, buf.Wf ∧ buf.off + buf.len ≤ send.off

section WriteNothing

variable {send : SendBuf}

/-- Chunks that end before a range or with it are at most rewound. -/
theorem retransmitLoop_window {off maxOff : Nat} (bufs : List RangeBuf) (ends : ∀ buf ∈ bufs, buf.maxOff ≤ maxOff) :
    ∀ index pos len, (retransmitLoop off maxOff index bufs (pos, len)).1.map window = bufs.map window := by
  -- No chunk reaches behind the range, so none is split.
  induction bufs with
  | nil => exact fun _ _ _ => rfl
  | cons buf rest ih =>
    intro index pos len
    have whole : ¬ maxOff < buf.maxOff := Nat.not_lt.mpr (ends buf List.mem_cons_self)
    have later := ih fun other member => ends other (List.mem_cons_of_mem _ member)
    simp only [retransmitLoop, if_neg whole]
    split
    · rfl
    · split
      · simp only [List.map_cons, later]
      · simp only [List.map_cons, later]
        rfl

theorem wf_rewind {buf : RangeBuf} (wf : buf.Wf) (off : Nat) : (rewind off buf).Wf := by
  -- The position moves to the start of the window, or to a place inside of it.
  have low := wf.low
  have high := wf.high
  refine ⟨wf.fits, ?_, ?_, wf.shifted⟩
  · simp only [rewind]
    split <;> omega
  · simp only [rewind]
    split <;> omega

/-- Chunks that are at most rewound stay well formed. -/
theorem retransmitLoop_wf {off maxOff : Nat} (bufs : List RangeBuf) (ends : ∀ buf ∈ bufs, buf.maxOff ≤ maxOff)
    (wf : ∀ buf ∈ bufs, buf.Wf) :
    ∀ index pos len, ∀ buf ∈ (retransmitLoop off maxOff index bufs (pos, len)).1, buf.Wf := by
  induction bufs with
  | nil => exact fun _ _ _ _ member => absurd member List.not_mem_nil
  | cons buf rest ih =>
    intro index pos len
    have whole : ¬ maxOff < buf.maxOff := Nat.not_lt.mpr (ends buf List.mem_cons_self)
    have here := wf buf List.mem_cons_self
    have later := ih (fun other member => ends other (List.mem_cons_of_mem _ member))
      fun other member => wf other (List.mem_cons_of_mem _ member)
    simp only [retransmitLoop, if_neg whole]
    split
    · exact wf
    · split
      · exact List.forall_mem_cons.mpr ⟨here, later _ _ _⟩
      · exact List.forall_mem_cons.mpr ⟨wf_rewind here off, later _ _ _⟩

/-- Well formed buffers are closed. -/
theorem Formed.closed (formed : Formed send) : send.Closed := by
  obtain ⟨content, shape⟩ := formed.shape
  intro buf member
  obtain ⟨front, back, parts⟩ := List.append_of_mem member
  have ordered := shape.ordered
  rw [parts] at ordered
  -- What follows the chunk starts behind it, and ends where the buffer does.
  obtain ⟨mid, -, later⟩ := ordered.split
  exact ⟨(shape.holds buf member).wf, later.2.le⟩

/-- Marking a range to be sent again that chunks do not reach behind keeps them where they are. -/
theorem retransmit_window {off len : Nat} (ends : ∀ buf ∈ send.data, buf.Wf ∧ buf.off + buf.len ≤ off + len) :
    (send.retransmit off len).data.map window = send.data.map window ∧
      ∀ buf ∈ (send.retransmit off len).data, buf.Wf ∧ buf.off + buf.len ≤ off + len := by
  have bounded : ∀ buf ∈ send.data, buf.maxOff ≤ off + len := by
    intro buf member
    rw [(ends buf member).1.maxOff_eq]
    exact (ends buf member).2
  have same : (send.retransmit off len).data.map window = send.data.map window := by
    unfold retransmit
    dsimp only
    split
    · rfl
    · split
      · rfl
      · exact retransmitLoop_window send.data bounded 0 send.pos send.len
  refine ⟨same, fun buf member => ⟨?_, ?_⟩⟩
  · have wf := fun buf member => (ends buf member).1
    unfold retransmit at member
    dsimp only at member
    split at member
    · exact wf buf member
    · split at member
      · exact wf buf member
      · exact retransmitLoop_wf send.data bounded wf 0 send.pos send.len buf member
  · -- The chunk lies where one of the former ones lies.
    have place := List.mem_map_of_mem (f := window) member
    rw [same] at place
    obtain ⟨former, there, alike⟩ := List.mem_map.mp place
    simp only [window, Prod.mk.injEq] at alike
    rw [← alike.1, ← alike.2.1]
    exact (ends former there).2

/-- Writing no bytes keeps the chunks where they are. -/
theorem write_nil (send : SendBuf) (fin : Bool) :
    (∃ error, send.write [] fin = .error error) ∨
      ∃ after, send.write [] fin = .ok (0, after) ∧ after.data = send.data ∧ after.off = send.off := by
  unfold write
  cases send.cap with
  | error error => exact .inl ⟨error, rfl⟩
  | ok capacity =>
    simp only [List.length_nil, Nat.not_lt_zero, if_false, List.isEmpty_nil, if_true, ite_self]
    split
    · exact .inl ⟨_, rfl⟩
    · -- Only the final offset may be set.
      refine .inr ⟨_, rfl, ?_⟩
      cases fin <;> exact ⟨rfl, rfl⟩

/-- Moving a closed buffer forward, and writing no bytes there, holds the same bytes. -/
theorem Closed.writeNothing (closed : send.Closed) (off : Nat) (fin : Bool) :
    (send.writeAtOffset [] off fin).2.Closed ∧
      ∀ x byte, (send.writeAtOffset [] off fin).2.Buffers x byte ↔ send.Buffers x byte := by
  by_cases behind : off < send.off
  · rw [writeAtOffset, if_pos behind]
    exact ⟨closed, fun _ _ => Iff.rfl⟩
  · have moves : send.off ≤ off := Nat.not_lt.mp behind
    obtain ⟨ends, data, -⟩ := moved_frame send off
    have further : ∀ buf ∈ send.data, buf.Wf ∧ buf.off + buf.len ≤ off := fun buf member =>
      ⟨(closed buf member).1, Nat.le_trans (closed buf member).2 moves⟩
    rw [writeAtOffset_behind moves]
    rcases write_nil (send.moved off) fin with ⟨error, failed⟩ | ⟨after, wrote, kept, same⟩
    · rw [failed]
      refine ⟨?_, fun x byte => ?_⟩
      · rw [Closed, data, ends]
        exact further
      · rw [Buffers, data]
        rfl
    · rw [wrote]
      rw [data] at kept
      rw [ends] at same
      have reached : ∀ buf ∈ after.data, buf.Wf ∧ buf.off + buf.len ≤ off + 0 := by
        rw [kept]
        exact further
      obtain ⟨windows, inside⟩ := retransmit_window reached
      have stays : (after.retransmit off 0).off = off := by
        obtain ⟨_, _, _, frame⟩ := retransmit_frame after off 0
        rw [frame]
        exact same
      refine ⟨fun buf member => ?_, fun x byte => ?_⟩
      · dsimp only at member ⊢
        rw [stays]
        exact inside buf member
      · rw [Buffers, windows, kept]
        rfl

end WriteNothing

end SendBuf

namespace RotSendBuf

/-- A byte is held at an offset by one of the buffers. -/
def Buffers (send : RotSendBuf) (x : Nat) (byte : UInt8) : Prop :=
  send.main.Buffers x byte ∨ ∃ inner, send.rotation = some inner ∧ inner.Buffers x byte

/-- Both buffers are closed. -/
structure Closed (send : RotSendBuf) : Prop where
  main : send.main.Closed
  rotation : ∀ inner, send.rotation = some inner → inner.Closed

variable {send : RotSendBuf}

/-- Well formed buffers are closed. -/
theorem Formed.closed (formed : RotSendBuf.Formed send) : send.Closed :=
  ⟨formed.main.closed, fun inner found => (formed.rotation inner found).closed⟩

theorem not_buffers_new (maxData x : Nat) (byte : UInt8) : ¬ (RotSendBuf.new maxData).Buffers x byte := by
  rintro (⟨place, member, -⟩ | ⟨inner, found, -⟩)
  · simp [RotSendBuf.new, SendBuf.new] at member
  · simp [rotation, RotSendBuf.new] at found

theorem buffers_both (main inner : SendBuf) (x : Nat) (byte : UInt8) :
    RotSendBuf.Buffers ⟨main, some ⟨some inner⟩⟩ x byte ↔ main.Buffers x byte ∨ inner.Buffers x byte := by
  refine or_congr_right ⟨?_, fun held => ⟨inner, rfl, held⟩⟩
  rintro ⟨other, found, held⟩
  cases found
  exact held

/-- Writing no bytes holds the same bytes. -/
theorem Closed.writeNothing (closed : send.Closed) (off : Nat) (fin : Bool) :
    (send.writeAtOffset [] off fin).2.Closed ∧
      ∀ x byte, (send.writeAtOffset [] off fin).2.Buffers x byte ↔ send.Buffers x byte := by
  rcases send with ⟨main, fcSendBuf⟩
  unfold writeAtOffset
  by_cases low : off < main.off
  · -- The rotation buffer is written to, if there is one.
    rcases fcSendBuf with _ | ⟨_ | inner⟩
    · rw [if_pos low]
      exact ⟨closed, fun _ _ => Iff.rfl⟩
    · rw [if_pos low]
      exact ⟨closed, fun _ _ => Iff.rfl⟩
    · obtain ⟨stays, same⟩ := (closed.rotation inner rfl).writeNothing off fin
      simp only [if_pos low]
      refine ⟨⟨closed.main, fun other found => ?_⟩, fun x byte => ?_⟩
      · cases found
        exact stays
      · rw [buffers_both, buffers_both, same]
  · obtain ⟨stays, same⟩ := closed.main.writeNothing off fin
    simp only [if_neg low]
    refine ⟨⟨stays, closed.rotation⟩, fun x byte => ?_⟩
    simp only [Buffers, same]
    rfl

end RotSendBuf

end Flexicast
