import Flexicast.Lib.Runs
import Flexicast.Credit.Covering

/-! Receive buffers that were shut down: which of them still learn that their stream ended. -/

namespace Flexicast

/-- A piece of a stream that is written to a receive buffer. -/
structure StreamPiece where
  data : Bytes
  off : Nat
  /-- Whether the piece ends the stream. -/
  fin : Bool
  deriving DecidableEq

namespace StreamPiece

/-- The chunk of a piece. -/
def chunk (piece : StreamPiece) : RangeBuf := RangeBuf.fromSlice piece.data piece.off piece.fin

/-- The offset behind the last byte. -/
def stop (piece : StreamPiece) : Nat := piece.off + piece.data.length

end StreamPiece

namespace RotatingRecvBuf

/-- What happens to a receive buffer before it is shut down. -/
inductive RecvEvent where
  | write (piece : StreamPiece)
  /-- The application reads. -/
  | emit (outLen : Nat)
  | reset (errorCode finalSize : Nat)
  /-- A new limit is committed. -/
  | updateMaxData
  /-- The window is tuned, after an update that is recent or not. -/
  | autotuneWindow (recent : Bool)
  /-- The stream is rotated. -/
  | fcSetOffsetAt (offset : Nat)

/-- One event, with what it leaves when it fails. -/
def receive (rot : RotatingRecvBuf) : RecvEvent → RotatingRecvBuf
  | .write piece => (rot.write piece.chunk).2
  | .emit outLen => (rot.emit outLen).2
  | .reset errorCode finalSize => (rot.reset errorCode finalSize).2
  | .updateMaxData => rot.withFlow FlowControl.updateMaxData
  | .autotuneWindow recent => rot.withFlow fun flow => flow.autotuneWindow recent
  | .fcSetOffsetAt offset => rot.fcSetOffsetAt offset

/-- Pieces of the stream are written one by one, up to the first failure. -/
def writeAll (rot : RotatingRecvBuf) : List StreamPiece → Except StreamError RotatingRecvBuf
  | [] => .ok rot
  | piece :: rest =>
    match rot.write piece.chunk with
    | (.ok _, after) => after.writeAll rest
    | (.error error, _) => .error error

/-- A final piece that ends where the rotated stream starts makes it loop, when nothing is left to be read. -/
def LoopsOn (rot : RotatingRecvBuf) (piece : StreamPiece) : Prop :=
  ∃ fc ∈ rot.fcData, fc.fcLooped = false ∧ piece.fin = true ∧ piece.data ≠ [] ∧ piece.stop = fc.fcInitOff ∧
    piece.stop ≤ rot.recv.off

instance (rot : RotatingRecvBuf) (piece : StreamPiece) : Decidable (rot.LoopsOn piece) :=
  inferInstanceAs (Decidable (∃ fc ∈ rot.fcData, _))

/-- The start of a rotated stream is not read before the loop. -/
def Unread (rot : RotatingRecvBuf) : Prop :=
  ∀ fc inner, rot.fcData = some fc → fc.fcRecvBuf = some inner → inner.off = 0

/-- What a step that does not loop leaves as it was: the read offset, and what decides about the loop. -/
structure Still (rot after : RotatingRecvBuf) : Prop where
  off : after.recv.off = rot.recv.off
  /-- A buffer without the extension stays without it. -/
  plain : rot.fcData = none → after.fcData = none
  /-- The extension starts where it started, looped or not, and nothing is read from its buffer. -/
  fc : ∀ fc, rot.fcData = some fc → ∃ fc', after.fcData = some fc' ∧ fc'.fcInitOff = fc.fcInitOff ∧
    fc'.fcLooped = fc.fcLooped ∧ ∀ inner', fc'.fcRecvBuf = some inner' →
      ∃ inner, fc.fcRecvBuf = some inner ∧ inner'.off = inner.off

section Still

variable {rot mid after : RotatingRecvBuf} {buf : RangeBuf}

theorem Still.refl (rot : RotatingRecvBuf) : Still rot rot :=
  ⟨rfl, fun none => none, fun fc held => ⟨fc, held, rfl, rfl, fun inner has => ⟨inner, has, rfl⟩⟩⟩

/-- What stays twice stays. -/
theorem Still.trans (first : Still rot mid) (second : Still mid after) : Still rot after := by
  constructor
  case off => exact second.off.trans first.off
  case plain => exact fun none => second.plain (first.plain none)
  case fc =>
    intro fc held
    obtain ⟨fc', held', init, looped, inner⟩ := first.fc fc held
    -- The extension is followed through both steps, and so is its buffer.
    obtain ⟨fc'', held'', init', looped', inner'⟩ := second.fc fc' held'
    refine ⟨fc'', held'', init'.trans init, looped'.trans looped, ?_⟩
    intro last has
    obtain ⟨next, has, same⟩ := inner' last has
    obtain ⟨start, has, same'⟩ := inner next has
    exact ⟨start, has, same.trans same'⟩

theorem Still.ofRecv {recv : RecvBuf} (same : recv.off = rot.recv.off) : Still rot { rot with recv := recv } :=
  ⟨same, fun none => none, fun fc held => ⟨fc, held, rfl, rfl, fun inner has => ⟨inner, has, rfl⟩⟩⟩

/-- A still step keeps the start of the stream unread. -/
theorem Still.unread (still : Still rot after) (unread : rot.Unread) : after.Unread := by
  intro fc' inner' held' has'
  cases held : rot.fcData with
  | none =>
    rw [still.plain held] at held'
    simp at held'
  | some fc =>
    obtain ⟨fc'', held'', -, -, inner⟩ := still.fc fc held
    rw [held'] at held''
    cases held''
    obtain ⟨inner, has, same⟩ := inner inner' has'
    rw [same]
    exact unread fc inner held has

theorem Still.loopsOn (still : Still rot after) (piece : StreamPiece) : after.LoopsOn piece ↔ rot.LoopsOn piece := by
  unfold LoopsOn
  rw [still.off]
  cases held : rot.fcData with
  | none => rw [still.plain held]
  | some fc =>
    obtain ⟨fc', held', init, looped, -⟩ := still.fc fc held
    rw [held']
    simp [init, looped]

end Still

end RotatingRecvBuf

namespace RecvBuf

theorem writeTurn_off {recv after : RecvBuf} {buf : RangeBuf} {pushed : List RangeBuf}
    (ran : RecvBuf.writeTurn buf recv = .next after pushed) : after.off = recv.off ∧ after.finOff = recv.finOff := by
  unfold RecvBuf.writeTurn at ran
  split at ran
  · cases ran
  · dsimp only at ran
    split at ran <;> cases ran <;> exact ⟨rfl, rfl⟩

/-- A write does not move the read offset. -/
theorem write_off {recv after : RecvBuf} {buf : RangeBuf} (done : recv.write buf = .ok after) :
    after.off = recv.off := by
  -- Recording the final offset does not move the read offset either.
  have recorded : (recordFin recv buf).off = recv.off := (keeps_recordFin recv buf).off
  rw [write_eq] at done
  split at done
  · cases done
  split at done
  · cases done
  split at done
  · cases done
    rfl
  split at done
  · cases done
    exact recorded
  split at done
  · cases done
    exact recorded
  split at done
  · -- The loop moves the largest offset and the chunks only.
    rename_i drained
    cases done
    rw [← recorded]
    apply @WorkQueue.drain_some _ _ _ (fun _ state => state.off = (recordFin recv buf).off) _ _ _ _ _ _ rfl drained
    · exact fun _ _ _ _ _ held ran => (writeTurn_off ran).1.trans held
    · exact fun _ _ _ _ _ halted => absurd halted writeTurn_ne_halt
  · cases done

end RecvBuf

namespace RotatingRecvBuf

section Writing

variable {rot mid after : RotatingRecvBuf} {buf : RangeBuf}

variable {fc : FcRecvBuf}

theorem fcWrite_still (held : rot.fcData = some fc) : Still rot { rot with fcData := some (fc.write buf).2 } := by
  refine ⟨rfl, by simp [held], ?_⟩
  intro fc_ held'
  rw [held] at held'
  cases held'
  unfold FcRecvBuf.write
  -- The other buffer may be missing, refuse the chunk, or store it.
  split
  · exact ⟨fc, rfl, rfl, rfl, fun inner has => ⟨inner, has, rfl⟩⟩
  rename_i inner has
  split
  · exact ⟨fc, rfl, rfl, rfl, fun inner has => ⟨inner, has, rfl⟩⟩
  · rename_i next written
    refine ⟨_, rfl, rfl, rfl, ?_⟩
    intro inner' has'
    cases has'
    exact ⟨inner, has, RecvBuf.write_off written⟩

theorem keepBelow_still (rot : RotatingRecvBuf) (buf : RangeBuf) :
    Still rot (rot.keepBelow buf).2 ∧ (rot.keepBelow buf).2.recv = rot.recv := by
  unfold keepBelow
  split
  · exact ⟨.refl rot, rfl⟩
  rename_i fc held
  split
  · exact ⟨fcWrite_still held, rfl⟩
  · exact ⟨.refl rot, rfl⟩

/-- The loop of `write` keeps the read offset and the final one. -/
theorem writeTurn_still {state : Except StreamError Unit × RotatingRecvBuf} {turned : RotatingRecvBuf}
    {result : Except StreamError Unit} (ran : (writeTurn buf state).left = some (result, turned)) :
    Still state.2 turned ∧ turned.recv.finOff = state.2.recv.finOff := by
  unfold writeTurn at ran
  split at ran
  · simp [Turn.left] at ran
  -- The other buffer gets its part first, and may end the loop.
  obtain ⟨still, same⟩ := keepBelow_still state.2 buf
  split at ran
  · rename_i error kept below
    rw [below] at still same
    cases ran
    have same : turned.recv = state.2.recv := same
    exact ⟨still, by rw [same]⟩
  · rename_i kept below
    rw [below] at still same
    have same : kept.recv = state.2.recv := same
    cases turn : RecvBuf.writeTurn buf kept.recv with
    | panic => simp [turn, Turn.map, Turn.left] at ran
    | halt halted => exact absurd turn RecvBuf.writeTurn_ne_halt
    | next recv more =>
      rw [turn] at ran
      cases ran
      obtain ⟨off, finOff⟩ := RecvBuf.writeTurn_off turn
      exact ⟨still.trans (.ofRecv off), by rw [← same]; exact finOff⟩

/-- The loop of `write` as a whole keeps the read offset and the final one. -/
theorem drain_still {fuel : Nat} {queue : List RangeBuf} {result : Except StreamError Unit × RotatingRecvBuf}
    (drained : WorkQueue.drain writeTurn fuel queue (.ok (), rot) = some result) :
    Still rot result.2 ∧ result.2.recv.finOff = rot.recv.finOff := by
  -- A turn of the loop either goes on or ends it, and is still in both cases.
  have next : ∀ (item : RangeBuf) (rest : List RangeBuf) (state after : Except StreamError Unit × RotatingRecvBuf)
      (pushed : List RangeBuf), (Still rot state.2 ∧ state.2.recv.finOff = rot.recv.finOff) →
      writeTurn item state = .next after pushed → Still rot after.2 ∧ after.2.recv.finOff = rot.recv.finOff := by
    intro item rest state after pushed held ran
    have left : (writeTurn item state).left = some (after.1, after.2) := by rw [ran]; rfl
    obtain ⟨still, finOff⟩ := writeTurn_still left
    exact ⟨held.1.trans still, finOff.trans held.2⟩
  have halt : ∀ (item : RangeBuf) (rest : List RangeBuf) (state after : Except StreamError Unit × RotatingRecvBuf),
      (Still rot state.2 ∧ state.2.recv.finOff = rot.recv.finOff) →
      writeTurn item state = .halt after → Still rot after.2 ∧ after.2.recv.finOff = rot.recv.finOff := by
    intro item rest state after held ran
    have left : (writeTurn item state).left = some (after.1, after.2) := by rw [ran]; rfl
    obtain ⟨still, finOff⟩ := writeTurn_still left
    exact ⟨held.1.trans still, finOff.trans held.2⟩
  exact @WorkQueue.drain_some _ _ _ (fun _ state => Still rot state.2 ∧ state.2.recv.finOff = rot.recv.finOff)
    next halt _ _ _ _ ⟨.refl rot, rfl⟩ drained

theorem record_still (rot : RotatingRecvBuf) (buf : RangeBuf) : Still rot (rot.record buf) := by
  unfold record
  split
  · exact .ofRecv rfl
  · exact .refl rot

/-- A write of a kept chunk is still, unless the chunk makes the stream loop. -/
theorem writeKept_cases (rot : RotatingRecvBuf) (buf : RangeBuf) :
    Still rot (rot.writeKept buf).2 ∨ ∃ fc mid, rot.fcData = some fc ∧ fc.fcInitOff = buf.maxOff ∧
      buf.fin = true ∧ buf.isEmpty = false ∧ buf.maxOff ≤ rot.recv.off ∧ Still rot mid ∧
      mid.recv.finOff = some buf.maxOff ∧ rot.writeKept buf = mid.fcLoopRecv := by
  have recorded := record_still rot buf
  unfold writeKept
  split
  · exact .inl (.refl rot)
  split
  · exact .inl (.refl rot)
  split
  · exact .inl (.refl rot)
  split
  · rename_i below
    obtain ⟨low, filled⟩ := Bool.and_eq_true_iff.mp below
    -- The chunk lies below what is read, so it goes to the other buffer.
    unfold writeBelow
    split
    · exact .inl recorded
    rename_i fc held
    have written : Still rot { rot.record buf with fcData := some (fc.write buf).2 } :=
      recorded.trans (fcWrite_still held)
    split
    · rename_i error fc' wrote
      rw [wrote] at written
      exact .inl written
    · rename_i fc' wrote
      rw [wrote] at written
      dsimp only
      split
      · rename_i final
        split
        · exact .inl written
        split
        · -- The chunk ends where the stream starts, and the buffer loops.
          rename_i starts
          right
          have before : rot.fcData = some fc := by
            rw [← held]
            unfold record
            split <;> rfl
          obtain ⟨fc_, held_, init, -, -⟩ := written.fc fc before
          cases held_
          have ends : (rot.record buf).recv.finOff = some buf.maxOff := by
            unfold record
            rw [if_pos final]
          exact ⟨fc, _, before, init.symm.trans starts, final, by simpa using filled, by simpa using low, written,
            ends, rfl⟩
        · exact .inl written
      · exact .inl written
  split
  · rename_i result drained
    exact .inl (recorded.trans (drain_still drained).1)
  · exact .inl recorded

theorem strip_still {kept : RangeBuf} (stripped : rot.strip buf = .ok (kept, after)) : Still rot after := by
  unfold strip at stripped
  split at stripped
  · cases stripped
    exact .refl rot
  split at stripped
  · split at stripped
    · cases stripped
    · cases stripped
      exact .ofRecv rfl
  · cases stripped

theorem strip_whole (held : rot.fcData = some fc) (straight : fc.fcLooped = false) :
    rot.strip buf = .ok (buf, rot) := by
  -- Only a stream that looped has a part behind its end to be stripped.
  have past : rot.pastFin buf = none := by
    unfold pastFin
    rw [held]
    cases rot.recv.finOff <;> simp [straight]
  rw [strip, past]

theorem fcLoopRecv_looped (held : rot.fcData = some fc) (looped : fc.fcLooped = true) :
    rot.fcLoopRecv = (.ok (), rot) := by
  rw [fcLoopRecv, held]
  simp [looped]

theorem chunk_maxOff (piece : StreamPiece) : piece.chunk.maxOff = piece.stop :=
  RangeBuf.maxOff_fromSlice piece.data piece.off piece.fin

theorem chunk_isEmpty (piece : StreamPiece) : piece.chunk.isEmpty = piece.data.isEmpty :=
  RangeBuf.isEmpty_fromSlice piece.data piece.off piece.fin

/-- A write is still, unless the piece makes the stream loop. -/
theorem write_still (rot : RotatingRecvBuf) (piece : StreamPiece) (goes : ¬ rot.LoopsOn piece) :
    Still rot (rot.write piece.chunk).2 := by
  unfold write
  split
  · exact .refl rot
  cases stripped : rot.strip piece.chunk with
  | error error => exact .refl rot
  | ok kept =>
    obtain ⟨kept, cut⟩ := kept
    have cutStill := strip_still stripped
    dsimp only
    rcases writeKept_cases cut kept with still | ⟨fc, mid, held, init, final, filled, low, still, -, loops⟩
    · exact cutStill.trans still
    · rw [loops]
      obtain ⟨fc', held', init', looped', -⟩ := still.fc fc held
      cases looped : fc.fcLooped with
      | true =>
        -- The stream looped before, and does not loop again.
        rw [fcLoopRecv_looped held' (looped'.trans looped)]
        exact cutStill.trans still
      | false =>
        -- Nothing was stripped, so the piece itself makes the stream loop.
        have before : rot.fcData = some fc := by
          cases held₀ : rot.fcData with
          | none =>
            rw [cutStill.plain held₀] at held
            simp at held
          | some fc₀ =>
            obtain ⟨fc₁, held₁, -, same, -⟩ := cutStill.fc fc₀ held₀
            rw [held] at held₁
            cases held₁
            rw [strip_whole held₀ (same.symm.trans looped)] at stripped
            cases stripped
            exact held₀.symm.trans held
        rw [strip_whole before looped] at stripped
        cases stripped
        refine absurd ⟨fc, before, looped, final, ?_, ?_, ?_⟩ goes
        · intro empty
          rw [chunk_isEmpty, empty] at filled
          simp at filled
        · rw [← chunk_maxOff]
          exact init.symm
        · rw [← chunk_maxOff]
          exact low

/-- The stream looped while it was drained: nothing is read of its start, which does not end there. -/
structure Wound (rot : RotatingRecvBuf) : Prop where
  looped : ∃ fc, rot.fcData = some fc ∧ fc.fcLooped = true
  unread : rot.recv.off = 0
  /-- The final offset is behind the start. -/
  ends : ∃ finOff, rot.recv.finOff = some finOff ∧ 0 < finOff

/-- A loop leaves the start of the stream unread. -/
theorem fcLoopRecv_wound (unread : rot.Unread) (held : rot.fcData = some fc) (straight : fc.fcLooped = false)
    (behind : 0 < fc.fcInitOff) (done : rot.fcLoopRecv = (.ok (), after)) : after.Wound := by
  unfold fcLoopRecv at done
  rw [held] at done
  simp only [straight, Bool.false_eq_true, if_false] at done
  split at done
  · cases done
  -- The other buffer, of which nothing was read, becomes the one that is read.
  · rename_i inner has
    cases done
    exact ⟨⟨_, rfl, rfl⟩, unread fc inner held has, ⟨_, rfl, behind⟩⟩

/-- A piece that makes the stream loop leaves its start unread. -/
theorem write_loops (unread : rot.Unread) {piece : StreamPiece} (loops : rot.LoopsOn piece)
    (done : rot.write piece.chunk = (.ok (), after)) : after.Wound := by
  obtain ⟨fc, held, straight, final, filled, ends, low⟩ := loops
  have held : rot.fcData = some fc := held
  have stop := chunk_maxOff piece
  have empty : piece.chunk.isEmpty = false := by
    rw [chunk_isEmpty]
    simpa using filled
  have fin : piece.chunk.fin = true := final
  unfold write at done
  split at done
  · cases done
  rw [strip_whole held straight] at done
  dsimp only at done
  -- The checks pass a final chunk with data that lies below what is read.
  unfold writeKept at done
  split at done
  · cases done
  rw [if_neg (by simp [empty]), if_neg (by simp [fin]), if_pos (by simp [empty, stop, low])] at done
  have held' : (rot.record piece.chunk).fcData = some fc := by
    unfold record
    split <;> exact held
  unfold writeBelow at done
  rw [held'] at done
  dsimp only at done
  have still : Still rot { rot.record piece.chunk with fcData := some (fc.write piece.chunk).2 } :=
    (record_still rot piece.chunk).trans (fcWrite_still held')
  split at done
  · cases done
  rename_i fc' wrote
  rw [wrote] at still
  obtain ⟨fc₁, held₁, init, looped, -⟩ := still.fc fc held
  cases held₁
  have init : fc'.fcInitOff = piece.stop := init.trans ends.symm
  rw [if_pos fin, if_neg (by rw [stop, init]; exact Nat.lt_irrefl _), if_pos (by rw [stop, init])] at done
  refine fcLoopRecv_wound (still.unread unread) rfl (looped.trans straight) ?_ done
  -- A piece with data does not end at the very start.
  have long : 0 < piece.data.length := List.length_pos_iff.mpr filled
  rw [init, StreamPiece.stop]
  omega

/-- A write of a kept chunk does not change a final offset that is known, once the stream looped. -/
theorem writeKept_finOff (held : rot.fcData = some fc) (looped : fc.fcLooped = true) {finOff : Nat}
    (known : rot.recv.finOff = some finOff) (done : rot.writeKept buf = (.ok (), after)) :
    after.recv.finOff = some finOff := by
  unfold writeKept at done
  split at done
  · cases done
  rename_i fine
  obtain ⟨-, same, -⟩ := RecvBuf.finConflict_false fine
  -- A final chunk has to end at the final offset that is known.
  have recorded : (rot.record buf).recv.finOff = some finOff := by
    unfold record
    split
    · rename_i final
      show some buf.maxOff = some finOff
      rw [same final finOff known]
    · exact known
  have held' : (rot.record buf).fcData = some fc := by
    unfold record
    split <;> exact held
  split at done
  · cases done
    exact known
  split at done
  · cases done
    exact known
  split at done
  · -- The chunk goes to the other buffer, and the stream does not loop again.
    unfold writeBelow at done
    rw [held'] at done
    dsimp only at done
    have still : Still rot { rot.record buf with fcData := some (fc.write buf).2 } :=
      (record_still rot buf).trans (fcWrite_still held')
    split at done
    · cases done
    rename_i fc' wrote
    rw [wrote] at still
    obtain ⟨fc₁, held₁, -, looped', -⟩ := still.fc fc held
    cases held₁
    split at done
    · split at done
      · cases done
      split at done
      · rw [fcLoopRecv_looped rfl (looped'.trans looped)] at done
        cases done
        exact recorded
      · cases done
        exact recorded
    · cases done
      exact recorded
  split at done
  · rename_i result drained
    cases done
    exact (drain_still drained).2.trans recorded
  · cases done

/-- A stream that looped while it was drained stays so. -/
theorem Wound.write (wound : rot.Wound) {piece : StreamPiece} (done : rot.write piece.chunk = (.ok (), after)) :
    after.Wound := by
  obtain ⟨⟨fc, held, looped⟩, unread, finOff, known, behind⟩ := wound
  -- A stream loops once only.
  have goes : ¬ rot.LoopsOn piece := by
    rintro ⟨fc', held', straight, -⟩
    rw [held] at held'
    cases held'
    rw [looped] at straight
    simp at straight
  have still := write_still rot piece goes
  rw [done] at still
  obtain ⟨fc', held', -, looped', -⟩ := still.fc fc held
  refine ⟨⟨fc', held', looped'.trans looped⟩, still.off.trans unread, ?_⟩
  unfold RotatingRecvBuf.write at done
  split at done
  · cases done
  cases stripped : rot.strip piece.chunk with
  | error error =>
    rw [stripped] at done
    cases done
  | ok kept =>
    obtain ⟨kept, cut⟩ := kept
    rw [stripped] at done
    dsimp only at done
    obtain ⟨fc₁, held₁, -, looped₁, -⟩ := (strip_still stripped).fc fc held
    -- A strip moves the final offset to where the kept part ends, which is not the start.
    have later : ∃ finOff, cut.recv.finOff = some finOff ∧ 0 < finOff := by
      unfold strip at stripped
      split at stripped
      · cases stripped
        exact ⟨finOff, known, behind⟩
      rename_i past
      split at stripped
      · split at stripped
        · cases stripped
        · rename_i short
          cases stripped
          refine ⟨_, rfl, ?_⟩
          unfold pastFin at past
          rw [held, known] at past
          simp only [looped, Bool.true_and, decide_eq_true_eq] at past
          split at past
          · cases past
            have wf : piece.chunk.Wf := RangeBuf.wf_fromSlice _ _ _
            obtain ⟨first, -⟩ := wf.splitOff (Nat.not_lt.mp short)
            rw [first.maxOff_eq]
            simp only [RangeBuf.splitOff]
            omega
          · cases past
      · cases stripped
    obtain ⟨finOff', known', behind'⟩ := later
    exact ⟨finOff', writeKept_finOff held₁ (looped₁.trans looped) known' done, behind'⟩

/-- A loop leaves no start to be read. -/
theorem fcLoopRecv_unread (unread : rot.Unread) : rot.fcLoopRecv.2.Unread := by
  unfold fcLoopRecv
  -- The loop takes the other buffer away, or there was none.
  split
  · exact unread
  rename_i fc held
  split
  · exact unread
  dsimp only
  split
  all_goals
    intro fc' inner' held' has'
    cases held'
    cases has'

/-- A write leaves the start of the stream unread. -/
theorem Unread.write (unread : rot.Unread) (buf : RangeBuf) : (rot.write buf).2.Unread := by
  unfold RotatingRecvBuf.write
  split
  · exact unread
  split
  · exact unread
  · rename_i kept cut stripped
    have cutUnread := (strip_still stripped).unread unread
    rcases writeKept_cases cut kept with still | ⟨fc, mid, -, -, -, -, -, still, -, loops⟩
    · exact still.unread cutUnread
    · rw [loops]
      exact fcLoopRecv_unread (still.unread cutUnread)

end Writing

section Runs

variable {rot drained final : RotatingRecvBuf}

/-- A read leaves the start of the stream unread. -/
theorem Unread.emit (unread : rot.Unread) (outLen : Nat) : (rot.emit outLen).2.Unread := by
  unfold RotatingRecvBuf.emit
  split
  · exact unread
  split
  · exact unread
  · -- The read itself leaves the extension, and its end may bring the loop.
    have read : (rot.afterRead outLen).2.Unread := unread
    generalize (rot.afterRead outLen).1 = out
    generalize (rot.afterRead outLen).2 = after at read
    unfold report
    split
    · have looped := fcLoopRecv_unread read
      split
      · rename_i error left loops
        rw [loops] at looped
        exact looped
      · rename_i left loops
        rw [loops] at looped
        exact looped
    · split <;> exact read

/-- A reset leaves the start of the stream unread. -/
theorem Unread.reset (unread : rot.Unread) (errorCode finalSize : Nat) :
    (rot.reset errorCode finalSize).2.Unread := by
  unfold RotatingRecvBuf.reset
  split
  · exact unread
  split
  · exact unread
  split
  · exact unread
  · have cleared : (rot.cleared errorCode finalSize).Unread := unread
    have wrote := cleared.write (RangeBuf.fromSlice [] finalSize true)
    split
    · rename_i error left done
      rw [done] at wrote
      exact wrote
    · rename_i left done
      rw [done] at wrote
      exact wrote

/-- Whatever happens, the start of a rotated stream is not read before the loop. -/
theorem Unread.receive (unread : rot.Unread) (event : RecvEvent) : (rot.receive event).Unread := by
  cases event with
  | write piece => exact unread.write piece.chunk
  | emit outLen => exact unread.emit outLen
  | reset errorCode finalSize => exact unread.reset errorCode finalSize
  | updateMaxData => exact unread
  | autotuneWindow recent => exact unread
  -- The other buffer is new.
  | fcSetOffsetAt offset =>
    intro fc inner held has
    cases held
    cases has
    rfl

theorem Wound.writeAll {pieces : List StreamPiece} :
    ∀ {rot : RotatingRecvBuf}, rot.Wound → rot.writeAll pieces = .ok final → final.Wound := by
  -- Induction on the pieces, none of which unwinds the stream.
  induction pieces with
  | nil =>
    intro rot wound done
    cases done
    exact wound
  | cons piece rest ih =>
    intro rot wound done
    unfold RotatingRecvBuf.writeAll at done
    split at done
    · rename_i after written
      exact ih (wound.write written) done
    · cases done

/-- Writing moves the read offset nowhere, so a stream ends just where it stands, unless it loops. -/
theorem writeAll_isFin {pieces : List StreamPiece} {finOff : Nat} (known : final.recv.finOff = some finOff) :
    ∀ {rot : RotatingRecvBuf}, rot.Unread → rot.writeAll pieces = .ok final →
      (final.recv.isFin = true ↔ finOff = rot.recv.off ∧ ∀ piece ∈ pieces, ¬ rot.LoopsOn piece) := by
  -- Induction on the pieces; the first one that makes the stream loop decides.
  induction pieces with
  | nil =>
    intro rot _ done
    cases done
    simp [RecvBuf.isFin, known]
  | cons piece rest ih =>
    intro rot unread done
    unfold RotatingRecvBuf.writeAll at done
    split at done
    · rename_i after written
      -- After a loop the read offset is zero and the final one is not, whatever follows.
      by_cases loops : rot.LoopsOn piece
      · obtain ⟨-, start, end_, ends, behind⟩ := (write_loops unread loops written).writeAll done
        constructor
        · intro isFin
          unfold RecvBuf.isFin at isFin
          rw [ends, start] at isFin
          simp only [beq_iff_eq, Option.some.injEq] at isFin
          omega
        · intro straight
          exact absurd loops (straight.2 piece List.mem_cons_self)
      · have still := write_still rot piece loops
        rw [written] at still
        have later := ih (still.unread unread) done
        rw [later, still.off]
        simp only [List.mem_cons, forall_eq_or_imp, still.loopsOn]
        simp [loops]
    · cases done

/-- What a shutdown leaves: nothing is held, and everything received counts as read. -/
structure Shut (rot drained : RotatingRecvBuf) : Prop where
  /-- Nothing is held beyond what was received. -/
  bounded : drained.recv.Bounded
  /-- The read offset is the largest offset. -/
  off : drained.recv.off = rot.recv.maxOff
  len : drained.recv.len = rot.recv.maxOff
  finOff : drained.recv.finOff = rot.recv.finOff
  fcData : drained.fcData = rot.fcData

/-- A shutdown that succeeds drops what is held. -/
theorem shutDown_shut (shut : rot.shutDown = .ok drained) : Shut rot drained := by
  unfold shutDown at shut
  cases closed : rot.recv.shutDown with
  | error error =>
    rw [closed] at shut
    cases shut
  | ok recv =>
    rw [closed] at shut
    cases shut
    obtain ⟨-, bounded, rfl⟩ := RecvBuf.shutDown_bounded closed
    exact ⟨bounded, rfl, rfl, rfl, rfl⟩

/-- A stream that was shut down ends exactly when no more than what had been received is its final size. -/
theorem isFin_iff_received {maxData maxWindow : Nat} {before : List RecvEvent} {pieces : List StreamPiece}
    {finOff : Nat} (shut : (Runs.run receive (new maxData maxWindow) before).shutDown = .ok drained)
    (written : drained.writeAll pieces = .ok final) (known : final.recv.finOff = some finOff) :
    final.recv.isFin = true ↔
      finOff = (Runs.run receive (new maxData maxWindow) before).recv.maxOff ∧
        ∀ piece ∈ pieces, ¬ drained.LoopsOn piece := by
  have start : (new maxData maxWindow).Unread := fun _ _ none => nomatch none
  have step : ∀ (rot : RotatingRecvBuf) event, rot.Unread → (rot.receive event).Unread :=
    fun _ event unread => unread.receive event
  have unread := Runs.run_keeps step start before
  have shut := shutDown_shut shut
  -- The shutdown leaves the extension, so nothing was read of its buffer.
  have unread : drained.Unread := by
    intro fc inner held has
    rw [shut.fcData] at held
    exact unread fc inner held has
  rw [writeAll_isFin known unread written, shut.off]

/-- Half of a stream is received, and the other half after the shutdown is none of it. -/
theorem isFin_of_received :
    ∃ drained final,
      (Runs.run receive (new 9 9) [.write ⟨[1, 2, 3], 0, false⟩, .emit 2]).shutDown = .ok drained ∧
        drained.writeAll [⟨[1, 2], 0, false⟩, ⟨[3], 2, true⟩] = .ok final ∧ final.recv.finOff = some 3 ∧
        final.recv.isFin = true := by
  obtain ⟨drained, shut⟩ : ∃ drained,
      (Runs.run receive (new 9 9) [.write ⟨[1, 2, 3], 0, false⟩, .emit 2]).shutDown = .ok drained := ⟨_, rfl⟩
  obtain ⟨final, written⟩ : ∃ final, drained.writeAll [⟨[1, 2], 0, false⟩, ⟨[3], 2, true⟩] = .ok final := by
    cases shut
    exact ⟨_, rfl⟩
  have known : final.recv.finOff = some 3 := by
    cases shut
    cases written
    rfl
  refine ⟨drained, final, shut, written, known, (isFin_iff_received shut written known).mpr ?_⟩
  cases shut
  decide

/-- A stream that was shut down at its start does not end, although all of it is written. -/
theorem shutDown_not_isFin :
    ((new 9 9).shutDown.bind fun drained => drained.writeAll [⟨[1, 2], 0, true⟩]).map
        (fun final => (final.recv.finOff, final.recv.isFin)) = .ok (some 2, false) ∧
      ∀ x < 2, ∃ piece ∈ [StreamPiece.mk [1, 2] 0 true], piece.off ≤ x ∧ x < piece.stop := by
  decide

end Runs

end RotatingRecvBuf

end Flexicast
