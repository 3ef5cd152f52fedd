import Flexicast.Stream.WriteAt
import Flexicast.Lib.Runs

/-! Whether the end of a send buffer stays within the limit of its flow control. -/

namespace Flexicast

namespace SendBuf

section Sound

variable {send : SendBuf}

/-- The chunks end where the buffer does, or before, and so does what was sent. -/
structure Sound (send : SendBuf) : Prop where
  closed : send.Closed
  sent : send.emitOff ≤ send.off

theorem sound_new (maxData : Nat) : (SendBuf.new maxData).Sound :=
  ⟨fun _ member => absurd member List.not_mem_nil, Nat.le_refl _⟩

theorem Closed.offFront_le (closed : send.Closed) : send.offFront ≤ send.off := by
  unfold offFront
  cases found : (send.data.drop send.pos).find? (fun buf => !buf.isEmpty) with
  | none => exact Nat.le_refl _
  | some buf =>
    obtain ⟨wf, ends⟩ := closed buf (List.mem_of_mem_drop (List.mem_of_find?_eq_some found))
    have high := wf.high
    show buf.curOff ≤ send.off
    rw [wf.curOff_eq]
    omega

/-- Chunks that are appended move the end along. -/
theorem Sound.pushChunks (fin : Bool) (fuel : Nat) :
    ∀ (data : Bytes) {send : SendBuf}, send.Sound →
      (pushChunks fin fuel data send).Sound ∧ (pushChunks fin fuel data send).off ≤ send.off + data.length ∧
        send.off ≤ (pushChunks fin fuel data send).off ∧ (pushChunks fin fuel data send).maxData = send.maxData := by
  induction fuel with
  | zero => exact fun data send sound => ⟨sound, Nat.le_add_right _ _, Nat.le_refl _, rfl⟩
  | succ fuel ih =>
    intro data send sound
    simp only [SendBuf.pushChunks]
    split
    · exact ⟨sound, Nat.le_add_right _ _, Nat.le_refl _, rfl⟩
    · have cut : (data.take sendBufferSize).length + (data.drop sendBufferSize).length = data.length := by
        rw [List.length_take, List.length_drop]
        omega
      have pushed : Sound { send with
          data := send.data ++ [RangeBuf.fromSlice (data.take sendBufferSize) send.off
            ((data.drop sendBufferSize).isEmpty && fin)]
          off := send.off + (data.take sendBufferSize).length
          len := send.len + (data.take sendBufferSize).length } := by
        refine ⟨fun buf member => ?_, Nat.le_trans sound.sent (Nat.le_add_right _ _)⟩
        rcases List.mem_append.1 member with old | new
        · exact ⟨(sound.closed buf old).1, Nat.le_trans (sound.closed buf old).2 (Nat.le_add_right _ _)⟩
        · rw [List.mem_singleton.1 new]
          exact ⟨RangeBuf.wf_fromSlice _ _ _, Nat.le_refl _⟩
      obtain ⟨sound', most, least, limit⟩ := ih (data.drop sendBufferSize) pushed
      dsimp only at most least limit
      exact ⟨sound', by omega, by omega, limit⟩

/-- A write moves the end by no more than what it takes, which is no more than the capacity. -/
theorem Sound.write (sound : send.Sound) {data : Bytes} {fin : Bool} {count : Nat} {after : SendBuf}
    (ran : send.write data fin = .ok (count, after)) :
    after.Sound ∧ send.off ≤ after.off ∧ after.off ≤ send.off + count ∧ send.off + count ≤ send.maxData ∧
      after.maxData = send.maxData := by
  unfold SendBuf.write at ran
  cases stopped : send.cap with
  | error error =>
    rw [stopped] at ran
    cases ran
  | ok capacity =>
    have room : send.off + capacity = send.maxData := by
      unfold cap at stopped
      split at stopped
      · cases stopped
      · split at stopped
        · cases stopped
        · cases stopped
          omega
    simp only [stopped] at ran
    have stored : (if capacity < data.length then data.take capacity else data).length ≤ capacity := by
      split
      · rw [List.length_take]
        omega
      · omega
    generalize (if capacity < data.length then data.take capacity else data) = taken at ran stored
    generalize (if capacity < data.length then false else fin) = flag at ran
    split at ran
    · cases ran
    · -- The final offset is set before the data is appended.
      have marked : ∃ finOff, (if flag then { send with finOff := some (send.off + data.length) } else send) =
          { send with finOff := finOff } := by
        cases flag with
        | false => exact ⟨send.finOff, rfl⟩
        | true => exact ⟨_, rfl⟩
      obtain ⟨finOff, marked⟩ := marked
      rw [marked] at ran
      have sound' : Sound { send with finOff := finOff } := ⟨sound.closed, sound.sent⟩
      split at ran
      · cases ran
        exact ⟨sound', Nat.le_refl _, Nat.le_add_right _ _, by omega, rfl⟩
      · split at ran
        · cases ran
          exact ⟨sound', Nat.le_refl _, Nat.le_add_right _ _, by omega, rfl⟩
        · cases ran
          obtain ⟨pushed, most, least, limit⟩ := Sound.pushChunks flag taken.length taken sound'
          exact ⟨pushed, least, most, by omega, limit⟩

/-- What the loop that sends keeps: only the chunks move, and what comes next lies before the end. -/
structure Sends (send : SendBuf) (emission : Emission) : Prop where
  closed : emission.send.Closed
  next : emission.nextOff ≤ send.off
  off : emission.send.off = send.off
  emitOff : emission.send.emitOff = send.emitOff
  maxData : emission.send.maxData = send.maxData

theorem Sends.skip {emission : Emission} (sends : Sends send emission) :
    Sends send { emission with send := { emission.send with pos := emission.send.pos + 1 } } :=
  ⟨sends.closed, sends.next, sends.off, sends.emitOff, sends.maxData⟩

/-- A chunk that is consumed stays where it is. -/
theorem Sends.take {emission : Emission} (sends : Sends send emission) {buf : RangeBuf}
    (listed : emission.send.data[emission.send.pos]? = some buf) (count len outLen : Nat) (out : Bytes)
    (left : count ≤ buf.curLen) :
    Sends send {
      send := { emission.send with
        len := len
        data := emission.send.data.set emission.send.pos (buf.consume count) }
      outLen := outLen
      nextOff := buf.curOff + count
      out := out } := by
  obtain ⟨wf, ends⟩ := sends.closed buf (List.mem_of_getElem? listed)
  have low := wf.low
  have high := wf.high
  have off := sends.off
  have length : buf.curLen = buf.len - (buf.pos - buf.start) := rfl
  refine ⟨fun other member => ?_, ?_, sends.off, sends.emitOff, sends.maxData⟩
  · rcases List.mem_or_eq_of_mem_set member with old | rfl
    · exact sends.closed other old
    · refine ⟨⟨wf.fits, ?_, ?_, wf.shifted⟩, ends⟩
      · show buf.start ≤ buf.pos + count
        omega
      · show buf.pos + count ≤ buf.start + buf.len
        omega
  · show buf.curOff + count ≤ send.off
    rw [wf.curOff_eq]
    omega

/-- Each turn of the loop consumes a chunk or moves behind an empty one. -/
theorem Sends.emitLoop (fuel : Nat) :
    ∀ {emission : Emission}, Sends send emission → Sends send (emitLoop fuel emission) := by
  induction fuel with
  | zero => exact fun sends => sends
  | succ fuel ih =>
    intro emission sends
    simp only [SendBuf.emitLoop]
    split
    · exact sends
    · split
      · exact sends
      · split
        · exact sends
        · rename_i buf listed
          split
          · exact ih sends.skip
          · have taken := sends.take listed (min buf.curLen emission.outLen)
              (emission.send.len - min buf.curLen emission.outLen) (emission.outLen - min buf.curLen emission.outLen)
              (emission.out ++ buf.bytes.take (min buf.curLen emission.outLen)) (Nat.min_le_left _ _)
            split
            · exact taken
            · exact ih taken.skip

/-- Sending leaves the end and the limit. -/
theorem Sound.emit (sound : send.Sound) (outLen : Nat) :
    (send.emit outLen).2.Sound ∧ (send.emit outLen).2.off = send.off ∧
      (send.emit outLen).2.maxData = send.maxData := by
  have start : Sends send { send := send, outLen := outLen, nextOff := send.offFront, out := [] } :=
    ⟨sound.closed, sound.closed.offFront_le, rfl, rfl, rfl⟩
  have sends := start.emitLoop (send.data.length - send.pos)
  -- The largest emitted offset is the old one, or what comes next.
  have old : _ ≤ _ := Nat.le_trans (Nat.le_of_eq sends.emitOff) (Nat.le_trans sound.sent (Nat.le_of_eq sends.off.symm))
  have new : _ ≤ _ := Nat.le_trans sends.next (Nat.le_of_eq sends.off.symm)
  exact ⟨⟨sends.closed, Nat.max_le.2 ⟨old, new⟩⟩, sends.off, sends.maxData⟩

/-- The chunks that a range meets stay before the end when they are rewound or split. -/
theorem retransmitLoop_closed {off maxOff bound : Nat} (bufs : List RangeBuf)
    (closed : ∀ buf ∈ bufs, buf.Wf ∧ buf.off + buf.len ≤ bound) :
    ∀ index pos len, ∀ buf ∈ (retransmitLoop off maxOff index bufs (pos, len)).1,
      buf.Wf ∧ buf.off + buf.len ≤ bound := by
  induction bufs with
  | nil => exact fun _ _ _ _ member => absurd member List.not_mem_nil
  | cons buf rest ih =>
    intro index pos len
    obtain ⟨wf, ends⟩ := closed buf List.mem_cons_self
    have others := fun other member => closed other (List.mem_cons_of_mem _ member)
    have later := ih others
    simp only [retransmitLoop]
    split
    · exact closed
    · split
      · exact List.forall_mem_cons.mpr ⟨⟨wf, ends⟩, later _ _ _⟩
      · split
        · -- The chunk is split where the range ends.
          rename_i inside
          rw [wf.maxOff_eq] at inside
          have within_ : maxOff - buf.off ≤ buf.len := by omega
          obtain ⟨first, second⟩ := wf.splitOff within_
          refine List.forall_mem_cons.mpr ⟨⟨wf_rewind first off, ?_⟩, List.forall_mem_cons.mpr ⟨⟨second, ?_⟩, others⟩⟩
          · show buf.off + (maxOff - buf.off) ≤ bound
            omega
          · show buf.off + (maxOff - buf.off) + (buf.len - (maxOff - buf.off)) ≤ bound
            omega
        · exact List.forall_mem_cons.mpr ⟨⟨wf_rewind wf off, ends⟩, later _ _ _⟩

/-- Marking a range to be sent again leaves the end and the limit. -/
theorem Sound.retransmit (sound : send.Sound) (off len : Nat) :
    (send.retransmit off len).Sound ∧ (send.retransmit off len).off = send.off ∧
      (send.retransmit off len).maxData = send.maxData := by
  unfold SendBuf.retransmit
  dsimp only
  split
  · exact ⟨sound, rfl, rfl⟩
  · split
    · exact ⟨sound, rfl, rfl⟩
    · exact ⟨⟨retransmitLoop_closed send.data sound.closed 0 send.pos send.len, sound.sent⟩, rfl, rfl⟩

theorem Sound.dropAcked (sound : send.Sound) : send.dropAcked.Sound :=
  ⟨fun buf member => sound.closed buf (List.mem_of_mem_drop member), sound.sent⟩

/-- An acknowledgment leaves the end and the limit. -/
theorem Sound.ackAndDrop (sound : send.Sound) (off len : Nat) :
    (send.ackAndDrop off len).Sound ∧ (send.ackAndDrop off len).off = send.off ∧
      (send.ackAndDrop off len).maxData = send.maxData := by
  have acked : (send.ack off len).Sound := ⟨sound.closed, sound.sent⟩
  unfold SendBuf.ackAndDrop
  split
  · exact ⟨sound, rfl, rfl⟩
  · dsimp only
    split
    · exact ⟨acked, rfl, rfl⟩
    · split
      · exact ⟨acked, rfl, rfl⟩
      · exact ⟨acked.dropAcked, rfl, rfl⟩

/-- A reset moves the end back to what was sent, or to what comes next. -/
theorem Sound.reset (sound : send.Sound) :
    send.reset.2.Sound ∧ send.reset.2.off ≤ send.off ∧ send.reset.2.maxData = send.maxData :=
  ⟨⟨fun _ member => absurd member List.not_mem_nil, Nat.le_max_right _ _⟩,
    Nat.max_le.2 ⟨sound.closed.offFront_le, sound.sent⟩, rfl⟩

/-- Moving the end forward leaves the chunks and the limit. -/
theorem Sound.moved (sound : send.Sound) {offset : Nat} (behind : send.off ≤ offset) :
    (send.moved offset).Sound ∧ (send.moved offset).off = offset ∧ (send.moved offset).maxData = send.maxData := by
  unfold SendBuf.moved
  split
  · rename_i same
    exact ⟨sound, same, rfl⟩
  · exact ⟨⟨fun buf member => ⟨(sound.closed buf member).1, Nat.le_trans (sound.closed buf member).2 behind⟩,
      Nat.le_refl _⟩, rfl, rfl⟩

theorem Sound.writeAtOffset (sound : send.Sound) (data : Bytes) (offset : Nat) (fin : Bool) :
    (send.writeAtOffset data offset fin).2.Sound ∧
      (send.writeAtOffset data offset fin).2.maxData = send.maxData ∧
      (send.off ≤ send.maxData →
        ((send.writeAtOffset data offset fin).2.off ≤ send.maxData ↔ offset ≤ send.maxData)) := by
  by_cases low : offset < send.off
  · rw [SendBuf.writeAtOffset, if_pos low]
    exact ⟨sound, rfl, fun within_ => iff_of_true within_ (by omega)⟩
  · obtain ⟨sound', ends, limit⟩ := sound.moved (Nat.not_lt.mp low)
    rw [writeAtOffset_behind (Nat.not_lt.mp low)]
    cases ran : (send.moved offset).write data fin with
    | error error => exact ⟨sound', limit, fun _ => by show (send.moved offset).off ≤ _ ↔ _; rw [ends]⟩
    | ok result =>
      obtain ⟨written, after⟩ := result
      obtain ⟨wrote, least, most, room, kept⟩ := sound'.write ran
      obtain ⟨again, off, same⟩ := wrote.retransmit offset written
      refine ⟨again, same.trans (kept.trans limit), fun _ => ?_⟩
      show (after.retransmit offset written).off ≤ _ ↔ _
      rw [off]
      omega

end Sound

/-- The end of a buffer is within its limit: the capacity does not underflow, and no write goes beyond it. -/
structure Within (send : SendBuf) : Prop where
  off : send.off ≤ send.maxData
  cap : send.cap ≠ .error .overflow
  write : ∀ data fin count after, send.write data fin = .ok (count, after) →
    send.off + count ≤ send.maxData ∧ after.off ≤ send.maxData

theorem Sound.within_iff {send : SendBuf} (sound : send.Sound) : send.Within ↔ send.off ≤ send.maxData := by
  refine ⟨Within.off, fun below => ⟨below, fun underflow => ?_, fun data fin count after ran => ?_⟩⟩
  · unfold SendBuf.cap at underflow
    split at underflow
    · cases underflow
    · rw [if_neg (Nat.not_lt.mpr below)] at underflow
      cases underflow
  · obtain ⟨-, -, most, room, -⟩ := sound.write ran
    exact ⟨room, by omega⟩

end SendBuf

/-- What happens to a send buffer. -/
inductive LimitEvent where
  | write (data : Bytes) (fin : Bool)
  | writeAtOffset (data : Bytes) (offset : Nat) (fin : Bool)
  | updateMaxData (maxData : Nat)
  | emit (outLen : Nat)
  | retransmit (off len : Nat)
  | ackAndDrop (off len : Nat)
  | stop (errorCode : Nat)
  | shutDown
  /-- The stream gets a buffer for lower offsets. -/
  | markRotateRetransmission

namespace RotSendBuf

/-- One event; a refused operation leaves the buffer as the source does. -/
def limitNext (send : RotSendBuf) : LimitEvent → RotSendBuf
  | .write data fin =>
    match send.write data fin with
    | .ok (_, send) => send
    | .error _ => send
  | .writeAtOffset data offset fin => (send.writeAtOffset data offset fin).2
  | .updateMaxData maxData => { send with main := send.main.updateMaxData maxData }
  | .emit outLen => (send.emit outLen).2
  | .retransmit off len => send.retransmit off len
  | .ackAndDrop off len => send.ackAndDrop off len
  | .stop errorCode =>
    match send.main.stop errorCode with
    | .ok (_, main) => { send with main := main }
    | .error _ => send
  | .shutDown =>
    match send.main.shutDown with
    | .ok (_, main) => { send with main := main }
    | .error _ => send
  | .markRotateRetransmission => send.fcMarkRotateRetransmission

/-- A new buffer of a stream, which may rotate. -/
def limitStart (maxData : Nat) (rotates : Bool) : RotSendBuf :=
  ⟨{ SendBuf.new maxData with fcStreamRotate := rotates }, none⟩

/-- A write at an offset does not aim beyond the limit of the buffer that takes it. -/
def Aimed (send : RotSendBuf) : LimitEvent → Prop
  | .writeAtOffset _ offset _ =>
    if offset < send.main.off then ∀ inner, send.rotation = some inner → offset ≤ inner.maxData
    else offset ≤ send.main.maxData
  | _ => True

/-- Both buffers are sound. -/
structure Sound (send : RotSendBuf) : Prop where
  main : send.main.Sound
  rotation : ∀ inner, send.rotation = some inner → inner.Sound

/-- Both buffers end within their limits. -/
structure Within (send : RotSendBuf) : Prop where
  main : send.main.Within
  rotation : ∀ inner, send.rotation = some inner → inner.Within

/-- Both ends are at or below their limits. -/
def Below (send : RotSendBuf) : Prop :=
  send.main.off ≤ send.main.maxData ∧ ∀ inner, send.rotation = some inner → inner.off ≤ inner.maxData

/-- What an event leaves: both buffers sound, and below their limits just if the event was aimed. -/
structure Kept (send after : RotSendBuf) (aimed : Prop) : Prop where
  sound : after.Sound
  decides : send.Below → (after.Below ↔ aimed)

section Limited

variable {send : RotSendBuf}

theorem Sound.within_iff (sound : send.Sound) : send.Within ↔ send.Below := by
  constructor
  · exact fun within_ => ⟨within_.main.off, fun inner there => (within_.rotation inner there).off⟩
  · exact fun below => ⟨sound.main.within_iff.2 below.1, fun inner there =>
      (sound.rotation inner there).within_iff.2 (below.2 inner there)⟩

/-- Nothing changed. -/
theorem Sound.same (sound : send.Sound) : Kept send send True :=
  ⟨sound, fun below => iff_of_true below trivial⟩

/-- Both buffers changed, and neither passed its limit. -/
theorem Sound.change (sound : send.Sound) {main : SendBuf} {fcSendBuf : Option FcSendBuf} (main_ : main.Sound)
    (ends : send.main.off ≤ send.main.maxData → main.off ≤ main.maxData)
    (inner_ : ∀ inner, (RotSendBuf.mk main fcSendBuf).rotation = some inner → ∃ was, send.rotation = some was ∧
      (was.Sound → inner.Sound ∧ inner.off = was.off ∧ inner.maxData = was.maxData)) :
    Kept send ⟨main, fcSendBuf⟩ True := by
  constructor
  · refine ⟨main_, fun inner there => ?_⟩
    obtain ⟨was, held, keeps⟩ := inner_ inner there
    exact (keeps (sound.rotation was held)).1
  · intro below
    refine iff_of_true ⟨ends below.1, fun inner there => ?_⟩ trivial
    obtain ⟨was, held, keeps⟩ := inner_ inner there
    obtain ⟨-, off, limit⟩ := keeps (sound.rotation was held)
    rw [off, limit]
    exact below.2 was held

theorem Sound.changeMain (sound : send.Sound) {main : SendBuf} (main_ : main.Sound)
    (ends : send.main.off ≤ send.main.maxData → main.off ≤ main.maxData) :
    Kept send { send with main := main } True :=
  sound.change main_ ends fun inner there => ⟨inner, there, fun was => ⟨was, rfl, rfl⟩⟩

/-- A write at an offset passes a limit just if it aims beyond it. -/
theorem Sound.keptWriteAtOffset (sound : send.Sound) (data : Bytes) (offset : Nat) (fin : Bool) :
    Kept send (send.writeAtOffset data offset fin).2 (send.Aimed (.writeAtOffset data offset fin)) := by
  obtain ⟨main, fcSendBuf⟩ := send
  unfold RotSendBuf.writeAtOffset Aimed
  by_cases low : offset < main.off
  · simp only [if_pos low]
    cases fcSendBuf with
    | none =>
      have vacuous : ∀ inner, (RotSendBuf.mk main none).rotation = some inner → offset ≤ inner.maxData :=
        fun inner there => by cases there
      exact ⟨sound, fun below => iff_of_true below vacuous⟩
    | some fc =>
      obtain ⟨inner⟩ := fc
      cases inner with
      | none =>
        have vacuous : ∀ inner, (RotSendBuf.mk main (some ⟨none⟩)).rotation = some inner → offset ≤ inner.maxData :=
          fun inner there => by cases there
        exact ⟨sound, fun below => iff_of_true below vacuous⟩
      | some inner =>
        obtain ⟨sound', limit, decides⟩ := (sound.rotation inner rfl).writeAtOffset data offset fin
        constructor
        · refine ⟨sound.main, fun other there => ?_⟩
          cases there
          exact sound'
        · intro below
          have decides := decides (below.2 inner rfl)
          constructor
          · intro after other there
            cases there
            have ends := after.2 _ rfl
            rw [limit] at ends
            exact decides.1 ends
          · intro aimed
            refine ⟨below.1, fun other there => ?_⟩
            cases there
            rw [limit]
            exact decides.2 (aimed inner rfl)
  · simp only [if_neg low]
    obtain ⟨sound', limit, decides⟩ := sound.main.writeAtOffset data offset fin
    refine ⟨⟨sound', sound.rotation⟩, fun below => ?_⟩
    constructor
    · intro after
      have ends := after.1
      dsimp only at ends
      rw [limit] at ends
      exact (decides below.1).1 ends
    · intro aimed
      refine ⟨?_, below.2⟩
      show (main.writeAtOffset data offset fin).2.off ≤ _
      rw [limit]
      exact (decides below.1).2 aimed

/-- Sending leaves both ends. -/
theorem Sound.keptEmit (sound : send.Sound) (outLen : Nat) : Kept send (send.emit outLen).2 True := by
  obtain ⟨main, fcSendBuf⟩ := send
  obtain ⟨main_, off, limit⟩ := sound.main.emit outLen
  dsimp only at main_ off limit
  have ends : main.off ≤ main.maxData → (main.emit outLen).2.off ≤ (main.emit outLen).2.maxData := by
    rw [off, limit]
    exact fun below => below
  unfold RotSendBuf.emit
  dsimp only
  split
  · split
    · exact sound.changeMain main_ ends
    · exact sound.changeMain main_ ends
    · rename_i inner
      refine sound.change main_ ends fun other there => ⟨inner, rfl, fun was => ?_⟩
      cases there
      exact was.emit outLen
  · exact sound.changeMain main_ ends

/-- An acknowledgment leaves both ends, or makes the rotation buffer the main one. -/
theorem Sound.keptAckAndDrop (sound : send.Sound) (off len : Nat) : Kept send (send.ackAndDrop off len) True := by
  obtain ⟨main, fcSendBuf⟩ := send
  have acked : (main.ack off len).Sound := ⟨sound.main.closed, sound.main.sent⟩
  unfold RotSendBuf.ackAndDrop
  split
  · exact sound.same
  · dsimp only
    -- The rotation buffer may take the acknowledgment as well.
    have fed : ∀ inner, (RotSendBuf.mk main (if off < main.ackOff then
        fcSendBuf.map fun fc => ⟨fc.inner.map fun inner => inner.ackAndDrop off len⟩ else fcSendBuf)).rotation =
          some inner → ∃ was, (RotSendBuf.mk main fcSendBuf).rotation = some was ∧
            (was.Sound → inner.Sound ∧ inner.off = was.off ∧ inner.maxData = was.maxData) := by
      intro inner there
      split at there
      · rcases fcSendBuf with _ | ⟨_ | was⟩
        · cases there
        · cases there
        · cases there
          exact ⟨was, rfl, fun held => held.ackAndDrop off len⟩
      · exact ⟨inner, there, fun held => ⟨held, rfl, rfl⟩⟩
    generalize (if off < main.ackOff then
      fcSendBuf.map fun fc => (⟨fc.inner.map fun inner => inner.ackAndDrop off len⟩ : FcSendBuf) else fcSendBuf) = fc
        at fed ⊢
    split
    · exact sound.change acked (fun below => below) fed
    · split
      · exact sound.change acked (fun below => below) fed
      · split
        · rename_i inner _
          split
          · exact sound.change acked.dropAcked (fun below => below) fed
          · -- The swap.
            obtain ⟨was, held, keeps⟩ := fed inner rfl
            obtain ⟨inner_, ends, limit⟩ := keeps (sound.rotation was held)
            constructor
            · refine ⟨inner_, fun other there => ?_⟩
              cases there
              exact SendBuf.sound_new _
            · intro below
              have within_ := below.2 was held
              refine iff_of_true ⟨by rw [ends, limit]; exact within_, fun other there => ?_⟩ trivial
              cases there
              exact Nat.zero_le _
        · exact sound.change acked.dropAcked (fun below => below) fed

/-- Each event keeps the buffers sound, and passes a limit just if it aims beyond it. -/
theorem Sound.limitNext (sound : send.Sound) (event : LimitEvent) :
    Kept send (send.limitNext event) (send.Aimed event) := by
  cases event with
  | write data fin =>
    simp only [RotSendBuf.limitNext, RotSendBuf.write]
    cases ran : send.main.write data fin with
    | error error => exact sound.same
    | ok result =>
      obtain ⟨written, main⟩ := result
      obtain ⟨main_, -, most, room, limit⟩ := sound.main.write ran
      exact sound.changeMain main_ (fun _ => by omega)
  | writeAtOffset data offset fin => exact sound.keptWriteAtOffset data offset fin
  | updateMaxData maxData =>
    exact sound.changeMain ⟨sound.main.closed, sound.main.sent⟩ fun below => Nat.le_trans below (Nat.le_max_left _ _)
  | emit outLen => exact sound.keptEmit outLen
  | retransmit off len =>
    obtain ⟨main_, ends, limit⟩ := sound.main.retransmit off len
    refine sound.changeMain main_ fun below => ?_
    rw [ends, limit]
    exact below
  | ackAndDrop off len => exact sound.keptAckAndDrop off len
  | stop errorCode =>
    obtain ⟨main_, ends, limit⟩ := sound.main.reset
    simp only [RotSendBuf.limitNext, SendBuf.stop]
    cases stopped : send.main.error with
    | some code => exact sound.same
    | none => exact sound.changeMain ⟨main_.closed, main_.sent⟩ fun below => Nat.le_trans ends below
  | shutDown =>
    have marked : SendBuf.Sound { send.main with shutdown := true } := ⟨sound.main.closed, sound.main.sent⟩
    obtain ⟨main_, ends, limit⟩ := marked.reset
    simp only [RotSendBuf.limitNext, SendBuf.shutDown]
    cases shut : send.main.shutdown with
    | true => exact sound.same
    | false => exact sound.changeMain main_ fun below => Nat.le_trans ends below
  | markRotateRetransmission =>
    obtain ⟨main, fcSendBuf⟩ := send
    cases fcSendBuf with
    | some fc => exact sound.same
    | none =>
      constructor
      · refine ⟨sound.main, fun inner there => ?_⟩
        cases there
        exact SendBuf.sound_new _
      · intro below
        refine iff_of_true ⟨below.1, fun inner there => ?_⟩ trivial
        cases there
        exact Nat.zero_le _

end Limited

/--
The ends of a send buffer stay within the limits exactly along the runs whose writes at offsets aim within them.

Skipping the gap before the offset moves the end without looking at the limit.
-/
theorem always_within_iff (maxData : Nat) (rotates : Bool) (events : List LimitEvent) :
    (∀ done, done <+: events → (Runs.run limitNext (limitStart maxData rotates) done).Within) ↔
      Runs.Along limitNext Aimed (limitStart maxData rotates) events := by
  have sound : (limitStart maxData rotates).Sound :=
    ⟨⟨fun _ member => absurd member List.not_mem_nil, Nat.le_refl _⟩, fun inner there => by cases there⟩
  have below : (limitStart maxData rotates).Below := ⟨Nat.zero_le _, fun inner there => by cases there⟩
  have keeps : ∀ (send : RotSendBuf) event, send.Sound → True → (send.limitNext event).Sound :=
    fun send event sound _ => (sound.limitNext event).sound
  have step : ∀ (send : RotSendBuf) event, send.Sound → send.Within → True →
      ((send.limitNext event).Within ↔ send.Aimed event) := by
    intro send event sound within_ _
    rw [(sound.limitNext event).sound.within_iff]
    exact (sound.limitNext event).decides (sound.within_iff.1 within_)
  exact Runs.always_iff_along keeps step events sound (sound.within_iff.2 below) (Runs.along_true _ _ _)

/-- The source is ahead of the window of the client. -/
def aheadOfWindow : List LimitEvent := [.writeAtOffset [1, 2, 3] 100 false]

/-- A piece at offset 100 with a limit of 10 moves the end beyond the limit. -/
theorem within_violated :
    ¬ ∀ (maxData : Nat) (rotates : Bool) (events : List LimitEvent),
      ∀ done, done <+: events → (Runs.run limitNext (limitStart maxData rotates) done).Within := by
  intro always
  have ends := (always 10 false aheadOfWindow aheadOfWindow List.prefix_rfl).main.off
  have moved : (Runs.run limitNext (limitStart 10 false) aheadOfWindow).main.off = 100 := by rfl
  have limit : (Runs.run limitNext (limitStart 10 false) aheadOfWindow).main.maxData = 10 := by rfl
  omega

end RotSendBuf

end Flexicast
