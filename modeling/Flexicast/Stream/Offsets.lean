import Flexicast.Stream.RecvBufLaws

/-! What a receive buffer records of the offsets of its chunks, whatever bytes they hold. -/

namespace Flexicast

namespace RangeBuf

variable {buf : RangeBuf}

theorem Wf.consume (wf : Wf buf) {count : Nat} (short : count ≤ buf.curLen) : Wf (buf.consume count) := by
  -- Consuming moves the position within the chunk, and no other boundary.
  obtain ⟨fits, low, high, shifted⟩ := wf
  unfold curLen at short
  constructor
  · exact fits
  · exact Nat.le_trans low (Nat.le_add_right _ _)
  · show buf.pos + count ≤ buf.start + buf.len
    omega
  · exact shifted

theorem Wf.length_bytes (wf : Wf buf) : buf.bytes.length = buf.curLen := by
  obtain ⟨fits, low, high, shifted⟩ := wf
  unfold bytes curLen
  rw [List.length_take, List.length_drop]
  omega

@[simp] theorem maxOff_fromSlice (bytes : Bytes) (off : Nat) (fin : Bool) :
    (fromSlice bytes off fin).maxOff = off + bytes.length := (wf_fromSlice bytes off fin).maxOff_eq

theorem isEmpty_fromSlice (bytes : Bytes) (off : Nat) (fin : Bool) :
    (fromSlice bytes off fin).isEmpty = bytes.isEmpty := by
  cases bytes <;> simp [isEmpty, curLen, fromSlice]

theorem Wf.splitOff_maxOff (wf : Wf buf) {index : Nat} (inside : index ≤ buf.len) :
    (buf.splitOff index).1.maxOff ≤ buf.maxOff ∧ (buf.splitOff index).2.maxOff = buf.maxOff := by
  -- The ends are counted from the stream offset of the window.
  obtain ⟨first, second⟩ := wf.splitOff inside
  rw [first.maxOff_eq, second.maxOff_eq, wf.maxOff_eq]
  simp only [RangeBuf.splitOff]
  omega

end RangeBuf

namespace RecvBuf

open RangeBuf (Wf)

/-- A part of a chunk: it is well formed, and does not end behind an offset. -/
def Part (stop : Nat) (buf : RangeBuf) : Prop := buf.Wf ∧ buf.maxOff ≤ stop

section Parts

variable {buf : RangeBuf} {stop : Nat}

theorem Part.splitOff (part : Part stop buf) {index : Nat} (inside : index ≤ buf.len) :
    Part stop (buf.splitOff index).1 ∧ Part stop (buf.splitOff index).2 ∧
      (buf.splitOff index).2.maxOff = buf.maxOff := by
  obtain ⟨wf, below⟩ := part
  obtain ⟨first, second⟩ := wf.splitOff inside
  obtain ⟨short, same⟩ := wf.splitOff_maxOff inside
  exact ⟨⟨first, Nat.le_trans short below⟩, ⟨second, Nat.le_trans (Nat.le_of_eq same) below⟩, same⟩

/-- What the overlap loop makes of a chunk: parts of it, of which one ends where it ends, unless a held one does. -/
structure Cuts (stop : Nat) (bufs : List RangeBuf) (buf : RangeBuf) (result : Option RangeBuf)
    (cut : List RangeBuf) : Prop where
  later : ∀ part ∈ cut, Part stop part
  stored : ∀ part, result = some part → Part stop part
  /-- The end of the chunk is left for later, is new, or was held before. -/
  reach : (∃ part ∈ cut, part.maxOff = buf.maxOff) ∨ (∃ part, result = some part ∧ part.maxOff = buf.maxOff) ∨
    ∃ held ∈ bufs, buf.maxOff ≤ held.maxOff

/-- A chunk that overlaps nothing is new as a whole. -/
theorem Cuts.whole (part : Part stop buf) (bufs : List RangeBuf) : Cuts stop bufs buf (some buf) [] := by
  constructor
  · exact fun _ member => nomatch member
  · intro other same
    cases same
    exact part
  · exact .inr (.inl ⟨buf, rfl, rfl⟩)

theorem Cuts.skip {bufs cut : List RangeBuf} {result : Option RangeBuf} (cuts : Cuts stop bufs buf result cut)
    (held : RangeBuf) : Cuts stop (held :: bufs) buf result cut := by
  refine ⟨cuts.later, cuts.stored, ?_⟩
  obtain some_ | some_ | ⟨other, member, above⟩ := cuts.reach
  · exact .inl some_
  · exact .inr (.inl some_)
  · exact .inr (.inr ⟨other, List.mem_cons_of_mem _ member, above⟩)

/-- The loop over the chunks that are held cuts a chunk into parts. -/
theorem overlapLoop_cuts (bufs : List RangeBuf) :
    ∀ {buf : RangeBuf} {pushed more : List RangeBuf} {result : Option RangeBuf}, Part stop buf →
      overlapLoop bufs buf pushed = some (result, more) →
      ∃ cut, more = pushed ++ cut ∧ Cuts stop bufs buf result cut := by
  -- The induction follows the chunks that are held, and the cases are those of the loop.
  induction bufs with
  | nil =>
    intro buf pushed more result part ran
    cases ran
    exact ⟨[], by simp, .whole part []⟩
  | cons held rest ih =>
    intro buf pushed more result part ran
    simp only [overlapLoop] at ran
    split at ran
    · cases ran
      exact ⟨[], by simp, .whole part _⟩
    split at ran
    · -- The chunk is contained, and so is its end.
      rename_i inside
      cases ran
      refine ⟨[], by simp, ⟨by simp, by simp, ?_⟩⟩
      exact .inr (.inr ⟨held, List.mem_cons_self, inside.2⟩)
    split at ran
    · -- The second half goes on, and has the end.
      split at ran
      · cases ran
      rename_i short
      obtain ⟨-, second, same⟩ := part.splitOff (by omega : held.maxOff - buf.curOff ≤ buf.len)
      obtain ⟨cut, rfl, cuts⟩ := ih second ran
      have reach := cuts.reach
      rw [same] at reach
      exact ⟨cut, rfl, Cuts.skip ⟨cuts.later, cuts.stored, reach⟩ held⟩
    split at ran
    · -- The second half is left for later, and has the end.
      split at ran
      · cases ran
      rename_i short
      obtain ⟨first, second, same⟩ := part.splitOff (by omega : held.curOff - buf.curOff ≤ buf.len)
      obtain ⟨cut, rfl, cuts⟩ := ih first ran
      refine ⟨_ :: cut, by simp, ⟨?_, cuts.stored, .inl ⟨_, List.mem_cons_self, same⟩⟩⟩
      intro other member
      rcases List.mem_cons.mp member with rfl | member
      · exact second
      · exact cuts.later other member
    · obtain ⟨cut, rfl, cuts⟩ := ih part ran
      exact ⟨cut, rfl, cuts.skip held⟩

theorem Part.discardRead (part : Part stop buf) {recv : RecvBuf} {unread : RangeBuf}
    (cut : recv.discardRead buf = some unread) : Part stop unread ∧ unread.maxOff = buf.maxOff := by
  -- Bytes in front of the read offset are split off; a chunk behind it is kept whole.
  unfold RecvBuf.discardRead at cut
  split at cut
  · split at cut
    · cases cut
    rename_i short
    cases cut
    obtain ⟨-, second, same⟩ := part.splitOff (by omega : recv.offFront - buf.curOff ≤ buf.len)
    exact ⟨second, same⟩
  · cases cut
    exact ⟨part, rfl⟩

end Parts

/-- The chunks that are held are parts of what was received. -/
def Holding (recv : RecvBuf) : Prop := ∀ entry ∈ recv.data.entries, Part recv.len entry.2

/-- What is held and what was read was received. -/
structure Bounded (recv : RecvBuf) : Prop where
  /-- The chunks that are held are parts of what was received. -/
  held : Holding recv
  read : recv.off ≤ recv.len

section Writing

variable {recv after : RecvBuf} {buf : RangeBuf} {stop : Nat}

theorem bounded_new (maxData maxWindow : Nat) : Bounded (RecvBuf.new maxData maxWindow) :=
  ⟨fun _ member => (nomatch member), Nat.le_refl _⟩

theorem Part.mono (part : Part stop buf) {stop' : Nat} (grows : stop ≤ stop') : Part stop' buf :=
  ⟨part.1, Nat.le_trans part.2 grows⟩

theorem Holding.storeChunk (held : Holding recv) (wf : buf.Wf) : Holding (recv.storeChunk buf) := by
  intro entry member
  simp only [RecvBuf.storeChunk] at member ⊢
  split at member
  · exact (held entry member).mono (Nat.le_max_left _ _)
  · -- A stored chunk is the new one or an old one.
    rcases OrdMap.mem_insert_iff.mp member with same | old
    · rw [same]
      exact ⟨wf, Nat.le_max_right _ _⟩
    · exact (held entry old.1).mono (Nat.le_max_left _ _)

/-- What writing leaves as it was: everything but the chunks, the largest offset and the final one. -/
structure Keeps (recv after : RecvBuf) : Prop where
  off : after.off = recv.off
  flowControl : after.flowControl = recv.flowControl
  error : after.error = recv.error
  drain : after.drain = recv.drain
  data : recv.drain = true → after.data = recv.data

theorem Keeps.rfl : Keeps recv recv := ⟨Eq.refl _, Eq.refl _, Eq.refl _, Eq.refl _, fun _ => Eq.refl _⟩

theorem Keeps.trans {mid : RecvBuf} (first : Keeps recv mid) (second : Keeps mid after) : Keeps recv after :=
  ⟨second.off.trans first.off, second.flowControl.trans first.flowControl, second.error.trans first.error,
    second.drain.trans first.drain,
    fun drained => (second.data (first.drain.trans drained)).trans (first.data drained)⟩

/-- What one turn of the loop of `write` does to the buffer, and what it leaves for later. -/
structure Cutting (stop : Nat) (buf : RangeBuf) (recv after : RecvBuf) (pushed : List RangeBuf) : Prop where
  /-- Chunks and the largest offset aside, the buffer stays. -/
  keeps : Keeps recv after
  finOff : after.finOff = recv.finOff
  later : ∀ part ∈ pushed, Part stop part
  grows : recv.len ≤ after.len
  /-- The largest offset grows up to the end of a part only. -/
  within : after.len ≤ max recv.len stop
  /-- What is held stays received, and the end of the chunk counts or is left for later. -/
  held : Holding recv →
    Holding after ∧ (buf.maxOff ≤ after.len ∨ ∃ part ∈ pushed, part.maxOff = buf.maxOff)

/-- The loop of `write` goes on from one part of a chunk to the others. -/
theorem writeTurn_cutting (part : Part stop buf) {pushed : List RangeBuf}
    (ran : RecvBuf.writeTurn buf recv = .next after pushed) : Cutting stop buf recv after pushed := by
  unfold RecvBuf.writeTurn at ran
  cases unread : recv.discardRead buf with
  | none => simp [unread] at ran
  | some rest =>
    obtain ⟨part', same⟩ := part.discardRead unread
    simp only [unread] at ran
    split at ran
    · cases ran
    · -- Everything new was left for later, or the chunk is contained in a held one.
      rename_i more looped
      cases ran
      have cuts : Cuts stop ((recv.data.entries.filter fun entry => decide (rest.curOff ≤ entry.1)).map Prod.snd)
          rest none pushed := by
        split at looped
        · obtain ⟨cut, rfl, cuts⟩ := overlapLoop_cuts _ part' looped
          simpa using cuts
        · cases looped
      refine ⟨.rfl, Eq.refl _, cuts.later, Nat.le_refl _, Nat.le_max_left _ _, fun held => ⟨held, ?_⟩⟩
      rw [← same]
      obtain later | ⟨_, none, -⟩ | ⟨chunk, member, above⟩ := cuts.reach
      · exact .inr later
      · cases none
      · obtain ⟨entry, kept, rfl⟩ := List.mem_map.mp member
        exact .inl (Nat.le_trans above (held entry (List.mem_filter.mp kept).1).2)
    · -- A part is stored.
      rename_i new more looped
      cases ran
      have cuts : Cuts stop ((recv.data.entries.filter fun entry => decide (rest.curOff ≤ entry.1)).map Prod.snd)
          rest (some new) pushed := by
        split at looped
        · obtain ⟨cut, rfl, cuts⟩ := overlapLoop_cuts _ part' looped
          simpa using cuts
        · cases looped
          exact .whole part' _
      have stored := cuts.stored new rfl
      have within_ : max recv.len new.maxOff ≤ max recv.len stop := by
        have := stored.2
        omega
      have keeps : Keeps recv (recv.storeChunk new) :=
        ⟨Eq.refl _, Eq.refl _, Eq.refl _, Eq.refl _, fun drained => if_pos drained⟩
      refine ⟨keeps, Eq.refl _, cuts.later, Nat.le_max_left _ _, within_,
        fun held => ⟨held.storeChunk stored.1, ?_⟩⟩
      rw [← same]
      obtain later | ⟨_, new_, ends⟩ | ⟨chunk, member, above⟩ := cuts.reach
      · exact .inr later
      · cases new_
        rw [← ends]
        exact .inl (Nat.le_max_right _ _)
      · obtain ⟨entry, kept, rfl⟩ := List.mem_map.mp member
        have received := (held entry (List.mem_filter.mp kept).1).2
        exact .inl (Nat.le_trans (Nat.le_trans above received) (Nat.le_max_left _ _))

theorem writeTurn_ne_halt : RecvBuf.writeTurn buf recv ≠ .halt after := by
  intro halted
  unfold RecvBuf.writeTurn at halted
  split at halted
  · cases halted
  · dsimp only at halted
    split at halted <;> cases halted

/-- The loop of `write` on its way through the parts of a chunk that ends at an offset. -/
structure Recording (recv : RecvBuf) (stop : Nat) (queue : List RangeBuf) (state : RecvBuf) : Prop where
  /-- Chunks and the largest offset aside, the buffer stays. -/
  keeps : Keeps recv state
  finOff : state.finOff = recv.finOff
  parts : ∀ part ∈ queue, Part stop part
  grows : recv.len ≤ state.len
  /-- The largest offset grows up to the end of the chunk only. -/
  within : state.len ≤ max recv.len stop
  /-- What is held stays received, and the end of the chunk counts or is queued. -/
  held : Holding recv → Holding state ∧ (stop ≤ state.len ∨ ∃ part ∈ queue, part.maxOff = stop)

/-- The loop starts with the whole chunk. -/
theorem Recording.start (wf : buf.Wf) : Recording recv buf.maxOff [buf] recv where
  keeps := .rfl
  finOff := Eq.refl _
  parts := by
    intro part member
    rw [List.mem_singleton.mp member]
    exact ⟨wf, Nat.le_refl _⟩
  grows := Nat.le_refl _
  within := Nat.le_max_left _ _
  held := fun held => ⟨held, .inr ⟨buf, List.mem_singleton.mpr (Eq.refl _), Eq.refl _⟩⟩

/-- Every turn of the loop brings it on its way. -/
theorem Recording.turn {item : RangeBuf} {queue pushed : List RangeBuf} {state : RecvBuf}
    (recording : Recording recv stop (item :: queue) state)
    (ran : RecvBuf.writeTurn item state = .next after pushed) : Recording recv stop (queue ++ pushed) after := by
  have cutting := writeTurn_cutting (recording.parts item List.mem_cons_self) ran
  have grows := recording.grows
  have within_ := recording.within
  constructor
  · exact recording.keeps.trans cutting.keeps
  · exact cutting.finOff.trans recording.finOff
  · intro part member
    rcases List.mem_append.mp member with queued | later
    · exact recording.parts part (List.mem_cons_of_mem _ queued)
    · exact cutting.later part later
  · exact Nat.le_trans grows cutting.grows
  · have := cutting.within
    omega
  · intro held
    obtain ⟨held, reach⟩ := recording.held held
    obtain ⟨held, ends⟩ := cutting.held held
    refine ⟨held, ?_⟩
    -- The end of the chunk counted before, was queued behind the item, or was the end of the item.
    rcases reach with counted | ⟨part, member, same⟩
    · exact .inl (Nat.le_trans counted cutting.grows)
    rcases List.mem_cons.mp member with rfl | queued
    · rcases ends with counted | ⟨later, pushed_, ends⟩
      · exact .inl (same ▸ counted)
      · exact .inr ⟨later, List.mem_append_right _ pushed_, ends.trans same⟩
    · exact .inr ⟨part, List.mem_append_left _ queued, same⟩

/-- A loop that goes through has recorded the end of the chunk. -/
theorem Recording.drain (wf : buf.Wf) {fuel : Nat}
    (drained : WorkQueue.drain RecvBuf.writeTurn fuel [buf] recv = some after) :
    Recording recv buf.maxOff [] after := by
  refine WorkQueue.drain_some ?_ ?_ fuel [buf] recv after (.start wf) drained
  · exact fun _ _ _ _ _ recording ran => recording.turn ran
  · exact fun _ _ _ _ _ halted => absurd halted writeTurn_ne_halt

/-- What a write that succeeds records of its chunk. -/
structure Wrote (recv : RecvBuf) (buf : RangeBuf) (after : RecvBuf) : Prop where
  /-- Chunks, the largest and the final offset aside, the buffer stays. -/
  keeps : Keeps recv after
  /-- A final chunk brings the final offset. -/
  finOff : after.finOff = if buf.fin then some buf.maxOff else recv.finOff
  allowed : buf.maxOff ≤ recv.maxData
  /-- The chunk does not pass the final offset. -/
  inside : ∀ finOff, recv.finOff = some finOff → buf.maxOff ≤ finOff
  /-- A final chunk does not change the final offset. -/
  same : buf.fin = true → ∀ finOff, recv.finOff = some finOff → finOff = buf.maxOff
  /-- A final chunk does not end below what was received. -/
  final : buf.fin = true → recv.len ≤ buf.maxOff
  grows : recv.len ≤ after.len
  /-- The largest offset grows up to the end of the chunk only. -/
  within : after.len ≤ max recv.len buf.maxOff
  held : Holding recv → Holding after
  /-- An empty chunk that brings the final offset counts. -/
  marked : Holding recv → buf.isEmpty = true → buf.fin = true → recv.finOff = none → buf.maxOff ≤ after.len
  /-- A chunk that has data, brings the final offset or ends below what was received counts in full. -/
  recorded : Bounded recv →
    buf.isEmpty = false ∨ (buf.fin = true ∧ recv.finOff = none) ∨ buf.maxOff ≤ recv.len →
    after.len = max recv.len buf.maxOff

theorem finConflict_false (fine : ¬ recv.finConflict buf = true) :
    (∀ finOff, recv.finOff = some finOff → buf.maxOff ≤ finOff) ∧
      (buf.fin = true → ∀ finOff, recv.finOff = some finOff → finOff = buf.maxOff) ∧
      (buf.fin = true → recv.len ≤ buf.maxOff) := by
  -- The three tests, one after the other.
  simp only [RecvBuf.finConflict, Bool.not_eq_true, Bool.or_eq_false_iff, Bool.and_eq_false_imp,
    decide_eq_false_iff_not] at fine
  obtain ⟨known, size⟩ := fine
  refine ⟨?_, ?_, fun fin => Nat.not_lt.mp (size fin)⟩
  · intro finOff final
    rw [final] at known
    simp only [Bool.or_eq_false_iff, decide_eq_false_iff_not] at known
    exact Nat.not_lt.mp known.1
  · intro fin finOff final
    rw [final] at known
    simpa [fin] using (Bool.or_eq_false_iff.mp known).2

/-- The buffer once the final offset that a chunk brings is recorded. -/
def recordFin (recv : RecvBuf) (buf : RangeBuf) : RecvBuf :=
  if buf.fin then { recv with finOff := some buf.maxOff } else recv

theorem recordFin_finOff (recv : RecvBuf) (buf : RangeBuf) :
    (recordFin recv buf).finOff = if buf.fin then some buf.maxOff else recv.finOff := by
  unfold recordFin
  split <;> rfl

theorem recordFin_len (recv : RecvBuf) (buf : RangeBuf) : (recordFin recv buf).len = recv.len := by
  unfold recordFin
  split <;> rfl

theorem keeps_recordFin (recv : RecvBuf) (buf : RangeBuf) : Keeps recv (recordFin recv buf) := by
  unfold recordFin
  split
  · exact ⟨Eq.refl _, Eq.refl _, Eq.refl _, Eq.refl _, fun _ => Eq.refl _⟩
  · exact .rfl

theorem Holding.recordFin (held : Holding recv) (buf : RangeBuf) : Holding (RecvBuf.recordFin recv buf) := by
  unfold RecvBuf.recordFin
  split <;> exact held

theorem write_eq (recv : RecvBuf) (buf : RangeBuf) :
    recv.write buf =
      if recv.maxData < buf.maxOff then .error .flowControl
      else if recv.finConflict buf then .error .finalSize
      else if recv.finOff.isSome && buf.isEmpty then .ok recv
      else if !buf.fin && buf.isEmpty then .ok (recordFin recv buf)
      else if decide (buf.maxOff ≤ (recordFin recv buf).off) && !buf.isEmpty then .ok (recordFin recv buf)
      else
        match WorkQueue.drain RecvBuf.writeTurn (buf.curLen + 1) [buf] (recordFin recv buf) with
        | some after => .ok after
        | none => .error .overflow := rfl

/-- A write keeps the chunks bounded. -/
theorem Wrote.bounded (wrote : Wrote recv buf after) (bounded : Bounded recv) : Bounded after := by
  refine ⟨wrote.held bounded.held, ?_⟩
  rw [wrote.keeps.off]
  exact Nat.le_trans bounded.read wrote.grows

/-- A write that succeeds records the end of its chunk. -/
theorem write_wrote (wf : buf.Wf) (done : recv.write buf = .ok after) : Wrote recv buf after := by
  rw [write_eq] at done
  split at done
  · cases done
  rename_i allowed
  split at done
  · cases done
  rename_i fine
  obtain ⟨inside, same, final⟩ := finConflict_false fine
  have allowed : buf.maxOff ≤ recv.maxData := Nat.not_lt.mp allowed
  split at done
  · -- The final offset was saved, so an empty chunk brings nothing.
    rename_i known
    obtain ⟨saved, empty⟩ := Bool.and_eq_true_iff.mp known
    obtain ⟨finOff, held⟩ := Option.isSome_iff_exists.mp saved
    cases done
    refine ⟨.rfl, ?_, allowed, inside, same, final, Nat.le_refl _, Nat.le_max_left _ _, id,
      fun _ _ _ unknown => ?_, fun _ either => ?_⟩
    · split
      · rename_i fin
        rw [held, same fin finOff held]
      · rfl
    · rw [held] at unknown
      cases unknown
    · rcases either with some_ | ⟨-, unknown⟩ | below
      · rw [empty] at some_
        cases some_
      · rw [held] at unknown
        cases unknown
      · exact (Nat.max_eq_left below).symm
  have keeps := keeps_recordFin recv buf
  have finOff := recordFin_finOff recv buf
  have len := recordFin_len recv buf
  split at done
  · -- An empty chunk that is not final brings nothing either.
    rename_i nothing
    obtain ⟨going, empty⟩ := Bool.and_eq_true_iff.mp nothing
    cases done
    refine ⟨keeps, finOff, allowed, inside, same, final, Nat.le_of_eq len.symm, ?_, (·.recordFin buf),
      fun _ _ fin => ?_, fun _ either => ?_⟩
    · rw [len]
      exact Nat.le_max_left _ _
    · rw [fin] at going
      cases going
    rcases either with some_ | ⟨fin, -⟩ | below
    · rw [empty] at some_
      cases some_
    · rw [fin] at going
      cases going
    · rw [len]
      exact (Nat.max_eq_left below).symm
  split at done
  · -- A chunk that was read as a whole was received.
    rename_i old
    cases done
    have below := of_decide_eq_true (Bool.and_eq_true_iff.mp old).1
    rw [keeps.off] at below
    refine ⟨keeps, finOff, allowed, inside, same, final, Nat.le_of_eq len.symm, ?_, (·.recordFin buf),
      fun _ empty => ?_, fun bounded _ => ?_⟩
    · rw [len]
      exact Nat.le_max_left _ _
    · simp [empty] at old
    rw [len]
    exact (Nat.max_eq_left (Nat.le_trans below bounded.read)).symm
  · split at done
    · rename_i drained
      cases done
      have recording := Recording.drain wf drained
      have grows := recording.grows
      have within_ := recording.within
      rw [len] at grows within_
      have reaches : Holding recv → buf.maxOff ≤ after.len := by
        intro held
        rcases (recording.held (held.recordFin buf)).2 with counted | ⟨_, member, -⟩
        · exact counted
        · cases member
      refine ⟨keeps.trans recording.keeps, recording.finOff.trans finOff, allowed, inside, same, final, grows, within_,
        fun held => (recording.held (held.recordFin buf)).1, fun held _ _ _ => reaches held, fun bounded _ => ?_⟩
      have := reaches bounded.held
      omega
    · cases done

/-- A fresh chunk that has data, is final or does not pass what was received counts in full, and so does a final
offset. -/
theorem write_records (bounded : Bounded recv) (final : ∀ finOff, recv.finOff = some finOff → finOff = recv.len)
    {data : Bytes} {off : Nat} {fin : Bool} (filled : data ≠ [] ∨ fin = true ∨ off ≤ recv.len)
    (done : recv.write (RangeBuf.fromSlice data off fin) = .ok after) :
    after.len = max recv.len (off + data.length) ∧ ∀ finOff, after.finOff = some finOff → finOff = after.len := by
  have wrote := write_wrote (RangeBuf.wf_fromSlice data off fin) done
  have recorded := wrote.recorded bounded
  have inside := wrote.inside
  have same := wrote.same
  have size := wrote.final
  have set := wrote.finOff
  rw [RangeBuf.maxOff_fromSlice] at recorded same size set
  simp only [RangeBuf.maxOff_fromSlice] at inside
  -- Data is stored, and a final or a low chunk cannot pass the largest offset unnoticed.
  have len : after.len = max recv.len (off + data.length) := by
    apply recorded
    rw [RangeBuf.isEmpty_fromSlice]
    rcases filled with some_ | ends | below
    · exact .inl (by simpa using some_)
    · cases known : recv.finOff with
      | none => exact .inr (.inl ⟨ends, Eq.refl _⟩)
      | some finOff =>
        have := same ends finOff known
        have := final finOff known
        exact .inr (.inr (by omega))
    · cases data with
      | nil => exact .inr (.inr below)
      | cons byte rest => exact .inl (Eq.refl _)
  refine ⟨len, fun finOff known => ?_⟩
  rw [set] at known
  cases fin with
  | true =>
    cases known
    have := size (Eq.refl _)
    omega
  | false =>
    have := final finOff known
    have := inside finOff known
    omega

end Writing

section Reading

variable {recv after : RecvBuf}

/-- What reading does to the offsets: the read offset moves by what was read. -/
structure Reads (recv after : RecvBuf) (out : Bytes) : Prop where
  /-- The read offset moves by the bytes that were read. -/
  off : after.off = recv.off + out.length
  len : after.len = recv.len
  finOff : after.finOff = recv.finOff
  error : after.error = recv.error
  drain : after.drain = recv.drain
  bounded : Bounded after

theorem Reads.refl (bounded : Bounded recv) : Reads recv recv [] :=
  ⟨rfl, rfl, rfl, rfl, rfl, bounded⟩

theorem first_of_ready {key : Nat} {buf : RangeBuf} (ready : recv.ready = true)
    (first : recv.data.entries.head? = some (key, buf)) : (key, buf) ∈ recv.data.entries ∧ buf.curOff = recv.off := by
  simp only [RecvBuf.ready, first, beq_iff_eq] at ready
  exact ⟨List.mem_of_mem_head? first, ready⟩

/-- Reading the front of the first chunk leaves the rest of it, or nothing. -/
theorem Bounded.advance (bounded : Bounded recv) {key count : Nat} {buf : RangeBuf}
    (member : (key, buf) ∈ recv.data.entries) (start : buf.curOff = recv.off) (short : count ≤ buf.curLen) :
    Bounded { recv with off := recv.off + count, data := recv.data.insert key (buf.consume count) } ∧
      Bounded { recv with off := recv.off + count, data := recv.data.erase key } := by
  obtain ⟨wf, below⟩ := bounded.held (key, buf) member
  have ends : buf.maxOff = buf.curOff + buf.curLen := rfl
  have read : recv.off + count ≤ recv.len := by
    simp only at below
    omega
  refine ⟨⟨?_, read⟩, ⟨?_, read⟩⟩
  · intro entry inside
    rcases OrdMap.mem_insert_iff.mp inside with same | old
    · -- What is left of the chunk ends where the chunk ends.
      rw [same]
      refine ⟨wf.consume short, ?_⟩
      rw [(wf.consume short).maxOff_eq]
      simp only [wf.maxOff_eq] at below
      exact below
    · exact bounded.held entry old.1
  · intro entry inside
    exact bounded.held entry (List.mem_filter.mp inside).1

/-- The loop of `emit` moves the read offset by what it reads. -/
theorem emitLoop_reads (fuel : Nat) : ∀ (capacity : Nat) {recv : RecvBuf}, Bounded recv →
    Reads recv (RecvBuf.emitLoop fuel capacity recv).2 (RecvBuf.emitLoop fuel capacity recv).1 := by
  -- Induction on the turns; each reads the front of the first chunk.
  induction fuel with
  | zero => exact fun _ _ bounded => .refl bounded
  | succ fuel ih =>
    intro capacity recv bounded
    simp only [RecvBuf.emitLoop]
    split
    · exact .refl bounded
    rename_i going
    have ready : recv.ready = true := by
      by_contra unready
      exact going (.inr (by simpa using unready))
    cases first : recv.data.entries.head? with
    | none => exact .refl bounded
    | some entry =>
      obtain ⟨key, buf⟩ := entry
      obtain ⟨member, start⟩ := first_of_ready ready first
      have shows : buf.bytes.length = buf.curLen := (bounded.held _ member).1.length_bytes
      have short : min buf.curLen capacity ≤ buf.curLen := Nat.min_le_left _ _
      have taken : (buf.bytes.take (min buf.curLen capacity)).length = min buf.curLen capacity := by
        rw [List.length_take, shows]
        omega
      obtain ⟨left, none⟩ := bounded.advance member start short
      dsimp only
      split
      · exact ⟨by rw [taken], rfl, rfl, rfl, rfl, left⟩
      · have reads := ih (capacity - min buf.curLen capacity) none
        constructor
        · rw [reads.off, List.length_append, taken]
          exact Nat.add_assoc _ _ _
        · exact reads.len
        · exact reads.finOff
        · exact reads.error
        · exact reads.drain
        · exact reads.bounded

theorem emit_reads (bounded : Bounded recv) {outLen : Nat} {out : Bytes} {fin : Bool}
    (done : recv.emit outLen = (.ok (out, fin), after)) : recv.error = none ∧ Reads recv after out := by
  unfold RecvBuf.emit at done
  split at done
  · cases done
  cases clean : recv.error with
  | some code => simp [clean] at done
  | none =>
    -- Without an error the loop reads, chunk by chunk.
    have reads := emitLoop_reads recv.data.entries.length outLen bounded
    simp only [clean] at done
    cases done
    exact ⟨rfl, reads.off, reads.len, reads.finOff, reads.error, reads.drain,
      ⟨reads.bounded.held, reads.bounded.read⟩⟩

theorem emit_fails {outLen : Nat} {error : StreamError} (done : recv.emit outLen = (.error error, after)) :
    after = recv ∨ (recv.error.isSome = true ∧ after = { recv with data := OrdMap.empty }) := by
  -- Nothing ready leaves the buffer; a reset stream clears its data once.
  unfold RecvBuf.emit at done
  split at done
  · cases done
    exact .inl rfl
  cases code : recv.error with
  | some code_ =>
    simp only [code] at done
    cases done
    exact .inr ⟨rfl, by simp⟩
  | none => simp [code] at done

end Reading

section Ending

variable {recv after : RecvBuf}

/-- What a reset that succeeds does to the offsets. -/
structure ResetTo (recv : RecvBuf) (finalSize delta : Nat) (after : RecvBuf) : Prop where
  /-- What was not received is the rest up to the final size. -/
  delta : delta = finalSize - recv.len
  size : recv.len ≤ finalSize
  known : ∀ finOff, recv.finOff = some finOff → finOff = finalSize
  /-- A stream that was reset before stays as it is. -/
  again : recv.error.isSome = true → after = recv
  /-- The final size is the final offset, and nothing is read before it. -/
  first : recv.error = none →
    after.error.isSome = true ∧ after.off = finalSize ∧ after.finOff = some finalSize ∧ Holding after
  /-- Everything up to the final size counts as received, if a known final offset does. -/
  len : recv.error = none → (∀ finOff, recv.finOff = some finOff → finOff = recv.len) → after.len = finalSize
  grows : recv.len ≤ after.len

/-- A reset that succeeds ends the stream at its final size. -/
theorem reset_resetTo {errorCode finalSize delta : Nat}
    (done : recv.reset errorCode finalSize = (.ok delta, after)) : ResetTo recv finalSize delta after := by
  unfold RecvBuf.reset at done
  split at done
  · cases done
  rename_i known
  split at done
  · cases done
  rename_i size
  have known : ∀ finOff, recv.finOff = some finOff → finOff = finalSize := by
    intro finOff held
    simpa [held] using known
  have size : recv.len ≤ finalSize := Nat.not_lt.mp size
  split at done
  · rename_i again
    cases done
    have unclean : recv.error ≠ none := by
      intro clean
      simp [clean] at again
    exact ⟨rfl, size, known, fun _ => rfl, fun clean => absurd clean unclean, fun clean => absurd clean unclean,
      Nat.le_refl _⟩
  · -- The empty chunk at the final size is written to a buffer without data.
    rename_i clean
    dsimp only at done
    split at done
    · cases done
    rename_i written
    cases done
    have wrote := write_wrote (RangeBuf.wf_fromSlice _ _ _) written
    have off : after.off = finalSize := wrote.keeps.off
    have error : after.error = some errorCode := wrote.keeps.error
    have held : Holding { recv with error := some errorCode, off := finalSize, data := OrdMap.empty } :=
      fun _ member => (nomatch member)
    have grows : recv.len ≤ after.len := wrote.grows
    have within_ := wrote.within
    rw [RangeBuf.maxOff_fromSlice] at within_
    have within_ : after.len ≤ max recv.len finalSize := within_
    refine ⟨rfl, size, known, fun again => absurd again clean, fun _ => ⟨?_, off, wrote.finOff, wrote.held held⟩,
      fun _ received => ?_, grows⟩
    · rw [error]
      rfl
    · cases final : recv.finOff with
      | none =>
        have marked := wrote.marked held (RangeBuf.isEmpty_fromSlice _ _ _) rfl final
        rw [RangeBuf.maxOff_fromSlice] at marked
        have marked : finalSize ≤ after.len := marked
        omega
      | some finOff =>
        have := received finOff final
        have := known finOff final
        omega

theorem shutDown_bounded (done : recv.shutDown = .ok after) :
    recv.drain = false ∧ Bounded after ∧
      after = { recv with drain := true, data := OrdMap.empty, off := recv.len } := by
  unfold RecvBuf.shutDown at done
  split at done
  · cases done
  · rename_i buffers
    cases done
    exact ⟨by simpa using buffers, ⟨fun _ member => (nomatch member), Nat.le_refl _⟩, rfl⟩

end Ending

end RecvBuf

end Flexicast
