import Flexicast.Stream.Content
import Flexicast.Stream.Offsets
import Flexicast.Stream.RecvBufLaws
import Flexicast.Lib.Runs

/-! Whether a stream can be read until its end, of `stream/recv_buf.rs`, against reading it. -/

namespace Flexicast

namespace RecvBuf

open RangeBuf (fromSlice Holds)

/-- Where the chunks end that follow each other from an offset on, each counted from where its window starts. -/
def contiguousEnd : Nat → List RangeBuf → Option Nat
  | off, [] => some off
  | off, entry :: rest => if off ≠ entry.off then none else contiguousEnd (off + entry.curLen) rest

/-- Whether the stream can be read until its end. -/
def isFullyReadable (recv : RecvBuf) : Bool :=
  recv.finOff.isSome && contiguousEnd recv.off (recv.data.entries.map Prod.snd) == recv.finOff

/-- What happens to the receive side of a stream that is neither reset nor shut down. -/
inductive ReadEvent where
  /-- A chunk arrives. -/
  | write (bytes : Bytes) (off : Nat) (fin : Bool)
  /-- Data is read into an output of some size. -/
  | emit (outLen : Nat)
  | flow (flowControl : FlowControl)

/-- One step of the receive side of a stream; a chunk that is refused changes nothing. -/
def readNext (recv : RecvBuf) : ReadEvent → RecvBuf
  | .write bytes off fin =>
    match recv.write (fromSlice bytes off fin) with
    | .ok after => after
    | .error _ => recv
  | .emit outLen => (recv.emit outLen).2
  | .flow flowControl => { recv with flowControl := flowControl }

/-- The buffer after some reads in a row, each into an output of its own size. -/
def readOn (sizes : Nat → Nat) : Nat → RecvBuf → RecvBuf
  | 0, recv => recv
  | count + 1, recv => ((readOn sizes count recv).emit (sizes count)).2

/-- Reading on reaches the final size. -/
def Reaches (sizes : Nat → Nat) (recv : RecvBuf) : Prop := ∃ count, (readOn sizes count recv).isFin = true

/-- Whether the first chunk was read in part. -/
def partlyRead (recv : RecvBuf) : Bool :=
  recv.data.entries.head?.any fun entry => decide (entry.2.start < entry.2.pos)

/-- The final size is known, and every byte below it was read or is held. -/
def Complete (recv : RecvBuf) : Prop := ∃ finOff, recv.finOff = some finOff ∧ ∀ x, x < finOff → Has recv x

section Walk

/-- Chunks of which nothing was read follow each other to an end exactly if they span everything up to it. -/
theorem contiguousEnd_iff (bufs : List RangeBuf) : ∀ {off stop : Nat},
    bufs.Pairwise (fun left right => left.maxOff ≤ right.curOff) → (∀ buf ∈ bufs, off ≤ buf.curOff) →
      (∀ buf ∈ bufs, buf.maxOff ≤ stop) → (∀ buf ∈ bufs, buf.off = buf.curOff) → off ≤ stop →
        (contiguousEnd off bufs = some stop ↔ ∀ x, off ≤ x → x < stop → ∃ buf ∈ bufs, Spans buf x) := by
  induction bufs with
  | nil =>
    intro off stop _ _ _ _ below
    simp only [contiguousEnd, Option.some.injEq, List.not_mem_nil, false_and, exists_false, imp_false]
    exact ⟨by omega, fun none_ => Nat.le_antisymm below (Nat.not_lt.mp (none_ off (Nat.le_refl _)))⟩
  | cons buf rest ih =>
    intro off stop sorted above inside unread below
    obtain ⟨behind, tail⟩ := List.pairwise_cons.mp sorted
    have front := above buf List.mem_cons_self
    have end_ := inside buf List.mem_cons_self
    have grows : buf.curOff ≤ buf.maxOff := Nat.le_add_right _ _
    rw [contiguousEnd, unread buf List.mem_cons_self]
    by_cases gap : off = buf.curOff
    · -- The walk goes on behind the chunk, which spans what lies in front of that.
      have next : off + buf.curLen = buf.maxOff := by rw [gap]; rfl
      rw [if_neg (by simp [gap]), next, ih tail behind (fun other member =>
        inside other (List.mem_cons_of_mem _ member)) (fun other member =>
          unread other (List.mem_cons_of_mem _ member)) end_]
      constructor
      · intro spanned x low high
        by_cases here : x < buf.maxOff
        · exact ⟨buf, List.mem_cons_self, by omega, here⟩
        · obtain ⟨other, member, spans⟩ := spanned x (by omega) high
          exact ⟨other, List.mem_cons_of_mem _ member, spans⟩
      · intro spanned x low high
        obtain ⟨other, member, spans⟩ := spanned x (by omega) high
        rcases List.mem_cons.mp member with same | member
        · rw [same] at spans
          exact absurd spans.2 (by omega)
        · exact ⟨other, member, spans⟩
    · -- No chunk spans the offset that the walk stops at.
      rw [if_pos gap]
      refine iff_of_false (by simp) fun spanned => ?_
      obtain ⟨other, member, low, _⟩ := spanned off (Nat.le_refl _) (by omega)
      rcases List.mem_cons.mp member with same | member
      · rw [same] at low
        omega
      · have := behind other member
        omega

end Walk

/-- A buffer that only its first chunk may be read in part of. -/
def Unread (recv : RecvBuf) : Prop :=
  ∀ entry ∈ recv.data.entries,
    entry.2.pos = entry.2.start ∨ (entry.2.curOff = recv.off ∧ entry.2.isEmpty = false)

section Agreement

variable {stream : Bytes} {recv : RecvBuf}

variable {key : Nat} {buf : RangeBuf} {rest : List (Nat × RangeBuf)}

theorem Shape.behind_first (shape : Shape stream recv) (listed : recv.data.entries = (key, buf) :: rest)
    (front : buf.curOff = recv.off) {entry : Nat × RangeBuf} (member : entry ∈ rest)
    (level : entry.2.curOff = recv.off) : entry.2.isEmpty = true := by
  obtain ⟨keyed, _, _, behind⟩ := shape.first listed
  have first : (key, buf) ∈ recv.data.entries := by
    rw [listed]
    exact List.mem_cons_self
  have held : entry ∈ recv.data.entries := by
    rw [listed]
    exact List.mem_cons_of_mem _ member
  -- The first chunk is empty, so the stream ends there.
  have after := behind entry member
  have empty : buf.isEmpty = true := by
    rw [isEmpty_iff_maxOff]
    omega
  have marked : key = stream.length := shape.marks _ first empty
  have inside := maxOff_le (shape.holds entry held)
  rw [isEmpty_iff_maxOff]
  omega

/-- If nothing was read of the first chunk, nothing was read of any. -/
theorem Unread.whole (unread : Unread recv) (shape : Shape stream recv) (whole : recv.partlyRead = false) :
    ∀ entry ∈ recv.data.entries, entry.2.pos = entry.2.start := by
  intro entry member
  rcases unread entry member with fresh | ⟨level, filled⟩
  · exact fresh
  · cases listed : recv.data.entries with
    | nil =>
      rw [listed] at member
      exact absurd member List.not_mem_nil
    | cons first rest =>
      have low := (shape.holds entry member).wf.low
      rw [listed] at member
      rcases List.mem_cons.mp member with same | behind
      · rw [partlyRead, listed, ← same] at whole
        simp only [List.head?_cons, Option.any_some, decide_eq_false_iff_not] at whole
        omega
      · -- The first chunk would start there as well.
        have among : first ∈ recv.data.entries := by
          rw [listed]
          exact List.mem_cons_self
        have above := shape.above first among
        have before := (shape.first listed).2.2.2 entry behind
        have keyed := (shape.first listed).1
        have grows : first.2.curOff ≤ first.2.maxOff := Nat.le_add_right _ _
        have empty := shape.behind_first listed (by omega) behind level
        rw [filled] at empty
        cases empty

/-- Without a chunk that was read in part, the stream can be read until its end if all of it is there. -/
theorem Shape.isFullyReadable_iff (shape : Shape stream recv) (unread : Unread recv)
    (final : recv.finOff = some stream.length) (whole : recv.partlyRead = false) :
    recv.isFullyReadable = true ↔ ∀ x, x < stream.length → Has recv x := by
  have fresh := unread.whole shape whole
  have each : ∀ buf ∈ recv.data.entries.map Prod.snd, ∃ entry ∈ recv.data.entries, entry.2 = buf :=
    fun buf member => List.mem_map.mp member
  have sorted : (recv.data.entries.map Prod.snd).Pairwise fun left right => left.maxOff ≤ right.curOff := by
    refine List.pairwise_map.mpr (shape.apart.imp_of_mem fun member _ apart => ?_)
    rw [← shape.keyed _ member]
    exact apart
  have above : ∀ buf ∈ recv.data.entries.map Prod.snd, recv.off ≤ buf.curOff := by
    intro buf member
    obtain ⟨entry, held, rfl⟩ := each buf member
    exact shape.above entry held
  have inside : ∀ buf ∈ recv.data.entries.map Prod.snd, buf.maxOff ≤ stream.length := by
    intro buf member
    obtain ⟨entry, held, rfl⟩ := each buf member
    exact maxOff_le (shape.holds entry held)
  have starts : ∀ buf ∈ recv.data.entries.map Prod.snd, buf.off = buf.curOff := by
    intro buf member
    obtain ⟨entry, held, rfl⟩ := each buf member
    have from_ := (shape.holds entry held).wf.curOff_eq
    rw [fresh entry held] at from_
    omega
  have walk := contiguousEnd_iff _ sorted above inside starts (Nat.le_trans shape.read shape.inside)
  rw [isFullyReadable, final]
  simp only [Option.isSome_some, Bool.true_and, beq_iff_eq, walk]
  constructor
  · intro spanned x high
    by_cases read : x < recv.off
    · exact Or.inl read
    · obtain ⟨buf, member, spans⟩ := spanned x (by omega) high
      obtain ⟨entry, held, rfl⟩ := each buf member
      exact Or.inr ⟨entry, held, spans⟩
  · intro has x low high
    rcases has x high with read | ⟨entry, held, spans⟩
    · omega
    · exact ⟨entry.2, List.mem_map.mpr ⟨entry, held, rfl⟩, spans⟩

/-- A first chunk that was read in part hides that the stream can be read. -/
theorem Shape.not_isFullyReadable (shape : Shape stream recv) (unread : Unread recv)
    (part : recv.partlyRead = true) : recv.isFullyReadable = false := by
  rw [partlyRead, Option.any_eq_true] at part
  obtain ⟨first, head, read⟩ := part
  obtain ⟨rest, listed⟩ := List.head?_eq_some_iff.mp head
  have member : first ∈ recv.data.entries := by
    rw [listed]
    exact List.mem_cons_self
  have consumed : first.2.start < first.2.pos := of_decide_eq_true read
  have from_ := (shape.holds first member).wf.curOff_eq
  have level : first.2.curOff = recv.off := by
    rcases unread first member with fresh | ⟨level, _⟩
    · omega
    · exact level
  -- The window starts before the offset that is read next.
  have stops : contiguousEnd recv.off (recv.data.entries.map Prod.snd) = none := by
    rw [listed, List.map_cons, contiguousEnd, if_pos (by omega)]
  rw [isFullyReadable, stops]
  cases recv.finOff <;> rfl

theorem Unread.readChunk (unread : Unread recv) (shape : Shape stream recv)
    (listed : recv.data.entries = (key, buf) :: rest) (front : buf.curOff = recv.off) (count : Nat) :
    Unread { recv with off := recv.off + count, data := recv.data.erase key } := by
  have left : (recv.data.erase key).entries = rest := @OrdMap.entries_erase _ _ _ _ [] rest listed
  intro entry member
  rw [left] at member
  rcases unread entry (by rw [listed]; exact List.mem_cons_of_mem _ member) with fresh | ⟨level, filled⟩
  · exact Or.inl fresh
  · -- A second chunk at this offset would be empty.
    rw [shape.behind_first listed front member level] at filled
    cases filled

/-- Reading part of the first chunk leaves the others unread. -/
theorem Unread.readPart (unread : Unread recv) (shape : Shape stream recv)
    (listed : recv.data.entries = (key, buf) :: rest) (front : buf.curOff = recv.off) {count : Nat}
    (short : count < buf.curLen) :
    Unread { recv with off := recv.off + count, data := recv.data.insert key (buf.consume count) } := by
  have low := (shape.first listed).2.1.wf.low
  intro entry member
  rcases OrdMap.mem_insert_iff.mp member with new | ⟨old, other⟩
  · refine Or.inr ?_
    rw [new]
    simp only [RangeBuf.curOff, RangeBuf.curLen, RangeBuf.isEmpty, RangeBuf.consume, beq_eq_false_iff_ne] at *
    omega
  · rcases unread entry old with fresh | ⟨level, filled⟩
    · exact Or.inl fresh
    · rw [listed] at old
      rcases List.mem_cons.mp old with same | behind
      · rw [same] at other
        exact absurd rfl other
      · rw [shape.behind_first listed front behind level] at filled
        cases filled

/-- The loop of `emit` leaves at most the first chunk read in part, and the largest offset as it is. -/
theorem Unread.emitLoop (fuel : Nat) : ∀ {recv : RecvBuf} (capacity : Nat), Shape stream recv → Unread recv →
    Unread (emitLoop fuel capacity recv).2 ∧ (emitLoop fuel capacity recv).2.len = recv.len := by
  induction fuel with
  | zero => exact fun _ _ unread => ⟨unread, rfl⟩
  | succ fuel ih =>
    intro recv capacity shape unread
    simp only [RecvBuf.emitLoop]
    by_cases stop : capacity = 0 ∨ recv.ready = false
    · rw [if_pos stop]
      exact ⟨unread, rfl⟩
    rw [if_neg stop]
    have ready : recv.ready = true := by
      cases ready : recv.ready with
      | true => rfl
      | false => exact absurd (Or.inr ready) stop
    obtain ⟨key, buf, first, front⟩ := ready_iff.mp ready
    obtain ⟨rest, listed⟩ := List.head?_eq_some_iff.mp first
    rw [first]
    simp only
    by_cases part : min buf.curLen capacity < buf.curLen
    · rw [if_pos part]
      exact ⟨unread.readPart shape listed front part, rfl⟩
    · -- The loop goes on behind the chunk.
      have whole : min buf.curLen capacity = buf.curLen := by omega
      rw [if_neg part, whole]
      exact ih (capacity - buf.curLen) (shape.readChunk listed front).shape
        (unread.readChunk shape listed front buf.curLen)

/-- A read leaves at most the first chunk read in part, and the largest offset as it is. -/
theorem Unread.emit (unread : Unread recv) (shape : Shape stream recv) (outLen : Nat) :
    Unread (recv.emit outLen).2 ∧ (recv.emit outLen).2.len = recv.len := by
  unfold RecvBuf.emit
  split
  · exact ⟨unread, rfl⟩
  · rw [shape.running.1]
    exact Unread.emitLoop _ outLen shape unread

end Agreement

section Storing

variable {recv after : RecvBuf}

theorem splitOff_unread {buf : RangeBuf} (fresh : buf.pos = buf.start) (index : Nat) :
    (buf.splitOff index).1.pos = (buf.splitOff index).1.start ∧
      (buf.splitOff index).2.pos = (buf.splitOff index).2.start := by
  simp only [RangeBuf.splitOff]
  omega

/-- What the loop over the chunks that are held leaves of a new one was not read. -/
theorem overlapLoop_unread (bufs : List RangeBuf) : ∀ {buf : RangeBuf} {pushed more : List RangeBuf}
    {kept : Option RangeBuf}, buf.pos = buf.start → (∀ part ∈ pushed, part.pos = part.start) →
      overlapLoop bufs buf pushed = some (kept, more) →
        (∀ part, kept = some part → part.pos = part.start) ∧ ∀ part ∈ more, part.pos = part.start := by
  induction bufs with
  | nil =>
    intro buf pushed more kept fresh queued looped
    cases looped
    exact ⟨fun part same => by cases same; exact fresh, queued⟩
  | cons held rest ih =>
    intro buf pushed more kept fresh queued looped
    have halves := splitOff_unread fresh
    -- The cases are those of the loop; each split leaves two unread halves.
    simp only [overlapLoop] at looped
    split at looped
    · cases looped
      exact ⟨fun part same => by cases same; exact fresh, queued⟩
    split at looped
    · cases looped
      exact ⟨by simp, queued⟩
    split at looped
    · split at looped
      · cases looped
      · exact ih (halves _).2 queued looped
    split at looped
    · split at looped
      · cases looped
      · refine ih (halves _).1 ?_ looped
        intro part member
        rcases List.mem_append.mp member with earlier | new
        · exact queued part earlier
        · rw [List.mem_singleton.mp new]
          exact (halves _).2
    · exact ih fresh queued looped

/-- What holds while the parts of a new chunk are stored. -/
structure Filing (queue : List RangeBuf) (state : RecvBuf) : Prop where
  queued : ∀ part ∈ queue, part.pos = part.start
  /-- At most the first chunk was read in part. -/
  unread : Unread state

/-- A turn goes on storing parts that were not read. -/
theorem Filing.turn {queue pushed : List RangeBuf} {item : RangeBuf} {state : RecvBuf}
    (filing : Filing (item :: queue) state) (ran : writeTurn item state = .next after pushed) :
    Filing (queue ++ pushed) after := by
  have queued : ∀ part ∈ queue, part.pos = part.start := fun part member =>
    filing.queued part (List.mem_cons_of_mem _ member)
  have fresh := filing.queued item List.mem_cons_self
  have both : ∀ more : List RangeBuf, (∀ part ∈ more, part.pos = part.start) →
      ∀ part ∈ queue ++ more, part.pos = part.start := fun more each part member =>
    (List.mem_append.mp member).elim (queued part) (each part)
  unfold writeTurn at ran
  split at ran
  · cases ran
  rename_i part cut
  have cutFresh : part.pos = part.start := by
    unfold RecvBuf.discardRead at cut
    split at cut
    · split at cut
      · cases cut
      · cases cut
        exact (splitOff_unread fresh _).2
    · cases cut
      exact fresh
  -- Whether the loop over the chunks ran or not, what it leaves was not read.
  have left : ∀ kept more, (if decide (part.curOff < state.maxOff) || part.isEmpty then
        overlapLoop ((state.data.entries.filter fun entry => decide (part.curOff ≤ entry.1)).map Prod.snd) part []
      else some (some part, [])) = some (kept, more) →
      (∀ piece, kept = some piece → piece.pos = piece.start) ∧ ∀ piece ∈ more, piece.pos = piece.start := by
    intro kept more looped
    split at looped
    · exact overlapLoop_unread _ cutFresh (by simp) looped
    · cases looped
      exact ⟨fun piece same => by cases same; exact cutFresh, by simp⟩
  dsimp only at ran
  split at ran
  · cases ran
  · rename_i looped
    cases ran
    exact ⟨both _ (left _ _ looped).2, filing.unread⟩
  · rename_i kept more looped
    cases ran
    obtain ⟨keptFresh, moreFresh⟩ := left _ _ looped
    refine ⟨both _ moreFresh, ?_⟩
    intro entry member
    unfold RecvBuf.storeChunk at member
    dsimp only at member
    split at member
    · exact filing.unread entry member
    · rcases OrdMap.mem_insert_iff.mp member with new | ⟨old, _⟩
      · rw [new]
        exact Or.inl (keptFresh kept rfl)
      · exact filing.unread entry old

/-- A write stores nothing that was read. -/
theorem Unread.write (unread : Unread recv) {buf : RangeBuf} (fresh : buf.pos = buf.start)
    (wrote : recv.write buf = .ok after) : Unread after := by
  have recorded : Unread (recordFin recv buf) := by
    unfold recordFin
    split <;> exact unread
  rw [write_eq] at wrote
  split at wrote
  · cases wrote
  split at wrote
  · cases wrote
  split at wrote
  · cases wrote
    exact unread
  split at wrote
  · cases wrote
    exact recorded
  split at wrote
  · cases wrote
    exact recorded
  split at wrote
  · rename_i drained
    cases wrote
    have begun : Filing [buf] (recordFin recv buf) :=
      ⟨fun part member => by rw [List.mem_singleton.mp member]; exact fresh, recorded⟩
    have done : Filing [] after := WorkQueue.drain_some (fun _ _ _ _ _ filing ran => filing.turn ran)
      (fun _ _ _ _ _ halted => absurd halted writeTurn_ne_halt) _ _ _ _ begun drained
    exact done.unread
  · cases wrote

end Storing

section Runs

variable {recv after : RecvBuf}

/-- A stream of zeros. -/
def zeros (size : Nat) : Bytes := List.replicate size 0

@[simp] theorem length_zeros (size : Nat) : (zeros size).length = size := List.length_replicate

/-- A stream may still end at an offset. -/
def Ends (recv : RecvBuf) (size : Nat) : Prop :=
  recv.len ≤ size ∧ ∀ finOff, recv.finOff = some finOff → finOff = size

/-- A buffer of zeros that fits every stream that it may still be part of. -/
structure Sized (recv : RecvBuf) : Prop where
  /-- It fits a stream of zeros of any size that it may still have. -/
  shape : ∀ size, Ends recv size → Shape (zeros size) recv
  /-- Nothing was received beyond the final size. -/
  inside : ∀ finOff, recv.finOff = some finOff → recv.len ≤ finOff
  /-- At most the first chunk was read in part. -/
  unread : Unread recv

variable {size off : Nat} {stream : Bytes} {sizes : Nat → Nat}

theorem ends_unknown (unknown : recv.finOff = none) (room : recv.len ≤ size) : Ends recv size :=
  ⟨room, fun finOff known => by rw [unknown] at known; cases known⟩

theorem Sized.ends_known (sized : Sized recv) {finOff : Nat} (known : recv.finOff = some finOff) :
    Ends recv finOff :=
  ⟨sized.inside finOff known, fun other given => by
    rw [known] at given
    exact (Option.some.inj given).symm⟩

/-- There is always a size that the stream may still have. -/
theorem Sized.ends (sized : Sized recv) : ∃ size, Ends recv size := by
  cases final : recv.finOff with
  | none => exact ⟨recv.len, ends_unknown final (Nat.le_refl _)⟩
  | some finOff => exact ⟨finOff, sized.ends_known final⟩

/-- A new buffer is empty, so it fits everything. -/
theorem sized_new (maxData maxWindow : Nat) : Sized (new maxData maxWindow) := by
  have none_ : ∀ entry ∈ (new maxData maxWindow).data.entries, False := fun entry member =>
    absurd member List.not_mem_nil
  refine ⟨fun size _ => ⟨?_, ?_, List.Pairwise.nil, ?_, ?_, ?_, Nat.le_refl _, Nat.zero_le _, ?_, rfl, rfl⟩,
    ?_, ?_⟩
  · exact fun entry member => (none_ entry member).elim
  · exact fun entry member => (none_ entry member).elim
  · exact fun entry member => (none_ entry member).elim
  · exact fun entry member => (none_ entry member).elim
  · exact fun entry member => (none_ entry member).elim
  · exact fun finOff known => by cases known
  · exact fun finOff known => by cases known
  · exact fun entry member => (none_ entry member).elim

theorem sound_zeros {count : Nat} {fin : Bool} (inside : off + count ≤ size) (final : fin = true → off + count = size) :
    Sound (zeros size) (fromSlice (zeros count) off fin) := by
  refine ⟨⟨RangeBuf.wf_fromSlice _ _ _, ?_, ?_⟩, rfl, ?_⟩
  · simpa [fromSlice] using inside
  · rw [RangeBuf.window_fromSlice]
    simp only [fromSlice, zeros, List.drop_replicate, List.take_replicate, List.length_replicate]
    congr 1
    omega
  · simpa [fromSlice, RangeBuf.maxOff, RangeBuf.curOff, RangeBuf.curLen] using final

theorem Shape.lt_len (shape : Shape stream recv) {x : Nat} (has : Has recv x) : x < recv.len := by
  rcases has with read | ⟨entry, member, _, high⟩
  · exact Nat.lt_of_lt_of_le read shape.read
  · have := shape.reach entry member
    have := shape.keyed entry member
    omega

theorem write_nothing (wrote : recv.write (fromSlice [] off false) = .ok after) : after = recv := by
  have fin_ : (fromSlice [] off false).fin = false := rfl
  have empty : (fromSlice [] off false).isEmpty = true := rfl
  unfold RecvBuf.write at wrote
  simp only [fin_, empty, Bool.and_true, Bool.not_false, if_true, Bool.false_eq_true, if_false, ite_self] at wrote
  split at wrote
  · cases wrote
  · split at wrote
    · cases wrote
    · cases wrote
      rfl

section Zeros

variable {count off : Nat} {fin : Bool}

theorem maxOff_zeros : (fromSlice (zeros count) off fin).maxOff = off + count := by
  rw [RangeBuf.maxOff_fromSlice, length_zeros]

/-- Writing a chunk of zeros is writing to every stream of zeros that the buffer and the chunk may be part of. -/
theorem Sized.written (sized : Sized recv) (wrote : recv.write (fromSlice (zeros count) off fin) = .ok after)
    {size : Nat} (ends : Ends recv size) (inside : off + count ≤ size) (final : fin = true → off + count = size) :
    Written (zeros size) recv after (fromSlice (zeros count) off fin) := by
  have flow := (write_wrote (RangeBuf.wf_fromSlice _ _ _) wrote).allowed
  obtain ⟨other, wrote', written⟩ := (sized.shape size ends).write (sound_zeros inside final) flow
  rw [wrote] at wrote'
  cases wrote'
  exact written

/-- A final chunk of zeros fixes the size of the stream. -/
theorem Sized.writeFinal (sized : Sized recv) (wrote : recv.write (fromSlice (zeros count) off true) = .ok after) :
    Sized after := by
  have accepted := write_wrote (RangeBuf.wf_fromSlice _ _ _) wrote
  have ends : Ends recv (fromSlice (zeros count) off true).maxOff := ⟨accepted.final rfl, accepted.same rfl⟩
  rw [maxOff_zeros] at ends
  have done := sized.written wrote ends (Nat.le_refl _) fun _ => rfl
  have final : after.finOff = some (off + count) := by
    rw [done.frame]
    simp [fromSlice]
  have inside := done.shape.inside
  rw [length_zeros] at inside
  refine ⟨fun size next => ?_, fun finOff known => ?_, sized.unread.write rfl wrote⟩
  · rw [← next.2 _ final]
    exact done.shape
  · rw [final] at known
    cases known
    exact inside

/-- A chunk of zeros that is not final leaves the size of the stream open, or as it is known. -/
theorem Sized.writePart (sized : Sized recv) (wrote : recv.write (fromSlice (zeros count) off false) = .ok after) :
    Sized after := by
  by_cases empty : count = 0
  · subst empty
    rw [write_nothing wrote]
    exact sized
  have unread := sized.unread.write rfl wrote
  have accepted := write_wrote (RangeBuf.wf_fromSlice _ _ _) wrote
  have agrees := accepted.inside
  rw [maxOff_zeros] at agrees
  cases known : recv.finOff with
  | some finOff =>
    have done := sized.written wrote (sized.ends_known known) (agrees finOff known) (by simp)
    have same : after.finOff = some finOff := by
      rw [done.frame]
      exact known
    have inside := done.shape.inside
    rw [length_zeros] at inside
    refine ⟨fun size next => ?_, fun other given => ?_, unread⟩
    · rw [← next.2 _ same]
      exact done.shape
    · rw [same] at given
      cases given
      exact inside
  | none =>
    have done := sized.written wrote (ends_unknown known (Nat.le_max_left _ (off + count))) (Nat.le_max_right _ _)
      (by simp)
    have same : after.finOff = none := by
      rw [done.frame]
      exact known
    -- The last byte of the chunk is held afterwards, so every size left reaches behind it.
    have last : Spans (fromSlice (zeros count) off false) (off + count - 1) := by
      simp only [Spans, maxOff_zeros]
      simp only [fromSlice, RangeBuf.curOff]
      omega
    have reach := done.shape.lt_len ((done.has _).mpr (Or.inr last))
    refine ⟨fun size next => ?_, fun other given => ?_, unread⟩
    · have room := next.1
      exact (sized.written wrote (ends_unknown known (Nat.le_trans accepted.grows room)) (by omega) (by simp)).shape
    · rw [same] at given
      cases given

/-- A chunk of zeros that is accepted leaves a buffer that fits every stream it may still be part of. -/
theorem Sized.write (sized : Sized recv) (wrote : recv.write (fromSlice (zeros count) off fin) = .ok after) :
    Sized after := by
  cases fin with
  | true => exact sized.writeFinal wrote
  | false => exact sized.writePart wrote

end Zeros

/-- A read leaves a buffer that fits every stream it may still be part of. -/
theorem Sized.emit (sized : Sized recv) (outLen : Nat) : Sized (recv.emit outLen).2 := by
  obtain ⟨size, ends⟩ := sized.ends
  obtain ⟨unread, same⟩ := sized.unread.emit (sized.shape size ends) outLen
  have read : ∀ size, Ends recv size →
      Shape (zeros size) (recv.emit outLen).2 ∧ (recv.emit outLen).2.finOff = recv.finOff := by
    intro size ends
    rcases (sized.shape size ends).emit outLen with ⟨_, unready⟩ | ⟨_, out, after, ran, emits⟩
    · rw [unready]
      exact ⟨sized.shape size ends, rfl⟩
    · rw [ran]
      exact ⟨emits.shape, emits.finOff⟩
  have final := (read size ends).2
  refine ⟨fun other next => (read other ⟨?_, ?_⟩).1, ?_, unread⟩
  · rw [← same]
    exact next.1
  · rw [← final]
    exact next.2
  · rw [final, same]
    exact sized.inside

/-- The flow controller decides only what is accepted. -/
theorem Sized.flow (sized : Sized recv) (flowControl : FlowControl) :
    Sized { recv with flowControl := flowControl } :=
  ⟨fun size ends =>
    have shape := sized.shape size ends
    ⟨shape.holds, shape.keyed, shape.apart, shape.above, shape.marks, shape.reach, shape.read, shape.inside,
      shape.final, shape.running⟩, sized.inside, sized.unread⟩

/-- Reads in a row keep what is there, and get through it one byte each at least. -/
theorem readOn_spec (positive : ∀ count, 0 < sizes count) (shape : Shape stream recv) (count : Nat) :
    Shape stream (readOn sizes count recv) ∧ (readOn sizes count recv).finOff = recv.finOff ∧
      (∀ x, Has (readOn sizes count recv) x ↔ Has recv x) ∧
        ((∀ x, x < stream.length → Has recv x) → min stream.length count ≤ (readOn sizes count recv).off) := by
  induction count with
  | zero => exact ⟨shape, rfl, fun _ => Iff.rfl, fun _ => by simp⟩
  | succ count ih =>
    obtain ⟨shape', final, has, progress⟩ := ih
    rcases shape'.emit (sizes count) with ⟨unready, ran⟩ | ⟨_, out, after, ran, emits⟩
    · simp only [readOn, ran]
      refine ⟨shape', final, has, fun all => ?_⟩
      have before := progress all
      by_cases left : (readOn sizes count recv).off < stream.length
      · -- The next byte is there, so the buffer is ready.
        obtain ⟨out, after, ran', _, _⟩ := shape'.emit_progress (positive count) ((has _).mpr (all _ left))
        rw [ran] at ran'
        cases ran'
      · omega
    · simp only [readOn, ran]
      refine ⟨emits.shape, emits.finOff.trans final, fun x => (emits.has x).trans (has x), fun all => ?_⟩
      have before := progress all
      rw [emits.off]
      by_cases left : (readOn sizes count recv).off < stream.length
      · obtain ⟨out', after', ran', _, some_⟩ :=
          shape'.emit_progress (positive count) ((has _).mpr (all _ left))
        have same : out' = out := by
          rw [ran] at ran'
          simp only [Prod.mk.injEq, Except.ok.injEq] at ran'
          exact ran'.1.1.symm
        rw [same] at some_
        omega
      · omega

/-- Reading on reaches the final size exactly if all of the stream is there. -/
theorem Sized.reaches_iff (sized : Sized recv) (positive : ∀ count, 0 < sizes count) :
    Reaches sizes recv ↔ Complete recv := by
  constructor
  · intro reaches
    obtain ⟨count, done⟩ := reaches
    obtain ⟨size, ends⟩ := sized.ends
    obtain ⟨_, final, has, _⟩ := readOn_spec positive (sized.shape size ends) count
    have at_end : recv.finOff = some (readOn sizes count recv).off := by
      rw [← final]
      simpa [isFin] using done
    exact ⟨_, at_end, fun x below => (has x).mp (Or.inl below)⟩
  · intro complete
    obtain ⟨finOff, known, all⟩ := complete
    have shape := sized.shape finOff (sized.ends_known known)
    obtain ⟨shape', final, _, progress⟩ := readOn_spec positive shape finOff
    rw [length_zeros] at progress
    have reached := progress all
    -- No offset is beyond the end of the stream.
    have read := shape'.read
    have inside := shape'.inside
    rw [length_zeros] at inside
    refine ⟨finOff, ?_⟩
    have same : (readOn sizes finOff recv).off = finOff := by omega
    rw [isFin, final, known, same]
    exact beq_self_eq_true _

theorem Sized.isFullyReadable_iff (sized : Sized recv) (positive : ∀ count, 0 < sizes count) :
    (recv.isFullyReadable = true ↔ Reaches sizes recv) ↔ (recv.partlyRead = true → ¬ Complete recv) := by
  rw [sized.reaches_iff positive]
  obtain ⟨size, ends⟩ := sized.ends
  have shape := sized.shape size ends
  cases part : recv.partlyRead with
  | true => simp [shape.not_isFullyReadable sized.unread part]
  | false =>
    simp only [Bool.false_eq_true, false_imp_iff, iff_true]
    cases final : recv.finOff with
    | none => simp [isFullyReadable, Complete, final]
    | some finOff =>
      have fits := sized.shape finOff (sized.ends_known final)
      rw [fits.isFullyReadable_iff sized.unread (by rw [length_zeros]; exact final) part, length_zeros]
      simp [Complete, final]

end Runs

section Blank

variable (f : UInt8 → UInt8) (recv : RecvBuf)

theorem readOn_mapData (sizes : Nat → Nat) (count : Nat) :
    readOn sizes count (recv.mapData f) = (readOn sizes count recv).mapData f := by
  induction count with
  | zero => rfl
  | succ count ih => rw [readOn, ih, emit_mapData, readOn]

theorem isFullyReadable_mapData : (recv.mapData f).isFullyReadable = recv.isFullyReadable := by
  have walk : ∀ (bufs : List RangeBuf) off, contiguousEnd off (bufs.map (·.mapData f)) = contiguousEnd off bufs := by
    intro bufs
    induction bufs with
    | nil => exact fun _ => rfl
    | cons buf rest ih =>
      intro off
      simp only [List.map_cons, contiguousEnd, RangeBuf.off_mapData, RangeBuf.curLen_mapData, ih]
  have values : (recv.mapData f).data.entries.map Prod.snd = (recv.data.entries.map Prod.snd).map (·.mapData f) := by
    simp
  rw [isFullyReadable, values, off_mapData, finOff_mapData, walk]
  rfl

theorem partlyRead_mapData : (recv.mapData f).partlyRead = recv.partlyRead := by
  rw [partlyRead, entries_mapData, List.head?_map, partlyRead]
  cases recv.data.entries.head? <;> rfl

/-- Nor does whether all of the stream is there. -/
theorem complete_mapData : Complete (recv.mapData f) ↔ Complete recv := by
  have has : ∀ x, Has (recv.mapData f) x ↔ Has recv x := by
    intro x
    unfold Has
    rw [entries_mapData]
    refine or_congr Iff.rfl ⟨fun given => ?_, fun given => ?_⟩
    · obtain ⟨entry, member, spans⟩ := given
      obtain ⟨held, among, rfl⟩ := List.mem_map.mp member
      exact ⟨held, among, spans⟩
    · obtain ⟨entry, member, spans⟩ := given
      exact ⟨_, List.mem_map.mpr ⟨entry, member, rfl⟩, spans⟩
  simp only [Complete, finOff_mapData, has]

theorem reaches_mapData (sizes : Nat → Nat) : Reaches sizes (recv.mapData f) ↔ Reaches sizes recv := by
  simp only [Reaches, readOn_mapData, isFin_mapData]

variable {recv}

theorem sized_next (event : ReadEvent) (sized : Sized (recv.mapData fun _ => 0)) :
    Sized ((readNext recv event).mapData fun _ => 0) := by
  cases event with
  | write bytes off fin =>
    have blank : (fromSlice bytes off fin).mapData (fun _ => 0) = fromSlice (zeros bytes.length) off fin := by
      rw [RangeBuf.mapData_fromSlice, List.map_const', zeros]
    have mirrors := write_mapData (fun _ => 0) recv (fromSlice bytes off fin)
    rw [blank] at mirrors
    simp only [readNext]
    split
    · rename_i after wrote
      rw [wrote] at mirrors
      exact sized.write mirrors
    · exact sized
  | emit outLen =>
    rw [readNext, ← emit_mapData]
    exact sized.emit outLen
  | flow flowControl => exact sized.flow flowControl

/--
A buffer says whether reading on reaches the final size, unless all of it is there behind a chunk read in part.

The walk over the chunks takes the offset of each window, which stays behind when the front of a chunk is read.
-/
theorem isFullyReadable_reaches_iff (maxData maxWindow : Nat) (events : List ReadEvent) (sizes : Nat → Nat)
    (positive : ∀ count, 0 < sizes count) :
    ((Runs.run readNext (new maxData maxWindow) events).isFullyReadable = true ↔
        Reaches sizes (Runs.run readNext (new maxData maxWindow) events)) ↔
      ((Runs.run readNext (new maxData maxWindow) events).partlyRead = true →
        ¬ Complete (Runs.run readNext (new maxData maxWindow) events)) := by
  have keeps : ∀ (recv : RecvBuf) event, Sized (recv.mapData fun _ => 0) →
      Sized ((readNext recv event).mapData fun _ => 0) := fun recv event => sized_next event
  have begun : Sized ((new maxData maxWindow).mapData fun _ => 0) := sized_new maxData maxWindow
  have sized : Sized ((Runs.run readNext (new maxData maxWindow) events).mapData fun _ => 0) :=
    Runs.run_keeps keeps begun events
  rw [← isFullyReadable_mapData fun _ => 0, ← partlyRead_mapData fun _ => 0, ← complete_mapData fun _ => 0,
    ← reaches_mapData fun _ => 0]
  exact sized.isFullyReadable_iff positive

/-- All of a stream of three bytes arrived, and some of it was read. -/
def arrived (outLen : Nat) : List ReadEvent := [.write [1, 2, 3] 0 true, .emit outLen]

theorem isFullyReadable_reaches_iff_arrived :
    ((Runs.run readNext (new 100 100) (arrived 3)).isFullyReadable = true ↔
        Reaches (fun _ => 1) (Runs.run readNext (new 100 100) (arrived 3))) ↔
      ((Runs.run readNext (new 100 100) (arrived 3)).partlyRead = true →
        ¬ Complete (Runs.run readNext (new 100 100) (arrived 3))) :=
  isFullyReadable_reaches_iff 100 100 (arrived 3) (fun _ => 1) fun _ => Nat.zero_lt_one

/-- After one byte was read, the other two are read at once, yet the buffer denies it. -/
theorem partlyRead_denied :
    ¬ ∀ (maxData maxWindow : Nat) (events : List ReadEvent) (sizes : Nat → Nat), (∀ count, 0 < sizes count) →
      ((Runs.run readNext (new maxData maxWindow) events).isFullyReadable = true ↔
        Reaches sizes (Runs.run readNext (new maxData maxWindow) events)) := by
  intro always
  have agrees := always 100 100 (arrived 1) (fun _ => 2) fun _ => Nat.zero_lt_two
  have reaches : Reaches (fun _ => 2) (Runs.run readNext (new 100 100) (arrived 1)) := ⟨1, by decide⟩
  exact absurd (agrees.mpr reaches) (by decide)

end Blank

end RecvBuf

end Flexicast
