import Flexicast.Stream.SendBuf
import Mathlib.Algebra.Ring.Nat

/-! Chunk lists of a send buffer: what they hold, what of it is still to be sent, and in which order. -/

namespace Flexicast

namespace SendBuf

open RangeBuf (Holds)

/-- Chunks follow each other without overlap, between two offsets. -/
def Ordered : Nat → List RangeBuf → Nat → Prop
  | lo, [], hi => lo ≤ hi
  | lo, buf :: rest, hi => lo ≤ buf.off ∧ Ordered (buf.off + buf.len) rest hi

/-- An offset lies in the window of a chunk. -/
def Held (bufs : List RangeBuf) (x : Nat) : Prop :=
  ∃ buf ∈ bufs, buf.off ≤ x ∧ x < buf.off + buf.len

/-- An offset lies in a chunk and was not consumed since it was written or rewound. -/
def Pending (bufs : List RangeBuf) (x : Nat) : Prop :=
  ∃ buf ∈ bufs, buf.curOff ≤ x ∧ x < buf.off + buf.len

instance (bufs : List RangeBuf) (x : Nat) : Decidable (Held bufs x) :=
  inferInstanceAs (Decidable (∃ buf ∈ bufs, buf.off ≤ x ∧ x < buf.off + buf.len))

instance decidablePending (bufs : List RangeBuf) (x : Nat) : Decidable (Pending bufs x) :=
  inferInstanceAs (Decidable (∃ buf ∈ bufs, buf.curOff ≤ x ∧ x < buf.off + buf.len))

/-- The number of bytes that are still to be sent. -/
def total (bufs : List RangeBuf) : Nat := (bufs.map RangeBuf.curLen).sum

section Basics

variable {bufs rest : List RangeBuf} {buf : RangeBuf} {lo hi x : Nat}

@[simp] theorem held_nil (x : Nat) : Held [] x ↔ False := by simp [Held]

@[simp] theorem held_cons (buf : RangeBuf) (rest : List RangeBuf) (x : Nat) :
    Held (buf :: rest) x ↔ (buf.off ≤ x ∧ x < buf.off + buf.len) ∨ Held rest x := by simp [Held]

@[simp] theorem pending_nil (x : Nat) : Pending [] x ↔ False := by simp [Pending]

@[simp] theorem pending_cons (buf : RangeBuf) (rest : List RangeBuf) (x : Nat) :
    Pending (buf :: rest) x ↔ (buf.curOff ≤ x ∧ x < buf.off + buf.len) ∨ Pending rest x := by
  simp [Pending]

theorem held_append (front back : List RangeBuf) (x : Nat) :
    Held (front ++ back) x ↔ Held front x ∨ Held back x := by
  simp [Held, or_and_right, exists_or]

theorem pending_append (front back : List RangeBuf) (x : Nat) :
    Pending (front ++ back) x ↔ Pending front x ∨ Pending back x := by
  simp [Pending, or_and_right, exists_or]

@[simp] theorem total_nil : total [] = 0 := rfl

@[simp] theorem total_cons (buf : RangeBuf) (rest : List RangeBuf) :
    total (buf :: rest) = buf.curLen + total rest := by simp [total]

theorem total_append (front back : List RangeBuf) : total (front ++ back) = total front + total back := by
  simp [total]

theorem Ordered.le (ordered : Ordered lo bufs hi) : lo ≤ hi := by
  -- Each chunk only pushes the lower bound up.
  induction bufs generalizing lo with
  | nil => exact ordered
  | cons buf rest ih =>
    have := ih ordered.2
    have := ordered.1
    omega

theorem Ordered.mono {lo' : Nat} (ordered : Ordered lo bufs hi) (lower : lo' ≤ lo) :
    Ordered lo' bufs hi := by
  cases bufs with
  | nil => exact Nat.le_trans lower ordered
  | cons buf rest => exact ⟨Nat.le_trans lower ordered.1, ordered.2⟩

/-- Held offsets lie between the bounds of the chunks. -/
theorem Ordered.bounds (ordered : Ordered lo bufs hi) (held : Held bufs x) : lo ≤ x ∧ x < hi := by
  induction bufs generalizing lo with
  | nil => simp at held
  | cons buf rest ih =>
    obtain ⟨low, later⟩ := ordered
    have behind := later.le
    rcases (held_cons buf rest x).mp held with here | there
    · omega
    · -- A later chunk starts behind the end of this one.
      have := ih later there
      omega

theorem Ordered.append {front back : List RangeBuf} {mid : Nat} (before : Ordered lo front mid)
    (after : Ordered mid back hi) : Ordered lo (front ++ back) hi := by
  induction front generalizing lo with
  | nil => exact after.mono before
  | cons buf rest ih => exact ⟨before.1, ih before.2⟩

theorem Ordered.split {front back : List RangeBuf} (ordered : Ordered lo (front ++ back) hi) :
    ∃ mid, Ordered lo front mid ∧ Ordered mid back hi := by
  induction front generalizing lo with
  | nil => exact ⟨lo, Nat.le_refl lo, ordered⟩
  | cons buf rest ih =>
    obtain ⟨mid, before, after⟩ := ih ordered.2
    exact ⟨mid, ⟨ordered.1, before⟩, after⟩

/-- What is pending is held. -/
theorem Pending.held {stream : Bytes} (holds : ∀ buf ∈ bufs, Holds stream buf) (pending : Pending bufs x) :
    Held bufs x := by
  obtain ⟨buf, member, low, high⟩ := pending
  -- The position is inside the window, so its offset is not below the window's.
  have from_ := (holds buf member).wf.curOff_eq
  exact ⟨buf, member, by omega, high⟩

theorem not_pending_of_empty {stream : Bytes} (holds : Holds stream buf) (empty : buf.isEmpty = true) :
    ¬ (buf.curOff ≤ x ∧ x < buf.off + buf.len) := by
  have at_end := holds.wf.isEmpty_iff.mp empty
  have from_ := holds.wf.curOff_eq
  omega

theorem not_pending_of_consumed {stream : Bytes} (holds : ∀ buf ∈ bufs, Holds stream buf)
    (consumed : ∀ buf ∈ bufs, buf.isEmpty = true) : ¬ Pending bufs x := by
  intro given
  obtain ⟨buf, member, inside⟩ := given
  exact not_pending_of_empty (holds buf member) (consumed buf member) inside

end Basics

/-- What `emit` does to the chunks that follow the consumed ones. -/
def takeFront : Nat → Nat → List RangeBuf → List RangeBuf × Bytes
  | _, _, [] => ([], [])
  | outLen, next, buf :: rest =>
    -- Empty chunks are passed over.
    if buf.isEmpty then
      (buf :: (takeFront outLen next rest).1, (takeFront outLen next rest).2)
    -- A full output or a gap ends the loop.
    else if outLen = 0 ∨ buf.curOff ≠ next then (buf :: rest, [])
    -- A chunk that does not fit is used in part.
    else if outLen < buf.curLen then (buf.consume outLen :: rest, buf.bytes.take outLen)
    else
      (buf.consume buf.curLen :: (takeFront (outLen - buf.curLen) (next + buf.curLen) rest).1,
        buf.bytes ++ (takeFront (outLen - buf.curLen) (next + buf.curLen) rest).2)

/-- What holds after bytes were taken from the front of ordered chunks. -/
structure Taken (stream : Bytes) (lo hi outLen next : Nat) (bufs after : List RangeBuf) (out : Bytes) :
    Prop where
  /-- The bytes are those of the stream from the expected offset on. -/
  bytes : out = (stream.drop next).take out.length
  fits : out.length ≤ outLen
  were : ∀ x, next ≤ x → x < next + out.length → Pending bufs x
  holds : ∀ buf ∈ after, Holds stream buf
  ordered : Ordered lo after hi
  size : after.length = bufs.length
  held : ∀ x, Held after x ↔ Held bufs x
  /-- The bytes taken are no longer to be sent, and all others are. -/
  pending : ∀ x, Pending after x ↔ Pending bufs x ∧ ¬ (next ≤ x ∧ x < next + out.length)
  /-- The bytes left to be sent and the bytes taken add up. -/
  total : total after + out.length = total bufs

variable {stream : Bytes} {lo hi outLen : Nat} {buf : RangeBuf} {rest : List RangeBuf}

/-- Nothing is taken when the loop ends at once. -/
theorem Taken.refl {bufs : List RangeBuf} (outLen next : Nat) (holds : ∀ buf ∈ bufs, Holds stream buf)
    (ordered : Ordered lo bufs hi) : Taken stream lo hi outLen next bufs bufs [] := by
  -- No byte was taken, so no offset stopped being pending.
  refine ⟨by simp, Nat.zero_le _, ?_, holds, ordered, rfl, fun _ => Iff.rfl, ?_, rfl⟩
  · intro x low high
    simp only [List.length_nil] at high
    omega
  · intro x
    simp only [List.length_nil]
    constructor
    · exact fun pending => ⟨pending, by omega⟩
    · exact fun both => both.1

/-- An empty chunk is passed over, and has nothing pending. -/
theorem Taken.skip {next : Nat} {after : List RangeBuf} {out : Bytes} (here : Holds stream buf)
    (ordered : Ordered lo (buf :: rest) hi) (empty : buf.isEmpty = true)
    (taken : Taken stream (buf.off + buf.len) hi outLen next rest after out) :
    Taken stream lo hi outLen next (buf :: rest) (buf :: after) out := by
  obtain ⟨bytes, fits, were, holds', ordered', size, held, pending, total_⟩ := taken
  refine ⟨bytes, fits, ?_, ?_, ⟨ordered.1, ordered'⟩, by simp [size], ?_, ?_, ?_⟩
  · exact fun x low high => (pending_cons buf rest x).mpr (Or.inr (were x low high))
  · intro other member
    rcases List.mem_cons.mp member with same | member
    · rw [same]
      exact here
    · exact holds' other member
  · intro x
    rw [held_cons, held_cons, held]
  · intro x
    have none_ := not_pending_of_empty (x := x) here empty
    rw [pending_cons, pending_cons, pending]
    constructor
    · intro either
      rcases either with mine | both
      · exact absurd mine none_
      · exact ⟨Or.inr both.1, both.2⟩
    · intro either
      rcases either with ⟨mine | other, outside⟩
      · exact absurd mine none_
      · exact Or.inr ⟨other, outside⟩
  · simp only [total_cons]
    omega

/-- The first bytes of a chunk that does not fit fill the output. -/
theorem Taken.part (holds : ∀ other ∈ buf :: rest, Holds stream other) (ordered : Ordered lo (buf :: rest) hi)
    (short : outLen < buf.curLen) :
    Taken stream lo hi outLen buf.curOff (buf :: rest) (buf.consume outLen :: rest) (buf.bytes.take outLen) := by
  have here := holds buf List.mem_cons_self
  have later : ∀ other ∈ rest, Holds stream other := fun other member =>
    holds other (List.mem_cons_of_mem _ member)
  have low := here.wf.low
  have from_ := here.wf.curOff_eq
  have end_ : buf.curOff + buf.curLen = buf.off + buf.len := here.wf.maxOff_eq
  have measure := here.length_bytes
  have taken : (buf.bytes.take outLen).length = outLen := by
    rw [List.length_take]
    omega
  have after : (buf.consume outLen).curOff = buf.curOff + outLen := by
    simp only [RangeBuf.consume, RangeBuf.curOff]
    omega
  refine ⟨?_, by omega, ?_, ?_, ⟨ordered.1, ordered.2⟩, by simp, ?_, ?_, ?_⟩
  · simp only [taken]
    rw [here.bytes_eq, List.take_take, Nat.min_eq_left (by omega)]
  · intro x low high
    simp only [taken] at high
    exact (pending_cons buf rest x).mpr (Or.inl (by omega))
  · intro other member
    rcases List.mem_cons.mp member with same | member
    · rw [same]
      exact here.consume (by omega)
    · exact later other member
  · intro x
    rw [held_cons, held_cons]
    exact Iff.rfl
  · intro x
    simp only [taken]
    rw [pending_cons, pending_cons, after]
    show (_ ∧ x < buf.off + buf.len) ∨ _ ↔ _
    constructor
    · intro either
      rcases either with mine | other
      · exact ⟨Or.inl (by omega), by omega⟩
      · -- Whatever is pending further back lies behind this chunk.
        have behind := (ordered.2.bounds (other.held later)).1
        exact ⟨Or.inr other, by omega⟩
    · intro either
      rcases either with ⟨mine | other, outside⟩
      · exact Or.inl (by omega)
      · exact Or.inr other
  · simp only [total_cons, taken]
    have : (buf.consume outLen).curLen = buf.curLen - outLen := by
      simp only [RangeBuf.consume, RangeBuf.curLen] at short ⊢
      omega
    omega

/-- A chunk that fits is used up, and what is taken behind it continues it. -/
theorem Taken.whole {after : List RangeBuf} {out : Bytes} (holds : ∀ other ∈ buf :: rest, Holds stream other)
    (ordered : Ordered lo (buf :: rest) hi) (fit : buf.curLen ≤ outLen)
    (more : Taken stream (buf.off + buf.len) hi (outLen - buf.curLen) (buf.curOff + buf.curLen) rest after out) :
    Taken stream lo hi outLen buf.curOff (buf :: rest) (buf.consume buf.curLen :: after) (buf.bytes ++ out) := by
  have here := holds buf List.mem_cons_self
  have later : ∀ other ∈ rest, Holds stream other := fun other member =>
    holds other (List.mem_cons_of_mem _ member)
  have low := here.wf.low
  have from_ := here.wf.curOff_eq
  have end_ : buf.curOff + buf.curLen = buf.off + buf.len := here.wf.maxOff_eq
  have measure := here.length_bytes
  obtain ⟨bytes, fits, were, holds', ordered', size, held, pending, total_⟩ := more
  have taken : (buf.bytes ++ out).length = buf.curLen + out.length := by
    rw [List.length_append, measure]
  have used : (buf.consume buf.curLen).curOff = buf.off + buf.len := by
    simp only [RangeBuf.consume, RangeBuf.curOff] at end_ ⊢
    omega
  refine ⟨?_, by omega, ?_, ?_, ⟨ordered.1, ordered'⟩, by simp [size], ?_, ?_, ?_⟩
  · simp only [taken]
    rw [List.take_add, List.drop_drop, ← bytes, here.bytes_eq]
  · intro x low high
    simp only [taken] at high
    by_cases mine : x < buf.off + buf.len
    · exact (pending_cons buf rest x).mpr (Or.inl (by omega))
    · exact (pending_cons buf rest x).mpr (Or.inr (were x (by omega) (by omega)))
  · intro other member
    rcases List.mem_cons.mp member with same | member
    · rw [same]
      exact here.consume (Nat.le_refl _)
    · exact holds' other member
  · intro x
    rw [held_cons, held_cons, held]
    exact Iff.rfl
  · intro x
    simp only [taken]
    rw [pending_cons, pending_cons, pending, used]
    show (_ ∧ x < buf.off + buf.len) ∨ _ ↔ _
    constructor
    · intro either
      rcases either with mine | ⟨other, outside⟩
      · omega
      · have behind := (ordered.2.bounds (other.held later)).1
        exact ⟨Or.inr other, by omega⟩
    · intro either
      rcases either with ⟨mine | other, outside⟩
      · omega
      · exact Or.inr ⟨other, by omega⟩
  · simp only [total_cons, taken]
    have : (buf.consume buf.curLen).curLen = 0 := by
      simp only [RangeBuf.consume, RangeBuf.curLen]
      omega
    omega

/-- Taking from the front takes bytes of the stream in order, and leaves the rest to be sent. -/
theorem takeFront_spec (bufs : List RangeBuf) :
    ∀ {lo hi : Nat} (outLen next : Nat), (∀ buf ∈ bufs, Holds stream buf) → Ordered lo bufs hi →
      Taken stream lo hi outLen next bufs (takeFront outLen next bufs).1
        (takeFront outLen next bufs).2 := by
  -- The induction follows the chunks, and the cases are those of the loop.
  induction bufs with
  | nil => exact fun outLen next holds ordered => Taken.refl outLen next holds ordered
  | cons buf rest ih =>
    intro lo hi outLen next holds ordered
    have later : ∀ other ∈ rest, Holds stream other := fun other member =>
      holds other (List.mem_cons_of_mem _ member)
    simp only [takeFront]
    by_cases empty : buf.isEmpty = true
    · rw [if_pos empty]
      exact (ih outLen next later ordered.2).skip (holds buf List.mem_cons_self) ordered empty
    · rw [if_neg empty]
      by_cases stop : outLen = 0 ∨ buf.curOff ≠ next
      · rw [if_pos stop]
        exact Taken.refl outLen next holds ordered
      · rw [if_neg stop]
        obtain rfl : buf.curOff = next := Classical.byContradiction fun this => stop (Or.inr this)
        by_cases short : outLen < buf.curLen
        · rw [if_pos short]
          exact Taken.part holds ordered short
        · rw [if_neg short]
          exact (ih _ _ later ordered.2).whole holds ordered (by omega)

end SendBuf

end Flexicast
