import Flexicast.Ranges.Laws
import Flexicast.Stream.Chunks

/-! Laws of the send buffer: what each operation does to the chunks and to the acknowledged ranges. -/

namespace Flexicast

namespace SendBuf

open RangeBuf (Holds)

/-- The first chunk with something left to send. -/
def firstLeft (bufs : List RangeBuf) : Option RangeBuf := bufs.find? fun buf => !buf.isEmpty

variable {bufs : List RangeBuf} {buf : RangeBuf} {stream : Bytes}

theorem takeFront_stop {outLen next : Nat} (stop : outLen = 0 ∨ ∀ buf, firstLeft bufs = some buf → buf.curOff ≠ next) :
    takeFront outLen next bufs = (bufs, []) := by
  induction bufs with
  | nil => rfl
  | cons buf rest ih =>
    simp only [takeFront]
    by_cases empty : buf.isEmpty = true
    · -- The chunks behind an empty one decide.
      have same : firstLeft (buf :: rest) = firstLeft rest := by
        simp [firstLeft, empty]
      rw [if_pos empty, ih (by rw [← same]; exact stop)]
    · have here : firstLeft (buf :: rest) = some buf := by
        simp [firstLeft, empty]
      rw [if_neg empty, if_pos]
      rcases stop with full | gap
      · exact Or.inl full
      · exact Or.inr (gap buf here)

theorem firstLeft_mem (found : firstLeft bufs = some buf) : buf ∈ bufs ∧ buf.isEmpty = false := by
  have left := List.find?_some found
  exact ⟨List.mem_of_find?_eq_some found, by simpa using left⟩

theorem curOff_lt (holds : Holds stream buf) (left : buf.isEmpty = false) : buf.curOff < buf.off + buf.len := by
  have end_ := holds.wf.maxOff_eq
  unfold RangeBuf.maxOff at end_
  have some_ : buf.curLen ≠ 0 := by simpa [RangeBuf.isEmpty] using left
  omega

/-- Something is taken whenever the first chunk left is the expected one and there is room. -/
theorem takeFront_progress {outLen : Nat} (holds : ∀ buf ∈ bufs, Holds stream buf) (room : 0 < outLen)
    (found : firstLeft bufs = some buf) : 0 < (takeFront outLen buf.curOff bufs).2.length := by
  induction bufs with
  | nil => simp [firstLeft] at found
  | cons head rest ih =>
    simp only [takeFront]
    by_cases empty : head.isEmpty = true
    · -- The first chunk left is behind an empty one.
      rw [if_pos empty]
      refine ih (fun other member => holds other (List.mem_cons_of_mem _ member)) ?_
      simpa [firstLeft, empty] using found
    · have same : head = buf := by simpa [firstLeft, empty] using found
      subst same
      have measure := (holds head List.mem_cons_self).length_bytes
      have some_ : head.curLen ≠ 0 := by simpa [RangeBuf.isEmpty] using empty
      rw [if_neg empty, if_neg (by omega)]
      split
      · rw [List.length_take]
        omega
      · rw [List.length_append]
        omega

/-- The output is filled when everything it has room for is pending, and nothing before it is. -/
theorem takeFront_full (bufs : List RangeBuf) :
    ∀ {lo hi : Nat} (outLen next : Nat), (∀ buf ∈ bufs, Holds stream buf) → Ordered lo bufs hi →
      (∀ x, next ≤ x → x < next + outLen → Pending bufs x) → (∀ x, Pending bufs x → next ≤ x) →
      (takeFront outLen next bufs).2.length = outLen := by
  -- The first chunk left starts at the expected offset, and so does what follows it.
  induction bufs with
  | nil =>
    intro lo hi outLen next _ _ left _
    cases outLen with
    | zero => rfl
    | succ more =>
      have none_ := left next (Nat.le_refl _) (by omega)
      simp at none_
  | cons buf rest ih =>
    intro lo hi outLen next holds ordered left above
    have here := holds buf List.mem_cons_self
    have later : ∀ other ∈ rest, Holds stream other := fun other member =>
      holds other (List.mem_cons_of_mem _ member)
    have behind : ∀ x, Pending rest x → buf.off + buf.len ≤ x := fun x pending =>
      (ordered.2.bounds (pending.held later)).1
    simp only [takeFront]
    by_cases empty : buf.isEmpty = true
    · rw [if_pos empty]
      refine ih outLen next later ordered.2 (fun x low high => ?_) fun x pending => ?_
      · rcases (pending_cons buf rest x).mp (left x low high) with mine | other
        · exact absurd mine (not_pending_of_empty here empty)
        · exact other
      · exact above x ((pending_cons buf rest x).mpr (Or.inr pending))
    · rw [if_neg empty]
      cases outLen with
      | zero => simp
      | succ more =>
        have inside := curOff_lt here (by simpa using empty)
        have first := above buf.curOff ((pending_cons buf rest _).mpr (Or.inl ⟨Nat.le_refl _, inside⟩))
        have same : buf.curOff = next := by
          rcases (pending_cons buf rest next).mp (left next (Nat.le_refl _) (by omega)) with mine | other
          · omega
          · have := behind next other
            omega
        have measure := here.length_bytes
        have end_ : buf.curOff + buf.curLen = buf.off + buf.len := here.wf.maxOff_eq
        rw [if_neg (by omega)]
        by_cases short : more + 1 < buf.curLen
        · rw [if_pos short, List.length_take]
          omega
        · rw [if_neg short, List.length_append, measure,
            ih (more + 1 - buf.curLen) (next + buf.curLen) later ordered.2 ?_ ?_]
          · omega
          · intro x low high
            rcases (pending_cons buf rest x).mp (left x (by omega) (by omega)) with mine | other
            · omega
            · exact other
          · intro x pending
            have := behind x pending
            omega

section Emit

variable {stream : Bytes}

/-- The state of the loop after it took bytes from the chunks behind its index. -/
def settle (front : List RangeBuf) (pos : Nat) (emission : Emission) (taken : List RangeBuf × Bytes) :
    Emission where
  send :=
    { emission.send with
      data := front ++ taken.1
      pos := pos
      len := emission.send.len - taken.2.length }
  outLen := emission.outLen - taken.2.length
  nextOff := emission.nextOff + taken.2.length
  out := emission.out ++ taken.2

variable {front rest : List RangeBuf} {emission : Emission}

theorem settle_nil (data : emission.send.data = front ++ rest) (pos : emission.send.pos = front.length) :
    settle front front.length emission (rest, []) = emission := by
  rcases emission with ⟨send, outLen, nextOff, out⟩
  simp only at data pos
  simp [settle, ← data, ← pos]

/-- What the loop of `emit` returns for the chunks behind its index. -/
def LoopTakes (front rest : List RangeBuf) (emission : Emission) : Prop :=
  ∃ pos, emitLoop rest.length emission =
      settle front pos emission (takeFront emission.outLen emission.nextOff rest) ∧
    front.length ≤ pos ∧ pos ≤ front.length + rest.length ∧
    ∀ buf ∈ (takeFront emission.outLen emission.nextOff rest).1.take (pos - front.length),
      buf.isEmpty = true

theorem offFront_eq {send : SendBuf} {front rest : List RangeBuf} (data : send.data = front ++ rest)
    (pos : send.pos = front.length) :
    send.offFront = match firstLeft rest with
      | some buf => buf.curOff
      | none => send.off := by
  -- The search starts at the index, behind the chunks in front.
  have dropped : send.data.drop send.pos = rest := by rw [data, pos, List.drop_left]
  cases found : rest.find? (fun buf => !buf.isEmpty) with
  | none => simp [offFront, firstLeft, dropped, found]
  | some buf => simp [offFront, firstLeft, dropped, found]

theorem loopTakes_stop {buf : RangeBuf} (data : emission.send.data = front ++ buf :: rest)
    (pos : emission.send.pos = front.length) (ends : emitLoop (buf :: rest).length emission = emission)
    (stop : emission.outLen = 0 ∨
      ∀ other, firstLeft (buf :: rest) = some other → other.curOff ≠ emission.nextOff) :
    LoopTakes front (buf :: rest) emission := by
  -- Nothing is taken in that case, and the index stays where it is.
  have none_ := takeFront_stop stop
  refine ⟨front.length, ?_, Nat.le_refl _, by omega, by simp⟩
  rw [none_, settle_nil data pos]
  exact ends

theorem consumed_take_cons {buf : RangeBuf} {bufs : List RangeBuf} {index pos : Nat} (behind : index < pos)
    (empty : buf.isEmpty = true) (passed : ∀ other ∈ bufs.take (pos - (index + 1)), other.isEmpty = true) :
    ∀ other ∈ (buf :: bufs).take (pos - index), other.isEmpty = true := by
  have split : pos - index = pos - (index + 1) + 1 := by omega
  rw [split, List.take_succ_cons]
  intro other member
  rcases List.mem_cons.mp member with same | member
  · rw [same]
    exact empty
  · exact passed other member

/-- The loop of `emit` breaks before it looks at a chunk. -/
def Emission.breaks (self : Emission) : Bool :=
  self.send.isEmpty || decide (self.send.off ≤ self.send.offFront) || self.send.offFront != self.nextOff ||
    decide (self.send.maxData ≤ self.send.offFront)

/-- The loop behind a chunk that it has used up. -/
def Emission.behind (self : Emission) (front : List RangeBuf) (buf : RangeBuf) (rest : List RangeBuf) : Emission where
  send :=
    { self.send with
      len := self.send.len - buf.curLen
      data := (front ++ [buf.consume buf.curLen]) ++ rest
      pos := front.length + 1 }
  outLen := self.outLen - buf.curLen
  nextOff := self.nextOff + buf.curLen
  out := self.out ++ buf.bytes

section Turns

variable {front rest : List RangeBuf} {buf : RangeBuf} {emission : Emission}

/-- A loop that breaks takes nothing: the chunk left first is not the expected one. -/
theorem loopTakes_breaks (data : emission.send.data = front ++ buf :: rest) (pos : emission.send.pos = front.length)
    (full : emission.outLen ≠ 0) (breaks : emission.breaks = true)
    (below : ∀ other, firstLeft (buf :: rest) = some other → other.curOff < emission.send.off)
    (flow : emission.send.off ≤ emission.send.maxData) : LoopTakes front (buf :: rest) emission := by
  refine loopTakes_stop data pos ?_ (Or.inr ?_)
  · rw [Emission.breaks] at breaks
    simp only [List.length_cons, emitLoop, if_neg full, breaks, if_true]
  · intro other found
    have small := below other found
    have nonempty : emission.send.isEmpty = false := by
      rw [isEmpty, data]
      simp
    simp only [Emission.breaks, nonempty, offFront_eq data pos, found, Bool.false_or, Bool.or_eq_true,
      decide_eq_true_eq, bne_iff_ne] at breaks
    omega

theorem current_eq (data : emission.send.data = front ++ buf :: rest) (pos : emission.send.pos = front.length) :
    emission.send.data[emission.send.pos]? = some buf := by
  rw [data, pos]
  simp

theorem set_here (other : RangeBuf) : (front ++ buf :: rest).set front.length other = front ++ other :: rest := by
  simp

/-- An empty chunk only moves the index. -/
theorem loopTakes_skip (data : emission.send.data = front ++ buf :: rest) (pos : emission.send.pos = front.length)
    (full : emission.outLen ≠ 0) (passes : emission.breaks = false) (empty : buf.isEmpty = true)
    (later : LoopTakes (front ++ [buf]) rest
      { emission with send := { emission.send with pos := emission.send.pos + 1 } }) :
    LoopTakes front (buf :: rest) emission := by
  have step : emitLoop (buf :: rest).length emission = emitLoop rest.length
      { emission with send := { emission.send with pos := emission.send.pos + 1 } } := by
    rw [Emission.breaks] at passes
    simp only [List.length_cons, emitLoop, if_neg full, passes, current_eq data pos, empty, if_true]
    rfl
  have shape : takeFront emission.outLen emission.nextOff (buf :: rest) =
      (buf :: (takeFront emission.outLen emission.nextOff rest).1,
        (takeFront emission.outLen emission.nextOff rest).2) := by
    simp only [takeFront, if_pos empty]
  obtain ⟨pos', ran, low, high, passed⟩ := later
  simp only [List.length_append, List.length_cons, List.length_nil] at low high passed
  refine ⟨pos', ?_, by omega, by simp only [List.length_cons]; omega, ?_⟩
  · rw [step, ran, shape]
    simp [settle]
  · rw [shape]
    exact consumed_take_cons (by omega) empty passed

/-- A chunk that does not fit ends the loop, which stays inside it. -/
theorem loopTakes_short (data : emission.send.data = front ++ buf :: rest) (pos : emission.send.pos = front.length)
    (full : emission.outLen ≠ 0) (passes : emission.breaks = false) (left : buf.isEmpty = false)
    (same : buf.curOff = emission.nextOff) (measure : buf.bytes.length = buf.curLen)
    (short : emission.outLen < buf.curLen) : LoopTakes front (buf :: rest) emission := by
  have shape : takeFront emission.outLen emission.nextOff (buf :: rest) =
      (buf.consume emission.outLen :: rest, buf.bytes.take emission.outLen) := by
    have goes : ¬ (emission.outLen = 0 ∨ buf.curOff ≠ emission.nextOff) := by omega
    simp only [takeFront, left, Bool.false_eq_true, if_false, if_neg goes, if_pos short]
  have taken : (buf.bytes.take emission.outLen).length = emission.outLen := by
    rw [List.length_take]
    omega
  have least : min buf.curLen emission.outLen = emission.outLen := by omega
  refine ⟨front.length, ?_, Nat.le_refl _, by omega, by simp⟩
  rw [Emission.breaks] at passes
  rw [shape]
  simp only [List.length_cons, emitLoop, if_neg full, passes, current_eq data pos, left, least, short,
    decide_true, if_true, Bool.false_eq_true, if_false]
  simp only [settle, taken, data, pos, set_here, same]

/-- A chunk that fits is used up, and the loop goes on behind it. -/
theorem loopTakes_whole (data : emission.send.data = front ++ buf :: rest) (pos : emission.send.pos = front.length)
    (full : emission.outLen ≠ 0) (passes : emission.breaks = false) (left : buf.isEmpty = false)
    (same : buf.curOff = emission.nextOff) (here : Holds stream buf) (fits : buf.curLen ≤ emission.outLen)
    (later : LoopTakes (front ++ [buf.consume buf.curLen]) rest (emission.behind front buf rest)) :
    LoopTakes front (buf :: rest) emission := by
  have measure := here.length_bytes
  have shape : takeFront emission.outLen emission.nextOff (buf :: rest) =
      (buf.consume buf.curLen ::
          (takeFront (emission.outLen - buf.curLen) (emission.nextOff + buf.curLen) rest).1,
        buf.bytes ++ (takeFront (emission.outLen - buf.curLen) (emission.nextOff + buf.curLen) rest).2) := by
    have goes : ¬ (emission.outLen = 0 ∨ buf.curOff ≠ emission.nextOff) := by omega
    simp only [takeFront, left, Bool.false_eq_true, if_false, if_neg goes, if_neg (Nat.not_lt.mpr fits)]
  have least : min buf.curLen emission.outLen = buf.curLen := by omega
  have whole : buf.bytes.take buf.curLen = buf.bytes := by
    rw [← measure, List.take_length]
  have step : emitLoop (buf :: rest).length emission = emitLoop rest.length (emission.behind front buf rest) := by
    rw [Emission.breaks] at passes
    simp only [List.length_cons, emitLoop, if_neg full, passes, current_eq data pos, left, least, Nat.lt_irrefl,
      decide_false, Bool.false_eq_true, if_false, whole]
    simp only [Emission.behind, data, pos, set_here, same, List.append_assoc, List.singleton_append]
  obtain ⟨pos', ran, low, high, passed⟩ := later
  simp only [List.length_append, List.length_cons, List.length_nil] at low high passed
  refine ⟨pos', ?_, by omega, by simp only [List.length_cons]; omega, ?_⟩
  · rw [step, ran, shape]
    simp only [settle, Emission.behind, List.length_append, measure, List.append_assoc, List.singleton_append,
      Emission.mk.injEq, SendBuf.mk.injEq, true_and, and_true]
    omega
  · have used : (buf.consume buf.curLen).isEmpty = true := by
      rw [(here.consume (Nat.le_refl _)).wf.isEmpty_iff]
      have low := here.wf.low
      have high := here.wf.high
      simp only [RangeBuf.consume, RangeBuf.curLen]
      omega
    rw [shape]
    exact consumed_take_cons (by omega) used passed

end Turns

/-- The loop of `emit` takes from the front of the chunks behind its index. -/
theorem emitLoop_takes (rest : List RangeBuf) :
    ∀ (front : List RangeBuf) (emission : Emission) (lo : Nat),
      emission.send.data = front ++ rest → emission.send.pos = front.length →
      (∀ buf ∈ rest, Holds stream buf) → Ordered lo rest emission.send.off →
      emission.send.off ≤ emission.send.maxData → LoopTakes front rest emission := by
  -- The index of the loop splits the chunks, and each turn moves one chunk to the front.
  induction rest with
  | nil =>
    intro front emission lo data pos _ _ _
    exact ⟨front.length, (settle_nil data pos).symm, Nat.le_refl _, Nat.le_refl _, by simp⟩
  | cons buf rest ih =>
    intro front emission lo data pos holds ordered flow
    have here := holds buf List.mem_cons_self
    have later : ∀ other ∈ rest, Holds stream other := fun other member =>
      holds other (List.mem_cons_of_mem _ member)
    by_cases full : emission.outLen = 0
    · refine loopTakes_stop data pos ?_ (Or.inl full)
      simp [emitLoop, full]
    cases breaks : emission.breaks with
    | true =>
      -- Whatever is left starts below the end of the buffered data, which flow control allows.
      refine loopTakes_breaks data pos full breaks (fun other found => ?_) flow
      obtain ⟨member, left⟩ := firstLeft_mem found
      have lt := curOff_lt (holds other member) left
      have from_ := (holds other member).wf.curOff_eq
      exact (ordered.bounds ⟨other, member, by omega, lt⟩).2
    | false =>
      cases empty : buf.isEmpty with
      | true =>
        exact loopTakes_skip data pos full breaks empty
          (ih (front ++ [buf]) _ _ (by simp [data]) (by simp [pos]) later ordered.2 flow)
      | false =>
        have found : firstLeft (buf :: rest) = some buf := by simp [firstLeft, empty]
        have same : buf.curOff = emission.nextOff := by
          simp only [Emission.breaks, offFront_eq data pos, found, Bool.or_eq_false_iff, bne_eq_false_iff_eq] at breaks
          exact breaks.1.2
        by_cases short : emission.outLen < buf.curLen
        · exact loopTakes_short data pos full breaks empty same here.length_bytes short
        · exact loopTakes_whole data pos full breaks empty same here (Nat.le_of_not_lt short)
            (ih _ (emission.behind front buf rest) _ rfl (by simp [Emission.behind]) later ordered.2 flow)

/-- Consumed chunks in front change nothing about what is taken behind them. -/
theorem Taken.behind {after : List RangeBuf} {lo mid hi outLen next : Nat} {out : Bytes}
    (holds : ∀ buf ∈ front, Holds stream buf) (consumed : ∀ buf ∈ front, buf.isEmpty = true)
    (before : Ordered lo front mid) (taken : Taken stream mid hi outLen next rest after out) :
    Taken stream lo hi outLen next (front ++ rest) (front ++ after) out := by
  -- The chunks in front hold bytes, but none of them is pending.
  have none_ : ∀ x, ¬ Pending front x := fun x => not_pending_of_consumed holds consumed
  refine ⟨taken.bytes, taken.fits, ?_, ?_, before.append taken.ordered, ?_, ?_, ?_, ?_⟩
  · exact fun x low high => (pending_append front rest x).mpr (Or.inr (taken.were x low high))
  · intro buf member
    rcases List.mem_append.mp member with inFront | inAfter
    · exact holds buf inFront
    · exact taken.holds buf inAfter
  · rw [List.length_append, List.length_append, taken.size]
  · intro x
    rw [held_append, held_append, taken.held]
  · intro x
    rw [pending_append, pending_append, taken.pending]
    simp [none_ x]
  · rw [total_append, total_append, Nat.add_assoc, taken.total]

end Emit

/-- What holds of a send buffer and the bytes written to its stream. -/
structure Shape (stream : Bytes) (send : SendBuf) : Prop where
  size : stream.length = send.off
  holds : ∀ buf ∈ send.data, Holds stream buf
  ordered : Ordered 0 send.data send.off
  /-- The index is that of a chunk, or behind the last one. -/
  index : send.pos ≤ send.data.length
  consumed : ∀ buf ∈ send.data.take send.pos, buf.isEmpty = true
  flow : send.off ≤ send.maxData
  /-- The length never falls below what is left to send, so it does not underflow. -/
  room : total send.data ≤ send.len

section Shape

variable {stream : Bytes} {send : SendBuf}

theorem Shape.front_length (shape : Shape stream send) :
    (send.data.take send.pos).length = send.pos := by
  rw [List.length_take]
  exact Nat.min_eq_left shape.index

theorem Shape.firstLeft_drop (shape : Shape stream send) :
    firstLeft (send.data.drop send.pos) = firstLeft send.data := by
  -- The chunks before the index are consumed, so the search passes them over.
  have split : firstLeft (send.data.take send.pos ++ send.data.drop send.pos) =
      firstLeft (send.data.drop send.pos) := by
    unfold firstLeft
    rw [List.find?_append, List.find?_eq_none.mpr, Option.none_or]
    intro buf member
    simp [shape.consumed buf member]
  rw [← split, List.take_append_drop]

/-- The front offset is pending and the least such offset, or nothing is pending. -/
theorem Shape.offFront_spec (shape : Shape stream send) :
    (Pending send.data send.offFront ∧ ∀ x, Pending send.data x → send.offFront ≤ x) ∨
      ((∀ x, ¬ Pending send.data x) ∧ send.offFront = send.off) := by
  have front := offFront_eq (List.take_append_drop send.pos send.data).symm shape.front_length.symm
  rw [shape.firstLeft_drop] at front
  -- The chunks before the first one left have nothing pending, and those behind it start later.
  have general : ∀ (bufs : List RangeBuf) (lo : Nat), (∀ buf ∈ bufs, Holds stream buf) →
      Ordered lo bufs send.off →
      match firstLeft bufs with
      | some buf => Pending bufs buf.curOff ∧ ∀ x, Pending bufs x → buf.curOff ≤ x
      | none => ∀ x, ¬ Pending bufs x := by
    intro bufs
    induction bufs with
    | nil => intro lo _ _ x; simp
    | cons buf rest ih =>
      intro lo holds ordered
      have here := holds buf List.mem_cons_self
      have later : ∀ other ∈ rest, Holds stream other := fun other member =>
        holds other (List.mem_cons_of_mem _ member)
      by_cases empty : buf.isEmpty = true
      · have same : firstLeft (buf :: rest) = firstLeft rest := by simp [firstLeft, empty]
        have none_ : ∀ x, ¬ (buf.curOff ≤ x ∧ x < buf.off + buf.len) := fun x =>
          not_pending_of_empty here empty
        have tail := ih _ later ordered.2
        rw [same]
        cases found : firstLeft rest with
        | none =>
          rw [found] at tail
          intro x pending
          rcases (pending_cons buf rest x).mp pending with mine | other
          · exact none_ x mine
          · exact tail x other
        | some first =>
          rw [found] at tail
          refine ⟨(pending_cons buf rest _).mpr (Or.inr tail.1), fun x pending => ?_⟩
          rcases (pending_cons buf rest x).mp pending with mine | other
          · exact absurd mine (none_ x)
          · exact tail.2 x other
      · have found : firstLeft (buf :: rest) = some buf := by simp [firstLeft, empty]
        have inside := curOff_lt here (by simpa using empty)
        rw [found]
        refine ⟨(pending_cons buf rest _).mpr (Or.inl ⟨Nat.le_refl _, inside⟩), fun x pending => ?_⟩
        rcases (pending_cons buf rest x).mp pending with mine | other
        · exact mine.1
        · have := (ordered.2.bounds (other.held later)).1
          omega
  have all := general send.data 0 shape.holds shape.ordered
  cases found : firstLeft send.data with
  | none =>
    rw [found] at all front
    exact Or.inr ⟨all, front⟩
  | some buf =>
    rw [found] at all front
    simp only at all front
    rw [front]
    exact Or.inl all

/-- The loop of `emit` on the whole buffer. -/
theorem Shape.emit_loop (shape : Shape stream send) (outLen : Nat) :
    ∃ pos, emitLoop (send.data.length - send.pos)
        { send := send, outLen := outLen, nextOff := send.offFront, out := [] } =
        settle (send.data.take send.pos) pos
          { send := send, outLen := outLen, nextOff := send.offFront, out := [] }
          (takeFront outLen send.offFront (send.data.drop send.pos)) ∧
      pos ≤ send.data.length ∧
      ∀ buf ∈ (takeFront outLen send.offFront (send.data.drop send.pos)).1.take (pos - send.pos),
        buf.isEmpty = true := by
  -- The law of the loop, with the chunks before the index as its front.
  have whole := (List.take_append_drop send.pos send.data).symm
  have ordered := shape.ordered
  rw [whole] at ordered
  obtain ⟨mid, -, after⟩ := ordered.split
  obtain ⟨pos, ran, -, high, passed⟩ := emitLoop_takes (send.data.drop send.pos)
    (send.data.take send.pos)
    { send := send, outLen := outLen, nextOff := send.offFront, out := [] } mid whole
    shape.front_length.symm (fun buf member => shape.holds buf (List.mem_of_mem_drop member))
    after shape.flow
  rw [shape.front_length] at high passed
  rw [List.length_drop] at ran high
  have index := shape.index
  exact ⟨pos, ran, by omega, passed⟩

theorem Shape.emit_out (shape : Shape stream send) (outLen : Nat) :
    (send.emit outLen).1.1 = (takeFront outLen send.offFront (send.data.drop send.pos)).2 := by
  obtain ⟨pos, ran, -⟩ := shape.emit_loop outLen
  simp only [SendBuf.emit, ran, settle, List.nil_append]

/-- What `emit` returns and leaves behind. -/
theorem Shape.emit_eq (shape : Shape stream send) (outLen : Nat) :
    ∃ out data pos, send.emit outLen =
        ((out, send.finOff == some (send.offFront + out.length)),
          { send with
            data := data
            pos := pos
            len := send.len - out.length
            emitOff := max send.emitOff (send.offFront + out.length) }) ∧
      Taken stream 0 send.off outLen send.offFront send.data data out ∧
      pos ≤ data.length ∧ ∀ buf ∈ data.take pos, buf.isEmpty = true := by
  obtain ⟨pos, ran, high, passed⟩ := shape.emit_loop outLen
  have ordered := shape.ordered
  rw [← List.take_append_drop send.pos send.data] at ordered
  obtain ⟨mid, before, after⟩ := ordered.split
  have taken := takeFront_spec (send.data.drop send.pos) outLen send.offFront
    (fun buf member => shape.holds buf (List.mem_of_mem_drop member)) after
  refine ⟨(takeFront outLen send.offFront (send.data.drop send.pos)).2,
    send.data.take send.pos ++ (takeFront outLen send.offFront (send.data.drop send.pos)).1,
    pos, ?_, ?_, ?_, ?_⟩
  · simp only [SendBuf.emit, ran, settle, List.nil_append]
  · -- The consumed chunks in front take no part.
    have lifted := taken.behind
      (fun buf member => shape.holds buf (List.mem_of_mem_take member)) shape.consumed before
    rw [List.take_append_drop] at lifted
    exact lifted
  · rw [List.length_append, taken.size, ← List.length_append, List.take_append_drop]
    exact high
  · intro buf member
    rw [List.take_append, shape.front_length] at member
    rcases List.mem_append.mp member with inFront | behind
    · exact shape.consumed buf (List.mem_of_mem_take inFront)
    · exact passed buf behind

/-- Sending keeps the shape of the buffer. -/
theorem Shape.emit (shape : Shape stream send) (outLen : Nat) : Shape stream (send.emit outLen).2 := by
  obtain ⟨out, data, pos, ran, taken, index, consumed⟩ := shape.emit_eq outLen
  have room := shape.room
  have sum := taken.total
  rw [ran]
  refine ⟨shape.size, taken.holds, taken.ordered, index, consumed, shape.flow, ?_⟩
  show total data ≤ send.len - out.length
  omega

theorem Shape.emit_taken (shape : Shape stream send) (outLen : Nat) :
    Taken stream 0 send.off outLen send.offFront send.data (send.emit outLen).2.data
      (send.emit outLen).1.1 := by
  obtain ⟨out, data, pos, ran, taken, -⟩ := shape.emit_eq outLen
  rw [ran]
  exact taken

/-- What is sent ends within what was written. -/
theorem Shape.emit_within (shape : Shape stream send) (outLen : Nat) :
    send.offFront + (send.emit outLen).1.1.length ≤ send.off := by
  have taken := shape.emit_taken outLen
  by_cases none_ : (send.emit outLen).1.1.length = 0
  · -- Nothing is sent from a pending byte, or from the end of the stream.
    rcases shape.offFront_spec with ⟨pending, _⟩ | ⟨_, end_⟩
    · have := (shape.ordered.bounds (pending.held shape.holds)).2
      omega
    · omega
  · -- The last byte that is sent was pending, and so it was written.
    have last := taken.were (send.offFront + (send.emit outLen).1.1.length - 1) (by omega) (by omega)
    have := (shape.ordered.bounds (last.held shape.holds)).2
    omega

theorem Shape.emit_progress (shape : Shape stream send) {outLen x : Nat} (room : 0 < outLen)
    (left : Pending send.data x) : 0 < (send.emit outLen).1.1.length := by
  have front := offFront_eq (List.take_append_drop send.pos send.data).symm shape.front_length.symm
  have holds : ∀ buf ∈ send.data.drop send.pos, Holds stream buf := fun buf member =>
    shape.holds buf (List.mem_of_mem_drop member)
  cases found : firstLeft (send.data.drop send.pos) with
  | none =>
    -- Without a chunk left nothing would be pending.
    rw [shape.firstLeft_drop] at found
    refine absurd left (not_pending_of_consumed shape.holds fun buf member => ?_)
    simpa using List.find?_eq_none.mp found buf member
  | some buf =>
    rw [found] at front
    simp only at front
    rw [shape.emit_out, front]
    exact takeFront_progress holds room found

/-- The output is filled when everything it has room for is to be sent. -/
theorem Shape.emit_full (shape : Shape stream send) (outLen : Nat)
    (left : ∀ x, send.offFront ≤ x → x < send.offFront + outLen → Pending send.data x) :
    (send.emit outLen).1.1.length = outLen := by
  have ordered := shape.ordered
  rw [← List.take_append_drop send.pos send.data] at ordered
  obtain ⟨mid, -, after⟩ := ordered.split
  -- The chunks before the index have nothing pending.
  have behind : ∀ x, Pending send.data x → Pending (send.data.drop send.pos) x := by
    intro x pending
    rw [← List.take_append_drop send.pos send.data, pending_append] at pending
    rcases pending with front | back
    · exact absurd front (not_pending_of_consumed
        (fun buf member => shape.holds buf (List.mem_of_mem_take member)) shape.consumed)
    · exact back
  have whole : ∀ x, Pending (send.data.drop send.pos) x → Pending send.data x := by
    intro x pending
    rw [← List.take_append_drop send.pos send.data, pending_append]
    exact Or.inr pending
  rw [shape.emit_out]
  refine takeFront_full (send.data.drop send.pos) outLen send.offFront
    (fun buf member => shape.holds buf (List.mem_of_mem_drop member)) after
    (fun x low high => behind x (left x low high)) fun x pending => ?_
  rcases shape.offFront_spec with ⟨-, least⟩ | ⟨none_, -⟩
  · exact least x (whole x pending)
  · exact absurd (whole x pending) (none_ x)

end Shape

section Retransmit

variable {stream : Bytes} {off maxOff : Nat}

variable {buf : RangeBuf} {lo hi : Nat} {rest after : List RangeBuf}

/-- A rewound chunk holds what it held, and its bytes from the given offset on are pending again. -/
theorem holds_rewind (holds : Holds stream buf) (off : Nat) (reaches : off ≤ buf.off + buf.len) :
    Holds stream (rewind off buf) ∧
      (∀ x, ((rewind off buf).curOff ≤ x ∧ x < buf.off + buf.len) ↔
        (buf.curOff ≤ x ∧ x < buf.off + buf.len) ∨
          (off ≤ x ∧ buf.off ≤ x ∧ x < buf.off + buf.len)) ∧
      (rewind off buf).curLen = buf.curLen + (buf.pos - (rewind off buf).pos) := by
  obtain ⟨⟨fits, low, high, shifted⟩, inside, window⟩ := holds
  have end_ : buf.maxOff = buf.off + buf.len := RangeBuf.Wf.maxOff_eq ⟨fits, low, high, shifted⟩
  -- The position moves to the offset, or to the start of a window that lies behind it.
  have moved : (SendBuf.rewind off buf).pos =
      if buf.off < off then min buf.pos (buf.start + (off - buf.off)) else buf.start := by
    unfold SendBuf.rewind
    simp only [end_]
    by_cases before : buf.off < off
    · rw [if_pos ⟨before, reaches⟩, if_pos before]
    · rw [if_neg (fun both => before both.1), if_neg before]
  have start : (SendBuf.rewind off buf).start = buf.start := rfl
  have length : (SendBuf.rewind off buf).len = buf.len := rfl
  have offset : (SendBuf.rewind off buf).off = buf.off := rfl
  have bounds : buf.start ≤ (SendBuf.rewind off buf).pos ∧ (SendBuf.rewind off buf).pos ≤ buf.pos := by
    rw [moved]
    split <;> omega
  refine ⟨⟨⟨fits, ?_, ?_, shifted⟩, inside, window⟩, ?_, ?_⟩
  · exact bounds.1
  · exact Nat.le_trans bounds.2 high
  · intro x
    simp only [RangeBuf.curOff, start, offset, moved]
    split <;> omega
  · simp only [RangeBuf.curLen, start, length]
    omega

/-- Splitting a chunk parts what it holds and what of it is pending. -/
theorem holds_splitOff (holds : Holds stream buf) (low : buf.off < maxOff) (high : maxOff < buf.off + buf.len) :
    Holds stream (buf.splitOff (maxOff - buf.off)).1 ∧
      Holds stream (buf.splitOff (maxOff - buf.off)).2 ∧
      (∀ x, ((buf.splitOff (maxOff - buf.off)).1.curOff ≤ x ∧ x < maxOff) ↔
        (buf.curOff ≤ x ∧ x < maxOff)) ∧
      (∀ x, ((buf.splitOff (maxOff - buf.off)).2.curOff ≤ x ∧ x < buf.off + buf.len) ↔
        (buf.curOff ≤ x ∧ maxOff ≤ x ∧ x < buf.off + buf.len)) ∧
      (buf.splitOff (maxOff - buf.off)).1.curLen + (buf.splitOff (maxOff - buf.off)).2.curLen =
        buf.curLen := by
  -- The position of a chunk may lie in either half, which the offsets account for.
  obtain ⟨first, second⟩ := holds.splitOff (show maxOff - buf.off ≤ buf.len by omega)
  obtain ⟨fits, start, stop, shifted⟩ := holds.wf
  refine ⟨first, second, ?_, ?_, ?_⟩
  · intro x
    simp only [RangeBuf.splitOff, RangeBuf.curOff]
    omega
  · intro x
    simp only [RangeBuf.splitOff, RangeBuf.curOff]
    omega
  · simp only [RangeBuf.splitOff, RangeBuf.curLen]
    omega

/-- What holds after a range was marked to be sent again. -/
structure Rewound (stream : Bytes) (lo hi off maxOff : Nat) (bufs after : List RangeBuf) : Prop where
  holds : ∀ buf ∈ after, Holds stream buf
  ordered : Ordered lo after hi
  size : bufs.length ≤ after.length
  held : ∀ x, Held after x ↔ Held bufs x
  /-- What is buffered of the range is pending, and everything that was. -/
  pending : ∀ x, Pending after x ↔ Pending bufs x ∨ ((off ≤ x ∧ x < maxOff) ∧ Held bufs x)

theorem Rewound.refl {bufs : List RangeBuf} (holds : ∀ buf ∈ bufs, Holds stream buf) (ordered : Ordered lo bufs hi)
    (apart : ∀ x, off ≤ x ∧ x < maxOff → ¬ Held bufs x) : Rewound stream lo hi off maxOff bufs bufs := by
  refine ⟨holds, ordered, Nat.le_refl _, fun _ => Iff.rfl, fun x => ⟨Or.inl, ?_⟩⟩
  intro either
  rcases either with pending | ⟨inside, held⟩
  · exact pending
  · exact absurd held (apart x inside)

/-- A chunk that ends before the range is left alone. -/
theorem Rewound.skip (here : Holds stream buf) (ordered : Ordered lo (buf :: rest) hi) (before : buf.maxOff < off)
    (rewound : Rewound stream (buf.off + buf.len) hi off maxOff rest after) :
    Rewound stream lo hi off maxOff (buf :: rest) (buf :: after) := by
  have end_ := here.wf.maxOff_eq
  refine ⟨?_, ⟨ordered.1, rewound.ordered⟩, ?_, ?_, ?_⟩
  · intro other member
    rcases List.mem_cons.mp member with same | member
    · rw [same]
      exact here
    · exact rewound.holds other member
  · exact Nat.succ_le_succ rewound.size
  · intro x
    rw [held_cons, held_cons, rewound.held]
  · intro x
    rw [pending_cons, pending_cons, held_cons, rewound.pending]
    constructor
    · intro either
      rcases either with mine | other | ⟨inside, held⟩
      · exact Or.inl (Or.inl mine)
      · exact Or.inl (Or.inr other)
      · exact Or.inr ⟨inside, Or.inr held⟩
    · intro either
      rcases either with (mine | other) | ⟨inside, mine | held⟩
      · exact Or.inl mine
      · exact Or.inr (Or.inl other)
      · -- The chunk holds nothing of the range.
        omega
      · exact Or.inr (Or.inr ⟨inside, held⟩)

/-- A chunk in which the range ends is split there, and its first half is rewound. -/
theorem Rewound.split (forward : off ≤ maxOff) (holds : ∀ other ∈ buf :: rest, Holds stream other)
    (ordered : Ordered lo (buf :: rest) hi) (past : buf.off < maxOff) (inner : maxOff < buf.maxOff) :
    Rewound stream lo hi off maxOff (buf :: rest)
      (rewind off (buf.splitOff (maxOff - buf.off)).1 :: (buf.splitOff (maxOff - buf.off)).2 :: rest) := by
  have here := holds buf List.mem_cons_self
  have end_ := here.wf.maxOff_eq
  have behind : ∀ x, Held rest x → buf.off + buf.len ≤ x := fun x held => (ordered.2.bounds held).1
  obtain ⟨first, second, firstLeft, secondLeft, -⟩ := holds_splitOff here past (by omega)
  have firstEnd : (buf.splitOff (maxOff - buf.off)).1.off + (buf.splitOff (maxOff - buf.off)).1.len = maxOff := by
    simp only [RangeBuf.splitOff]
    omega
  have secondEnd : (buf.splitOff (maxOff - buf.off)).2.off + (buf.splitOff (maxOff - buf.off)).2.len =
      buf.off + buf.len := by
    simp only [RangeBuf.splitOff]
    omega
  have secondStart : (buf.splitOff (maxOff - buf.off)).2.off = maxOff := by
    simp only [RangeBuf.splitOff]
    omega
  have firstStart : (buf.splitOff (maxOff - buf.off)).1.off = buf.off := rfl
  obtain ⟨again, marks, -⟩ := holds_rewind first off (by omega)
  refine ⟨?_, ⟨ordered.1, ?_, ?_⟩, by simp, ?_, ?_⟩
  · intro other member
    rcases List.mem_cons.mp member with same | member
    · rw [same]
      exact again
    · rcases List.mem_cons.mp member with same | member
      · rw [same]
        exact second
      · exact holds other (List.mem_cons_of_mem _ member)
  · rw [secondStart]
    exact Nat.le_of_eq firstEnd
  · rw [secondEnd]
    exact ordered.2
  · intro x
    rw [held_cons, held_cons, held_cons, secondEnd, secondStart]
    show (buf.off ≤ x ∧ x < (buf.splitOff (maxOff - buf.off)).1.off +
      (buf.splitOff (maxOff - buf.off)).1.len) ∨ _ ↔ _
    rw [firstEnd]
    constructor
    · intro either
      rcases either with mine | mine | other
      · exact Or.inl (by omega)
      · exact Or.inl (by omega)
      · exact Or.inr other
    · intro either
      rcases either with mine | other
      · by_cases early : x < maxOff
        · exact Or.inl ⟨mine.1, early⟩
        · exact Or.inr (Or.inl ⟨by omega, mine.2⟩)
      · exact Or.inr (Or.inr other)
  · intro x
    have mark := marks x
    rw [firstEnd] at mark
    rw [pending_cons, pending_cons, pending_cons, held_cons, secondEnd]
    show (_ ∧ x < (buf.splitOff (maxOff - buf.off)).1.off +
      (buf.splitOff (maxOff - buf.off)).1.len) ∨ _ ↔ _
    rw [firstEnd, mark, firstLeft x, secondLeft x, firstStart]
    constructor
    · intro either
      rcases either with (mine | marked) | mine | other
      · exact Or.inl (Or.inl ⟨mine.1, by omega⟩)
      · exact Or.inr ⟨⟨marked.1, marked.2.2⟩, Or.inl ⟨marked.2.1, by omega⟩⟩
      · exact Or.inl (Or.inl ⟨mine.1, mine.2.2⟩)
      · exact Or.inl (Or.inr other)
    · intro either
      rcases either with (mine | other) | ⟨inside, mine | held⟩
      · by_cases early : x < maxOff
        · exact Or.inl (Or.inl ⟨mine.1, early⟩)
        · exact Or.inr (Or.inl ⟨mine.1, by omega, mine.2⟩)
      · exact Or.inr (Or.inr other)
      · exact Or.inl (Or.inr ⟨inside.1, mine.1, inside.2⟩)
      · -- The chunks behind this one lie behind the range too.
        have := behind x held
        omega

/-- A chunk that ends inside the range is rewound. -/
theorem Rewound.mark (here : Holds stream buf) (ordered : Ordered lo (buf :: rest) hi) (reaches : off ≤ buf.maxOff)
    (inside : buf.maxOff ≤ maxOff) (rewound : Rewound stream (buf.off + buf.len) hi off maxOff rest after) :
    Rewound stream lo hi off maxOff (buf :: rest) (rewind off buf :: after) := by
  have end_ := here.wf.maxOff_eq
  obtain ⟨again, marks, -⟩ := holds_rewind here off (by omega)
  refine ⟨?_, ⟨ordered.1, rewound.ordered⟩, ?_, ?_, ?_⟩
  · intro other member
    rcases List.mem_cons.mp member with same | member
    · rw [same]
      exact again
    · exact rewound.holds other member
  · exact Nat.succ_le_succ rewound.size
  · intro x
    rw [held_cons, held_cons, rewound.held]
    exact Iff.rfl
  · intro x
    have mark := marks x
    rw [pending_cons, pending_cons, held_cons, rewound.pending]
    show (_ ∧ x < buf.off + buf.len) ∨ _ ↔ _
    rw [mark]
    constructor
    · intro either
      rcases either with (mine | marked) | other | ⟨inside, held⟩
      · exact Or.inl (Or.inl mine)
      · exact Or.inr ⟨by omega, Or.inl marked.2⟩
      · exact Or.inl (Or.inr other)
      · exact Or.inr ⟨inside, Or.inr held⟩
    · intro either
      rcases either with (mine | other) | ⟨inside, mine | held⟩
      · exact Or.inl (Or.inl mine)
      · exact Or.inr (Or.inl other)
      · exact Or.inl (Or.inr ⟨inside.1, mine⟩)
      · exact Or.inr (Or.inr ⟨inside, held⟩)

theorem take_consumed {index pos later : Nat} (le : later ≤ pos)
    (consumed : (∀ other ∈ rest.take (pos - (index + 1)), other.isEmpty = true) →
      ∀ other ∈ after.take (later - (index + 1)), other.isEmpty = true)
    (empties : ∀ other ∈ (buf :: rest).take (pos - index), other.isEmpty = true) :
    ∀ other ∈ (buf :: after).take (later - index), other.isEmpty = true := by
  by_cases passed : later ≤ index
  · rw [Nat.sub_eq_zero_of_le passed]
    simp
  · have split : pos - index = pos - (index + 1) + 1 := by omega
    rw [split, List.take_succ_cons] at empties
    have others := consumed fun another among => empties another (List.mem_cons_of_mem _ among)
    exact consumed_take_cons (by omega) (empties buf List.mem_cons_self) others

/-- The index never moves forward in `retransmit`. -/
theorem retransmitLoop_pos_le (off maxOff : Nat) (bufs : List RangeBuf) :
    ∀ index pos len, (retransmitLoop off maxOff index bufs (pos, len)).2.1 ≤ pos := by
  -- Each chunk that is sent again can only move the index back to itself.
  induction bufs with
  | nil => exact fun index pos len => Nat.le_refl _
  | cons buf rest ih =>
    intro index pos len
    simp only [retransmitLoop]
    split
    · exact Nat.le_refl _
    · split
      · exact ih (index + 1) pos len
      · split
        · exact Nat.min_le_left _ _
        · exact Nat.le_trans (ih _ _ _) (Nat.min_le_left _ _)

/-- The loop of `retransmit` marks what is buffered of the range, and accounts for it. -/
theorem retransmitLoop_spec (forward : off ≤ maxOff) (bufs : List RangeBuf) :
    ∀ (index pos len : Nat) {lo hi : Nat}, (∀ buf ∈ bufs, Holds stream buf) → Ordered lo bufs hi →
      Rewound stream lo hi off maxOff bufs (retransmitLoop off maxOff index bufs (pos, len)).1 ∧
      total (retransmitLoop off maxOff index bufs (pos, len)).1 + len =
        total bufs + (retransmitLoop off maxOff index bufs (pos, len)).2.2 ∧
      ((∀ buf ∈ bufs.take (pos - index), buf.isEmpty = true) →
        ∀ buf ∈ (retransmitLoop off maxOff index bufs (pos, len)).1.take
          ((retransmitLoop off maxOff index bufs (pos, len)).2.1 - index), buf.isEmpty = true) := by
  -- The induction follows the chunks, and the cases are those of the loop.
  induction bufs with
  | nil =>
    intro index pos len lo hi holds ordered
    exact ⟨Rewound.refl holds ordered (by simp), by simp [retransmitLoop], by simp [retransmitLoop]⟩
  | cons buf rest ih =>
    intro index pos len lo hi holds ordered
    have here := holds buf List.mem_cons_self
    have later : ∀ other ∈ rest, Holds stream other := fun other member =>
      holds other (List.mem_cons_of_mem _ member)
    have end_ := here.wf.maxOff_eq
    simp only [retransmitLoop]
    by_cases past : maxOff ≤ buf.off
    · -- The range ends before this chunk, and thus before all that follow.
      rw [if_pos past]
      refine ⟨Rewound.refl holds ordered ?_, rfl, fun consumed => consumed⟩
      intro x inside held
      rcases (held_cons buf rest x).mp held with mine | other
      · omega
      · have behind := (ordered.2.bounds other).1
        omega
    · rw [if_neg past]
      by_cases before : buf.maxOff < off
      · -- The chunk ends before the range; it is before the index only if it was before, and then it is consumed.
        rw [if_pos before]
        obtain ⟨rewound, sum, consumed⟩ := ih (index + 1) pos len later ordered.2
        have posLe := retransmitLoop_pos_le off maxOff rest (index + 1) pos len
        refine ⟨rewound.skip here ordered before, ?_, take_consumed posLe consumed⟩
        simp only [total_cons]
        omega
      · rw [if_neg before]
        by_cases inner : maxOff < buf.maxOff
        · -- The range ends inside the chunk, which is split there.
          rw [if_pos inner]
          have start : buf.off < maxOff := by omega
          obtain ⟨first, -, -, -, sum⟩ := holds_splitOff here start (by omega)
          have firstEnd : (buf.splitOff (maxOff - buf.off)).1.off +
              (buf.splitOff (maxOff - buf.off)).1.len = maxOff := by
            simp only [RangeBuf.splitOff]
            omega
          obtain ⟨-, -, grows⟩ := holds_rewind first off (by omega)
          refine ⟨Rewound.split forward holds ordered start inner, ?_, ?_⟩
          · simp only [total_cons]
            omega
          · intro _ other member
            have none_ : min pos index - index = 0 := by omega
            simp only [none_] at member
            simp at member
        · -- The whole chunk from the offset on is marked, and the loop goes on.
          rw [if_neg inner]
          obtain ⟨-, -, grows⟩ := holds_rewind here off (by omega)
          obtain ⟨rewound, sum, -⟩ := ih (index + 1) (min pos index)
            (len + (buf.pos - (rewind off buf).pos)) later ordered.2
          have posLe := retransmitLoop_pos_le off maxOff rest (index + 1) (min pos index)
            (len + (buf.pos - (rewind off buf).pos))
          refine ⟨rewound.mark here ordered (by omega) (by omega), ?_, ?_⟩
          · simp only [total_cons]
            omega
          · intro _ other member
            have none_ : (retransmitLoop off maxOff (index + 1) rest
                (min pos index, len + (buf.pos - (rewind off buf).pos))).2.1 - index = 0 := by
              omega
            simp only [none_] at member
            simp at member

end Retransmit

section Operations

variable {stream : Bytes} {send : SendBuf}

theorem retransmit_frame (send : SendBuf) (off len : Nat) :
    ∃ data pos len', send.retransmit off len = { send with data := data, pos := pos, len := len' } := by
  simp only [SendBuf.retransmit]
  split
  · exact ⟨send.data, send.pos, send.len, rfl⟩
  · split
    · exact ⟨send.data, send.pos, send.len, rfl⟩
    · exact ⟨_, _, _, rfl⟩

theorem pushChunks_frame (fin : Bool) (fuel : Nat) :
    ∀ data (send : SendBuf), ∃ bufs off len,
      pushChunks fin fuel data send = { send with data := bufs, off := off, len := len } := by
  -- Every turn appends one chunk, and the last one may be final.
  induction fuel with
  | zero => exact fun _ send => ⟨send.data, send.off, send.len, rfl⟩
  | succ fuel ih =>
    intro data send
    simp only [SendBuf.pushChunks]
    split
    · exact ⟨send.data, send.off, send.len, rfl⟩
    · obtain ⟨bufs, off, len, frame⟩ := ih (data.drop sendBufferSize) { send with
        data := send.data ++ [RangeBuf.fromSlice (data.take sendBufferSize) send.off
          ((data.drop sendBufferSize).isEmpty && fin)]
        off := send.off + (data.take sendBufferSize).length
        len := send.len + (data.take sendBufferSize).length }
      exact ⟨bufs, off, len, frame⟩

/-- A write only touches the chunks, the end of the buffer, the length and the final offset. -/
theorem write_frame {send after : SendBuf} {data : Bytes} {fin : Bool} {count : Nat}
    (ran : send.write data fin = .ok (count, after)) :
    ∃ bufs off len finOff,
      after = { send with data := bufs, off := off, len := len, finOff := finOff } := by
  unfold SendBuf.write at ran
  split at ran
  · simp at ran
  · rename_i capacity _
    simp only at ran
    generalize (if capacity < data.length then data.take capacity else data) = stored at ran
    generalize (if capacity < data.length then false else fin) = flag at ran
    split at ran
    · simp at ran
    · -- The final offset is set before the data is appended.
      have marks : ∃ finOff, (if flag then { send with finOff := some (send.off + data.length) } else send) =
          { send with finOff := finOff } := by
        cases flag with
        | false => exact ⟨send.finOff, rfl⟩
        | true => exact ⟨_, rfl⟩
      obtain ⟨finOff, marked⟩ := marks
      rw [marked] at ran
      split at ran
      · simp only [Except.ok.injEq, Prod.mk.injEq] at ran
        exact ⟨send.data, send.off, send.len, finOff, ran.2.symm⟩
      · split at ran
        · simp only [Except.ok.injEq, Prod.mk.injEq] at ran
          exact ⟨send.data, send.off, send.len, finOff, ran.2.symm⟩
        · simp only [Except.ok.injEq, Prod.mk.injEq] at ran
          obtain ⟨bufs, off, len, frame⟩ := pushChunks_frame flag stored.length stored
            { send with finOff := finOff }
          exact ⟨bufs, off, len, finOff, by rw [← ran.2, frame]⟩

/-- A write within the limits is refused only because of a known final size. -/
theorem write_error {data : Bytes} {fin : Bool} {error : StreamError} (open_ : send.error = none)
    (flow : send.off ≤ send.maxData) (failed : send.write data fin = .error error) : error = .finalSize := by
  -- With capacity at hand the first test that can fail is the one of the final offset.
  have capacity : send.cap = .ok (send.maxData - send.off) := by
    rw [cap, open_]
    exact if_neg (Nat.not_lt.mpr flow)
  unfold SendBuf.write at failed
  rw [capacity] at failed
  simp only at failed
  generalize (if send.maxData - send.off < data.length then data.take (send.maxData - send.off) else data) =
    stored at failed
  generalize (if send.maxData - send.off < data.length then false else fin) = flag at failed
  generalize (if flag then { send with finOff := some (send.off + data.length) } else send) = marked at failed
  split at failed
  · simp only [Except.error.injEq] at failed
    exact failed.symm
  · split at failed
    · simp at failed
    · split at failed
      · simp at failed
      · simp at failed

/-- Marking a range to be sent again keeps the shape of the buffer and what it holds. -/
theorem Shape.retransmit (shape : Shape stream send) (off len : Nat) :
    Shape stream (send.retransmit off len) ∧
      (∀ x, Held (send.retransmit off len).data x ↔ Held send.data x) ∧
      (∀ x, Pending send.data x → Pending (send.retransmit off len).data x) ∧
      (∀ x, Pending (send.retransmit off len).data x →
        Pending send.data x ∨ ((off ≤ x ∧ x < off + len) ∧ Held send.data x)) ∧
      (send.ackOff < off + len → ∀ x, off ≤ x ∧ x < off + len → Held send.data x →
        Pending (send.retransmit off len).data x) := by
  unfold SendBuf.retransmit
  by_cases empty : send.data.isEmpty = true
  · -- Without chunks there is nothing to mark.
    have none_ : send.data = [] := List.isEmpty_iff.mp empty
    rw [if_pos empty]
    exact ⟨shape, fun _ => Iff.rfl, fun _ pending => pending, fun _ pending => Or.inl pending,
      fun _ x _ held => by simp [none_] at held⟩
  · rw [if_neg empty]
    by_cases acked : off + len ≤ send.ackOff
    · rw [if_pos acked]
      exact ⟨shape, fun _ => Iff.rfl, fun _ pending => pending, fun _ pending => Or.inl pending,
        fun beyond => by omega⟩
    · rw [if_neg acked]
      obtain ⟨rewound, sum, consumed⟩ := retransmitLoop_spec (Nat.le_add_right off len) send.data 0
        send.pos send.len shape.holds shape.ordered
      have posLe := retransmitLoop_pos_le off (off + len) send.data 0 send.pos send.len
      have index := shape.index
      have size := rewound.size
      have room := shape.room
      simp only [Nat.sub_zero] at consumed
      refine ⟨⟨shape.size, rewound.holds, rewound.ordered, ?_, consumed shape.consumed, shape.flow, ?_⟩,
        rewound.held, fun x pending => (rewound.pending x).mpr (Or.inl pending),
        fun x => (rewound.pending x).mp,
        fun _ x inside held => (rewound.pending x).mpr (Or.inr ⟨inside, held⟩)⟩
      · show (retransmitLoop off (off + len) 0 send.data (send.pos, send.len)).2.1 ≤
          (retransmitLoop off (off + len) 0 send.data (send.pos, send.len)).1.length
        omega
      · show total (retransmitLoop off (off + len) 0 send.data (send.pos, send.len)).1 ≤
          (retransmitLoop off (off + len) 0 send.data (send.pos, send.len)).2.2
        omega

/-- Appending a chunk extends the stream, and what is held and pending, by its bytes. -/
theorem Shape.push (shape : Shape stream send) (chunk : Bytes) (fin : Bool)
    (fits : send.off + chunk.length ≤ send.maxData) :
    Shape (stream ++ chunk)
        { send with
          data := send.data ++ [RangeBuf.fromSlice chunk send.off fin]
          off := send.off + chunk.length
          len := send.len + chunk.length } ∧
      ∀ x, (Held (send.data ++ [RangeBuf.fromSlice chunk send.off fin]) x ↔
          Held send.data x ∨ (send.off ≤ x ∧ x < send.off + chunk.length)) ∧
        (Pending (send.data ++ [RangeBuf.fromSlice chunk send.off fin]) x ↔
          Pending send.data x ∨ (send.off ≤ x ∧ x < send.off + chunk.length)) := by
  -- The new chunk starts at the end of the buffer, where the stream ended so far.
  have size := shape.size
  have room := shape.room
  have index := shape.index
  have start : (RangeBuf.fromSlice chunk send.off fin).curOff = send.off := by
    simp [RangeBuf.fromSlice, RangeBuf.curOff]
  have left : (RangeBuf.fromSlice chunk send.off fin).curLen = chunk.length := by
    simp [RangeBuf.fromSlice, RangeBuf.curLen]
  constructor
  · refine ⟨by rw [List.length_append, size], ?_, ?_, ?_, ?_, fits, ?_⟩
    · intro buf member
      rcases List.mem_append.mp member with old | new
      · exact (shape.holds buf old).extend chunk
      · rw [List.mem_singleton] at new
        rw [new, ← size]
        exact RangeBuf.holds_fromSlice stream chunk fin
    · exact shape.ordered.append ⟨Nat.le_refl _, Nat.le_refl _⟩
    · rw [List.length_append]
      exact Nat.le_trans index (Nat.le_add_right _ _)
    · intro buf member
      rw [List.take_append_of_le_length index] at member
      exact shape.consumed buf member
    · rw [total_append, total_cons, total_nil, left]
      show total send.data + (chunk.length + 0) ≤ send.len + chunk.length
      omega
  · intro x
    rw [held_append, pending_append, held_cons, pending_cons, held_nil, pending_nil, start]
    simp [RangeBuf.fromSlice]

theorem or_range_append {old : Prop} {start first second x : Nat} :
    (old ∨ (start ≤ x ∧ x < start + first)) ∨ (start + first ≤ x ∧ x < start + first + second) ↔
      old ∨ (start ≤ x ∧ x < start + (first + second)) := by
  rw [or_assoc]
  refine or_congr_right ?_
  omega

/-- Appending data in chunks extends the stream, and what is held and pending, by the data. -/
theorem Shape.pushChunks (fin : Bool) (fuel : Nat) :
    ∀ {stream : Bytes} {send : SendBuf} (data : Bytes), Shape stream send → data.length ≤ fuel →
      send.off + data.length ≤ send.maxData →
      Shape (stream ++ data) (pushChunks fin fuel data send) ∧
      (∃ bufs len, SendBuf.pushChunks fin fuel data send =
        { send with data := bufs, off := send.off + data.length, len := len }) ∧
      ∀ x, (Held (SendBuf.pushChunks fin fuel data send).data x ↔
          Held send.data x ∨ (send.off ≤ x ∧ x < send.off + data.length)) ∧
        (Pending (SendBuf.pushChunks fin fuel data send).data x ↔
          Pending send.data x ∨ (send.off ≤ x ∧ x < send.off + data.length)) := by
  -- Each turn of the loop appends one chunk, and leaves less data.
  induction fuel with
  | zero =>
    intro stream send data shape enough _
    have none_ : data = [] := List.eq_nil_of_length_eq_zero (by omega)
    subst none_
    refine ⟨by simpa [SendBuf.pushChunks] using shape, ⟨send.data, send.len, rfl⟩, fun x => ?_⟩
    simp only [SendBuf.pushChunks, List.length_nil]
    constructor
    · exact ⟨Or.inl, fun either => either.elim id fun both => by omega⟩
    · exact ⟨Or.inl, fun either => either.elim id fun both => by omega⟩
  | succ fuel ih =>
    intro stream send data shape enough fits
    simp only [SendBuf.pushChunks]
    by_cases empty : data.isEmpty = true
    · have none_ : data = [] := List.isEmpty_iff.mp empty
      subst none_
      refine ⟨by simpa using shape, ⟨send.data, send.len, rfl⟩, fun x => ?_⟩
      simp only [List.isEmpty_nil, if_true, List.length_nil]
      constructor
      · exact ⟨Or.inl, fun either => either.elim id fun both => by omega⟩
      · exact ⟨Or.inl, fun either => either.elim id fun both => by omega⟩
    · rw [if_neg empty]
      have some_ : 0 < data.length := List.length_pos_iff.mpr fun this => empty (by simp [this])
      have positive : 0 < sendBufferSize := by decide
      have measure : (data.take sendBufferSize).length + (data.drop sendBufferSize).length =
          data.length := by
        rw [← List.length_append, List.take_append_drop]
      have chunk : 0 < (data.take sendBufferSize).length := by
        rw [List.length_take]
        omega
      obtain ⟨pushed, grows⟩ := shape.push (data.take sendBufferSize)
        ((data.drop sendBufferSize).isEmpty && fin) (by omega)
      obtain ⟨shaped, ⟨bufs, len, frame⟩, more⟩ := ih (data.drop sendBufferSize) pushed (by omega)
        (by simp only; omega)
      rw [List.append_assoc, List.take_append_drop] at shaped
      refine ⟨shaped, ⟨bufs, len, ?_⟩, fun x => ?_⟩
      · rw [frame]
        simp only [SendBuf.mk.injEq, true_and, and_true]
        omega
      · obtain ⟨heldMore, pendingMore⟩ := more x
        obtain ⟨heldOne, pendingOne⟩ := grows x
        rw [heldMore, pendingMore, ← measure]
        simp only [heldOne, pendingOne]
        exact ⟨or_range_append, or_range_append⟩

/-- What a write stores, cut down to the capacity, and whether it carries the final flag. -/
theorem write_eq (data : Bytes) (fin : Bool) (open_ : send.error = none) (flow : send.off ≤ send.maxData)
    (acks : data ≠ [] → send.ackOff < send.off + data.length) :
    send.write data fin =
      if send.finConflict (send.off + data.length)
          (fin && decide (data.length ≤ send.maxData - send.off)) then .error .finalSize
      else
        .ok (min data.length (send.maxData - send.off),
          pushChunks (fin && decide (data.length ≤ send.maxData - send.off))
            (min data.length (send.maxData - send.off)) (data.take (send.maxData - send.off))
            (if fin && decide (data.length ≤ send.maxData - send.off) then
              { send with finOff := some (send.off + data.length) }
            else send)) := by
  have capacity : send.cap = .ok (send.maxData - send.off) := by
    rw [cap, open_]
    simp only
    rw [if_neg (by omega)]
  unfold SendBuf.write
  rw [capacity]
  by_cases cut : send.maxData - send.off < data.length
  · -- The data is cut, and the final flag is cleared.
    have unfin : decide (data.length ≤ send.maxData - send.off) = false := by simpa using cut
    have least : min data.length (send.maxData - send.off) = send.maxData - send.off := by omega
    have measure : (data.take (send.maxData - send.off)).length = send.maxData - send.off := by
      rw [List.length_take]
      omega
    simp only [if_pos cut, unfin, Bool.and_false, Bool.false_eq_true, if_false, least, measure]
    have unacked := acks fun empty => by rw [empty] at cut; exact absurd cut (Nat.not_lt_zero _)
    split
    · rfl
    · rw [if_neg (by omega)]
      split
      · rename_i empty
        have none_ : send.maxData - send.off = 0 := by
          rw [← measure, List.isEmpty_iff.mp empty]
          rfl
        rw [none_]
        rfl
      · rfl
  · have whole : data.take (send.maxData - send.off) = data := List.take_of_length_le (by omega)
    have fits : decide (data.length ≤ send.maxData - send.off) = true := by simpa using cut
    have least : min data.length (send.maxData - send.off) = data.length := by omega
    simp only [if_neg cut, fits, Bool.and_true, whole, least]
    split
    · rfl
    · -- Acknowledged data is refused only when there is none, and then nothing is queued anyway.
      by_cases empty : data = []
      · subst empty
        cases fin with
        | false => simp [SendBuf.pushChunks]
        | true => simp [SendBuf.pushChunks]
      · have some_ : 0 < data.length := List.length_pos_iff.mpr empty
        have known : (if fin = true then { send with finOff := some (send.off + data.length) }
            else send).ackOff = send.ackOff := by
          cases fin with
          | false => rfl
          | true => rfl
        have unacked := acks empty
        rw [known, if_neg (by omega), if_neg (by simpa using empty)]

/-- What a write of data and a final flag does to a buffer that it is not refused by. -/
structure Stored (stream : Bytes) (send after : SendBuf) (data : Bytes) (fin : Bool) (count : Nat) : Prop where
  /-- As much is stored as flow control allows. -/
  amount : count = min data.length (send.maxData - send.off)
  /-- The write does not contradict a final size that is known. -/
  agrees : send.finConflict (send.off + data.length)
    (fin && decide (data.length ≤ send.maxData - send.off)) = false
  shape : Shape (stream ++ data.take count) after
  /-- Only the chunks, the end of the buffer and the final offset change. -/
  frame : ∃ bufs len, after =
    { send with
      finOff := if fin && decide (data.length ≤ send.maxData - send.off) then
        some (send.off + data.length) else send.finOff
      data := bufs
      off := send.off + count
      len := len }
  held : ∀ x, Held after.data x ↔ Held send.data x ∨ (send.off ≤ x ∧ x < send.off + count)
  /-- The stored bytes are to be sent as well. -/
  pending : ∀ x, Pending after.data x ↔ Pending send.data x ∨ (send.off ≤ x ∧ x < send.off + count)

/-- A write that reaches beyond what was acknowledged is refused because of the final size, or stores what fits. -/
theorem Shape.write_beyond (shape : Shape stream send) (data : Bytes) (fin : Bool) (open_ : send.error = none)
    (acks : data ≠ [] → send.ackOff < send.off + data.length) :
    (send.finConflict (send.off + data.length)
        (fin && decide (data.length ≤ send.maxData - send.off)) = true ∧
      send.write data fin = .error .finalSize) ∨
    ∃ count after, send.write data fin = .ok (count, after) ∧ Stored stream send after data fin count := by
  have flow := shape.flow
  rw [write_eq data fin open_ flow acks]
  by_cases conflict : send.finConflict (send.off + data.length)
      (fin && decide (data.length ≤ send.maxData - send.off)) = true
  · rw [if_pos conflict]
    exact Or.inl ⟨conflict, rfl⟩
  · rw [if_neg conflict]
    refine Or.inr ⟨_, _, rfl, ?_⟩
    generalize fits : min data.length (send.maxData - send.off) = count
    generalize ends : (fin && decide (data.length ≤ send.maxData - send.off)) = last
    have stored : (data.take (send.maxData - send.off)).length = count := by
      rw [List.length_take, Nat.min_comm]
      exact fits
    have same : data.take count = data.take (send.maxData - send.off) := by
      rw [List.take_eq_take_iff]
      omega
    -- Recording the final offset touches no chunk.
    have marked : (if last = true then { send with finOff := some (send.off + data.length) } else send) =
        { send with finOff := if last = true then some (send.off + data.length) else send.finOff } := by
      cases last with
      | false => rfl
      | true => rfl
    rw [marked]
    have recorded : Shape stream
        { send with finOff := if last = true then some (send.off + data.length) else send.finOff } :=
      ⟨shape.size, shape.holds, shape.ordered, shape.index, shape.consumed, shape.flow, shape.room⟩
    obtain ⟨grown, ⟨bufs, len, pushed⟩, reached⟩ := Shape.pushChunks last count
      (data.take (send.maxData - send.off)) recorded (by omega)
      (by rw [stored]; show send.off + _ ≤ send.maxData; omega)
    rw [stored] at pushed reached
    refine ⟨fits.symm, ?_, ?_, ⟨bufs, len, ?_⟩, fun x => (reached x).1, fun x => (reached x).2⟩
    · simpa using conflict
    · rw [same]
      exact grown
    · rw [pushed]
      simp only [ends]

/-- A write is refused when it contradicts the final size, and stores what fits otherwise. -/
theorem Shape.write (shape : Shape stream send) (data : Bytes) (fin : Bool) (open_ : send.error = none)
    (acks : send.ackOff ≤ send.off) :
    (send.finConflict (send.off + data.length)
        (fin && decide (data.length ≤ send.maxData - send.off)) = true ∧
      send.write data fin = .error .finalSize) ∨
    ∃ count after, send.write data fin = .ok (count, after) ∧ Stored stream send after data fin count := by
  refine shape.write_beyond data fin open_ fun some_ => ?_
  have := List.length_pos_iff.mpr some_
  omega

theorem acked_of_lt_ackOff {x : Nat} (below : x < send.ackOff) : send.acked.Contains x := by
  -- The offset is the end of the first acknowledged range, if that starts at zero.
  unfold ackOff at below
  cases listed : send.acked.iter with
  | nil =>
    rw [listed] at below
    simp at below
  | cons range rest =>
    rcases range with ⟨start, stop⟩
    rw [listed] at below
    cases start with
    | zero =>
      refine ⟨(0, stop), by rw [listed]; exact List.mem_cons_self, Nat.zero_le _, ?_⟩
      simpa using below
    | succ start => simp at below

/-- Dropping the acknowledged chunks keeps the shape, and everything not acknowledged. -/
theorem Shape.dropAcked (shape : Shape stream send) :
    Shape stream send.dropAcked ∧
      (∃ data pos, send.dropAcked = { send with data := data, pos := pos }) ∧
      (∀ x, Held send.dropAcked.data x → Held send.data x) ∧
      (∀ x, Held send.data x → Held send.dropAcked.data x ∨ x < send.ackOff) ∧
      (∀ x, Pending send.dropAcked.data x → Pending send.data x) ∧
      ∀ x, Pending send.data x → Pending send.dropAcked.data x ∨ x < send.ackOff := by
  -- The chunks split into the dropped ones, which end below the acknowledged offset, and the rest.
  have dropped : ∀ buf ∈ send.data.takeWhile (fun buf =>
      decide (buf.off < send.ackOff) && decide (buf.maxOff ≤ send.ackOff)),
      buf.off + buf.len ≤ send.ackOff := by
    intro buf member
    have passes := List.all_eq_true.mp List.all_takeWhile buf member
    have wf := (shape.holds buf ((List.takeWhile_sublist _).subset member)).wf
    simp only [Bool.and_eq_true, decide_eq_true_eq] at passes
    have := wf.maxOff_eq
    omega
  have inFront : ∀ front, front = send.data.takeWhile (fun buf =>
      decide (buf.off < send.ackOff) && decide (buf.maxOff ≤ send.ackOff)) →
      ∃ back, send.data = front ++ back ∧
        send.dropAcked = { send with data := back, pos := send.pos - front.length } := by
    intro front same
    obtain ⟨back, whole⟩ := List.takeWhile_prefix (fun buf =>
      decide (buf.off < send.ackOff) && decide (buf.maxOff ≤ send.ackOff)) (l := send.data)
    rw [← same] at whole
    refine ⟨back, whole.symm, ?_⟩
    simp only [SendBuf.dropAcked, ← same]
    rw [← whole, List.drop_left]
  obtain ⟨back, whole, result⟩ := inFront _ rfl
  generalize send.data.takeWhile (fun buf =>
    decide (buf.off < send.ackOff) && decide (buf.maxOff ≤ send.ackOff)) = front at dropped whole result
  have ordered := shape.ordered
  have index := shape.index
  have room := shape.room
  rw [whole] at ordered index room
  rw [List.length_append] at index
  rw [total_append] at room
  obtain ⟨mid, -, after⟩ := ordered.split
  have split : ∀ {x}, Held front x → x < send.ackOff := by
    intro x given
    obtain ⟨buf, member, -, high⟩ := given
    have := dropped buf member
    omega
  have frontHolds : ∀ buf ∈ front, Holds stream buf := fun buf member =>
    shape.holds buf (whole ▸ List.mem_append_left _ member)
  rw [result]
  refine ⟨⟨shape.size, ?_, after.mono (Nat.zero_le _), ?_, ?_, shape.flow, ?_⟩, ⟨_, _, rfl⟩, ?_, ?_, ?_, ?_⟩
  · exact fun buf member => shape.holds buf (whole ▸ List.mem_append_right _ member)
  · show send.pos - front.length ≤ back.length
    omega
  · intro buf member
    refine shape.consumed buf ?_
    rw [whole, List.take_append]
    exact List.mem_append_right _ member
  · show total back ≤ send.len
    omega
  · exact fun x held => by rw [whole, held_append]; exact Or.inr held
  · intro x held
    rw [whole, held_append] at held
    rcases held with gone | kept
    · exact Or.inr (split gone)
    · exact Or.inl kept
  · exact fun x pending => by rw [whole, pending_append]; exact Or.inr pending
  · intro x pending
    rw [whole, pending_append] at pending
    rcases pending with gone | kept
    · exact Or.inr (split (gone.held frontHolds))
    · exact Or.inl kept

/-- An acknowledgment marks its range, and drops nothing that is not acknowledged. -/
theorem Shape.ackAndDrop (shape : Shape stream send) (off len : Nat) (still : send.fcStreamRotate = false) :
    Shape stream (send.ackAndDrop off len) ∧
      (∃ data pos, send.ackAndDrop off len =
        { send with acked := send.acked.insert off (off + len), data := data, pos := pos }) ∧
      (∀ x, Held (send.ackAndDrop off len).data x → Held send.data x) ∧
      (∀ x, Held send.data x → Held (send.ackAndDrop off len).data x ∨
        (send.acked.insert off (off + len)).Contains x) ∧
      (∀ x, Pending (send.ackAndDrop off len).data x → Pending send.data x) ∧
      ∀ x, Pending send.data x → Pending (send.ackAndDrop off len).data x ∨
        (send.acked.insert off (off + len)).Contains x := by
  have marked : Shape stream (send.ack off len) :=
    ⟨shape.size, shape.holds, shape.ordered, shape.index, shape.consumed, shape.flow, shape.room⟩
  have idle : Shape stream (send.ack off len) ∧
      (∃ data pos, send.ack off len =
        { send with acked := send.acked.insert off (off + len), data := data, pos := pos }) ∧
      (∀ x, Held (send.ack off len).data x → Held send.data x) ∧
      (∀ x, Held send.data x → Held (send.ack off len).data x ∨
        (send.acked.insert off (off + len)).Contains x) ∧
      (∀ x, Pending (send.ack off len).data x → Pending send.data x) ∧
      ∀ x, Pending send.data x → Pending (send.ack off len).data x ∨
        (send.acked.insert off (off + len)).Contains x :=
    ⟨marked, ⟨send.data, send.pos, rfl⟩, fun _ held => held, fun _ held => Or.inl held,
      fun _ pending => pending, fun _ pending => Or.inl pending⟩
  have plain : send.ackAndDrop off len =
      if (send.ack off len).data.isEmpty then send.ack off len
      else if (send.ack off len).ackOff < off then send.ack off len
      else (send.ack off len).dropAcked := by
    simp [SendBuf.ackAndDrop, still]
  rw [plain]
  split
  · exact idle
  · split
    · exact idle
    · -- The dropped chunks end below the contiguously acknowledged offset.
      obtain ⟨dropped, ⟨data, pos, frame⟩, held, heldBack, pending, pendingBack⟩ := marked.dropAcked
      refine ⟨dropped, ⟨data, pos, frame⟩, held, ?_, pending, ?_⟩
      · exact fun x inside => (heldBack x inside).imp id acked_of_lt_ackOff
      · exact fun x inside => (pendingBack x inside).imp id acked_of_lt_ackOff

end Operations

end SendBuf

end Flexicast
