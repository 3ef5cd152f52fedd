import Flexicast.Lib.Runs
import Flexicast.Stream.RecvBufLaws

/-! Runs of the receive side of a stream: chunks arrive in any order, and are read in any amounts. -/

namespace Flexicast

/-- What happens to the receive side of a stream. -/
inductive RecvEvent where
  /-- A chunk of the stream arrives. -/
  | write (off len : Nat) (fin : Bool)
  /-- Data is read into an output of some size. -/
  | emit (outLen : Nat)

/-- The receive side of a stream with its history. -/
structure Receiver where
  recv : RecvBuf
  out : Bytes
  received : Nat → Bool
  /-- Whether a final chunk arrived. -/
  finished : Bool
  /-- Whether a read reported the end of the stream. -/
  reported : Bool
  refused : Bool

namespace Receiver

open RecvBuf

/-- A stream before its first chunk. -/
def start (maxData maxWindow : Nat) : Receiver :=
  ⟨RecvBuf.new maxData maxWindow, [], fun _ => false, false, false, false⟩

/-- The chunk of the stream at an offset. -/
def chunk (stream : Bytes) (off len : Nat) (fin : Bool) : RangeBuf :=
  RangeBuf.fromSlice ((stream.drop off).take len) off fin

/-- One step of the receive side of a stream. -/
def next (stream : Bytes) (receiver : Receiver) : RecvEvent → Receiver
  | .write off len fin =>
    match receiver.recv.write (chunk stream off len fin) with
    | .error _ => { receiver with refused := true }
    | .ok recv =>
      { receiver with
        recv := recv
        received := fun x => receiver.received x || decide (off ≤ x ∧ x < off + len)
        finished := receiver.finished || fin }
  | .emit outLen =>
    match receiver.recv.emit outLen with
    | (.error _, recv) => { receiver with recv := recv }
    | (.ok (out, fin), recv) =>
      { receiver with recv := recv, out := receiver.out ++ out, reported := receiver.reported || fin }

/-- Chunks lie in the stream and within flow control, and only those at its end are final. -/
def Allowed (stream : Bytes) (receiver : Receiver) : RecvEvent → Prop
  | .write off len fin => off + len ≤ stream.length ∧ (fin = true → off + len = stream.length) ∧
      off + len ≤ receiver.recv.maxData
  | .emit _ => True

/-- A chunk that is the first final one is empty, or arrives before the whole stream was read. -/
def Timely (stream : Bytes) (receiver : Receiver) : RecvEvent → Prop
  | .write _ len fin => fin = true → receiver.finished = false → 0 < len → receiver.out.length < stream.length
  | .emit _ => True

/-- What holds of every receive side. -/
structure Inv (stream : Bytes) (receiver : Receiver) : Prop where
  /-- The chunks hold bytes of the stream. -/
  shape : Shape stream receiver.recv
  out : receiver.out = stream.take receiver.recv.off
  has : ∀ x, Has receiver.recv x ↔ receiver.received x = true
  /-- The final offset is known once a final chunk arrived. -/
  final : receiver.recv.finOff = if receiver.finished then some stream.length else none
  /-- When all is read the end was reported, or a chunk is left that brings the report. -/
  told : receiver.finished = true → receiver.recv.off = stream.length →
    receiver.reported = true ∨ receiver.recv.data.entries ≠ []
  accepted : receiver.refused = false

section Steps

variable {stream : Bytes} {receiver : Receiver}

theorem Inv.length_out (inv : Inv stream receiver) : receiver.out.length = receiver.recv.off := by
  have read := inv.shape.read
  have inside := inv.shape.inside
  rw [inv.out, List.length_take]
  omega

/-- A new stream satisfies the invariant. -/
theorem inv_start (stream : Bytes) (maxData maxWindow : Nat) : Inv stream (start maxData maxWindow) := by
  -- The buffer is empty, so there is no entry to speak of.
  refine ⟨⟨?_, ?_, List.Pairwise.nil, ?_, ?_, ?_, Nat.le_refl _, Nat.zero_le _, ?_, rfl, rfl⟩,
    rfl, ?_, rfl, ?_, rfl⟩
  · exact fun entry member => absurd member List.not_mem_nil
  · exact fun entry member => absurd member List.not_mem_nil
  · exact fun entry member => absurd member List.not_mem_nil
  · exact fun entry member => absurd member List.not_mem_nil
  · exact fun entry member => absurd member List.not_mem_nil
  · intro finOff known
    simp [start, RecvBuf.new] at known
  · intro x
    simp [start, RecvBuf.new, Has, OrdMap.empty]
  · intro finished
    simp [start] at finished

/-- The chunks of the stream that arrive are sound, and cover the offsets they say. -/
theorem sound_chunk {off len : Nat} {fin : Bool} (inside : off + len ≤ stream.length)
    (ends : fin = true → off + len = stream.length) :
    Sound stream (chunk stream off len fin) ∧ (chunk stream off len fin).maxOff = off + len ∧
      (chunk stream off len fin).curOff = off := by
  -- The chunk is cut out of the stream, and lies within it.
  have measure : ((stream.drop off).take len).length = len := by
    rw [List.length_take, List.length_drop]
    omega
  have start : (chunk stream off len fin).curOff = off := by
    simp [chunk, RangeBuf.fromSlice, RangeBuf.curOff]
  have stop : (chunk stream off len fin).maxOff = off + len := by
    rw [RangeBuf.maxOff, start]
    simp only [chunk, RangeBuf.fromSlice, RangeBuf.curLen, measure]
    omega
  refine ⟨⟨⟨RangeBuf.wf_fromSlice _ _ _, ?_, ?_⟩, rfl, ?_⟩, stop, start⟩
  · show off + ((stream.drop off).take len).length ≤ _
    omega
  · rw [chunk, RangeBuf.window_fromSlice]
    simp only [RangeBuf.fromSlice, measure]
  · intro final
    rw [stop]
    exact ends final

/-- The arrival of a chunk keeps the invariant, unless it is a final one that comes too late. -/
theorem Inv.write (inv : Inv stream receiver) {off len : Nat} {fin : Bool}
    (allowed : Allowed stream receiver (.write off len fin))
    (timely : Timely stream receiver (.write off len fin)) :
    Inv stream (next stream receiver (.write off len fin)) := by
  obtain ⟨inside, ends, flow⟩ := allowed
  obtain ⟨sound, stop, start⟩ := sound_chunk inside ends
  obtain ⟨after, stored, written⟩ := inv.shape.write sound (by omega)
  have off_ : after.off = receiver.recv.off := by rw [written.frame]
  have known : after.finOff = if fin then some stream.length else receiver.recv.finOff := by
    rw [written.frame]
    rfl
  simp only [next, stored]
  refine ⟨written.shape, ?_, ?_, ?_, ?_, inv.accepted⟩
  · rw [off_]
    exact inv.out
  · intro x
    rw [written.has, inv.has, Bool.or_eq_true, decide_eq_true_eq, Spans, start, stop]
  · show after.finOff = _
    rw [known, inv.final]
    cases receiver.finished <;> cases fin <;> rfl
  · -- The whole stream was read, so a final chunk that is new is empty, and is stored.
    intro finished whole
    simp only [off_] at whole
    cases before : receiver.finished with
    | true =>
      exact (inv.told before whole).imp id fun held => written.some_ (Or.inl held)
    | false =>
      have final : fin = true := by simpa [before] using finished
      have empty : len = 0 := by
        refine Classical.byContradiction fun some_ => ?_
        have := timely final before (by omega)
        rw [inv.length_out] at this
        omega
      refine Or.inr (written.some_ (Or.inr ⟨?_, final, ?_⟩))
      · rw [inv.final, before]
        rfl
      · rw [isEmpty_iff_maxOff]
        omega

/-- A read keeps the invariant. -/
theorem Inv.emit (inv : Inv stream receiver) (outLen : Nat) :
    Inv stream (next stream receiver (.emit outLen)) := by
  rcases inv.shape.emit outLen with ⟨_, ran⟩ | ⟨_, out, after, ran, emits⟩
  · -- Nothing is ready, and nothing changes.
    simp only [next, ran]
    exact ⟨inv.shape, inv.out, inv.has, inv.final, inv.told, inv.accepted⟩
  · simp only [next, ran]
    refine ⟨emits.shape, ?_, ?_, ?_, ?_, inv.accepted⟩
    · rw [emits.off, List.take_add, ← emits.bytes, ← inv.out]
    · exact fun x => (emits.has x).trans (inv.has x)
    · rw [emits.finOff]
      exact inv.final
    · -- A read that reaches the known end of the stream reports it.
      intro finished whole
      left
      have known : after.finOff = some after.off := by
        rw [emits.finOff, inv.final, whole]
        simp only at finished
        rw [finished]
        rfl
      simp [RecvBuf.isFin, known]

/-- Every step that can happen keeps the invariant. -/
theorem Inv.next (receiver : Receiver) (event : RecvEvent) (inv : Inv stream receiver)
    (met : Allowed stream receiver event ∧ Timely stream receiver event) :
    Inv stream (next stream receiver event) := by
  cases event with
  | write off len fin => exact inv.write met.1 met.2
  | emit outLen => exact inv.emit outLen

/-- Reading on produces every byte up to the first gap. -/
theorem Inv.reads (sizes : List Nat) : ∀ {receiver : Receiver} {x : Nat}, Inv stream receiver →
    (∀ y, y ≤ x → receiver.received y = true) → (∀ size ∈ sizes, 0 < size) →
    x < receiver.recv.off + sizes.length →
    x < (Runs.run (Receiver.next stream) receiver (sizes.map .emit)).out.length := by
  -- Each read makes progress, until the byte was read.
  induction sizes with
  | nil =>
    intro receiver x inv _ _ near
    rw [List.map_nil, Runs.run_nil, inv.length_out]
    simpa using near
  | cons size sizes ih =>
    intro receiver x inv arrived positive near
    rw [List.map_cons, Runs.run_cons]
    have later : ∀ other ∈ sizes, 0 < other := fun other member =>
      positive other (List.mem_cons_of_mem _ member)
    have kept : (Receiver.next stream receiver (.emit size)).received = receiver.received := by
      simp only [Receiver.next]
      split <;> rfl
    refine ih (inv.emit size) (by rw [kept]; exact arrived) later ?_
    simp only [List.length_cons] at near
    by_cases read : x < receiver.recv.off
    · -- The byte was read before, and reading never goes back.
      rcases inv.shape.emit size with ⟨_, ran⟩ | ⟨_, out, after, ran, emits⟩
      · simp only [Receiver.next, ran]
        omega
      · have := emits.off
        simp only [Receiver.next, ran]
        omega
    · have has := (inv.has receiver.recv.off).mpr (arrived _ (by omega))
      obtain ⟨out, after, ran, emits, progress⟩ :=
        inv.shape.emit_progress (positive size List.mem_cons_self) has
      have := emits.off
      simp only [Receiver.next, ran]
      omega

end Steps

/-- What the receive side promises about a stream. -/
structure Reassembled (stream : Bytes) (receiver : Receiver) : Prop where
  accepted : receiver.refused = false
  /-- The bytes read so far are the start of the stream. -/
  ordered : receiver.out = stream.take receiver.out.length
  arrived : ∀ x, x < receiver.out.length → receiver.received x = true
  /-- Every byte in front of the first gap is read by the next reads. -/
  reads : ∀ x, (∀ y, y ≤ x → receiver.received y = true) → ∀ sizes : List Nat,
    (∀ size ∈ sizes, 0 < size) → x < sizes.length →
    x < (Runs.run (next stream) receiver (sizes.map .emit)).out.length
  /-- A read reports the end exactly when it is known and the whole stream was read. -/
  fin : ∀ outLen out fin, (receiver.recv.emit outLen).1 = .ok (out, fin) →
    (fin = true ↔ receiver.finished = true ∧ receiver.out ++ out = stream)
  /-- When the end is known and all was read, it was reported, or the next read reports it. -/
  told : receiver.finished = true → receiver.out = stream →
    receiver.reported = true ∨ ∀ outLen, (receiver.recv.emit outLen).1 = .ok ([], true)

section Promises

variable {stream : Bytes} {receiver : Receiver}

/-- A read reports the end exactly when it is known and the whole stream was read. -/
theorem Inv.fin_iff (inv : Inv stream receiver) {outLen : Nat} {out : Bytes} {fin : Bool}
    (ran : (receiver.recv.emit outLen).1 = .ok (out, fin)) :
    fin = true ↔ receiver.finished = true ∧ receiver.out ++ out = stream := by
  rcases inv.shape.emit outLen with ⟨_, refused⟩ | ⟨_, out', after, returned, emits⟩
  · rw [refused] at ran
    cases ran
  · rw [returned] at ran
    simp only [Except.ok.injEq, Prod.mk.injEq] at ran
    obtain ⟨sameOut, sameFin⟩ := ran
    subst sameOut sameFin
    -- The bytes read are the stream exactly when they are as many.
    have whole : receiver.out ++ out' = stream ↔ after.off = stream.length := by
      have start : receiver.out ++ out' = stream.take after.off := by
        rw [emits.off, List.take_add, ← emits.bytes, ← inv.out]
      have read := emits.shape.read
      have inside := emits.shape.inside
      rw [start]
      constructor
      · intro all
        have := congrArg List.length all
        rw [List.length_take] at this
        omega
      · exact fun all => List.take_of_length_le (by omega)
    rw [whole, RecvBuf.isFin, beq_iff_eq, emits.finOff, inv.final]
    cases receiver.finished with
    | false => simp
    | true => simp [eq_comm]

/-- A chunk that is left when the whole stream was read makes the next read report the end. -/
theorem Inv.reports (inv : Inv stream receiver) (finished : receiver.finished = true)
    (whole : receiver.recv.off = stream.length) (left : receiver.recv.data.entries ≠ []) (outLen : Nat) :
    (receiver.recv.emit outLen).1 = .ok ([], true) := by
  -- A chunk that is left is empty and starts at the end, so the buffer is ready and reads nothing.
  obtain ⟨first, rest, listed⟩ := List.exists_cons_of_ne_nil left
  have member : first ∈ receiver.recv.data.entries := by
    rw [listed]
    exact List.mem_cons_self
  have above := inv.shape.above first member
  have short := maxOff_le (inv.shape.holds first member)
  have grows : first.2.curOff ≤ first.2.maxOff := Nat.le_add_right _ _
  have ready : receiver.recv.ready = true :=
    ready_iff.mpr ⟨first.1, first.2, by rw [listed]; rfl, by omega⟩
  rcases inv.shape.emit outLen with ⟨unready, _⟩ | ⟨_, out, after, ran, emits⟩
  · rw [ready] at unready
    cases unready
  · have none_ : out = [] := by
      have := emits.bytes
      rw [whole, List.drop_length, List.take_nil] at this
      exact this
    have off := emits.off
    rw [ran]
    subst none_
    simp [RecvBuf.isFin, emits.finOff, inv.final, finished, off, whole]

theorem Inv.reassembled (inv : Inv stream receiver) : Reassembled stream receiver := by
  -- As many bytes were returned as count as read, so the two ways to say it agree.
  have length := inv.length_out
  refine ⟨inv.accepted, ?_, ?_, ?_, fun outLen out fin => inv.fin_iff, ?_⟩
  · rw [length]
    exact inv.out
  · exact fun x read => (inv.has x).mp (Or.inl (by omega))
  · exact fun x arrived sizes positive enough => inv.reads sizes arrived positive (by omega)
  · intro finished whole
    rw [whole] at length
    exact (inv.told finished length.symm).imp id (inv.reports finished length.symm)

end Promises

/-- Every run whose final chunks are timely puts the stream together and reports its end. -/
theorem reassembles (stream : Bytes) (maxData maxWindow : Nat) (events : List RecvEvent)
    (met : Runs.Along (next stream) (fun receiver event => Allowed stream receiver event ∧
      Timely stream receiver event) (start maxData maxWindow) events) :
    Reassembled stream (Runs.run (next stream) (start maxData maxWindow) events) :=
  -- The invariant holds at the start and survives every step.
  (Runs.Along.keeps Inv.next (inv_start stream maxData maxWindow) met).reassembled

/-- A stream whose chunks arrive out of order, twice and partly read, with the end of it on its own. -/
theorem reassembles_out_of_order :
    Runs.Along (next [1, 2, 3, 4, 5]) (fun receiver event => Allowed [1, 2, 3, 4, 5] receiver event ∧
        Timely [1, 2, 3, 4, 5] receiver event) (start 10 100)
        [.write 3 2 false, .write 0 2 false, .emit 1, .write 1 3 false, .emit 9, .write 5 0 true] ∧
      Reassembled [1, 2, 3, 4, 5] (Runs.run (next [1, 2, 3, 4, 5]) (start 10 100)
        [.write 3 2 false, .write 0 2 false, .emit 1, .write 1 3 false, .emit 9, .write 5 0 true]) := by
  have met : Runs.Along (next [1, 2, 3, 4, 5]) (fun receiver event =>
      Allowed [1, 2, 3, 4, 5] receiver event ∧ Timely [1, 2, 3, 4, 5] receiver event) (start 10 100)
      [.write 3 2 false, .write 0 2 false, .emit 1, .write 1 3 false, .emit 9, .write 5 0 true] := by
    refine ⟨⟨?_, ?_⟩, ⟨?_, ?_⟩, ⟨trivial, trivial⟩, ⟨?_, ?_⟩, ⟨trivial, trivial⟩, ⟨?_, ?_⟩, trivial⟩
    · exact ⟨by decide, by decide, by decide⟩
    · exact fun final => absurd final (by decide)
    · exact ⟨by decide, by decide, by decide⟩
    · exact fun final => absurd final (by decide)
    · exact ⟨by decide, by decide, by decide⟩
    · exact fun final => absurd final (by decide)
    · exact ⟨by decide, by decide, by decide⟩
    · exact fun _ _ some_ => absurd some_ (by decide)
  exact ⟨met, reassembles [1, 2, 3, 4, 5] 10 100 _ met⟩

/-- A stream that was read as a whole when its last bytes arrive again, now as its final chunk. -/
def lateFin : Receiver :=
  Runs.run (next [104, 105]) (start 10 100) [.write 0 2 false, .emit 10, .write 0 2 true]

/-- Every chunk was allowed, the end is known and all was read, but no read reported it or ever will. -/
theorem late_fin_never_reported :
    Runs.Along (next [104, 105]) (Allowed [104, 105]) (start 10 100)
        [.write 0 2 false, .emit 10, .write 0 2 true] ∧
      lateFin.finished = true ∧ lateFin.out = [104, 105] ∧ lateFin.reported = false ∧
      ∀ sizes : List Nat,
        (Runs.run (next [104, 105]) lateFin (sizes.map .emit)).reported = false := by
  refine ⟨⟨⟨by decide, by decide, by decide⟩, trivial, ⟨by decide, by decide, by decide⟩, trivial⟩,
    by decide, by decide, by decide, ?_⟩
  intro sizes
  have stuck : ∀ outLen, next [104, 105] lateFin (.emit outLen) = lateFin := by
    intro outLen
    have unready : lateFin.recv.ready = false := by decide
    simp only [next, RecvBuf.emit, if_pos unready]
  -- Nothing is ready, so reading changes nothing.
  induction sizes with
  | nil => exact show lateFin.reported = false by decide
  | cons size sizes ih =>
    rw [List.map_cons, Runs.run_cons, stuck]
    exact ih

end Receiver

end Flexicast
