import Flexicast.Stream.Receiver
import Flexicast.Stream.RotationReads

/-!
Runs of a rotated stream: chunks arrive in any order,
and the stream is read from an offset, around its end, back to it.
-/

namespace Flexicast

/-- What happens to the receive side of a rotated stream. -/
inductive RotateEvent where
  /-- A chunk of the stream arrives, marked as final when it ends the stream. -/
  | write (off len : Nat)
  /-- Data is read into an output of some size. -/
  | emit (outLen : Nat)

/-- The receive side of a rotated stream with its history. -/
structure Rotator where
  buf : RotatingRecvBuf
  out : Bytes
  received : Nat → Bool
  refused : Bool

/-- A stream as it is read from an offset on, around its end. -/
def rotated (stream : Bytes) (offset : Nat) : Bytes := stream.drop offset ++ stream.take offset

namespace Rotator

open RecvBuf RotatingRecvBuf

/-- A new buffer that starts receiving at an offset. -/
def start (maxData maxWindow offset : Nat) : Rotator :=
  ⟨(RotatingRecvBuf.new maxData maxWindow).fcSetOffsetAt offset, [], fun _ => false, false⟩

/-- The chunk of the stream at an offset, which is final exactly when it ends the stream. -/
def chunk (stream : Bytes) (off len : Nat) : RangeBuf :=
  Receiver.chunk stream off len (off + len == stream.length)

/-- One step of the receive side of a rotated stream. -/
def next (stream : Bytes) (rot : Rotator) : RotateEvent → Rotator
  | .write off len =>
    match rot.buf.write (chunk stream off len) with
    | (.error _, buf) => { rot with buf := buf, refused := true }
    | (.ok _, buf) =>
      { rot with
        buf := buf
        received := fun x => rot.received x || decide (off ≤ x ∧ x < off + len) }
  | .emit outLen =>
    match rot.buf.emit outLen with
    | (.error _, buf) => { rot with buf := buf }
    | (.ok (out, _), buf) => { rot with buf := buf, out := rot.out ++ out }

/-- Chunks lie in the stream and within flow control. -/
def Allowed (stream : Bytes) (rot : Rotator) : RotateEvent → Prop
  | .write off len => off + len ≤ stream.length ∧ off + len ≤ rot.buf.recv.maxData
  | .emit _ => True

/-- A chunk covers the byte at the start offset only while that byte is still to be read, or is cut off there. -/
def Spares (offset : Nat) (rot : Rotator) : RotateEvent → Prop
  | .write off len => off ≤ offset → offset < off + len →
      if rot.buf.bound.isSome then rot.buf.recv.finOff = some offset else rot.buf.recv.off ≤ offset
  | .emit _ => True

instance decidableAllowed (stream : Bytes) (rot : Rotator) :
    (event : RotateEvent) → Decidable (Allowed stream rot event)
  | .write off len => inferInstanceAs (Decidable (off + len ≤ stream.length ∧ off + len ≤ rot.buf.recv.maxData))
  | .emit _ => isTrue trivial

instance decidableSpares (offset : Nat) (rot : Rotator) : (event : RotateEvent) → Decidable (Spares offset rot event)
  | .write off len => inferInstanceAs (Decidable (off ≤ offset → offset < off + len →
      if rot.buf.bound.isSome then rot.buf.recv.finOff = some offset else rot.buf.recv.off ≤ offset))
  | .emit _ => isTrue trivial

/-- What holds of every rotated stream, before the loop and after it. -/
inductive Inv (stream : Bytes) (offset maxData : Nat) (rot : Rotator) : Prop where
  /-- Before the loop what was read lies above the start offset, and what arrived is held on its side of it. -/
  | ahead {inner : RecvBuf} (ahead : Ahead stream offset maxData inner rot.buf)
      (out : rot.out = (stream.drop offset).take (rot.buf.recv.off - offset))
      (high : ∀ x, rot.received x = true → offset ≤ x → Has rot.buf.recv x)
      (low : ∀ x, rot.received x = true → x < offset → Has inner x)
      (last : offset = stream.length → rot.received (stream.length - 1) = false)
      (accepted : rot.refused = false)
  /-- After the loop everything above the start offset was read. -/
  | looped (looped : Looped stream offset maxData rot.buf)
      (out : rot.out = stream.drop offset ++ stream.take rot.buf.recv.off)
      (low : ∀ x, rot.received x = true → x < offset → Has rot.buf.recv x)
      (accepted : rot.refused = false)

section Steps

variable {stream : Bytes} {offset maxData : Nat} {rot : Rotator}

variable {maxWindow off len : Nat} {out : Bytes}

theorem not_has_new {x : Nat} : ¬ Has (RecvBuf.new maxData maxWindow) x := by
  intro held
  rcases held with below | ⟨entry, member, _⟩
  · exact absurd below (Nat.not_lt_zero _)
  · exact absurd member List.not_mem_nil

/-- A new buffer that starts receiving at an offset is before the loop. -/
theorem ahead_start (inside : offset ≤ stream.length) :
    Ahead stream offset maxData (RecvBuf.new maxData defaultStreamWindow) (start maxData maxWindow offset).buf := by
  have none_ : ∀ entry, entry ∉ (OrdMap.empty : OrdMap RangeBuf).entries := fun _ => List.not_mem_nil
  refine ⟨rfl, ⟨⟨?_, ?_, List.Pairwise.nil, ?_, ?_, ?_, ?_, ?_, ?_, rfl, rfl⟩, Nat.le_refl _, ?_, rfl, id, ?_⟩, ?_⟩
  · exact fun entry member => absurd member (none_ entry)
  · exact fun entry member => absurd member (none_ entry)
  · exact fun entry member => absurd member (none_ entry)
  · exact fun entry member => absurd member (none_ entry)
  · exact fun entry member => absurd member (none_ entry)
  · exact Nat.le_max_right _ _
  · exact Nat.max_le.mpr ⟨Nat.zero_le _, inside⟩
  · exact fun _ known => nomatch known
  · exact fun _ known => nomatch known
  · -- What lies below the start offset counts as read, which the last byte does not.
    intro short last
    rcases last with below | ⟨entry, member, _⟩
    · have : stream.length - 1 < offset := below
      omega
    · exact absurd member (none_ entry)
  · exact ⟨(Receiver.inv_start stream maxData defaultStreamWindow).shape, rfl,
      fun entry member => absurd member (none_ entry), rfl, not_has_new⟩

theorem inv_start (inside : offset ≤ stream.length) : Inv stream offset maxData (start maxData maxWindow offset) := by
  -- Nothing has arrived and nothing was read, so all that is left is the empty buffer.
  apply Inv.ahead (ahead_start inside)
  · show [] = (stream.drop offset).take (offset - offset)
    rw [Nat.sub_self, List.take_zero]
  · exact fun _ arrived => absurd arrived Bool.false_ne_true
  · exact fun _ arrived => absurd arrived Bool.false_ne_true
  · exact fun _ => rfl
  · rfl

theorem sound_chunk (inside : off + len ≤ stream.length) :
    Sound stream (chunk stream off len) ∧
      ((chunk stream off len).maxOff = stream.length → (chunk stream off len).fin = true) ∧
      (chunk stream off len).maxOff = off + len ∧
      ∀ x, Spans (chunk stream off len) x ↔ off ≤ x ∧ x < off + len := by
  -- A chunk is marked as final exactly when it reaches the end of the stream.
  have ends : (off + len == stream.length) = true → off + len = stream.length := beq_iff_eq.mp
  obtain ⟨sound, stop, from_⟩ := Receiver.sound_chunk inside ends
  refine ⟨sound, ?_, stop, ?_⟩
  · intro ends
    rw [show (chunk stream off len).maxOff = off + len from stop] at ends
    exact beq_iff_eq.mpr ends
  · intro x
    show (Receiver.chunk _ _ _ _).curOff ≤ x ∧ x < (Receiver.chunk _ _ _ _).maxOff ↔ _
    rw [from_, stop]

theorem arrived_iff {x : Nat} :
    (rot.received x || decide (off ≤ x ∧ x < off + len)) = true ↔
      rot.received x = true ∨ (off ≤ x ∧ x < off + len) := by
  rw [Bool.or_eq_true, decide_eq_true_eq]

/-- The arrival of a chunk keeps the invariant, unless it brings the byte at the start offset again. -/
theorem Inv.write (inv : Inv stream offset maxData rot) (inside : offset ≤ stream.length)
    (allowed : Allowed stream rot (.write off len)) (spares : Spares offset rot (.write off len)) :
    Inv stream offset maxData (next stream rot (.write off len)) := by
  obtain ⟨short, flow⟩ := allowed
  obtain ⟨sound, marked, stop, spans⟩ := sound_chunk short
  cases inv with
  | @ahead inner ahead out high low last accepted =>
    have unlooped : rot.buf.bound.isSome = false := by simp [RotatingRecvBuf.bound, ahead.fcData]
    rw [ahead.upper.flow] at flow
    obtain ⟨after, ran, result⟩ := ahead.write inside sound marked (by omega) (by
      intro covers
      obtain ⟨from_, to_⟩ := (spans offset).mp covers
      simpa [unlooped] using spares from_ to_)
    simp only [next, ran]
    rcases result with ⟨inner', advanced⟩ | rewound
    · -- The chunk is held on both sides of the start offset.
      apply Inv.ahead advanced.ahead
      · rw [advanced.off]
        exact out
      · intro x arrived above
        have either := (arrived_iff.mp arrived).imp (fun before => high x before above) (spans x).mpr
        exact advanced.high x either above
      · intro x arrived below
        have either := (arrived_iff.mp arrived).imp (fun before => low x before below) (spans x).mpr
        exact advanced.low x either below
      · intro whole
        rw [← Bool.not_eq_true, arrived_iff, last whole, ← spans]
        exact fun either => either.elim (fun before => absurd before Bool.false_ne_true) (advanced.last whole)
      · exact accepted
    · -- Reading started at the end of the stream, and nothing was read there.
      apply Inv.looped rewound.looped
      · rw [out, rewound.off, rewound.whole, List.drop_length, List.take_nil, List.take_zero, List.append_nil]
      · intro x arrived below
        exact rewound.low x ((arrived_iff.mp arrived).imp (fun before => low x before below) (spans x).mpr)
      · exact accepted
  | looped looped out low accepted =>
    have back : rot.buf.bound.isSome = true := by simp [RotatingRecvBuf.bound, looped.fcData]
    rw [looped.flow] at flow
    obtain ⟨after, ran, refilled⟩ := looped.write inside sound (by omega) (by
      intro covers
      obtain ⟨from_, to_⟩ := (spans offset).mp covers
      simpa [back] using spares from_ to_)
    simp only [next, ran]
    apply Inv.looped refilled.looped
    · rw [refilled.off]
      exact out
    · intro x arrived below
      have either := (arrived_iff.mp arrived).imp (fun before => low x before below) (spans x).mpr
      exact refilled.low x either below
    · exact accepted

/-- What an `emit` of a rotated stream returns, and what it leaves behind. -/
structure Emitted (stream : Bytes) (offset maxData : Nat) (rot : Rotator) (after : RotatingRecvBuf) (out : Bytes)
    (fin : Bool) : Prop where
  inv : Inv stream offset maxData { rot with buf := after, out := rot.out ++ out }
  /-- The end is reported together with the last byte, and only then. -/
  fin : fin = true ↔ out ≠ [] ∧ rot.out ++ out = rotated stream offset

theorem ne_rotated (inside : offset ≤ stream.length) (short : out.length < stream.length) :
    out ≠ rotated stream offset := by
  intro same
  have measure := congrArg List.length same
  rw [rotated, List.length_append, List.length_drop, List.length_take] at measure
  omega

theorem read_on (front : offset ≤ off) (bytes : out = (stream.drop off).take out.length) :
    (stream.drop offset).take (off - offset) ++ out = (stream.drop offset).take (off + out.length - offset) := by
  have count : off + out.length - offset = (off - offset) + out.length := by omega
  have place : offset + (off - offset) = off := by omega
  rw [count, List.take_add, List.drop_drop, place, ← bytes]

/-- Before the loop a read that returns data keeps the invariant, and does not report the end. -/
theorem emitted_ahead {inner : RecvBuf} {after : RotatingRecvBuf} (ahead : Ahead stream offset maxData inner rot.buf)
    (positive : 0 < offset) (inside : offset ≤ stream.length)
    (read : rot.out = (stream.drop offset).take (rot.buf.recv.off - offset))
    (high : ∀ x, rot.received x = true → offset ≤ x → Has rot.buf.recv x)
    (low : ∀ x, rot.received x = true → x < offset → Has inner x)
    (last : offset = stream.length → rot.received (stream.length - 1) = false) (accepted : rot.refused = false)
    (forward : Forward stream offset maxData inner rot.buf after out) :
    Emitted stream offset maxData rot after out false := by
  have all : rot.out ++ out = (stream.drop offset).take (rot.buf.recv.off + out.length - offset) := by
    rw [read]
    exact read_on ahead.upper.front forward.bytes
  constructor
  · rcases forward.result with ⟨ahead', off, has⟩ | ⟨looped, stop, same⟩
    · apply Inv.ahead ahead'
      · rw [off]
        exact all
      · exact fun x arrived above => (has x).mpr (high x arrived above)
      · exact low
      · exact last
      · exact accepted
    · -- Everything above the start offset was read, and what was set aside is read next.
      apply Inv.looped looped
      · simp only [all, same, stop, ahead.lower.unread, List.take_zero, List.append_nil]
        exact List.take_of_length_le (Nat.le_of_eq List.length_drop)
      · intro x arrived below
        simp only [same]
        exact low x arrived below
      · exact accepted
  · have short : (rot.out ++ out).length < stream.length := by
      rw [all, List.length_take, List.length_drop]
      omega
    exact ⟨fun told => absurd told Bool.false_ne_true, fun whole => absurd whole.2 (ne_rotated inside short)⟩

/-- After the loop a read that returns data keeps the invariant, and reports the end when it brings the last byte. -/
theorem emitted_looped {after : RotatingRecvBuf} (looped : Looped stream offset maxData rot.buf)
    (inside : offset ≤ stream.length) (ready : rot.buf.recv.ready = true)
    (read : rot.out = stream.drop offset ++ stream.take rot.buf.recv.off)
    (low : ∀ x, rot.received x = true → x < offset → Has rot.buf.recv x) (accepted : rot.refused = false)
    (backward : Backward stream offset maxData rot.buf after out) :
    Emitted stream offset maxData rot after out (decide (after.recv.off = offset)) := by
  have all : rot.out ++ out = stream.drop offset ++ stream.take after.recv.off := by
    rw [read, List.append_assoc, backward.off, List.take_add, ← backward.bytes]
  have back := backward.looped.back
  constructor
  · apply Inv.looped backward.looped
    · exact all
    · exact fun x arrived below => (backward.has x).mpr (low x arrived below)
    · exact accepted
  · rw [decide_eq_true_eq]
    constructor
    · -- The start offset was not reached before, so the read brought a byte.
      intro reached
      have started := looped.off_lt ready
      have grows := backward.off
      refine ⟨fun none_ => ?_, by rw [all, reached, rotated]⟩
      rw [none_, List.length_nil] at grows
      omega
    · intro whole
      refine Classical.byContradiction fun short => ne_rotated inside ?_ whole.2
      rw [all, List.length_append, List.length_drop, List.length_take]
      omega

/-- An `emit` returns data exactly when the buffer is ready, and is done otherwise. -/
theorem Inv.emits (inv : Inv stream offset maxData rot) (positive : 0 < offset) (inside : offset ≤ stream.length)
    (outLen : Nat) :
    (rot.buf.recv.ready = false ∧ rot.buf.emit outLen = (.error .done, rot.buf)) ∨
      (rot.buf.recv.ready = true ∧ ∃ fin after,
        rot.buf.emit outLen = (.ok ((rot.buf.afterRead outLen).1, fin), after) ∧
        Emitted stream offset maxData rot after (rot.buf.afterRead outLen).1 fin) := by
  -- Before the loop a read never reports the end; after it, at the start offset.
  cases inv with
  | ahead ahead out high low last accepted =>
    rcases ahead.emit positive inside outLen with done | ⟨ready, after, ran, forward⟩
    · exact Or.inl done
    · exact Or.inr ⟨ready, false, after, ran,
        emitted_ahead ahead positive inside out high low last accepted forward⟩
  | looped looped out low accepted =>
    rcases looped.emit outLen with done | ⟨ready, after, ran, backward⟩
    · exact Or.inl done
    · exact Or.inr ⟨ready, _, after, ran, emitted_looped looped inside ready out low accepted backward⟩

/-- A read keeps the invariant. -/
theorem Inv.emit (inv : Inv stream offset maxData rot) (positive : 0 < offset) (inside : offset ≤ stream.length)
    (outLen : Nat) : Inv stream offset maxData (next stream rot (.emit outLen)) := by
  rcases inv.emits positive inside outLen with ⟨_, ran⟩ | ⟨_, fin, after, ran, emitted⟩
  · -- Nothing is ready, and nothing changes.
    simp only [next, ran]
    exact inv
  · simp only [next, ran]
    exact emitted.inv

theorem Inv.ordered (inv : Inv stream offset maxData rot) : rot.out <+: rotated stream offset := by
  cases inv with
  | ahead _ out =>
    rw [out]
    exact (List.take_prefix _ _).trans (List.prefix_append _ _)
  | looped looped out =>
    rw [out, rotated, List.prefix_append_right_inj]
    exact List.take_prefix_take_left looped.back

/-- No chunk was refused. -/
theorem Inv.accepted (inv : Inv stream offset maxData rot) : rot.refused = false := by
  cases inv with
  | ahead _ _ _ _ _ accepted => exact accepted
  | looped _ _ _ accepted => exact accepted

end Steps

/-- What a rotated stream promises. -/
structure Rotated (stream : Bytes) (offset : Nat) (rot : Rotator) : Prop where
  accepted : rot.refused = false
  /-- The bytes read so far are the start of the rotated stream. -/
  ordered : rot.out <+: rotated stream offset
  /-- A read reports the end together with the last byte, and only then. -/
  fin : ∀ outLen out fin, (rot.buf.emit outLen).1 = .ok (out, fin) →
    (fin = true ↔ out ≠ [] ∧ rot.out ++ out = rotated stream offset)
  fails : ∀ outLen error, (rot.buf.emit outLen).1 = .error error → error = .done
  /-- Once every byte arrived, reading is done exactly when the whole rotated stream was read. -/
  done : (∀ x, x < stream.length → rot.received x = true) → ∀ outLen,
    ((rot.buf.emit outLen).1 = .error .done ↔ rot.out = rotated stream offset)
  /-- Once every byte arrived, reading on brings the whole rotated stream, and then is done. -/
  reads : (∀ x, x < stream.length → rot.received x = true) → ∀ sizes : List Nat,
    (∀ size ∈ sizes, 0 < size) → stream.length ≤ sizes.length →
    (Runs.run (next stream) rot (sizes.map .emit)).out = rotated stream offset ∧
      ∀ outLen, ((Runs.run (next stream) rot (sizes.map .emit)).buf.emit outLen).1 = .error .done

section Promises

variable {stream : Bytes} {offset maxData : Nat} {rot : Rotator}

/-- Bytes that are the start of the rotated stream and as many as there are are all of it. -/
theorem Inv.whole (inv : Inv stream offset maxData rot) (inside : offset ≤ stream.length)
    (many : stream.length ≤ rot.out.length) : rot.out = rotated stream offset := by
  refine inv.ordered.eq_of_length_le ?_
  rw [rotated, List.length_append, List.length_drop, List.length_take]
  omega

/-- Once every byte arrived, something can be read until the whole rotated stream was read. -/
theorem Inv.ready (inv : Inv stream offset maxData rot) (positive : 0 < offset) (inside : offset ≤ stream.length)
    (all : ∀ x, x < stream.length → rot.received x = true) (short : rot.out.length < stream.length) {outLen : Nat}
    (room : 0 < outLen) : rot.buf.recv.ready = true ∧ 0 < (rot.buf.afterRead outLen).1.length := by
  cases inv with
  | ahead ahead out high low last accepted =>
    -- The last byte arrived, so reading did not start behind it.
    have before : offset < stream.length := by
      refine Nat.lt_of_le_of_ne inside fun whole => ?_
      have missing := last whole
      rw [all (stream.length - 1) (by omega)] at missing
      cases missing
    have held := high rot.buf.recv.off (all _ (ahead.upper.ends before)) ahead.upper.front
    refine afterRead_advances ahead.upper.shape held room fun stop bounded => ?_
    simp [RotatingRecvBuf.bound, ahead.fcData] at bounded
  | looped looped out low accepted =>
    have back := looped.back
    have before : rot.buf.recv.off < offset := by
      rw [out, List.length_append, List.length_drop, List.length_take] at short
      omega
    have held := low rot.buf.recv.off (all _ (by omega)) before
    refine afterRead_advances looped.shape held room fun stop bounded => ?_
    have same : offset = stop := by simpa [RotatingRecvBuf.bound, looped.fcData] using bounded
    omega

/-- Nothing can be read once the whole rotated stream was read. -/
theorem Inv.unready (inv : Inv stream offset maxData rot) (positive : 0 < offset) (inside : offset ≤ stream.length)
    (whole : rot.out = rotated stream offset) : rot.buf.recv.ready = false := by
  have measure := congrArg List.length whole
  rw [rotated, List.length_append, List.length_drop, List.length_take] at measure
  cases inv with
  | ahead ahead out =>
    -- Before the loop the bytes below the start offset are missing.
    rw [out, List.length_take, List.length_drop] at measure
    omega
  | looped looped out =>
    rw [out, List.length_append, List.length_drop, List.length_take] at measure
    cases ready : rot.buf.recv.ready with
    | false => rfl
    | true =>
      have := looped.off_lt ready
      omega

theorem Inv.done_iff (inv : Inv stream offset maxData rot) (positive : 0 < offset) (inside : offset ≤ stream.length)
    (all : ∀ x, x < stream.length → rot.received x = true) (outLen : Nat) :
    (rot.buf.emit outLen).1 = .error .done ↔ rot.out = rotated stream offset := by
  constructor
  · intro done
    apply inv.whole inside
    refine Nat.le_of_not_lt fun short => ?_
    -- A buffer that is ready returns data, even when there is no room for it.
    have ready := (inv.ready positive inside all short Nat.one_pos).1
    rcases inv.emits positive inside outLen with ⟨unready, _⟩ | ⟨_, fin, after, ran, _⟩
    · rw [ready] at unready
      cases unready
    · rw [ran] at done
      cases done
  · intro whole
    rw [RotatingRecvBuf.emit, if_pos (inv.unready positive inside whole)]

/-- Once every byte arrived, each read makes progress until nothing is left. -/
theorem Inv.drains (sizes : List Nat) : ∀ {rot : Rotator}, Inv stream offset maxData rot → 0 < offset →
    offset ≤ stream.length → (∀ x, x < stream.length → rot.received x = true) → (∀ size ∈ sizes, 0 < size) →
    stream.length ≤ rot.out.length + sizes.length →
    (Runs.run (Rotator.next stream) rot (sizes.map .emit)).out = rotated stream offset ∧
      ∀ outLen, ((Runs.run (Rotator.next stream) rot (sizes.map .emit)).buf.emit outLen).1 = .error .done := by
  induction sizes with
  | nil =>
    intro rot inv positive inside all _ enough
    have whole := inv.whole inside (by simpa using enough)
    exact ⟨whole, fun outLen => (inv.done_iff positive inside all outLen).mpr whole⟩
  | cons size sizes ih =>
    intro rot inv positive inside all sized enough
    rw [List.map_cons, Runs.run_cons]
    have kept : (Rotator.next stream rot (.emit size)).received = rot.received := by
      simp only [Rotator.next]
      split <;> rfl
    refine ih (inv.emit positive inside size) positive inside (by rw [kept]; exact all)
      (fun other member => sized other (List.mem_cons_of_mem _ member)) ?_
    rw [List.length_cons] at enough
    by_cases short : rot.out.length < stream.length
    · obtain ⟨ready, some_⟩ := inv.ready positive inside all short (sized size List.mem_cons_self)
      rcases inv.emits positive inside size with ⟨unready, _⟩ | ⟨_, fin, after, ran, _⟩
      · rw [ready] at unready
        cases unready
      · simp only [Rotator.next, ran, List.length_append]
        omega
    · -- Reading never takes back what was read.
      rcases inv.emits positive inside size with ⟨_, ran⟩ | ⟨_, fin, after, ran, _⟩
      · simp only [Rotator.next, ran]
        omega
      · simp only [Rotator.next, ran, List.length_append]
        omega

/-- The invariant gives what a rotated stream promises. -/
theorem Inv.rotated (inv : Inv stream offset maxData rot) (positive : 0 < offset) (inside : offset ≤ stream.length) :
    Rotated stream offset rot := by
  -- A call returns data or is done, and the invariant says which and with what flag.
  refine ⟨inv.accepted, inv.ordered, ?_, ?_, inv.done_iff positive inside, ?_⟩
  · intro outLen out fin returned
    rcases inv.emits positive inside outLen with ⟨_, ran⟩ | ⟨_, fin', after, ran, emitted⟩
    · rw [ran] at returned
      cases returned
    · rw [ran] at returned
      cases returned
      exact emitted.fin
  · intro outLen error returned
    rcases inv.emits positive inside outLen with ⟨_, ran⟩ | ⟨_, fin, after, ran, _⟩
    · rw [ran] at returned
      cases returned
      rfl
    · rw [ran] at returned
      cases returned
  · intro all sizes sized enough
    exact inv.drains sizes positive inside all sized (by omega)

end Promises

/-- Every run that spares the byte at the start offset reads the rotated stream and reports its end. -/
theorem rotates (stream : Bytes) (offset maxData maxWindow : Nat) (positive : 0 < offset)
    (inside : offset ≤ stream.length) (events : List RotateEvent)
    (met : Runs.Along (next stream) (fun rot event => Allowed stream rot event ∧ Spares offset rot event)
      (start maxData maxWindow offset) events) :
    Rotated stream offset (Runs.run (next stream) (start maxData maxWindow offset) events) := by
  -- The invariant holds at the start and survives every step.
  have step : ∀ rot event, Inv stream offset maxData rot → Allowed stream rot event ∧ Spares offset rot event →
      Inv stream offset maxData (next stream rot event) := by
    intro rot event inv met
    cases event with
    | write off len => exact inv.write inside met.1 met.2
    | emit outLen => exact inv.emit positive inside outLen
  exact (Runs.Along.keeps step (inv_start inside) met).rotated positive inside

/-- Chunks that straddle the start offset and the end, arrive twice and arrive again after the loop. -/
def straddling : List RotateEvent :=
  [.write 1 3, .write 3 2, .emit 2, .write 0 2, .emit 9, .write 1 4, .emit 1]

/-- A stream that is read from its third byte on, around its end. -/
theorem rotates_straddling :
    Runs.Along (next [1, 2, 3, 4, 5]) (fun rot event => Allowed [1, 2, 3, 4, 5] rot event ∧ Spares 2 rot event)
        (start 10 100 2) straddling ∧
      Rotated [1, 2, 3, 4, 5] 2 (Runs.run (next [1, 2, 3, 4, 5]) (start 10 100 2) straddling) := by
  have met : Runs.Along (next [1, 2, 3, 4, 5])
      (fun rot event => Allowed [1, 2, 3, 4, 5] rot event ∧ Spares 2 rot event) (start 10 100 2) straddling := by
    decide
  exact ⟨met, rotates [1, 2, 3, 4, 5] 2 10 100 (by decide) (by decide) straddling met⟩

/-- A stuck stream stays stuck as it is read. -/
theorem stuck_reads {stream : Bytes} {offset : Nat} (sizes : List Nat) : ∀ {rot : Rotator},
    Stuck offset rot.buf → Stuck offset (Runs.run (next stream) rot (sizes.map .emit)).buf := by
  -- Every read returns nothing and the end, and leaves the chunk where it is.
  induction sizes with
  | nil => exact fun stuck => stuck
  | cons size sizes ih =>
    intro rot stuck
    obtain ⟨after, ran, stuck'⟩ := stuck.emit size
    rw [List.map_cons, Runs.run_cons]
    apply ih
    simp only [next, ran]
    exact stuck'

/-- A stream that is read from its second byte on; that byte arrives again after it was read. -/
def readAgain : List RotateEvent := [.write 1 2, .emit 1, .write 0 2, .emit 9, .emit 9]

/-- Every chunk was allowed and the whole rotated stream was read, but reading is never done. -/
theorem start_byte_never_done :
    Runs.Along (next [1, 2, 3]) (Allowed [1, 2, 3]) (start 10 100 1) readAgain ∧
      (∀ x, x < 3 → (Runs.run (next [1, 2, 3]) (start 10 100 1) readAgain).received x = true) ∧
      (Runs.run (next [1, 2, 3]) (start 10 100 1) readAgain).out = rotated [1, 2, 3] 1 ∧
      ∀ (sizes : List Nat) (outLen : Nat), ((Runs.run (next [1, 2, 3])
        (Runs.run (next [1, 2, 3]) (start 10 100 1) readAgain) (sizes.map .emit)).buf.emit outLen).1 =
          .ok ([], true) := by
  refine ⟨by decide, by decide, by decide, ?_⟩
  intro sizes outLen
  -- The chunk that brought the byte again is still the first one.
  have stuck : Stuck 1 (Runs.run (next [1, 2, 3]) (start 10 100 1) readAgain).buf := by
    refine ⟨by decide, by decide, by decide, ?_⟩
    exact ⟨2, ⟨[1, 2], 0, 1, 2, 0, false⟩, by decide, by decide, by decide⟩
  obtain ⟨after, ran, _⟩ := (stuck_reads sizes stuck).emit outLen
  rw [ran]

end Rotator

end Flexicast
