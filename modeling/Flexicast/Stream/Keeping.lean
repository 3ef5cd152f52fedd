import Flexicast.Stream.WriteAt

/-! What a send buffer keeps of the bytes it accepted, when acknowledgments may come for any offset. -/

namespace Flexicast

namespace SendBuf

section Windows

/-- The place of a chunk in its stream. -/
def place (buf : RangeBuf) : Nat × Nat := (buf.off, buf.len)

/-- Every chunk has a byte. -/
def Sized (bufs : List RangeBuf) : Prop := ∀ buf ∈ bufs, 0 < buf.len

theorem Sized.congr {bufs after : List RangeBuf} (sized : Sized bufs) (same : after.map place = bufs.map place) :
    Sized after := by
  intro buf member
  have there := List.mem_map_of_mem (f := place) member
  rw [same] at there
  obtain ⟨former, inBufs, alike⟩ := List.mem_map.mp there
  have length : former.len = buf.len := congrArg Prod.snd alike
  rw [← length]
  exact sized former inBufs

/-- The loop of `emit` leaves every chunk at its place. -/
theorem emitLoop_place (fuel : Nat) (emission : Emission) :
    (emitLoop fuel emission).send.data.map place = emission.send.data.map place := by
  -- A turn only moves the position inside of one chunk.
  induction fuel generalizing emission with
  | zero => rfl
  | succ fuel ih =>
    have consumed : ∀ {buf : RangeBuf} (count : Nat), emission.send.data[emission.send.pos]? = some buf →
        (emission.send.data.set emission.send.pos (buf.consume count)).map place =
          emission.send.data.map place := by
      intro buf count found
      obtain ⟨inside, rfl⟩ := List.getElem?_eq_some_iff.mp found
      rw [List.map_set]
      refine List.ext_getElem (by simp) fun i before after => ?_
      rw [List.getElem_set]
      split
      · rename_i same
        subst same
        simp [place, RangeBuf.consume]
      · rfl
    simp only [emitLoop]
    split
    · rfl
    · split
      · rfl
      · split
        · rfl
        · rename_i buf found
          split
          · exact ih _
          · split
            · exact consumed _ found
            · rw [ih]
              exact consumed _ found

theorem emit_place (send : SendBuf) (outLen : Nat) :
    (send.emit outLen).2.data.map place = send.data.map place :=
  emitLoop_place _ _

/-- Marking a range to be sent again leaves no empty chunk. -/
theorem retransmitLoop_sized {off maxOff : Nat} (bufs : List RangeBuf) (sized : Sized bufs)
    (wf : ∀ buf ∈ bufs, buf.Wf) :
    ∀ index pos len, Sized (retransmitLoop off maxOff index bufs (pos, len)).1 := by
  induction bufs with
  | nil => exact fun _ _ _ _ member => absurd member List.not_mem_nil
  | cons buf rest ih =>
    intro index pos len
    have here := sized buf List.mem_cons_self
    have later := ih (fun other member => sized other (List.mem_cons_of_mem _ member))
      fun other member => wf other (List.mem_cons_of_mem _ member)
    have ends := (wf buf List.mem_cons_self).maxOff_eq
    simp only [retransmitLoop]
    split
    · exact sized
    · split
      · exact List.forall_mem_cons.mpr ⟨here, later _ _ _⟩
      · split
        · -- The range ends strictly inside of the chunk, so both halves have bytes.
          refine List.forall_mem_cons.mpr ⟨?_, List.forall_mem_cons.mpr ⟨?_, fun other member =>
            sized other (List.mem_cons_of_mem _ member)⟩⟩
          · simp only [rewind, RangeBuf.splitOff]
            omega
          · simp only [RangeBuf.splitOff]
            omega
        · exact List.forall_mem_cons.mpr ⟨here, later _ _ _⟩

theorem retransmit_sized {send : SendBuf} (sized : Sized send.data) (wf : ∀ buf ∈ send.data, buf.Wf)
    (off len : Nat) : Sized (send.retransmit off len).data := by
  unfold retransmit
  dsimp only
  split
  · exact sized
  · split
    · exact sized
    · exact retransmitLoop_sized send.data sized wf _ _ _

/-- Appended chunks have bytes. -/
theorem pushChunks_sized (fin : Bool) (fuel : Nat) :
    ∀ (data : Bytes) (send : SendBuf), Sized send.data → Sized (pushChunks fin fuel data send).data := by
  induction fuel with
  | zero => exact fun _ _ sized => sized
  | succ fuel ih =>
    intro data send sized
    rw [pushChunks]
    split
    · exact sized
    · rename_i some_
      refine ih _ _ fun buf member => ?_
      rcases List.mem_append.mp member with old | new
      · exact sized buf old
      · rw [List.mem_singleton] at new
        subst new
        have length : 0 < data.length := List.length_pos_iff.mpr (by simpa using some_)
        simp only [RangeBuf.fromSlice, List.length_take, sendBufferSize]
        omega

theorem ackAndDrop_sized {send : SendBuf} (sized : Sized send.data) (off len : Nat) :
    Sized (send.ackAndDrop off len).data := by
  unfold ackAndDrop
  dsimp only
  split
  · exact sized
  · split
    · exact sized
    · split
      · exact sized
      · exact fun buf member => sized buf (List.mem_of_mem_drop member)

end Windows

/-- What a send buffer keeps of the bytes it accepted, given the offsets that were acknowledged and emitted so far. -/
structure Keeps (limit : Nat) (accepted : Nat → UInt8 → Prop) (acknowledged emitted : Nat → Prop)
    (send : SendBuf) : Prop where
  /-- Every byte that is held was accepted. -/
  content : ∃ content, Shape content send ∧
    ∀ x, Held send.data x → ∃ byte, content[x]? = some byte ∧ accepted x byte
  sized : Sized send.data
  running : send.error = none
  still : send.fcStreamRotate = false
  ranges : send.acked.Wf
  limit : send.maxData = limit
  acked : ∀ x, send.acked.Contains x → acknowledged x ∨ (x < send.off ∧ ¬Held send.data x)
  whole : ∀ x, x < send.off → send.acked.Contains x ∨ Held send.data x
  /-- What is held and not to be sent was emitted, or even acknowledged. -/
  spent : ∀ x, Held send.data x → Pending send.data x ∨ emitted x ∨ acknowledged x

section Keeps

variable {limit : Nat} {accepted : Nat → UInt8 → Prop} {acknowledged emitted : Nat → Prop} {send : SendBuf}

/-- A new buffer keeps nothing. -/
theorem keeps_new (limit : Nat) (accepted : Nat → UInt8 → Prop) (acknowledged emitted : Nat → Prop) :
    Keeps limit accepted acknowledged emitted (SendBuf.new limit) where
  content := ⟨[], ⟨rfl, by simp [SendBuf.new], Nat.le_refl 0, Nat.le_refl 0, by simp [SendBuf.new], Nat.zero_le _,
    Nat.le_refl 0⟩, fun x held => absurd held (by simp [SendBuf.new])⟩
  sized := fun _ member => absurd member List.not_mem_nil
  running := rfl
  still := rfl
  ranges := RangeSet.wf_default
  limit := rfl
  acked := fun x inside => ((RangeSet.contains_default x).mp inside).elim
  whole := fun x below => absurd below (Nat.not_lt_zero x)
  spent := fun x held => absurd held (by simp [SendBuf.new])

theorem Keeps.mono (keeps : Keeps limit accepted acknowledged emitted send) {accepted' : Nat → UInt8 → Prop}
    {acknowledged' emitted' : Nat → Prop} (accepts : ∀ x byte, accepted x byte → accepted' x byte)
    (acks : ∀ x, acknowledged x → acknowledged' x) (emits : ∀ x, emitted x → emitted' x) :
    Keeps limit accepted' acknowledged' emitted' send := by
  obtain ⟨content, shape, held⟩ := keeps.content
  refine ⟨⟨content, shape, fun x inside => ?_⟩, keeps.sized, keeps.running, keeps.still, keeps.ranges, keeps.limit,
    fun x inside => (keeps.acked x inside).imp (acks x) id, keeps.whole,
    fun x inside => (keeps.spent x inside).imp id (Or.imp (emits x) (acks x))⟩
  obtain ⟨byte, there, was⟩ := held x inside
  exact ⟨byte, there, accepts x byte was⟩

theorem Keeps.ackOff_le (keeps : Keeps limit accepted acknowledged emitted send) {x : Nat} (held : Held send.data x)
    (open_ : ¬acknowledged x) : send.ackOff ≤ x := by
  refine Nat.le_of_not_lt fun below => ?_
  rcases keeps.acked x (acked_of_lt_ackOff below) with was | ⟨-, skipped⟩
  · exact open_ was
  · exact skipped held

/-- An emission keeps what it sends. -/
theorem Keeps.emit (keeps : Keeps limit accepted acknowledged emitted send) (outLen : Nat) :
    Keeps limit accepted acknowledged
      (fun x => emitted x ∨ (send.offFront ≤ x ∧ x < send.offFront + (send.emit outLen).1.1.length))
      (send.emit outLen).2 := by
  obtain ⟨content, shape, held⟩ := keeps.content
  have sized := keeps.sized.congr (emit_place send outLen)
  have shaped := shape.emit outLen
  obtain ⟨out, data, pos, ran, taken, -⟩ := shape.emit_eq outLen
  rw [ran] at sized shaped ⊢
  refine ⟨⟨content, shaped, fun x inside => held x ((taken.held x).mp inside)⟩, sized, keeps.running, keeps.still,
    keeps.ranges, keeps.limit, fun x inside => ?_, fun x below => ?_, fun x inside => ?_⟩
  · exact (keeps.acked x inside).imp id fun skipped => ⟨skipped.1, fun still => skipped.2 ((taken.held x).mp still)⟩
  · exact (keeps.whole x below).imp id (taken.held x).mpr
  · -- What stops being pending is in the output.
    rcases keeps.spent x ((taken.held x).mp inside) with pending | was
    · by_cases sent : send.offFront ≤ x ∧ x < send.offFront + out.length
      · exact .inr (.inl (.inr sent))
      · exact .inl ((taken.pending x).mpr ⟨pending, sent⟩)
    · exact .inr (was.imp .inl id)

theorem Keeps.emit_leaves (keeps : Keeps limit accepted acknowledged emitted send) (outLen : Nat) :
    (∀ x, Held (send.emit outLen).2.data x ↔ Held send.data x) ∧
      (∀ x, Pending (send.emit outLen).2.data x ↔ Pending send.data x ∧
        ¬(send.offFront ≤ x ∧ x < send.offFront + (send.emit outLen).1.1.length)) ∧
      (∀ x, send.offFront ≤ x → x < send.offFront + (send.emit outLen).1.1.length → Pending send.data x) ∧
      (send.emit outLen).2.isFin = send.isFin ∧
      (send.emit outLen).1.1.length + total (send.emit outLen).2.data = total send.data := by
  obtain ⟨content, shape, -⟩ := keeps.content
  obtain ⟨out, data, pos, ran, taken, -⟩ := shape.emit_eq outLen
  rw [ran]
  exact ⟨taken.held, taken.pending, taken.were, rfl, by rw [Nat.add_comm]; exact taken.total⟩

theorem Keeps.emit_accepted (keeps : Keeps limit accepted acknowledged emitted send) (outLen i : Nat) {byte : UInt8}
    (there : (send.emit outLen).1.1[i]? = some byte) : accepted (send.offFront + i) byte := by
  obtain ⟨content, shape, held⟩ := keeps.content
  have taken := shape.emit_taken outLen
  have inside := (List.getElem?_eq_some_iff.mp there).1
  have pending := taken.were (send.offFront + i) (by omega) (by omega)
  obtain ⟨other, shows, was⟩ := held _ (pending.held shape.holds)
  rw [taken.bytes, List.getElem?_take_of_lt inside, List.getElem?_drop] at there
  cases there.symm.trans shows
  exact was

/-- Marking a range to be sent again keeps everything. -/
theorem Keeps.retransmit (keeps : Keeps limit accepted acknowledged emitted send) (off len : Nat) :
    Keeps limit accepted acknowledged emitted (send.retransmit off len) := by
  obtain ⟨content, shape, held⟩ := keeps.content
  have sized := retransmit_sized keeps.sized (fun buf member => (shape.holds buf member).wf) off len
  obtain ⟨shaped, same, more, -⟩ := shape.retransmit off len
  obtain ⟨data, pos, length, frame⟩ := retransmit_frame send off len
  rw [frame] at sized shaped same more ⊢
  refine ⟨⟨content, shaped, fun x inside => held x ((same x).mp inside)⟩, sized, keeps.running, keeps.still,
    keeps.ranges, keeps.limit, fun x inside => ?_, fun x below => ?_, fun x inside => ?_⟩
  · exact (keeps.acked x inside).imp id fun skipped => ⟨skipped.1, fun still => skipped.2 ((same x).mp still)⟩
  · exact (keeps.whole x below).imp id (same x).mpr
  · exact (keeps.spent x ((same x).mp inside)).imp (more x) id

theorem Keeps.retransmit_pending (keeps : Keeps limit accepted acknowledged emitted send) {off len x : Nat}
    (inside : off ≤ x ∧ x < off + len) (held : Held send.data x) (open_ : ¬acknowledged x) :
    Pending (send.retransmit off len).data x := by
  obtain ⟨content, shape, -⟩ := keeps.content
  have behind := keeps.ackOff_le held open_
  exact (shape.retransmit off len).2.2.2.2 (by omega) x inside held

/-- An acknowledgment keeps what it does not cover. -/
theorem Keeps.ackAndDrop (keeps : Keeps limit accepted acknowledged emitted send) (off len : Nat) :
    Keeps limit accepted (fun x => acknowledged x ∨ (off ≤ x ∧ x < off + len)) emitted (send.ackAndDrop off len) ∧
      ∀ x, ¬(acknowledged x ∨ (off ≤ x ∧ x < off + len)) →
        (Held send.data x → Held (send.ackAndDrop off len).data x) ∧
        (Pending send.data x → Pending (send.ackAndDrop off len).data x) := by
  obtain ⟨content, shape, held⟩ := keeps.content
  have sized := ackAndDrop_sized keeps.sized off len
  obtain ⟨shaped, ⟨data, pos, frame⟩, less, heldBack, fewer, pendingBack⟩ := shape.ackAndDrop off len keeps.still
  have forward : off ≤ off + len := Nat.le_add_right _ _
  rw [frame] at sized shaped less heldBack fewer pendingBack ⊢
  -- What counts as acknowledged now lies in the range, or did before.
  have counts : ∀ x, (send.acked.insert off (off + len)).Contains x →
      (acknowledged x ∨ (off ≤ x ∧ x < off + len)) ∨ (x < send.off ∧ ¬Held send.data x) := by
    intro x contains
    rcases (RangeSet.contains_insert keeps.ranges forward x).mp contains with inside | old
    · exact .inl (.inr inside)
    · exact (keeps.acked x old).imp .inl id
  refine ⟨⟨⟨content, shaped, fun x inside => held x (less x inside)⟩, sized, keeps.running, keeps.still,
    keeps.ranges.insert forward, keeps.limit, ?_, ?_, ?_⟩, ?_⟩
  · exact fun x contains => (counts x contains).imp id fun skipped =>
      ⟨skipped.1, fun still => skipped.2 (less x still)⟩
  · intro x below
    rcases keeps.whole x below with old | inside
    · exact .inl ((RangeSet.contains_insert keeps.ranges forward x).mpr (.inr old))
    · exact (heldBack x inside).symm
  · intro x inside
    rcases keeps.spent x (less x inside) with pending | was
    · rcases pendingBack x pending with left | contains
      · exact .inl left
      · exact .inr (.inr ((counts x contains).resolve_right fun skipped => skipped.2 (less x inside)))
    · exact .inr (was.imp id .inl)
  · intro x open_
    have kept : Held send.data x → ¬(send.acked.insert off (off + len)).Contains x := by
      intro inside contains
      rcases counts x contains with was | skipped
      · exact open_ was
      · exact skipped.2 inside
    exact ⟨fun inside => (heldBack x inside).resolve_right (kept inside),
      fun pending => (pendingBack x pending).resolve_right (kept (pending.held shape.holds))⟩

/-- A buffer that is moved to an offset keeps everything. -/
theorem Keeps.moved (keeps : Keeps limit accepted acknowledged emitted send) {offset : Nat} (behind : send.off ≤ offset)
    (within : offset ≤ limit) : Keeps limit accepted acknowledged emitted (send.moved offset) := by
  obtain ⟨content, shape, held⟩ := keeps.content
  have shaped := shape.moved behind (by rw [keeps.limit]; exact within)
  obtain ⟨ends, data, -, -, maxData, error, -⟩ := moved_frame send offset
  have counts : ∀ x, (send.moved offset).acked.Contains x ↔ send.acked.Contains x ∨ (send.off ≤ x ∧ x < offset) := by
    intro x
    unfold SendBuf.moved
    split
    · exact ⟨.inl, fun either => either.elim id fun inside => absurd inside (by omega)⟩
    · show (send.acked.insert send.off (send.off + (offset - send.off))).Contains x ↔ _
      rw [RangeSet.contains_insert keeps.ranges (Nat.le_add_right _ _), Or.comm, Nat.add_sub_cancel' behind]
  have bounds : ∀ x, Held send.data x → x < send.off := fun x inside => (shape.ordered.bounds inside).2
  refine ⟨⟨_, shaped, fun x inside => ?_⟩, by rw [data]; exact keeps.sized, error.trans keeps.running, ?_, ?_,
    maxData.trans keeps.limit, fun x contains => ?_, fun x below => ?_, fun x inside => ?_⟩
  · rw [data] at inside
    obtain ⟨byte, there, was⟩ := held x inside
    exact ⟨byte, by rw [List.getElem?_append_left (List.getElem?_eq_some_iff.mp there).1]; exact there, was⟩
  · unfold SendBuf.moved
    split
    · exact keeps.still
    · exact keeps.still
  · unfold SendBuf.moved
    split
    · exact keeps.ranges
    · exact keeps.ranges.insert (Nat.le_add_right _ _)
  · rw [ends, data]
    rcases (counts x).mp contains with old | skipped
    · exact (keeps.acked x old).imp id fun was => ⟨by omega, was.2⟩
    · refine .inr ⟨skipped.2, fun inside => ?_⟩
      have := bounds x inside
      omega
  · rw [ends] at below
    rw [data, counts]
    by_cases old : x < send.off
    · exact (keeps.whole x old).imp .inl id
    · exact .inl (.inr ⟨by omega, below⟩)
  · rw [data] at inside ⊢
    exact keeps.spent x inside

end Keeps

/-- Whether a write at an offset breaks the final size that is known. -/
def refuses (send : SendBuf) (data : Bytes) (offset : Nat) (fin : Bool) : Bool :=
  send.finConflict (offset + data.length) (fin && decide (data.length ≤ send.maxData - offset))

/-- A write of data that was acknowledged before is counted, and at most sets the final offset. -/
theorem write_acked {send : SendBuf} {data : Bytes} (fin : Bool) (open_ : send.error = none)
    (flow : send.off ≤ send.maxData) (acks : send.off + data.length ≤ send.ackOff)
    (accepts : send.refuses data send.off fin = false) :
    ∃ finOff, send.write data fin = .ok (min data.length (send.maxData - send.off), { send with finOff := finOff }) ∧
      (finOff = send.finOff ∨ finOff = some (send.off + data.length)) := by
  have capacity : send.cap = .ok (send.maxData - send.off) := by
    rw [cap, open_]
    exact if_neg (Nat.not_lt.mpr flow)
  have known : ∀ last : Bool, (if last then { send with finOff := some (send.off + data.length) } else send).ackOff =
      send.ackOff := by
    intro last
    cases last
    · rfl
    · rfl
  unfold SendBuf.write
  rw [capacity]
  by_cases cut : send.maxData - send.off < data.length
  · have unfin : decide (data.length ≤ send.maxData - send.off) = false := by simpa using cut
    rw [refuses, unfin, Bool.and_false] at accepts
    have measure : (data.take (send.maxData - send.off)).length = min data.length (send.maxData - send.off) := by
      rw [List.length_take]
      omega
    simp only [if_pos cut, accepts, Bool.false_eq_true, if_false, if_pos acks, measure]
    exact ⟨send.finOff, rfl, .inl rfl⟩
  · have fits : decide (data.length ≤ send.maxData - send.off) = true := by simpa using cut
    rw [refuses, fits, Bool.and_true] at accepts
    have least : min data.length (send.maxData - send.off) = data.length := by omega
    simp only [if_neg cut, accepts, Bool.false_eq_true, if_false, known, if_pos acks, least]
    cases fin with
    | false => exact ⟨send.finOff, rfl, .inl rfl⟩
    | true => exact ⟨_, rfl, .inr rfl⟩

theorem refuses_moved (send : SendBuf) (data : Bytes) (offset : Nat) (fin : Bool) :
    (send.moved offset).refuses data offset fin = send.refuses data offset fin := by
  obtain ⟨-, -, -, -, maxData, -, final⟩ := moved_frame send offset
  rw [refuses, refuses, finConflict, finConflict, maxData, final]

/-- A write at an offset would put bytes into the buffer. -/
structure Enqueues (send : SendBuf) (data : Bytes) (offset : Nat) (fin : Bool) : Prop where
  behind : send.off ≤ offset
  some_ : data ≠ []
  room : offset < send.maxData
  accepts : send.refuses data offset fin = false
  unacked : (send.moved offset).ackOff < offset + data.length

instance decidableEnqueues (send : SendBuf) (data : Bytes) (offset : Nat) (fin : Bool) :
    Decidable (send.Enqueues data offset fin) :=
  decidable_of_iff (send.off ≤ offset ∧ data ≠ [] ∧ offset < send.maxData ∧ send.refuses data offset fin = false ∧
      (send.moved offset).ackOff < offset + data.length)
    ⟨fun ⟨behind, some_, room, accepts, unacked⟩ => ⟨behind, some_, room, accepts, unacked⟩,
      fun ⟨behind, some_, room, accepts, unacked⟩ => ⟨behind, some_, room, accepts, unacked⟩⟩

section Writing

variable {limit : Nat} {accepted : Nat → UInt8 → Prop} {acknowledged emitted : Nat → Prop} {send : SendBuf}
  {data : Bytes} {offset : Nat} {fin : Bool}

/-- What a buffer has after it accepted some bytes of a piece. -/
structure Stores (limit : Nat) (accepted : Nat → UInt8 → Prop) (acknowledged emitted : Nat → Prop)
    (send after : SendBuf) (data : Bytes) (offset : Nat) (fin : Bool) (count : Nat) : Prop where
  keeps : Keeps limit (fun x byte => accepted x byte ∨ (offset ≤ x ∧ (data.take count)[x - offset]? = some byte))
    acknowledged emitted after
  held : ∀ x, Held send.data x → Held after.data x
  pending : ∀ x, Pending send.data x → Pending after.data x
  /-- What was accepted is to be sent, unless it was acknowledged before. -/
  new : ∀ x, offset ≤ x → x < offset + count → acknowledged x ∨ Pending after.data x
  grows : after.data ≠ [] → send.data ≠ [] ∨ send.Enqueues data offset fin
  final : send.isFin = true → after.isFin = true

theorem final_of_accepts (accepts : send.refuses data offset fin = false) (behind : send.off ≤ offset)
    (final : send.isFin = true) : send.off = offset ∧ data = [] := by
  have known : send.finOff = some send.off := by simpa [isFin] using final
  rw [refuses, finConflict, known] at accepts
  simp only [Bool.or_eq_false_iff, decide_eq_false_iff_not, Nat.not_lt] at accepts
  exact ⟨by omega, List.length_eq_zero_iff.mp (by omega)⟩

/-- A write that breaks the final size is refused. -/
theorem write_refused (open_ : send.error = none) (flow : send.off ≤ send.maxData)
    (refused : send.refuses data send.off fin = true) : send.write data fin = .error .finalSize := by
  have capacity : send.cap = .ok (send.maxData - send.off) := by
    rw [cap, open_]
    exact if_neg (Nat.not_lt.mpr flow)
  unfold SendBuf.write
  rw [capacity]
  rw [refuses] at refused
  by_cases cut : send.maxData - send.off < data.length
  · have unfin : decide (data.length ≤ send.maxData - send.off) = false := by simpa using cut
    rw [unfin, Bool.and_false] at refused
    simp only [if_pos cut, refused, if_true]
  · have fits : decide (data.length ≤ send.maxData - send.off) = true := by simpa using cut
    rw [fits, Bool.and_true] at refused
    simp only [if_neg cut, refused, if_true]

/-- Data that was acknowledged before is accepted without being queued. -/
theorem Keeps.write_acked (keeps : Keeps limit accepted acknowledged emitted send)
    (acks : send.off + data.length ≤ send.ackOff) (accepts : send.refuses data send.off fin = false) :
    ∃ count after, send.write data fin = .ok (count, after) ∧ count ≤ data.length ∧
      Stores limit accepted acknowledged emitted send after data send.off fin count := by
  obtain ⟨content, shape, held⟩ := keeps.content
  obtain ⟨finOff, wrote, marked⟩ := SendBuf.write_acked fin keeps.running shape.flow acks accepts
  refine ⟨_, _, wrote, Nat.min_le_left _ _,
    ⟨?_, fun _ held => held, fun _ pending => pending, ?_, fun some_ => .inl some_,
    ?_⟩⟩
  · obtain ⟨content, shape, held⟩ := keeps.content
    refine ⟨⟨content, ⟨shape.size, shape.holds, shape.ordered, shape.index, shape.consumed, shape.flow, shape.room⟩,
      fun x inside => ?_⟩, keeps.sized, keeps.running, keeps.still, keeps.ranges, keeps.limit, keeps.acked, keeps.whole,
      keeps.spent⟩
    obtain ⟨byte, there, was⟩ := held x inside
    exact ⟨byte, there, .inl was⟩
  · -- An offset that counts as acknowledged beyond the end was not skipped.
    intro x low high
    left
    refine (keeps.acked x (acked_of_lt_ackOff (by omega))).resolve_right fun skipped => ?_
    omega
  · intro final
    obtain ⟨-, rfl⟩ := final_of_accepts accepts (Nat.le_refl _) final
    have known : send.finOff = some send.off := by simpa [isFin] using final
    rcases marked with rfl | rfl
    · simpa [isFin] using known
    · simp [isFin]

/-- What was written has no empty chunk. -/
theorem write_sized {after : SendBuf} {count : Nat} (sized : Sized send.data)
    (wrote : send.write data fin = .ok (count, after)) : Sized after.data := by
  unfold SendBuf.write at wrote
  split at wrote
  · cases wrote
  · rename_i capacity _
    simp only at wrote
    generalize (if capacity < data.length then data.take capacity else data) = stored at wrote
    generalize (if capacity < data.length then false else fin) = flag at wrote
    have same : (if flag then { send with finOff := some (send.off + data.length) } else send).data = send.data := by
      cases flag
      · rfl
      · rfl
    generalize (if flag then { send with finOff := some (send.off + data.length) } else send) = marked at wrote same
    rw [← same] at sized
    split at wrote
    · cases wrote
    · split at wrote
      · cases wrote
        exact sized
      · split at wrote
        · cases wrote
          exact sized
        · cases wrote
          exact pushChunks_sized _ _ _ _ sized

/-- Data that reaches beyond what was acknowledged is queued, as far as flow control allows. -/
theorem Keeps.write_beyond (keeps : Keeps limit accepted acknowledged emitted send)
    (beyond : data ≠ [] → send.ackOff < send.off + data.length) (accepts : send.refuses data send.off fin = false) :
    ∃ count after, send.write data fin = .ok (count, after) ∧ count ≤ data.length ∧
      Stores limit accepted acknowledged emitted send after data send.off fin count := by
  obtain ⟨content, shape, held⟩ := keeps.content
  rcases shape.write_beyond data fin keeps.running beyond with ⟨conflict, -⟩ | ⟨count, after, wrote, stored⟩
  · rw [refuses] at accepts
    rw [accepts] at conflict
    cases conflict
  · have sized := write_sized keeps.sized wrote
    obtain ⟨amount, -, shaped, ⟨bufs, len, frame⟩, holds, pends⟩ := stored
    have size := shape.size
    have bounds : ∀ x, Held send.data x → x < send.off := fun x inside => (shape.ordered.bounds inside).2
    refine ⟨count, after, wrote, by omega, ⟨?_, fun x inside => (holds x).mpr (.inl inside),
      fun x pending => (pends x).mpr (.inl pending), fun x low high => .inr ((pends x).mpr (.inr ⟨low, high⟩)), ?_, ?_⟩⟩
    · refine ⟨⟨_, shaped, fun x inside => ?_⟩, sized, by rw [frame]; exact keeps.running,
        by rw [frame]; exact keeps.still,
        by rw [frame]; exact keeps.ranges, by rw [frame]; exact keeps.limit, fun x contains => ?_, fun x below => ?_,
        fun x inside => ?_⟩
      · rcases (holds x).mp inside with old | new
        · obtain ⟨byte, there, was⟩ := held x old
          refine ⟨byte, ?_, .inl was⟩
          rw [List.getElem?_append_left (by rw [size]; exact bounds x old)]
          exact there
        · -- The new bytes stand behind those of the stream so far.
          have inside : x - send.off < (data.take count).length := by rw [List.length_take]; omega
          have place : (data.take count)[x - send.off]? = some (data.take count)[x - send.off] :=
            List.getElem?_eq_getElem inside
          refine ⟨_, ?_, .inr ⟨new.1, place⟩⟩
          rw [List.getElem?_append_right (by omega), size]
          exact place
      · have old : send.acked.Contains x := by rw [frame] at contains; exact contains
        have further : send.off ≤ after.off := by rw [frame]; exact Nat.le_add_right _ _
        refine (keeps.acked x old).imp id fun skipped => ⟨by omega, fun inside => ?_⟩
        rcases (holds x).mp inside with inside | new
        · exact skipped.2 inside
        · omega
      · have ends : after.off = send.off + count := by rw [frame]
        have same : after.acked = send.acked := by rw [frame]
        rw [same, holds]
        by_cases old : x < send.off
        · exact (keeps.whole x old).imp id .inl
        · exact .inr (.inr ⟨by omega, by omega⟩)
      · rcases (holds x).mp inside with old | new
        · exact (keeps.spent x old).imp (fun pending => (pends x).mpr (.inl pending)) id
        · exact .inl ((pends x).mpr (.inr new))
    · intro some_
      by_cases none_ : count = 0
      · -- Without a new byte there is no new chunk either.
        left
        intro empty
        obtain ⟨first, member⟩ := List.exists_mem_of_ne_nil _ some_
        have here : Held after.data first.off := ⟨first, member, Nat.le_refl _, by have := sized first member; omega⟩
        rcases (holds _).mp here with old | new
        · rw [empty] at old
          exact (held_nil _).mp old
        · omega
      · right
        have full : data ≠ [] := by
          rintro rfl
          simp at amount
          omega
        have here : send.moved send.off = send := if_pos rfl
        exact ⟨Nat.le_refl _, full, by omega, accepts, by rw [here]; exact beyond full⟩
    · intro final
      obtain ⟨-, rfl⟩ := final_of_accepts accepts (Nat.le_refl _) final
      have known : send.finOff = some send.off := by simpa [isFin] using final
      simp only [List.length_nil, Nat.zero_min] at amount
      subst amount
      rw [frame]
      simp only [isFin, List.length_nil, Nat.add_zero, known, ite_self]
      simp

/-- Marking what was accepted to be sent takes nothing away. -/
theorem Stores.retransmit {after : SendBuf} {count : Nat}
    (accepts : Stores limit accepted acknowledged emitted send after data offset fin count) (off len : Nat) :
    Stores limit accepted acknowledged emitted send (after.retransmit off len) data offset fin count := by
  obtain ⟨content, shape, -⟩ := accepts.keeps.content
  obtain ⟨-, same, more, -⟩ := shape.retransmit off len
  refine ⟨accepts.keeps.retransmit off len, fun x held => (same x).mpr (accepts.held x held),
    fun x pending => more x (accepts.pending x pending), fun x low high => (accepts.new x low high).imp id (more x),
    fun some_ => accepts.grows fun empty => some_ ?_, fun final => ?_⟩
  · rw [SendBuf.retransmit, if_pos (by rw [empty]; rfl)]
    exact empty
  · obtain ⟨_, _, _, frame⟩ := retransmit_frame after off len
    rw [frame]
    exact accepts.final final

/-- A write at an offset behind the end accepts what flow control allows, unless it breaks the final size. -/
theorem Keeps.writeAtOffset (keeps : Keeps limit accepted acknowledged emitted send) (behind : send.off ≤ offset)
    (within : offset ≤ limit) (accepts : send.refuses data offset fin = false) :
    ∃ count after, send.writeAtOffset data offset fin = (.ok count, after) ∧ count ≤ data.length ∧
      Stores limit accepted acknowledged emitted send after data offset fin count := by
  have ready := keeps.moved behind within
  obtain ⟨ends, same, -, -, maxData, -, final⟩ := moved_frame send offset
  rw [← refuses_moved] at accepts
  have written : ∃ count after, (send.moved offset).write data fin = .ok (count, after) ∧ count ≤ data.length ∧
      Stores limit accepted acknowledged emitted (send.moved offset) after data offset fin count := by
    have here : (send.moved offset).refuses data (send.moved offset).off fin = false := by rw [ends]; exact accepts
    by_cases old : (send.moved offset).off + data.length ≤ (send.moved offset).ackOff
    · have stored := ready.write_acked old here
      rwa [ends] at stored
    · have stored := ready.write_beyond (fun _ => Nat.lt_of_not_le old) here
      rwa [ends] at stored
  obtain ⟨count, after, wrote, least, stored⟩ := written
  refine ⟨count, after.retransmit offset count, ?_, least,
    Stores.retransmit ⟨stored.keeps, ?_, ?_, stored.new, ?_, ?_⟩ _ _⟩
  · rw [writeAtOffset_behind behind, wrote]
  · rw [← same]
    exact stored.held
  · rw [← same]
    exact stored.pending
  · intro some_
    rw [← same]
    refine (stored.grows some_).imp id fun enqueues => ⟨behind, enqueues.some_, ?_, ?_, ?_⟩
    · rw [← maxData]
      exact enqueues.room
    · rw [← refuses_moved]
      exact accepts
    · have again : (send.moved offset).moved offset = send.moved offset := if_pos ends
      have unacked := enqueues.unacked
      rwa [again] at unacked
  · -- A buffer that ends at its final offset was not moved.
    intro isFinal
    refine stored.final ?_
    rw [refuses_moved] at accepts
    obtain ⟨here, -⟩ := final_of_accepts accepts behind isFinal
    have stays : send.moved offset = send := if_pos here
    rw [stays]
    exact isFinal

theorem Keeps.writeAtOffset_refused (keeps : Keeps limit accepted acknowledged emitted send)
    (behind : send.off ≤ offset) (within : offset ≤ limit) (refused : send.refuses data offset fin = true) :
    send.writeAtOffset data offset fin = (.error .finalSize, send.moved offset) := by
  have ready := keeps.moved behind within
  obtain ⟨content, shape, -⟩ := ready.content
  have ends := (moved_frame send offset).1
  rw [← refuses_moved] at refused
  rw [writeAtOffset_behind behind, write_refused ready.running shape.flow (by rw [ends]; exact refused)]

end Writing

section Acknowledging

variable {limit : Nat} {accepted : Nat → UInt8 → Prop} {acknowledged emitted : Nat → Prop} {send : SendBuf}

theorem Keeps.ackAndDrop_frame (keeps : Keeps limit accepted acknowledged emitted send) (off len : Nat) :
    (send.ackAndDrop off len).isFin = send.isFin ∧
      (∀ x, Held (send.ackAndDrop off len).data x → Held send.data x) ∧
      ∀ x, Pending (send.ackAndDrop off len).data x → Pending send.data x := by
  obtain ⟨content, shape, -⟩ := keeps.content
  obtain ⟨-, ⟨data, pos, frame⟩, held, -, pending, -⟩ := shape.ackAndDrop off len keeps.still
  exact ⟨by rw [frame]; rfl, held, pending⟩

/-- The contiguously acknowledged offset lies behind every row of acknowledged ones. -/
theorem le_ackOff (wf : send.acked.Wf) {n : Nat} (all : ∀ x, x < n → send.acked.Contains x) : n ≤ send.ackOff := by
  by_cases none_ : n = 0
  · omega
  · -- The range that holds zero is the first, and ends where the row does or behind.
    obtain ⟨range, member, low, high⟩ := all 0 (by omega)
    cases listed : send.acked.iter with
    | nil => rw [listed] at member; exact absurd member List.not_mem_nil
    | cons head rest =>
      have apart := wf.separated
      rw [listed] at member apart
      obtain ⟨headForward, above, -⟩ := Intervals.separated_cons.mp apart
      have first : range = head := by
        rcases List.mem_cons.mp member with same | later
        · exact same
        · have := above range later
          omega
      subst first
      have begins : range.1 = 0 := by omega
      have ackOff : send.ackOff = range.2 := by
        unfold SendBuf.ackOff
        rw [listed]
        obtain ⟨start, stop⟩ := range
        cases begins
        rfl
      rw [ackOff]
      refine Nat.le_of_not_lt fun short => ?_
      obtain ⟨other, inside, below, beyond⟩ := all range.2 short
      rw [listed] at inside
      rcases List.mem_cons.mp inside with same | later
      · subst same
        omega
      · have := above other later
        omega

/-- What of the first chunk is not acknowledged contiguously, by its offset and length. -/
def front (send : SendBuf) (buf : RangeBuf) : Nat × Nat :=
  (max buf.off send.ackOff, buf.off + buf.len - max buf.off send.ackOff)

/-- Once the rest of the first chunk is acknowledged, that chunk is dropped. -/
theorem Keeps.ackAndDrop_front (keeps : Keeps limit accepted acknowledged emitted send) {buf : RangeBuf}
    {rest : List RangeBuf} (data : send.data = buf :: rest) :
    (send.ackAndDrop (send.front buf).1 (send.front buf).2).data.length < send.data.length := by
  obtain ⟨content, shape, -⟩ := keeps.content
  have sized := keeps.sized buf (by rw [data]; exact List.mem_cons_self)
  have wf := (shape.holds buf (by rw [data]; exact List.mem_cons_self)).wf
  have ordered := shape.ordered
  rw [data] at ordered
  have ends := ordered.2.le
  have first : ∀ x, Held send.data x → buf.off ≤ x := by
    intro x held
    rw [data, held_cons] at held
    rcases held with mine | later
    · exact mine.1
    · have := (ordered.2.bounds later).1
      omega
  obtain ⟨off, offEq⟩ : ∃ off, off = max buf.off send.ackOff := ⟨_, rfl⟩
  obtain ⟨len, lenEq⟩ : ∃ len, len = buf.off + buf.len - off := ⟨_, rfl⟩
  have range : send.front buf = (off, len) := by rw [front, ← offEq, ← lenEq]
  rw [range]
  have inserted := RangeSet.contains_insert keeps.ranges (Nat.le_add_right off len)
  -- Everything up to the end of the chunk is acknowledged, and nothing was forgotten.
  have reach : max (buf.off + buf.len) send.ackOff ≤ (send.ack off len).ackOff := by
    refine le_ackOff (keeps.ranges.insert (Nat.le_add_right off len)) fun x below => (inserted x).mpr ?_
    by_cases old : x < send.ackOff
    · exact .inr (acked_of_lt_ackOff old)
    · by_cases before : x < buf.off
      · refine .inr ((keeps.whole x (by omega)).resolve_right fun held => ?_)
        have := first x held
        omega
      · exact .inl (by omega)
  have plain : send.ackAndDrop off len = (send.ack off len).dropAcked := by
    have some_ : (send.ack off len).data.isEmpty = false := by
      show send.data.isEmpty = false
      rw [data]
      rfl
    simp only [SendBuf.ackAndDrop, keeps.still, Bool.false_and, Bool.false_eq_true, if_false, some_]
    rw [if_neg (by omega)]
  rw [plain, dropAcked]
  have head : (send.ack off len).data = buf :: rest := data
  have passes : (decide (buf.off < (send.ack off len).ackOff) &&
      decide (buf.maxOff ≤ (send.ack off len).ackOff)) = true := by
    rw [Bool.and_eq_true, decide_eq_true_eq, decide_eq_true_eq, wf.maxOff_eq]
    omega
  simp only [head, List.takeWhile_cons, passes, if_true, List.length_cons, List.drop_succ_cons, data]
  have := List.length_drop (i := (rest.takeWhile fun buf => decide (buf.off < (send.ack off len).ackOff) &&
    decide (buf.maxOff ≤ (send.ack off len).ackOff)).length) (l := rest)
  omega

theorem Keeps.front_emitted (keeps : Keeps limit accepted acknowledged emitted send)
    (none_ : ∀ x, ¬Pending send.data x) {buf : RangeBuf} (member : buf ∈ send.data) {x : Nat}
    (low : (send.front buf).1 ≤ x) (high : x < (send.front buf).1 + (send.front buf).2) :
    emitted x ∨ acknowledged x := by
  simp only [front] at low high
  exact (keeps.spent x ⟨buf, member, by omega, by omega⟩).resolve_left (none_ x)

end Acknowledging

end SendBuf

end Flexicast
