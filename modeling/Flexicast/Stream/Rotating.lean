import Flexicast.Lib.Runs
import Flexicast.Stream.Keeping

/-! Runs of a send buffer with its rotation buffer: what is accepted, emitted, sent again and acknowledged. -/

namespace Flexicast

namespace RotSendBuf

/-- The lowest offset that is to be sent, of the main buffer or else of the rotation buffer. -/
def fcOffFront (send : RotSendBuf) : Nat :=
  match (send.main.data.drop send.main.pos).find? (fun buf => !buf.isEmpty) with
  | some buf => buf.curOff
  | none =>
    match send.fcSendBuf with
    | some ⟨some inner⟩ => inner.offFront
    | _ => send.main.off

section Cases

variable {main inner : SendBuf}

theorem emit_turns (main inner : SendBuf) (outLen : Nat) :
    ((main.emit outLen).1.1 = [] ∧ (main.emit outLen).1.2 = true ∧
        emit ⟨main, some ⟨some inner⟩⟩ outLen =
          (.ok (inner.emit outLen).1, ⟨(main.emit outLen).2, some ⟨some (inner.emit outLen).2⟩⟩)) ∨
      (((main.emit outLen).1.1 = [] → (main.emit outLen).1.2 = false) ∧
        emit ⟨main, some ⟨some inner⟩⟩ outLen =
          (.ok (main.emit outLen).1, ⟨(main.emit outLen).2, some ⟨some inner⟩⟩)) := by
  unfold RotSendBuf.emit
  obtain ⟨⟨out, fin⟩, after⟩ := main.emit outLen
  by_cases done : out = [] ∧ fin = true
  · obtain ⟨rfl, rfl⟩ := done
    exact .inl ⟨rfl, rfl, rfl⟩
  · right
    have going : (out.isEmpty && fin) = false := by
      cases out with
      | nil => simpa using done
      | cons byte rest => rfl
    simp only [going, Bool.false_eq_true, if_false, and_true]
    exact fun empty => by simpa [empty] using done

theorem fcOffFront_main {content : Bytes} (shape : SendBuf.Shape content main) {x : Nat}
    (pending : SendBuf.Pending main.data x) (fcSendBuf : Option FcSendBuf) :
    fcOffFront ⟨main, fcSendBuf⟩ = main.offFront := by
  unfold fcOffFront SendBuf.offFront
  cases found : (main.data.drop main.pos).find? fun buf => !buf.isEmpty with
  | some buf => rfl
  | none =>
    -- Without a chunk left nothing would be pending.
    have first := shape.firstLeft_drop
    rw [SendBuf.firstLeft, found] at first
    refine absurd pending (SendBuf.not_pending_of_consumed shape.holds fun buf member => ?_)
    simpa using List.find?_eq_none.mp first.symm buf member

theorem fcOffFront_inner {content : Bytes} (shape : SendBuf.Shape content main)
    (none_ : ∀ x, ¬SendBuf.Pending main.data x) (inner : SendBuf) :
    fcOffFront ⟨main, some ⟨some inner⟩⟩ = inner.offFront := by
  unfold fcOffFront
  cases found : (main.data.drop main.pos).find? fun buf => !buf.isEmpty with
  | none => rfl
  | some buf =>
    have left : buf.isEmpty = false := by simpa using List.find?_some found
    have member := List.mem_of_mem_drop (List.mem_of_find?_eq_some found)
    exact absurd ⟨buf, member, Nat.le_refl _, SendBuf.curOff_lt (shape.holds buf member) left⟩ (none_ buf.curOff)

/-- What an acknowledgment leaves of the rotation buffer. -/
def fed (main inner : SendBuf) (off len : Nat) : SendBuf :=
  if off < main.ackOff then inner.ackAndDrop off len else inner

/-- An acknowledgment goes to the main buffer, whose place the rotation buffer takes once it is empty. -/
theorem ackAndDrop_cases (still : main.fcStreamRotate = false) (inner : SendBuf) (off len : Nat) :
    (ackAndDrop ⟨main, some ⟨some inner⟩⟩ off len = ⟨main.ackAndDrop off len, some ⟨some (fed main inner off len)⟩⟩ ∧
        (main.data ≠ [] → (main.ackAndDrop off len).data = [] → (fed main inner off len).data = [])) ∨
      (ackAndDrop ⟨main, some ⟨some inner⟩⟩ off len =
          ⟨fed main inner off len, some ⟨some (SendBuf.new (fed main inner off len).maxData)⟩⟩ ∧
        main.data ≠ [] ∧ (main.ackAndDrop off len).data = [] ∧ (fed main inner off len).data ≠ []) := by
  have kept : (if off < main.ackOff then
      (some (FcSendBuf.mk (some inner))).map fun fc => FcSendBuf.mk (fc.inner.map fun inner => inner.ackAndDrop off len)
      else some ⟨some inner⟩) = some ⟨some (fed main inner off len)⟩ := by
    unfold fed
    split
    · rfl
    · rfl
  have plain : main.ackAndDrop off len =
      if (main.ack off len).data.isEmpty then main.ack off len
      else if (main.ack off len).ackOff < off then main.ack off len
      else (main.ack off len).dropAcked := by
    simp [SendBuf.ackAndDrop, still]
  rw [plain]
  unfold ackAndDrop
  simp only [still, Bool.false_and, Bool.false_eq_true, if_false, kept]
  by_cases empty : (main.ack off len).data.isEmpty = true
  · left
    rw [if_pos empty, if_pos empty]
    have none_ : main.data = [] := List.isEmpty_iff.mp empty
    exact ⟨rfl, fun some_ => absurd none_ some_⟩
  · rw [if_neg empty, if_neg empty]
    have some_ : main.data ≠ [] := fun none_ => empty (List.isEmpty_iff.mpr none_)
    by_cases early : (main.ack off len).ackOff < off
    · left
      rw [if_pos early, if_pos early]
      exact ⟨rfl, fun _ none_ => absurd none_ some_⟩
    · rw [if_neg early, if_neg early]
      cases dropped : (main.ack off len).dropAcked.data with
      | cons buf rest => exact .inl ⟨rfl, fun _ none_ => by cases none_⟩
      | nil =>
        by_cases drained : (fed main inner off len).data = []
        · left
          simp only [drained, List.isEmpty_nil, if_true]
          exact ⟨trivial, fun _ _ => trivial⟩
        · right
          have left_ : (fed main inner off len).data.isEmpty = false := by simpa using drained
          simp only [left_, Bool.false_eq_true, if_false]
          exact ⟨trivial, some_, trivial, drained⟩

end Cases

end RotSendBuf

/-- What happens to a send buffer with its rotation buffer. -/
inductive RotEvent where
  | write (data : Bytes) (offset : Nat) (fin : Bool)
  /-- Data is written into an output of some size. -/
  | emit (outLen : Nat)
  /-- A range is lost and marked to be sent again. -/
  | retransmit (off len : Nat)
  /-- A range is acknowledged. -/
  | ack (off len : Nat)

/-- A send buffer with its rotation buffer and their history. -/
structure RotSender where
  send : RotSendBuf
  /-- The accepted data, with its offsets. -/
  pieces : List (Nat × Bytes)
  /-- The emitted data, with the offsets in front before it was emitted. -/
  frames : List (Nat × Bytes)
  /-- The acknowledged ranges, with their lengths. -/
  acks : List (Nat × Nat)
  /-- Whether an offset was emitted since it was last marked to be sent again. -/
  sent : Nat → Bool

namespace RotSender

open SendBuf Runs

/-- A new send buffer that allows retransmissions below its offset. -/
def start (maxData : Nat) : RotSender :=
  ⟨(RotSendBuf.new maxData).fcMarkRotateRetransmission, [], [], [], fun _ => false⟩

/-- A byte was accepted at an offset. -/
def Accepted (sender : RotSender) (x : Nat) (byte : UInt8) : Prop :=
  ∃ piece ∈ sender.pieces, piece.1 ≤ x ∧ piece.2[x - piece.1]? = some byte

/-- An offset was emitted at some time. -/
def Emitted (sender : RotSender) (x : Nat) : Prop :=
  ∃ frame ∈ sender.frames, frame.1 ≤ x ∧ x < frame.1 + frame.2.length

/-- An offset was acknowledged. -/
def Acknowledged (sender : RotSender) (x : Nat) : Prop := ∃ ack ∈ sender.acks, ack.1 ≤ x ∧ x < ack.1 + ack.2

/-- One step of the send buffer. -/
def next (sender : RotSender) : RotEvent → RotSender
  | .write data offset fin =>
    match sender.send.writeAtOffset data offset fin with
    | (.ok count, send) => { sender with send := send, pieces := sender.pieces ++ [(offset, data.take count)] }
    | (.error _, send) => { sender with send := send }
  | .emit outLen =>
    match sender.send.emit outLen with
    | (.ok (out, _), send) =>
      { sender with
        send := send
        frames := sender.frames ++ [(sender.send.fcOffFront, out)]
        sent := fun x => sender.sent x ||
          decide (sender.send.fcOffFront ≤ x ∧ x < sender.send.fcOffFront + out.length) }
    | (.error _, send) => { sender with send := send }
  | .retransmit off len =>
    { sender with
      send := sender.send.retransmit off len
      sent := fun x => sender.sent x && !decide (off ≤ x ∧ x < off + len) }
  | .ack off len =>
    { sender with send := sender.send.ackAndDrop off len, acks := sender.acks ++ [(off, len)] }

/-- Only what was emitted is sent again or acknowledged. -/
def Allowed (sender : RotSender) : RotEvent → Prop
  | .retransmit off len | .ack off len => ∀ x < off + len, off ≤ x → sender.Emitted x
  | .write _ _ _ | .emit _ => True

/-- A step that none of the gaps of the rotation concerns. -/
def Harmless (sender : RotSender) : RotEvent → Prop
  | .write data offset fin =>
    offset ≤ sender.send.main.maxData ∧
      (sender.send.main.off < offset → sender.send.main.refuses data offset fin = false) ∧
      (offset < sender.send.main.off → ∀ inner ∈ sender.send.rotation,
        (inner.off < offset → inner.refuses data offset fin = false) ∧
          (inner.Enqueues data offset fin → sender.send.main.data ≠ [] ∨ sender.send.main.isFin = true))
  | .retransmit off len =>
    ∀ inner ∈ sender.send.rotation, ∀ x < off + len, off ≤ x → Held inner.data x →
      Pending inner.data x ∨ sender.Acknowledged x ∨ Held sender.send.main.data x
  | .emit _ | .ack _ _ => True

/-- Emissions and acknowledgments only. -/
def Serves : RotEvent → Prop
  | .emit _ | .ack _ _ => True
  | .write _ _ _ | .retransmit _ _ => False

/-- The next emission into an output of some size has the byte at an offset. -/
def Shows (sender : RotSender) (outLen x : Nat) : Prop :=
  ∃ out fin after, sender.send.emit outLen = (.ok (out, fin), after) ∧
    sender.send.fcOffFront ≤ x ∧ x < sender.send.fcOffFront + out.length

/-- A byte is emitted after finitely many emissions and acknowledgments of what they emitted. -/
def Produces (sender : RotSender) (x : Nat) : Prop :=
  ∃ events outLen, (∀ event ∈ events, Serves event) ∧ Along next Allowed sender events ∧
    (run next sender events).Shows outLen x

instance decidableEmitted (sender : RotSender) (x : Nat) : Decidable (sender.Emitted x) :=
  inferInstanceAs (Decidable (∃ frame ∈ sender.frames, frame.1 ≤ x ∧ x < frame.1 + frame.2.length))

instance decidableAcknowledged (sender : RotSender) (x : Nat) : Decidable (sender.Acknowledged x) :=
  inferInstanceAs (Decidable (∃ ack ∈ sender.acks, ack.1 ≤ x ∧ x < ack.1 + ack.2))

instance decidableAllowed (sender : RotSender) : (event : RotEvent) → Decidable (sender.Allowed event)
  | .write _ _ _ | .emit _ => isTrue trivial
  | .retransmit off len | .ack off len => inferInstanceAs (Decidable (∀ x < off + len, off ≤ x → sender.Emitted x))

instance decidableHarmless (sender : RotSender) : (event : RotEvent) → Decidable (sender.Harmless event)
  | .write data offset fin =>
    inferInstanceAs (Decidable (offset ≤ sender.send.main.maxData ∧
      (sender.send.main.off < offset → sender.send.main.refuses data offset fin = false) ∧
      (offset < sender.send.main.off → ∀ inner ∈ sender.send.rotation,
        (inner.off < offset → inner.refuses data offset fin = false) ∧
          (inner.Enqueues data offset fin → sender.send.main.data ≠ [] ∨ sender.send.main.isFin = true))))
  | .retransmit off len =>
    inferInstanceAs (Decidable (∀ inner ∈ sender.send.rotation, ∀ x < off + len, off ≤ x → Held inner.data x →
      Pending inner.data x ∨ sender.Acknowledged x ∨ Held sender.send.main.data x))
  | .emit _ | .ack _ _ => isTrue trivial

/-- What a send buffer promises about the bytes that it accepted. -/
structure Faithful (sender : RotSender) : Prop where
  /-- An emission returns the bytes that were accepted from the front on. -/
  bytes : ∀ outLen out fin after, sender.send.emit outLen = (.ok (out, fin), after) →
    ∀ i byte, out[i]? = some byte → sender.Accepted (sender.send.fcOffFront + i) byte
  frames : ∀ frame ∈ sender.frames, ∀ i byte, frame.2[i]? = some byte → sender.Accepted (frame.1 + i) byte
  /-- A byte is produced by further emissions, or was emitted since it was last marked, or was acknowledged. -/
  covered : ∀ x byte, sender.Accepted x byte → ¬sender.Acknowledged x → sender.Produces x ∨ sender.sent x = true

/-- What holds of both buffers in every run. -/
structure Base (limit : Nat) (sender : RotSender) (main inner : SendBuf) : Prop where
  send : sender.send = ⟨main, some ⟨some inner⟩⟩
  mainKeeps : main.Keeps limit sender.Accepted sender.Acknowledged sender.Emitted
  innerKeeps : inner.Keeps limit sender.Accepted sender.Acknowledged sender.Emitted
  acked : ∀ x, sender.Acknowledged x → sender.Emitted x
  frames : ∀ frame ∈ sender.frames, ∀ i byte, frame.2[i]? = some byte → sender.Accepted (frame.1 + i) byte

/-- What holds of both buffers in every run whose steps are harmless. -/
structure Inv (limit : Nat) (sender : RotSender) (main inner : SendBuf) : Prop
    extends Base limit sender main inner where
  /-- The rotation buffer has chunks only as long as it will get its turn. -/
  served : inner.data ≠ [] → main.data ≠ [] ∨ main.isFin = true
  kept : ∀ x byte, sender.Accepted x byte → sender.Acknowledged x ∨ Held main.data x ∨ Held inner.data x
  /-- What was accepted and not acknowledged is to be sent, or was sent since it was last marked. -/
  covered : ∀ x byte, sender.Accepted x byte →
    sender.Acknowledged x ∨ Pending main.data x ∨ Pending inner.data x ∨ sender.sent x = true

section Steps

variable {limit : Nat} {sender : RotSender} {main inner : SendBuf}

theorem inv_start (maxData : Nat) : Inv maxData (start maxData) (SendBuf.new maxData) (SendBuf.new maxData) where
  send := rfl
  mainKeeps := keeps_new _ _ _ _
  innerKeeps := keeps_new _ _ _ _
  acked := fun _ ⟨_, member, _⟩ => absurd member List.not_mem_nil
  frames := fun _ member => absurd member List.not_mem_nil
  served := fun some_ => absurd rfl some_
  kept := fun _ _ ⟨_, member, _⟩ => absurd member List.not_mem_nil
  covered := fun _ _ ⟨_, member, _⟩ => absurd member List.not_mem_nil

variable {offset x off len outLen : Nat} {data out : Bytes} {send : RotSendBuf} {fin : Bool} {main' inner' : SendBuf}

theorem accepted_append {pieces : List (Nat × Bytes)} {byte : UInt8} (same : sender.pieces = pieces) :
    Accepted { sender with send := send, pieces := pieces ++ [(offset, data)] } x byte ↔
      sender.Accepted x byte ∨ (offset ≤ x ∧ data[x - offset]? = some byte) := by
  subst same
  simp [Accepted, or_and_right, exists_or]

theorem emitted_append {frames : List (Nat × Bytes)} {front : Nat} {sent : Nat → Bool} (same : sender.frames = frames) :
    Emitted { sender with send := send, frames := frames ++ [(front, out)], sent := sent } x ↔
      sender.Emitted x ∨ (front ≤ x ∧ x < front + out.length) := by
  subst same
  simp [Emitted, or_and_right, exists_or]

theorem acknowledged_append {acks : List (Nat × Nat)} (same : sender.acks = acks) :
    Acknowledged { sender with send := send, acks := acks ++ [(off, len)] } x ↔
      sender.Acknowledged x ∨ (off ≤ x ∧ x < off + len) := by
  subst same
  simp [Acknowledged, or_and_right, exists_or]

theorem ne_nil_of_held {bufs after : List RangeBuf} (sized : Sized bufs) (held : ∀ x, Held bufs x → Held after x)
    (some_ : bufs ≠ []) : after ≠ [] := by
  intro empty
  obtain ⟨buf, member⟩ := List.exists_mem_of_ne_nil _ some_
  have size := sized buf member
  have still := held buf.off ⟨buf, member, Nat.le_refl _, by omega⟩
  rw [empty] at still
  exact (held_nil _).mp still

/-- A write that one of the buffers accepts keeps what both had, and what is new is to be sent. -/
theorem Inv.accept (inv : Inv limit sender main inner) {count : Nat}
    (done : sender.send.writeAtOffset data offset fin = (.ok count, ⟨main', some ⟨some inner'⟩⟩))
    (mainKeeps : main'.Keeps limit (fun x byte => sender.Accepted x byte ∨
      (offset ≤ x ∧ (data.take count)[x - offset]? = some byte)) sender.Acknowledged sender.Emitted)
    (innerKeeps : inner'.Keeps limit (fun x byte => sender.Accepted x byte ∨
      (offset ≤ x ∧ (data.take count)[x - offset]? = some byte)) sender.Acknowledged sender.Emitted)
    (held : ∀ x, Held main.data x ∨ Held inner.data x → Held main'.data x ∨ Held inner'.data x)
    (pending : ∀ x, Pending main.data x ∨ Pending inner.data x → Pending main'.data x ∨ Pending inner'.data x)
    (new : ∀ x, offset ≤ x → x < offset + count →
      sender.Acknowledged x ∨ Pending main'.data x ∨ Pending inner'.data x)
    (served : inner'.data ≠ [] → main'.data ≠ [] ∨ main'.isFin = true) :
    Inv limit (sender.next (.write data offset fin)) main' inner' := by
  simp only [next, done]
  obtain ⟨mainContent, mainShape, -⟩ := mainKeeps.content
  obtain ⟨innerContent, innerShape, -⟩ := innerKeeps.content
  have fresh : ∀ x byte, (offset ≤ x ∧ (data.take count)[x - offset]? = some byte) →
      sender.Acknowledged x ∨ Pending main'.data x ∨ Pending inner'.data x := by
    intro x byte there
    have inside := (List.getElem?_eq_some_iff.mp there.2).1
    rw [List.length_take] at inside
    exact new x there.1 (by omega)
  refine ⟨⟨rfl, mainKeeps.mono ?_ (fun _ => id) fun _ => id, innerKeeps.mono ?_ (fun _ => id) fun _ => id,
    inv.acked, ?_⟩, served, ?_, ?_⟩
  · exact fun x byte => (accepted_append rfl).mpr
  · exact fun x byte => (accepted_append rfl).mpr
  · exact fun frame member i byte there => (accepted_append rfl).mpr (.inl (inv.frames frame member i byte there))
  · intro x byte was
    rcases (accepted_append rfl).mp was with old | piece
    · exact (inv.kept x byte old).imp id (held x)
    · exact (fresh x byte piece).imp id
        (Or.imp (fun pending => pending.held mainShape.holds) fun pending => pending.held innerShape.holds)
  · intro x byte was
    rcases (accepted_append rfl).mp was with old | piece
    · rcases inv.covered x byte old with acked | inMain | inInner | sent
      · exact .inl acked
      · exact .inr ((or_assoc.mp (.inl (pending x (.inl inMain)))))
      · exact .inr ((or_assoc.mp (.inl (pending x (.inr inInner)))))
      · exact .inr (.inr (.inr sent))
    · exact (fresh x byte piece).imp id fun pending => or_assoc.mp (.inl pending)

theorem Inv.refuse (inv : Inv limit sender main inner) {error : StreamError}
    (done : sender.send.writeAtOffset data offset fin = (.error error, sender.send)) :
    Inv limit (sender.next (.write data offset fin)) main inner := by
  simp only [next, done]
  exact inv

/-- A harmless write is accepted, or refused without a trace. -/
theorem write_cases (base : Base limit sender main inner) (harmless : sender.Harmless (.write data offset fin)) :
    (∃ error, sender.send.writeAtOffset data offset fin = (.error error, sender.send)) ∨
      (∃ count after, sender.send.writeAtOffset data offset fin = (.ok count, ⟨after, some ⟨some inner⟩⟩) ∧
        SendBuf.Stores limit sender.Accepted sender.Acknowledged sender.Emitted main after data offset fin count) ∨
      ∃ count after, sender.send.writeAtOffset data offset fin = (.ok count, ⟨main, some ⟨some after⟩⟩) ∧
        SendBuf.Stores limit sender.Accepted sender.Acknowledged sender.Emitted inner after data offset fin count ∧
        (inner.Enqueues data offset fin → main.data ≠ [] ∨ main.isFin = true) := by
  obtain ⟨within, whole, low⟩ := harmless
  rw [base.send] at within whole low ⊢
  rw [base.mainKeeps.limit] at within
  unfold RotSendBuf.writeAtOffset
  by_cases below : offset < main.off
  · obtain ⟨whole, served⟩ := low below inner rfl
    rw [if_pos below]
    by_cases under : offset < inner.off
    · left
      simp only [SendBuf.writeAtOffset, if_pos under]
      exact ⟨_, rfl⟩
    · cases refused : inner.refuses data offset fin with
      | true =>
        -- The rotation buffer was not moved, as the offset is its end.
        left
        have here : inner.off = offset := by
          by_contra apart
          have accepts := whole (by omega)
          rw [refused] at accepts
          cases accepts
        have stays : inner.moved offset = inner := if_pos here
        simp only [base.innerKeeps.writeAtOffset_refused (Nat.le_of_not_lt under) within refused, stays]
        exact ⟨_, rfl⟩
      | false =>
        obtain ⟨count, after, wrote, -, accepts⟩ :=
          base.innerKeeps.writeAtOffset (Nat.le_of_not_lt under) within refused
        refine .inr (.inr ⟨count, after, ?_, accepts, served⟩)
        simp only [wrote]
  · rw [if_neg below]
    cases refused : main.refuses data offset fin with
    | true =>
      left
      have here : main.off = offset := by
        by_contra apart
        have accepts := whole (show main.off < offset by omega)
        rw [refused] at accepts
        cases accepts
      have stays : main.moved offset = main := if_pos here
      simp only [base.mainKeeps.writeAtOffset_refused (Nat.le_of_not_lt below) within refused, stays]
      exact ⟨_, rfl⟩
    | false =>
      obtain ⟨count, after, wrote, -, accepts⟩ :=
        base.mainKeeps.writeAtOffset (Nat.le_of_not_lt below) within refused
      refine .inr (.inl ⟨count, after, ?_, accepts⟩)
      simp only [wrote]

/-- A harmless write keeps the invariant. -/
theorem Inv.write (inv : Inv limit sender main inner) (harmless : sender.Harmless (.write data offset fin)) :
    ∃ main inner, Inv limit (sender.next (.write data offset fin)) main inner := by
  rcases write_cases inv.toBase harmless with ⟨error, done⟩ | ⟨count, after, done, accepts⟩ |
    ⟨count, after, done, accepts, enqueues⟩
  · exact ⟨main, inner, inv.refuse done⟩
  · refine ⟨after, inner, inv.accept done accepts.keeps
      (inv.innerKeeps.mono (fun _ _ => .inl) (fun _ => id) fun _ => id)
      (fun x => Or.imp (accepts.held x) id) (fun x => Or.imp (accepts.pending x) id)
      (fun x low high => (accepts.new x low high).imp id .inl) fun some_ => ?_⟩
    exact (inv.served some_).imp (ne_nil_of_held inv.mainKeeps.sized accepts.held) accepts.final
  · refine ⟨main, after, inv.accept done (inv.mainKeeps.mono (fun _ _ => .inl) (fun _ => id) fun _ => id) accepts.keeps
      (fun x => Or.imp id (accepts.held x)) (fun x => Or.imp id (accepts.pending x))
      (fun x low high => (accepts.new x low high).imp id .inr) fun some_ => ?_⟩
    exact (accepts.grows some_).elim inv.served enqueues

/-- What an emission of one of the buffers does. -/
structure Emits (limit : Nat) (sender : RotSender) (main inner main' inner' : SendBuf) (outLen : Nat) (out : Bytes)
    (fin : Bool) : Prop where
  done : sender.send.emit outLen = (.ok (out, fin), ⟨main', some ⟨some inner'⟩⟩)
  base : Base limit (sender.next (.emit outLen)) main' inner'
  accepted : ∀ i byte, out[i]? = some byte → sender.Accepted (sender.send.fcOffFront + i) byte
  heldMain : ∀ x, Held main'.data x ↔ Held main.data x
  heldInner : ∀ x, Held inner'.data x ↔ Held inner.data x
  leaves : ∀ x, Pending main.data x ∨ Pending inner.data x → Pending main'.data x ∨ Pending inner'.data x ∨
    (sender.send.fcOffFront ≤ x ∧ x < sender.send.fcOffFront + out.length)
  mainFewer : ∀ x, Pending main'.data x → Pending main.data x
  innerFewer : ∀ x, Pending inner'.data x → Pending inner.data x
  shows : ∀ x, sender.send.fcOffFront ≤ x → x < sender.send.fcOffFront + out.length →
    Pending main.data x ∨ Pending inner.data x
  final : main'.isFin = main.isFin

theorem front_main (base : Base limit sender main inner) (outLen : Nat) (some_ : (main.emit outLen).1.1 ≠ []) :
    sender.send.fcOffFront = main.offFront := by
  obtain ⟨content, shape, -⟩ := base.mainKeeps.content
  obtain ⟨-, -, shows, -⟩ := base.mainKeeps.emit_leaves outLen
  have positive := List.length_pos_iff.mpr some_
  rw [base.send]
  exact RotSendBuf.fcOffFront_main shape (shows main.offFront (Nat.le_refl _) (by omega)) _

theorem front_inner (base : Base limit sender main inner) (none_ : (main.emit outLen).1.1 = [])
    (some_ : (inner.emit outLen).1.1 ≠ []) : sender.send.fcOffFront = inner.offFront := by
  obtain ⟨content, shape, -⟩ := base.mainKeeps.content
  obtain ⟨innerContent, innerShape, -⟩ := base.innerKeeps.content
  -- There is room for the output, so the main buffer would have filled it.
  have fits := (innerShape.emit_taken outLen).fits
  have positive := List.length_pos_iff.mpr some_
  rw [base.send]
  refine RotSendBuf.fcOffFront_inner shape (fun x pending => ?_) inner
  have progress := shape.emit_progress (show 0 < outLen by omega) pending
  rw [none_] at progress
  exact Nat.lt_irrefl _ progress

/-- What was sent is recorded at the front. -/
theorem Base.frame (base : Base limit sender main inner)
    (done : sender.send.emit outLen = (.ok (out, fin), ⟨main', some ⟨some inner'⟩⟩))
    (mainKeeps : main'.Keeps limit sender.Accepted sender.Acknowledged fun x => sender.Emitted x ∨
      (sender.send.fcOffFront ≤ x ∧ x < sender.send.fcOffFront + out.length))
    (innerKeeps : inner'.Keeps limit sender.Accepted sender.Acknowledged fun x => sender.Emitted x ∨
      (sender.send.fcOffFront ≤ x ∧ x < sender.send.fcOffFront + out.length))
    (accepted : ∀ i byte, out[i]? = some byte → sender.Accepted (sender.send.fcOffFront + i) byte) :
    Base limit (sender.next (.emit outLen)) main' inner' := by
  simp only [next, done]
  refine ⟨rfl, mainKeeps.mono (fun _ _ => id) (fun _ => id) fun x => (emitted_append rfl).mpr,
    innerKeeps.mono (fun _ _ => id) (fun _ => id) fun x => (emitted_append rfl).mpr,
    fun x was => (emitted_append rfl).mpr (.inl (base.acked x was)), fun frame member i byte there => ?_⟩
  rcases List.mem_append.mp member with old | new
  · exact base.frames frame old i byte there
  · rw [List.mem_singleton] at new
    subst new
    exact accepted i byte there

theorem range_iff {place front : Nat} (same : out ≠ [] → front = place) (x : Nat) :
    (place ≤ x ∧ x < place + out.length) ↔ (front ≤ x ∧ x < front + out.length) := by
  by_cases empty : out = []
  · rw [empty, List.length_nil]
    omega
  · rw [same empty]

/-- An emission of the main buffer. -/
theorem Base.emit_main (base : Base limit sender main inner)
    (done : sender.send.emit outLen = (.ok (main.emit outLen).1, ⟨(main.emit outLen).2, some ⟨some inner⟩⟩)) :
    Emits limit sender main inner (main.emit outLen).2 inner outLen (main.emit outLen).1.1 (main.emit outLen).1.2 := by
  obtain ⟨held, pending, shows, final, -⟩ := base.mainKeeps.emit_leaves outLen
  have front := range_iff (front_main base outLen)
  have accepted : ∀ i byte, (main.emit outLen).1.1[i]? = some byte →
      sender.Accepted (sender.send.fcOffFront + i) byte := by
    intro i byte there
    rw [front_main base outLen fun empty => by rw [empty] at there; cases there]
    exact base.mainKeeps.emit_accepted outLen i there
  refine ⟨done, base.frame done ?_ (base.innerKeeps.mono (fun _ _ => id) (fun _ => id) fun _ => .inl) accepted,
    accepted, held, fun _ => Iff.rfl, fun x either => ?_, fun x left => ((pending x).mp left).1, fun _ => id,
    fun x low high => ?_, final⟩
  · exact (base.mainKeeps.emit outLen).mono (fun _ _ => id) (fun _ => id) fun x => Or.imp id (front x).mp
  · rcases either with inMain | inInner
    · by_cases sent : main.offFront ≤ x ∧ x < main.offFront + (main.emit outLen).1.1.length
      · exact .inr (.inr ((front x).mp sent))
      · exact .inl ((pending x).mpr ⟨inMain, sent⟩)
    · exact .inr (.inl inInner)
  · obtain ⟨low, high⟩ := (front x).mpr ⟨low, high⟩
    exact .inl (shows x low high)

/-- An emission of the rotation buffer, when the main one is done. -/
theorem Base.emit_inner (base : Base limit sender main inner) (none_ : (main.emit outLen).1.1 = [])
    (done : sender.send.emit outLen =
      (.ok (inner.emit outLen).1, ⟨(main.emit outLen).2, some ⟨some (inner.emit outLen).2⟩⟩)) :
    Emits limit sender main inner (main.emit outLen).2 (inner.emit outLen).2 outLen (inner.emit outLen).1.1
      (inner.emit outLen).1.2 := by
  obtain ⟨mainHeld, mainPending, -, final, -⟩ := base.mainKeeps.emit_leaves outLen
  obtain ⟨innerHeld, innerPending, shows, -⟩ := base.innerKeeps.emit_leaves outLen
  have front := range_iff (front_inner base none_)
  rw [none_, List.length_nil] at mainPending
  have accepted : ∀ i byte, (inner.emit outLen).1.1[i]? = some byte →
      sender.Accepted (sender.send.fcOffFront + i) byte := by
    intro i byte there
    rw [front_inner base none_ fun empty => by rw [empty] at there; cases there]
    exact base.innerKeeps.emit_accepted outLen i there
  have keeps := base.mainKeeps.emit outLen
  rw [none_, List.length_nil] at keeps
  refine ⟨done, base.frame done (keeps.mono (fun _ _ => id) (fun _ => id) fun x => ?_) ?_ accepted, accepted, mainHeld,
    innerHeld, fun x either => ?_, fun x left => ((mainPending x).mp left).1,
    fun x left => ((innerPending x).mp left).1, fun x low high => ?_, final⟩
  · exact fun either => either.elim .inl fun inside => absurd inside (by omega)
  · exact (base.innerKeeps.emit outLen).mono (fun _ _ => id) (fun _ => id) fun x => Or.imp id (front x).mp
  · rcases either with inMain | inInner
    · exact .inl ((mainPending x).mpr ⟨inMain, by omega⟩)
    · by_cases sent : inner.offFront ≤ x ∧ x < inner.offFront + (inner.emit outLen).1.1.length
      · exact .inr (.inr ((front x).mp sent))
      · exact .inr (.inl ((innerPending x).mpr ⟨inInner, sent⟩))
  · obtain ⟨low, high⟩ := (front x).mpr ⟨low, high⟩
    exact .inr (shows x low high)

/-- An emission is one of the main buffer or of the rotation buffer. -/
theorem Base.emit (base : Base limit sender main inner) (outLen : Nat) :
    ∃ inner' out fin, Emits limit sender main inner (main.emit outLen).2 inner' outLen out fin := by
  rcases RotSendBuf.emit_turns main inner outLen with ⟨none_, -, done⟩ | ⟨-, done⟩
  · rw [← base.send] at done
    exact ⟨_, _, _, base.emit_inner none_ done⟩
  · rw [← base.send] at done
    exact ⟨_, _, _, base.emit_main done⟩

/-- An emission keeps the invariant. -/
theorem Inv.emit (inv : Inv limit sender main inner)
    (emits : Emits limit sender main inner main' inner' outLen out fin) :
    Inv limit (sender.next (.emit outLen)) main' inner' := by
  have base := emits.base
  have done := emits.done
  have same : sender.next (.emit outLen) = { sender with
      send := ⟨main', some ⟨some inner'⟩⟩
      frames := sender.frames ++ [(sender.send.fcOffFront, out)]
      sent := fun x => sender.sent x ||
        decide (sender.send.fcOffFront ≤ x ∧ x < sender.send.fcOffFront + out.length) } := by
    simp only [next, done]
  rw [same] at base ⊢
  refine ⟨base, fun some_ => ?_, fun x byte was => ?_, fun x byte was => ?_⟩
  · have before : inner.data ≠ [] :=
      ne_nil_of_held base.innerKeeps.sized (fun x => (emits.heldInner x).mp) some_
    exact (inv.served before).imp (ne_nil_of_held inv.mainKeeps.sized fun x => (emits.heldMain x).mpr)
      fun final => emits.final.trans final
  · exact (inv.kept x byte was).imp id (Or.imp (emits.heldMain x).mpr (emits.heldInner x).mpr)
  · rcases inv.covered x byte was with acked | inMain | inInner | sent
    · exact .inl acked
    · refine .inr ((emits.leaves x (.inl inMain)).imp id (Or.imp id fun inside => ?_))
      exact Bool.or_eq_true_iff.mpr (.inr (decide_eq_true inside))
    · refine .inr ((emits.leaves x (.inr inInner)).imp id (Or.imp id fun inside => ?_))
      exact Bool.or_eq_true_iff.mpr (.inr (decide_eq_true inside))
    · exact .inr (.inr (.inr (Bool.or_eq_true_iff.mpr (.inl sent))))

/-- Marking a range to be sent again keeps what holds in every run. -/
theorem Base.retransmit (base : Base limit sender main inner) (off len : Nat) :
    Base limit (sender.next (.retransmit off len)) (main.retransmit off len) inner :=
  ⟨by simp only [next, base.send, RotSendBuf.retransmit], base.mainKeeps.retransmit off len, base.innerKeeps,
    base.acked, base.frames⟩

/-- Marking a range to be sent again keeps the invariant, unless the rotation buffer sent some of it. -/
theorem Inv.retransmit (inv : Inv limit sender main inner) (harmless : sender.Harmless (.retransmit off len)) :
    Inv limit (sender.next (.retransmit off len)) (main.retransmit off len) inner := by
  obtain ⟨content, shape, -⟩ := inv.mainKeeps.content
  obtain ⟨-, held, pending, -⟩ := shape.retransmit off len
  obtain ⟨_, _, _, frame⟩ := retransmit_frame main off len
  refine ⟨inv.toBase.retransmit off len, fun some_ => ?_, fun x byte was => ?_, fun x byte was => ?_⟩
  · refine (inv.served some_).imp (ne_nil_of_held inv.mainKeeps.sized fun x => (held x).mpr) fun final => ?_
    rw [frame]
    exact final
  · exact (inv.kept x byte was).imp id (Or.imp (held x).mpr id)
  · by_cases inside : off ≤ x ∧ x < off + len
    · by_cases acked : sender.Acknowledged x
      · exact .inl acked
      · -- What the main buffer holds of the range is to be sent again.
        rcases (inv.kept x byte was).resolve_left acked with inMain | inInner
        · exact .inr (.inl (inv.mainKeeps.retransmit_pending inside inMain acked))
        · have spared := harmless inner (by rw [inv.send]; rfl) x inside.2 inside.1 inInner
          rw [inv.send] at spared
          rcases spared with left | was | inMain
          · exact .inr (.inr (.inl left))
          · exact absurd was acked
          · exact .inr (.inl (inv.mainKeeps.retransmit_pending inside inMain acked))
    · rcases inv.covered x byte was with acked | inMain | inInner | sent
      · exact .inl acked
      · exact .inr (.inl (pending x inMain))
      · exact .inr (.inr (.inl inInner))
      · refine .inr (.inr (.inr ?_))
        show (sender.sent x && !decide (off ≤ x ∧ x < off + len)) = true
        rw [sent, decide_eq_false inside]
        rfl

theorem fed_keeps (base : Base limit sender main inner) (off len : Nat) :
    (RotSendBuf.fed main inner off len).Keeps limit sender.Accepted
        (fun x => sender.Acknowledged x ∨ (off ≤ x ∧ x < off + len)) sender.Emitted ∧
      ∀ x, ¬(sender.Acknowledged x ∨ (off ≤ x ∧ x < off + len)) →
        (Held inner.data x → Held (RotSendBuf.fed main inner off len).data x) ∧
        (Pending inner.data x → Pending (RotSendBuf.fed main inner off len).data x) := by
  unfold RotSendBuf.fed
  split
  · exact base.innerKeeps.ackAndDrop off len
  · exact ⟨base.innerKeeps.mono (fun _ _ => id) (fun _ => .inl) fun _ => id, fun _ _ => ⟨id, id⟩⟩

theorem fed_ne_nil (base : Base limit sender main inner) (some_ : (RotSendBuf.fed main inner off len).data ≠ []) :
    inner.data ≠ [] := by
  obtain ⟨keeps, -⟩ := fed_keeps base off len
  refine ne_nil_of_held keeps.sized (fun x held => ?_) some_
  unfold RotSendBuf.fed at held
  split at held
  · exact (base.innerKeeps.ackAndDrop_frame off len).2.1 x held
  · exact held

/-- What an acknowledgment leaves of what holds in every run. -/
theorem Base.ack (base : Base limit sender main inner) (allowed : sender.Allowed (.ack off len))
    (done : sender.send.ackAndDrop off len = ⟨main', some ⟨some inner'⟩⟩)
    (mainKeeps : main'.Keeps limit sender.Accepted (fun x => sender.Acknowledged x ∨ (off ≤ x ∧ x < off + len))
      sender.Emitted)
    (innerKeeps : inner'.Keeps limit sender.Accepted (fun x => sender.Acknowledged x ∨ (off ≤ x ∧ x < off + len))
      sender.Emitted) : Base limit (sender.next (.ack off len)) main' inner' := by
  refine ⟨done, mainKeeps.mono (fun _ _ => id) (fun x => (acknowledged_append rfl).mpr) fun _ => id,
    innerKeeps.mono (fun _ _ => id) (fun x => (acknowledged_append rfl).mpr) fun _ => id, fun x was => ?_, base.frames⟩
  rcases (acknowledged_append rfl).mp was with old | new
  · exact base.acked x old
  · exact allowed x new.2 new.1

/-- An acknowledgment keeps the invariant. -/
theorem Inv.ack (inv : Inv limit sender main inner) (allowed : sender.Allowed (.ack off len)) :
    ∃ main inner, Inv limit (sender.next (.ack off len)) main inner := by
  obtain ⟨mainKeeps, mainLeft⟩ := inv.mainKeeps.ackAndDrop off len
  obtain ⟨innerKeeps, innerLeft⟩ := fed_keeps inv.toBase off len
  have closed : ∀ x, (sender.next (.ack off len)).Acknowledged x ↔
      sender.Acknowledged x ∨ (off ≤ x ∧ x < off + len) := fun x => acknowledged_append rfl
  rcases RotSendBuf.ackAndDrop_cases inv.mainKeeps.still inner off len with
    ⟨done, drained⟩ | ⟨done, -, empty, some_⟩
  · rw [← inv.send] at done
    refine ⟨_, _, inv.toBase.ack allowed done mainKeeps innerKeeps, fun some_ => ?_, fun x byte was => ?_,
      fun x byte was => ?_⟩
    · obtain ⟨final, -⟩ := inv.mainKeeps.ackAndDrop_frame off len
      by_cases left_ : (main.ackAndDrop off len).data = []
      · right
        rw [final]
        exact (inv.served (fed_ne_nil inv.toBase some_)).resolve_left fun held => some_ (drained held left_)
      · exact .inl left_
    · rw [closed]
      by_cases acked : sender.Acknowledged x ∨ (off ≤ x ∧ x < off + len)
      · exact .inl acked
      · exact .inr (((inv.kept x byte was).resolve_left fun old => acked (.inl old)).imp (mainLeft x acked).1
          (innerLeft x acked).1)
    · rw [closed]
      by_cases acked : sender.Acknowledged x ∨ (off ≤ x ∧ x < off + len)
      · exact .inl acked
      · exact .inr (((inv.covered x byte was).resolve_left fun old => acked (.inl old)).imp (mainLeft x acked).2
          (Or.imp (innerLeft x acked).2 id))
  · -- The rotation buffer takes over, as the main one is empty.
    rw [← inv.send] at done
    have none_ : ∀ x, ¬Held (main.ackAndDrop off len).data x := fun x held => by
      rw [empty] at held
      exact (held_nil x).mp held
    obtain ⟨content, shape, -⟩ := mainKeeps.content
    refine ⟨_, _, inv.toBase.ack allowed done innerKeeps ?_, fun some_ => absurd rfl some_, fun x byte was => ?_,
      fun x byte was => ?_⟩
    · rw [innerKeeps.limit]
      exact keeps_new _ _ _ _
    · rw [closed]
      by_cases acked : sender.Acknowledged x ∨ (off ≤ x ∧ x < off + len)
      · exact .inl acked
      · have either := (inv.kept x byte was).resolve_left fun old => acked (.inl old)
        exact .inr (.inl ((innerLeft x acked).1 (either.resolve_left fun held => none_ x ((mainLeft x acked).1 held))))
    · rw [closed]
      by_cases acked : sender.Acknowledged x ∨ (off ≤ x ∧ x < off + len)
      · exact .inl acked
      · rcases (inv.covered x byte was).resolve_left fun old => acked (.inl old) with inMain | inInner | sent
        · exact absurd (((mainLeft x acked).2 inMain).held shape.holds) (none_ x)
        · exact .inr (.inl ((innerLeft x acked).2 inInner))
        · exact .inr (.inr (.inr sent))

end Steps

section Producing

variable {limit : Nat} {sender : RotSender} {main inner : SendBuf} {x : Nat}

theorem Produces.of_next (event : RotEvent) (serves : Serves event) (allowed : sender.Allowed event)
    (later : (sender.next event).Produces x) : sender.Produces x := by
  obtain ⟨events, outLen, each, along, shows⟩ := later
  refine ⟨event :: events, outLen, fun other member => ?_, ⟨allowed, along⟩, shows⟩
  rcases List.mem_cons.mp member with rfl | member
  · exact serves
  · exact each other member

theorem Emits.produces {main' inner' : SendBuf} {outLen : Nat} {out : Bytes} {fin : Bool}
    (emits : Emits limit sender main inner main' inner' outLen out fin)
    (inside : sender.send.fcOffFront ≤ x ∧ x < sender.send.fcOffFront + out.length) : sender.Produces x :=
  ⟨[], outLen, fun _ member => absurd member List.not_mem_nil, trivial, out, fin, _, emits.done, inside⟩

theorem Base.emit_pending (base : Base limit sender main inner) (pending : Pending main.data x) :
    Emits limit sender main inner (main.emit 1).2 inner 1 (main.emit 1).1.1 (main.emit 1).1.2 ∧
      total (main.emit 1).2.data < total main.data := by
  obtain ⟨content, shape, -⟩ := base.mainKeeps.content
  have progress := shape.emit_progress Nat.one_pos pending
  obtain ⟨-, -, -, -, sum⟩ := base.mainKeeps.emit_leaves 1
  refine ⟨?_, by omega⟩
  rcases RotSendBuf.emit_turns main inner 1 with ⟨none_, -⟩ | ⟨-, done⟩
  · rw [none_] at progress
    exact absurd progress (Nat.lt_irrefl 0)
  · rw [← base.send] at done
    exact base.emit_main done

/-- What the main buffer has to send is produced by emissions. -/
theorem Base.produces_main (base : Base limit sender main inner) (pending : Pending main.data x) :
    sender.Produces x := by
  -- Induction on what the main buffer has to send, of which each emission takes something.
  induction measure : total main.data using Nat.strong_induction_on generalizing sender main with
  | _ left ih =>
    obtain ⟨emits, fewer⟩ := base.emit_pending pending
    rcases emits.leaves x (.inl pending) with still | other | inside
    · exact Produces.of_next (.emit 1) trivial trivial (ih _ (measure ▸ fewer) emits.base still rfl)
    · by_cases inside : sender.send.fcOffFront ≤ x ∧ x < sender.send.fcOffFront + (main.emit 1).1.1.length
      · exact emits.produces inside
      · obtain ⟨-, leaves, -⟩ := base.mainKeeps.emit_leaves 1
        have front := range_iff (front_main base 1) x
        have still := (leaves x).mpr ⟨pending, fun sent => inside (front.mp sent)⟩
        exact Produces.of_next (.emit 1) trivial trivial (ih _ (measure ▸ fewer) emits.base still rfl)
    · exact emits.produces inside

/-- When the main buffer is done and final, what the rotation buffer has to send is produced by emissions. -/
theorem Base.produces_final (base : Base limit sender main inner) (none_ : ∀ y, ¬Pending main.data y)
    (final : main.isFin = true) (pending : Pending inner.data x) : sender.Produces x := by
  induction measure : total inner.data using Nat.strong_induction_on generalizing sender main inner with
  | _ left ih =>
    obtain ⟨content, shape, -⟩ := base.mainKeeps.content
    obtain ⟨innerContent, innerShape, -⟩ := base.innerKeeps.content
    obtain ⟨-, mainLeaves, shows, same, -⟩ := base.mainKeeps.emit_leaves 1
    obtain ⟨-, innerLeaves, -, -, sum⟩ := base.innerKeeps.emit_leaves 1
    have progress := innerShape.emit_progress Nat.one_pos pending
    -- The main buffer returns nothing, up to its final offset.
    have empty : (main.emit 1).1.1 = [] := by
      by_contra some_
      have positive := List.length_pos_iff.mpr some_
      exact none_ _ (shows main.offFront (Nat.le_refl _) (by omega))
    have ends : (main.emit 1).1.2 = true := by
      obtain ⟨out, data, pos, ran, -⟩ := shape.emit_eq 1
      rw [ran] at empty ⊢
      have nothing : out = [] := empty
      have front := (shape.offFront_spec).resolve_left fun some_ => none_ _ some_.1
      rw [nothing, front.2]
      exact final
    rcases RotSendBuf.emit_turns main inner 1 with ⟨-, -, done⟩ | ⟨going, -⟩
    · rw [← base.send] at done
      have emits := base.emit_inner empty done
      have front := range_iff (front_inner base empty) x
      by_cases inside : inner.offFront ≤ x ∧ x < inner.offFront + (inner.emit 1).1.1.length
      · exact emits.produces (front.mp inside)
      · exact Produces.of_next (.emit 1) trivial trivial (ih _ (by omega) emits.base
          (fun y some_ => none_ y ((mainLeaves y).mp some_).1) (same.trans final)
          ((innerLeaves x).mpr ⟨pending, inside⟩) rfl)
    · rw [going empty] at ends
      cases ends

/-- When the main buffer is done, what the rotation buffer has to send is produced once the main one is acknowledged. -/
theorem Base.produces_acked (base : Base limit sender main inner) (none_ : ∀ y, ¬Pending main.data y)
    (some_ : main.data ≠ []) (pending : Pending inner.data x) : sender.Produces x := by
  -- Induction on the chunks of the main buffer, the first of which is acknowledged.
  induction measure : main.data.length using Nat.strong_induction_on generalizing sender main with
  | _ left ih =>
    obtain ⟨buf, rest, data⟩ := List.exists_cons_of_ne_nil some_
    have allowed : sender.Allowed (.ack (main.front buf).1 (main.front buf).2) := by
      intro y high low
      rcases base.mainKeeps.front_emitted none_ (by rw [data]; exact List.mem_cons_self) low high with was | was
      · exact was
      · exact base.acked y was
    have shorter := base.mainKeeps.ackAndDrop_front data
    obtain ⟨mainKeeps, -⟩ := base.mainKeeps.ackAndDrop (main.front buf).1 (main.front buf).2
    obtain ⟨innerKeeps, -⟩ := fed_keeps base (main.front buf).1 (main.front buf).2
    obtain ⟨-, -, fewer⟩ := base.mainKeeps.ackAndDrop_frame (main.front buf).1 (main.front buf).2
    -- The rotation buffer does not hear of it.
    have unfed : RotSendBuf.fed main inner (main.front buf).1 (main.front buf).2 = inner :=
      if_neg (Nat.not_lt.mpr (Nat.le_max_right _ _))
    rw [unfed] at innerKeeps
    rcases RotSendBuf.ackAndDrop_cases base.mainKeeps.still inner (main.front buf).1 (main.front buf).2 with
      ⟨done, drained⟩ | ⟨done, -⟩
    · rw [← base.send, unfed] at done
      rw [unfed] at drained
      have still : (main.ackAndDrop (main.front buf).1 (main.front buf).2).data ≠ [] := by
        intro empty
        rw [drained some_ empty] at pending
        exact (pending_nil x).mp pending
      have after := base.ack allowed done mainKeeps innerKeeps
      exact Produces.of_next (.ack (main.front buf).1 (main.front buf).2) trivial allowed
        (ih _ (measure ▸ shorter) after (fun y some_ => none_ y (fewer y some_)) still rfl)
    · rw [← base.send, unfed] at done
      have after := base.ack allowed done innerKeeps (by rw [innerKeeps.limit]; exact keeps_new _ _ _ _)
      exact Produces.of_next (.ack (main.front buf).1 (main.front buf).2) trivial allowed (after.produces_main pending)

theorem Base.produces_inner (base : Base limit sender main inner) (served : main.data ≠ [] ∨ main.isFin = true)
    (pending : Pending inner.data x) : sender.Produces x := by
  -- Induction on what the main buffer has to send first.
  induction measure : total main.data using Nat.strong_induction_on generalizing sender main with
  | _ left ih =>
    by_cases none_ : ∀ y, ¬Pending main.data y
    · rcases served with some_ | final
      · exact base.produces_acked none_ some_ pending
      · exact base.produces_final none_ final pending
    · obtain ⟨y, first⟩ := not_forall_not.mp none_
      obtain ⟨emits, fewer⟩ := base.emit_pending first
      have still := served.imp (ne_nil_of_held base.mainKeeps.sized fun z => (emits.heldMain z).mpr)
        fun final => emits.final.trans final
      exact Produces.of_next (.emit 1) trivial trivial (ih _ (measure ▸ fewer) emits.base still rfl)

/-- After an emission or an acknowledgment nothing is to be sent that was not before. -/
theorem Base.serve (base : Base limit sender main inner) {event : RotEvent} (serves : Serves event)
    (allowed : sender.Allowed event) : ∃ main' inner', Base limit (sender.next event) main' inner' ∧
      ∀ y, Pending main'.data y ∨ Pending inner'.data y → Pending main.data y ∨ Pending inner.data y := by
  cases event with
  | write data offset fin => exact serves.elim
  | retransmit off len => exact serves.elim
  | emit outLen =>
    obtain ⟨inner', out, fin, emits⟩ := base.emit outLen
    exact ⟨_, _, emits.base, fun y => Or.imp (emits.mainFewer y) (emits.innerFewer y)⟩
  | ack off len =>
    obtain ⟨mainKeeps, -⟩ := base.mainKeeps.ackAndDrop off len
    obtain ⟨innerKeeps, -⟩ := fed_keeps base off len
    have fewer : ∀ y, Pending (RotSendBuf.fed main inner off len).data y → Pending inner.data y := by
      intro y left
      unfold RotSendBuf.fed at left
      split at left
      · exact (base.innerKeeps.ackAndDrop_frame off len).2.2 y left
      · exact left
    rcases RotSendBuf.ackAndDrop_cases base.mainKeeps.still inner off len with ⟨done, -⟩ | ⟨done, -⟩
    · rw [← base.send] at done
      exact ⟨_, _, base.ack allowed done mainKeeps innerKeeps,
        fun y => Or.imp ((base.mainKeeps.ackAndDrop_frame off len).2.2 y) (fewer y)⟩
    · -- The rotation buffer takes over, and the new one has nothing.
      rw [← base.send] at done
      refine ⟨_, _, base.ack allowed done innerKeeps ?_, fun y either => .inr (fewer y (either.resolve_right ?_))⟩
      · rw [innerKeeps.limit]
        exact keeps_new _ _ _ _
      · exact (pending_nil y).mp

theorem Base.not_produces (base : Base limit sender main inner)
    (none_ : ¬(Pending main.data x ∨ Pending inner.data x)) : ¬sender.Produces x := by
  rintro ⟨events, outLen, each, along, shows⟩
  induction events generalizing sender main inner with
  | nil =>
    obtain ⟨out, fin, after, done, low, high⟩ := shows
    obtain ⟨inner', out', fin', emits⟩ := base.emit outLen
    have same : (Except.ok (ε := StreamError) (out, fin), after) = _ := done.symm.trans emits.done
    cases same
    exact none_ (emits.shows x low high)
  | cons event rest ih =>
    obtain ⟨main', inner', after, fewer⟩ := base.serve (each event List.mem_cons_self) along.1
    exact ih after (fun left => none_ (fewer x left)) (fun other member => each other (List.mem_cons_of_mem _ member))
      along.2 shows

/-- The invariant gives what a send buffer promises. -/
theorem Inv.faithful (inv : Inv limit sender main inner) : sender.Faithful := by
  refine ⟨fun outLen out fin after done => ?_, inv.frames, fun x byte was open_ => ?_⟩
  · obtain ⟨inner', out', fin', emits⟩ := inv.toBase.emit outLen
    rw [emits.done] at done
    cases done
    exact emits.accepted
  · rcases (inv.covered x byte was).resolve_left open_ with inMain | inInner | sent
    · exact .inl (inv.produces_main inMain)
    · refine .inl (inv.produces_inner (inv.served fun empty => ?_) inInner)
      rw [empty] at inInner
      exact (pending_nil x).mp inInner
    · exact .inr sent

end Producing

section Runs

theorem inv_next {limit : Nat} (sender : RotSender) (event : RotEvent) (inv : ∃ main inner, Inv limit sender main inner)
    (met : sender.Allowed event ∧ sender.Harmless event) : ∃ main inner, Inv limit (sender.next event) main inner := by
  obtain ⟨main, inner, inv⟩ := inv
  cases event with
  | write data offset fin => exact inv.write met.2
  | emit outLen =>
    obtain ⟨inner', out, fin, emits⟩ := inv.toBase.emit outLen
    exact ⟨_, _, inv.emit emits⟩
  | retransmit off len => exact ⟨_, _, inv.retransmit met.2⟩
  | ack off len => exact inv.ack met.1

/-- Every write of the run that is refused because of the final size leaves the buffers as they are. -/
def RefusesCleanly (maxData : Nat) (events : List RotEvent) : Prop :=
  ∀ done data offset fin rest, events = done ++ .write data offset fin :: rest →
    ((run next (start maxData) done).send.writeAtOffset data offset fin).1 = .error .finalSize →
      ((run next (start maxData) done).send.writeAtOffset data offset fin).2 = (run next (start maxData) done).send

/-- In runs of harmless steps the buffers lose nothing, and a refused write leaves no trace. -/
theorem faithful_of_harmless (maxData : Nat) {events : List RotEvent}
    (met : Along next (fun sender event => sender.Allowed event ∧ sender.Harmless event) (start maxData) events) :
    (run next (start maxData) events).Faithful ∧ RefusesCleanly maxData events := by
  have begins : ∃ main inner, Inv maxData (start maxData) main inner := ⟨_, _, inv_start maxData⟩
  constructor
  · obtain ⟨main, inner, inv⟩ := met.keeps inv_next begins
    exact inv.faithful
  · rintro done data offset fin rest rfl refused
    obtain ⟨before, ⟨-, harmless⟩, -⟩ := along_append.mp met
    obtain ⟨main, inner, inv⟩ := before.keeps inv_next begins
    rcases write_cases inv.toBase harmless with ⟨error, wrote⟩ | ⟨count, after, wrote, -⟩ | ⟨count, after, wrote, -⟩
    · rw [wrote]
    · rw [wrote] at refused
      cases refused
    · rw [wrote] at refused
      cases refused

/-- Three pieces out of order, the last of which is lost once and acknowledged after it was sent again. -/
theorem faithful_of_harmless_outOfOrder :
    (run next (start 60) [.write [1, 2] 20 false, .write [3] 4 false, .write [4, 5] 50 true, .emit 9, .emit 9, .emit 9,
      .ack 20 2, .ack 4 1, .retransmit 50 2, .emit 9, .ack 50 2]).Faithful ∧
    RefusesCleanly 60 [.write [1, 2] 20 false, .write [3] 4 false, .write [4, 5] 50 true, .emit 9, .emit 9, .emit 9,
      .ack 20 2, .ack 4 1, .retransmit 50 2, .emit 9, .ack 50 2] :=
  faithful_of_harmless 60 (by decide)

/-- A byte of the rotation buffer that is lost on the way is not sent again. -/
def lossOfRotated : List RotEvent :=
  [.write [7] 5 true, .write [9] 0 false, .emit 1, .emit 1, .retransmit 0 1]

/-- The byte that was written below the main buffer, sent and marked to be sent again is never produced again. -/
theorem rotated_byte_lost : ¬∀ maxData events, Along next Allowed (start maxData) events →
    (run next (start maxData) events).Faithful ∧ RefusesCleanly maxData events := by
  intro always
  obtain ⟨⟨-, -, covered⟩, -⟩ := always 20 lossOfRotated (by decide)
  have begins : ∃ main inner, Inv 20 (start 20) main inner := ⟨_, _, inv_start 20⟩
  -- Up to the loss every step is harmless.
  have before : Along next (fun sender event => sender.Allowed event ∧ sender.Harmless event) (start 20)
    (lossOfRotated.take 4) := by decide
  obtain ⟨main, inner, inv⟩ := before.keeps inv_next begins
  have base := inv.toBase.retransmit 0 1
  have accepted : (run next (start 20) lossOfRotated).Accepted 0 9 := ⟨(0, [9]), by decide, by decide⟩
  have open_ : ¬(run next (start 20) lossOfRotated).Acknowledged 0 := by decide
  rcases covered 0 9 accepted open_ with produced | sent
  · have quiet : ¬Pending (run next (start 20) lossOfRotated).send.main.data 0 ∧
        ∀ inner ∈ (run next (start 20) lossOfRotated).send.rotation, ¬Pending inner.data 0 := by decide
    have state : (run next (start 20) lossOfRotated).send = ⟨main.retransmit 0 1, some ⟨some inner⟩⟩ := base.send
    rw [state] at quiet
    exact Base.not_produces base (fun left => left.elim quiet.1 (quiet.2 inner rfl)) produced
  · have unsent : (run next (start 20) lossOfRotated).sent 0 = false := by decide
    rw [unsent] at sent
    cases sent

end Runs

end RotSender

end Flexicast
