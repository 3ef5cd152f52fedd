import Flexicast.Stream.Readable

/-! What a receive buffer of a connection holds, whatever arrives, and what a read leaves of it. -/

namespace Flexicast

namespace RecvBuf

open RangeBuf (fromSlice)

section Quiet

variable {stream : Bytes} {recv after : RecvBuf}

/-- No chunk ends where the buffer is read next. -/
def Quiet (recv : RecvBuf) : Prop := ∀ entry ∈ recv.data.entries, recv.off < entry.1

/-- A loop that had room leaves nothing that can be read, or chunks that end further back. -/
theorem emitLoop_quiet (fuel : Nat) : ∀ {recv : RecvBuf} (capacity : Nat), Shape stream recv →
    recv.data.entries.length ≤ fuel → 0 < capacity ∨ Quiet recv →
      Quiet (emitLoop fuel capacity recv).2 ∨ (emitLoop fuel capacity recv).2.ready = false := by
  induction fuel with
  | zero =>
    intro recv capacity _ size _
    have none_ : recv.data.entries = [] := List.eq_nil_of_length_eq_zero (Nat.le_zero.mp size)
    refine Or.inl fun entry member => ?_
    rw [RecvBuf.emitLoop, none_] at member
    exact absurd member List.not_mem_nil
  | succ fuel ih =>
    intro recv capacity shape size room
    simp only [RecvBuf.emitLoop]
    by_cases stop : capacity = 0 ∨ recv.ready = false
    · rw [if_pos stop]
      rcases stop with full | unready
      · exact Or.inl (room.resolve_left (by omega))
      · exact Or.inr unready
    rw [if_neg stop]
    have ready : recv.ready = true := by
      cases ready : recv.ready with
      | true => rfl
      | false => exact absurd (Or.inr ready) stop
    obtain ⟨key, buf, first, front⟩ := ready_iff.mp ready
    obtain ⟨rest, listed⟩ := List.head?_eq_some_iff.mp first
    have keyed := (shape.first listed).1
    have sorted := recv.data.sorted
    rw [listed] at sorted
    have later := (List.pairwise_cons.mp sorted).1
    rw [first]
    simp only
    by_cases part : min buf.curLen capacity < buf.curLen
    · -- The chunk that is read in part ends further back, and the others behind it.
      rw [if_pos part]
      refine Or.inl fun entry member => ?_
      show recv.off + min buf.curLen capacity < entry.1
      have end_ : key = buf.curOff + buf.curLen := keyed
      rcases OrdMap.mem_insert_iff.mp member with new | ⟨old, other⟩
      · rw [new]
        show _ < key
        omega
      · rw [listed] at old
        rcases List.mem_cons.mp old with same | behind
        · rw [same] at other
          exact absurd rfl other
        · have := later entry behind
          simp only at this
          omega
    · have whole : min buf.curLen capacity = buf.curLen := by omega
      have left : (recv.data.erase key).entries = rest := @OrdMap.entries_erase _ _ _ _ [] rest listed
      rw [if_neg part, whole]
      refine ih _ (shape.readChunk listed front).shape ?_ (Or.inr fun entry member => ?_)
      · rw [left]
        rw [listed] at size
        simpa using size
      · -- The keys of the other chunks are larger.
        rw [left] at member
        have above := later entry member
        have end_ : key = buf.curOff + buf.curLen := keyed
        show recv.off + buf.curLen < entry.1
        simp only at above
        omega

theorem Shape.unready_of_quiet (shape : Shape stream recv) (quiet : Quiet recv) (final : recv.isFin = true) :
    recv.ready = false := by
  have known : recv.finOff = some recv.off := by simpa [isFin] using final
  have end_ := shape.final recv.off known
  cases ready : recv.ready with
  | false => rfl
  | true =>
    obtain ⟨key, buf, first, _⟩ := ready_iff.mp ready
    obtain ⟨rest, listed⟩ := List.head?_eq_some_iff.mp first
    have member : (key, buf) ∈ recv.data.entries := by
      rw [listed]
      exact List.mem_cons_self
    -- Its chunks lie within the stream, so none ends beyond the read offset.
    have above := quiet _ member
    have inside := maxOff_le (shape.holds _ member)
    have keyed := shape.keyed _ member
    omega

end Quiet

/-- A receive buffer of a connection: it was reset, or shut down, or holds chunks as they arrived. -/
def Regular (recv : RecvBuf) : Prop :=
  recv.error ≠ none ∨ (recv.drain = true ∧ recv.data.entries = []) ∨ Sized (recv.mapData fun _ => 0)

section Regular

variable {recv after : RecvBuf}

theorem regular_new (maxData maxWindow : Nat) : Regular (new maxData maxWindow) :=
  Or.inr (Or.inr (sized_new maxData maxWindow))

theorem unready_of_empty (none_ : recv.data.entries = []) : recv.ready = false := by
  unfold ready
  rw [none_]
  rfl

/-- A buffer keeps regular as a chunk arrives. -/
theorem Regular.write (regular : Regular recv) {bytes : Bytes} {off : Nat} {fin : Bool}
    (wrote : recv.write (fromSlice bytes off fin) = .ok after) : Regular after := by
  have keeps := (write_wrote (RangeBuf.wf_fromSlice _ _ _) wrote).keeps
  rcases regular with failed | ⟨drained, none_⟩ | sized
  · rw [← keeps.error] at failed
    exact Or.inl failed
  · refine Or.inr (Or.inl ⟨by rw [keeps.drain, drained], ?_⟩)
    rw [keeps.data drained, none_]
  · have next := sized_next (.write bytes off fin) sized
    rw [readNext, wrote] at next
    exact Or.inr (Or.inr next)

/-- A buffer keeps regular as it is read. -/
theorem Regular.emit (regular : Regular recv) (outLen : Nat) : Regular (recv.emit outLen).2 := by
  rcases regular with failed | ⟨drained, none_⟩ | sized
  · refine Or.inl ?_
    obtain ⟨code, failed⟩ := Option.ne_none_iff_exists'.mp failed
    unfold RecvBuf.emit
    rw [failed]
    split <;> simp [failed]
  · refine Or.inr (Or.inl ?_)
    unfold RecvBuf.emit
    rw [if_pos (unready_of_empty none_)]
    exact ⟨drained, none_⟩
  · exact Or.inr (Or.inr (sized_next (.emit outLen) sized))

/-- A buffer keeps regular as it is reset. -/
theorem Regular.reset (regular : Regular recv) (errorCode finalSize : Nat) :
    Regular (recv.reset errorCode finalSize).2 := by
  unfold RecvBuf.reset
  split
  · exact regular
  split
  · exact regular
  split
  · exact regular
  · dsimp only
    split
    · exact Or.inl (by simp)
    · -- The empty chunk that is enqueued does not take the error away.
      rename_i wrote
      have keeps := (write_wrote (RangeBuf.wf_fromSlice _ _ _) wrote).keeps
      refine Or.inl ?_
      rw [keeps.error]
      simp

theorem Regular.shutDown (done : recv.shutDown = .ok after) : Regular after := by
  unfold RecvBuf.shutDown at done
  split at done
  · cases done
  · cases done
    exact Or.inr (Or.inl ⟨rfl, rfl⟩)

/-- A buffer keeps regular as its flow control moves on. -/
theorem Regular.flow (regular : Regular recv) (flowControl : FlowControl) :
    Regular { recv with flowControl := flowControl } :=
  regular.imp id fun either => either.imp id fun sized => sized_next (.flow flowControl) sized

/-- A read with room leaves nothing to be read at the end of the stream. -/
theorem Regular.emit_unready (regular : Regular recv) {outLen : Nat} (room : 0 < outLen) {result : Bytes × Bool}
    (read : recv.emit outLen = (.ok result, after)) (final : after.isFin = true) : after.ready = false := by
  have ready : recv.ready = true := by
    cases ready : recv.ready with
    | true => rfl
    | false =>
      rw [RecvBuf.emit, if_pos ready] at read
      cases read
  have clean : recv.error = none := by
    cases failed : recv.error with
    | none => rfl
    | some code =>
      rw [RecvBuf.emit, if_neg (by simp [ready]), failed] at read
      cases read
  rcases regular with failed | ⟨_, none_⟩ | sized
  · exact absurd clean failed
  · rw [unready_of_empty none_] at ready
    cases ready
  · obtain ⟨size, ends⟩ := sized.ends
    have shape := sized.shape size ends
    have mirrors := emit_mapData (fun _ => 0) recv outLen
    rw [read] at mirrors
    rw [← ready_mapData fun _ => 0]
    rw [← isFin_mapData fun _ => 0] at final
    rw [← ready_mapData fun _ => 0] at ready
    rw [← mirrors] at final ⊢
    -- The buffer of zeros reads the same, and comes to rest in the same place.
    have clean' : (recv.mapData fun _ => 0).error = none := clean
    have quiet := emitLoop_quiet _ outLen shape (Nat.le_refl _) (Or.inl room)
    have rest := (Shape.emitLoop (recv.mapData fun _ => 0).data.entries.length outLen shape).shape
    rw [RecvBuf.emit, if_neg (by simp [ready]), clean'] at final ⊢
    rcases quiet with quiet | unready
    · exact rest.unready_of_quiet quiet final
    · exact unready

/-- A read without room moves nothing. -/
theorem emit_nothing {result : Bytes × Bool} (read : recv.emit 0 = (.ok result, after)) :
    after.ready = recv.ready ∧ after.isFin = recv.isFin := by
  unfold RecvBuf.emit at read
  split at read
  · cases read
  split at read
  · cases read
  · have still : RecvBuf.emitLoop recv.data.entries.length 0 recv = ([], recv) := by
      cases recv.data.entries.length with
      | zero => rfl
      | succ fuel => rw [RecvBuf.emitLoop, if_pos (Or.inl rfl)]
    rw [still] at read
    cases read
    exact ⟨rfl, rfl⟩

end Regular

end RecvBuf

end Flexicast
