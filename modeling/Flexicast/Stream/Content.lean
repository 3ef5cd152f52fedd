import Flexicast.Stream.RecvBuf

/-! The receive buffer treats all bytes alike: what it does depends on where they are, not on what they are. -/

namespace Flexicast

namespace RangeBuf

/-- The chunk with other bytes at the same places. -/
def mapData (f : UInt8 → UInt8) (buf : RangeBuf) : RangeBuf := { buf with data := buf.data.map f }

variable (f : UInt8 → UInt8) (buf : RangeBuf)

@[simp] theorem curOff_mapData : (buf.mapData f).curOff = buf.curOff := rfl

@[simp] theorem curLen_mapData : (buf.mapData f).curLen = buf.curLen := rfl

@[simp] theorem maxOff_mapData : (buf.mapData f).maxOff = buf.maxOff := rfl

@[simp] theorem isEmpty_mapData : (buf.mapData f).isEmpty = buf.isEmpty := rfl

@[simp] theorem len_mapData : (buf.mapData f).len = buf.len := rfl

@[simp] theorem off_mapData : (buf.mapData f).off = buf.off := rfl

@[simp] theorem fin_mapData : (buf.mapData f).fin = buf.fin := rfl

@[simp] theorem bytes_mapData : (buf.mapData f).bytes = buf.bytes.map f := by
  simp [mapData, bytes]

theorem mapData_fromSlice (bytes : Bytes) (off : Nat) (fin : Bool) :
    (fromSlice bytes off fin).mapData f = fromSlice (bytes.map f) off fin := by
  simp [fromSlice, mapData]

end RangeBuf

namespace RecvBuf

open RangeBuf (fromSlice)

/-- The buffer with other bytes at the same places. -/
def mapData (f : UInt8 → UInt8) (recv : RecvBuf) : RecvBuf :=
  { recv with data := recv.data.mapValues fun _ => RangeBuf.mapData f }

variable (f : UInt8 → UInt8) (recv : RecvBuf) (buf : RangeBuf)

@[simp] theorem off_mapData : (recv.mapData f).off = recv.off := rfl

@[simp] theorem len_mapData : (recv.mapData f).len = recv.len := rfl

@[simp] theorem finOff_mapData : (recv.mapData f).finOff = recv.finOff := rfl

@[simp] theorem isFin_mapData : (recv.mapData f).isFin = recv.isFin := rfl

@[simp] theorem entries_mapData : (recv.mapData f).data.entries =
    recv.data.entries.map fun entry => (entry.1, entry.2.mapData f) := rfl

@[simp] theorem ready_mapData : (recv.mapData f).ready = recv.ready := by
  unfold ready
  rw [entries_mapData, List.head?_map]
  cases recv.data.entries.head? <;> rfl

/-- What is new of a chunk lies where it did. -/
theorem overlapLoop_mapData (bufs : List RangeBuf) : ∀ (buf : RangeBuf) (pushed : List RangeBuf),
    overlapLoop (bufs.map (·.mapData f)) (buf.mapData f) (pushed.map (·.mapData f)) =
      (overlapLoop bufs buf pushed).map fun result =>
        (result.1.map (·.mapData f), result.2.map (·.mapData f)) := by
  -- The loop compares offsets only, and splits chunks at them.
  induction bufs with
  | nil => exact fun _ _ => rfl
  | cons held rest ih =>
    intro buf pushed
    have halves : ∀ index, (buf.mapData f).splitOff index =
        ((buf.splitOff index).1.mapData f, (buf.splitOff index).2.mapData f) := fun _ => rfl
    have queued : ∀ part : RangeBuf, pushed.map (·.mapData f) ++ [part.mapData f] =
        (pushed ++ [part]).map (·.mapData f) := fun part => by simp
    simp only [List.map_cons, overlapLoop, RangeBuf.curOff_mapData, RangeBuf.maxOff_mapData,
      RangeBuf.len_mapData, halves, queued, ih]
    split
    · rfl
    · split
      · rfl
      · split
        · split <;> rfl
        · split
          · split <;> rfl
          · rfl

/-- What was not read of a chunk lies where it did. -/
theorem discardRead_mapData : (recv.mapData f).discardRead (buf.mapData f) =
    (recv.discardRead buf).map (·.mapData f) := by
  unfold discardRead offFront
  by_cases below : buf.curOff < recv.off
  · have below' : (buf.mapData f).curOff < (recv.mapData f).off := below
    rw [if_pos below, if_pos below']
    by_cases out : buf.len < recv.off - buf.curOff
    · rw [if_pos out]
      exact if_pos out
    · rw [if_neg out]
      exact if_neg out
  · simp [below]

theorem storeChunk_mapData : (recv.mapData f).storeChunk (buf.mapData f) = (recv.storeChunk buf).mapData f := by
  unfold storeChunk
  by_cases closed : recv.drain = true
  · simp [mapData, closed]
  · simp [mapData, closed, OrdMap.mapValues_insert]

theorem visited_mapData (low : Nat) :
    ((recv.mapData f).data.entries.filter fun entry => decide (low ≤ entry.1)).map Prod.snd =
      ((recv.data.entries.filter fun entry => decide (low ≤ entry.1)).map Prod.snd).map (·.mapData f) := by
  simp [List.filter_map, Function.comp_def]

/-- A turn of the loop of `write` does the same with other bytes. -/
theorem writeTurn_mapData : writeTurn (buf.mapData f) (recv.mapData f) =
    (writeTurn buf recv).bimap (mapData f) (·.mapData f) := by
  unfold writeTurn
  rw [discardRead_mapData]
  cases recv.discardRead buf with
  | none => rfl
  | some part =>
    have looped := overlapLoop_mapData f
      ((recv.data.entries.filter fun entry => decide (part.curOff ≤ entry.1)).map Prod.snd) part []
    rw [← visited_mapData, List.map_nil] at looped
    have same : (decide ((part.mapData f).curOff < (recv.mapData f).maxOff) || (part.mapData f).isEmpty) =
      (decide (part.curOff < recv.maxOff) || part.isEmpty) := rfl
    simp only [Option.map_some, same]
    by_cases near : (decide (part.curOff < recv.maxOff) || part.isEmpty) = true
    · rw [if_pos near, if_pos near, RangeBuf.curOff_mapData, looped]
      cases overlapLoop ((recv.data.entries.filter fun entry => decide (part.curOff ≤ entry.1)).map
        Prod.snd) part [] with
      | none => rfl
      | some result =>
        obtain ⟨kept, pushed⟩ := result
        cases kept with
        | none => rfl
        | some kept => simp [Turn.bimap, storeChunk_mapData]
    · rw [if_neg near, if_neg near]
      simp [Turn.bimap, storeChunk_mapData]

@[simp] theorem finConflict_mapData : (recv.mapData f).finConflict (buf.mapData f) = recv.finConflict buf := rfl

/-- A write does the same with other bytes. -/
theorem write_mapData : (recv.mapData f).write (buf.mapData f) = (recv.write buf).map (mapData f) := by
  -- The conditions of the two writes compare the same offsets, so they are decided alike.
  have recorded : ∃ kept, (if buf.fin = true then { recv with finOff := some buf.maxOff } else recv) = kept ∧
      (if (buf.mapData f).fin = true then { recv.mapData f with finOff := some (buf.mapData f).maxOff }
        else recv.mapData f) = kept.mapData f := by
    refine ⟨_, rfl, ?_⟩
    rw [RangeBuf.fin_mapData]
    split <;> rfl
  obtain ⟨kept, same, same'⟩ := recorded
  have loop := WorkQueue.drain_bimap (fun item state => writeTurn_mapData f state item)
    (buf.curLen + 1) [buf] kept
  unfold write
  by_cases flow : recv.maxData < buf.maxOff
  · rw [if_pos flow]
    exact if_pos flow
  have flow' : ¬ (recv.mapData f).maxData < (buf.mapData f).maxOff := flow
  rw [if_neg flow, if_neg flow', finConflict_mapData]
  by_cases conflict : recv.finConflict buf = true
  · rw [if_pos conflict, if_pos conflict]
    rfl
  rw [if_neg conflict, if_neg conflict, finOff_mapData, RangeBuf.isEmpty_mapData]
  by_cases known : (recv.finOff.isSome && buf.isEmpty) = true
  · rw [if_pos known, if_pos known]
    rfl
  rw [if_neg known, if_neg known, same, same', RangeBuf.fin_mapData]
  dsimp only
  by_cases nothing : (!buf.fin && buf.isEmpty) = true
  · rw [if_pos nothing, if_pos nothing]
    rfl
  rw [if_neg nothing, if_neg nothing]
  by_cases old : (decide (buf.maxOff ≤ kept.off) && !buf.isEmpty) = true
  · rw [if_pos old]
    exact if_pos old
  have old' : ¬ (decide ((buf.mapData f).maxOff ≤ (kept.mapData f).off) && !buf.isEmpty) = true := old
  rw [if_neg old, if_neg old', RangeBuf.curLen_mapData, ← List.map_singleton, loop]
  cases WorkQueue.drain writeTurn (buf.curLen + 1) [buf] kept <;> rfl

/-- The loop of `emit` does the same with other bytes, and returns them. -/
theorem emitLoop_mapData (fuel : Nat) : ∀ (capacity : Nat) (recv : RecvBuf),
    emitLoop fuel capacity (recv.mapData f) =
      ((emitLoop fuel capacity recv).1.map f, (emitLoop fuel capacity recv).2.mapData f) := by
  induction fuel with
  | zero => exact fun _ _ => rfl
  | succ fuel ih =>
    intro capacity recv
    simp only [emitLoop, ready_mapData]
    split
    · rfl
    · rw [entries_mapData, List.head?_map]
      cases recv.data.entries.head? with
      | none => rfl
      | some entry =>
        simp only [Option.map_some, RangeBuf.curLen_mapData, RangeBuf.bytes_mapData]
        split
        · -- The rest of a chunk that is read in part stays.
          simp only [List.map_take, mapData, OrdMap.mapValues_insert]
          rfl
        · have rest := ih (capacity - min entry.2.curLen capacity)
            { recv with off := recv.off + min entry.2.curLen capacity, data := recv.data.erase entry.1 }
          simp only [mapData, OrdMap.mapValues_erase] at rest
          simp only [mapData, List.map_append, List.map_take, rest]

/-- A read leaves the same with other bytes. -/
theorem emit_mapData (outLen : Nat) : ((recv.mapData f).emit outLen).2 = (recv.emit outLen).2.mapData f := by
  have failed : (recv.mapData f).error = recv.error := rfl
  have size : (recv.mapData f).data.entries.length = recv.data.entries.length := by simp
  unfold emit
  rw [ready_mapData, failed]
  split
  · rfl
  · cases recv.error with
    | some code => rfl
    | none =>
      dsimp only
      rw [size, emitLoop_mapData, List.length_map]
      rfl

end RecvBuf

end Flexicast
