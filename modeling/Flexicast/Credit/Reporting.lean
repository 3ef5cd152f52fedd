import Flexicast.Credit.Draining
import Flexicast.Lib.Runs

/-! Whether the application learns of a reset, of `stream/recv_buf.rs`. -/

namespace Flexicast

namespace RotatingRecvBuf

open RangeBuf (fromSlice)

variable {rot after : RotatingRecvBuf}

/-- The next read of a buffer reports a reset, whatever room there is. -/
structure Reports (rot : RotatingRecvBuf) (errorCode : Nat) : Prop where
  ready : rot.recv.ready = true
  emit : ∀ outLen, (rot.emit outLen).1 = .error (.streamReset errorCode)

variable {errorCode finalSize : Nat}

theorem reports_iff (failed : rot.recv.error = some errorCode) : rot.Reports errorCode ↔ rot.recv.ready = true := by
  refine ⟨Reports.ready, fun ready => ⟨ready, fun outLen => ?_⟩⟩
  unfold RotatingRecvBuf.emit
  rw [if_neg (by simp [ready]), failed]

theorem strip_cleared (known : ∀ finOff, rot.recv.finOff = some finOff → finOff = finalSize) :
    (rot.cleared errorCode finalSize).strip (fromSlice [] finalSize true) =
      .ok (fromSlice [] finalSize true, rot.cleared errorCode finalSize) := by
  have past : (rot.cleared errorCode finalSize).pastFin (fromSlice [] finalSize true) = none := by
    unfold pastFin
    split
    · rename_i fc finOff held final
      rw [known finOff final, RangeBuf.maxOff_fromSlice]
      simp
    · rfl
  unfold strip
  rw [past]

theorem finConflict_cleared (known : ∀ finOff, rot.recv.finOff = some finOff → finOff = finalSize)
    (size : rot.recv.len ≤ finalSize) :
    (rot.cleared errorCode finalSize).recv.finConflict (fromSlice [] finalSize true) = false := by
  apply RecvBuf.finConflict_eq_false
  · intro finOff final
    rw [known finOff final, RangeBuf.maxOff_fromSlice]
    exact ⟨Nat.le_refl _, fun _ => rfl⟩
  · intro _
    rw [RangeBuf.maxOff_fromSlice]
    exact size

/-- The empty chunk of a reset is stored where reading goes on, if it is the first to bring a final size. -/
theorem write_cleared_unknown (open_ : rot.recv.drain = false) (unknown : rot.recv.finOff = none)
    (size : rot.recv.len ≤ finalSize) (flow : finalSize ≤ rot.recv.maxData) :
    (rot.cleared errorCode finalSize).write (fromSlice [] finalSize true) =
      (.ok (), { rot with recv := { rot.recv with
        error := some errorCode
        off := finalSize
        len := finalSize
        finOff := some finalSize
        data := OrdMap.empty.insert finalSize (fromSlice [] finalSize true) } }) := by
  have known : ∀ finOff, rot.recv.finOff = some finOff → finOff = finalSize := by simp [unknown]
  have room : ¬ (rot.cleared errorCode finalSize).recv.maxData < (fromSlice [] finalSize true).maxOff := by
    rw [RangeBuf.maxOff_fromSlice]
    exact Nat.not_lt.mpr flow
  have first : (rot.cleared errorCode finalSize).recv.finOff = none := unknown
  unfold RotatingRecvBuf.write
  rw [if_neg room, strip_cleared known]
  have recorded : (rot.cleared errorCode finalSize).record (fromSlice [] finalSize true) =
      { rot with recv := { rot.recv with
        error := some errorCode
        off := finalSize
        finOff := some finalSize
        data := OrdMap.empty } } := rfl
  -- Nothing lies below the chunk and nothing is held that it may overlap.
  have turn : writeTurn (fromSlice [] finalSize true)
      (.ok (), (rot.cleared errorCode finalSize).record (fromSlice [] finalSize true)) =
        .next (.ok (), { rot with recv := { rot.recv with
          error := some errorCode
          off := finalSize
          len := finalSize
          finOff := some finalSize
          data := OrdMap.empty.insert finalSize (fromSlice [] finalSize true) } }) [] := by
    have level : (fromSlice [] finalSize true).curOff = finalSize := by simp [fromSlice, RangeBuf.curOff]
    have nothing : OrdMap.entries (OrdMap.empty : OrdMap RangeBuf) = [] := rfl
    rw [recorded]
    unfold writeTurn keepBelow RecvBuf.writeTurn
    cases held : rot.fcData <;>
      simp [RecvBuf.discardRead, RecvBuf.offFront, level, RangeBuf.isEmpty_fromSlice, nothing,
        RecvBuf.overlapLoop, RecvBuf.storeChunk, open_, Turn.map, Nat.max_eq_right size]
  unfold writeKept
  dsimp only
  rw [if_neg (by simp [finConflict_cleared known size]), if_neg (by simp [first]), if_neg (by simp [fromSlice]),
    if_neg (by simp [RangeBuf.isEmpty_fromSlice]), WorkQueue.drain_next turn]
  rfl

theorem write_cleared_known (known : rot.recv.finOff = some finalSize) (size : rot.recv.len ≤ finalSize)
    (flow : finalSize ≤ rot.recv.maxData) :
    (rot.cleared errorCode finalSize).write (fromSlice [] finalSize true) =
      (.ok (), rot.cleared errorCode finalSize) := by
  have agrees : ∀ finOff, rot.recv.finOff = some finOff → finOff = finalSize := by simp [known]
  have room : ¬ (rot.cleared errorCode finalSize).recv.maxData < (fromSlice [] finalSize true).maxOff := by
    rw [RangeBuf.maxOff_fromSlice]
    exact Nat.not_lt.mpr flow
  have second : (rot.cleared errorCode finalSize).recv.finOff = some finalSize := known
  unfold RotatingRecvBuf.write
  rw [if_neg room, strip_cleared agrees]
  unfold writeKept
  simp [finConflict_cleared agrees size, second, RangeBuf.isEmpty_fromSlice]

/-- A reset that succeeds agrees with the final size and with what was received, and clears the buffer. -/
theorem reset_ok {delta : Nat} (clean : rot.recv.error = none)
    (done : rot.reset errorCode finalSize = (.ok delta, after)) :
    (∀ finOff, rot.recv.finOff = some finOff → finOff = finalSize) ∧ rot.recv.len ≤ finalSize ∧
      finalSize ≤ rot.recv.maxData ∧
        (rot.cleared errorCode finalSize).write (fromSlice [] finalSize true) = (.ok (), after) := by
  unfold reset at done
  split at done
  · cases done
  · rename_i agrees
    split at done
    · cases done
    · rename_i size
      rw [if_neg (by simp [clean])] at done
      split at done
      · cases done
      · rename_i left wrote
        cases done
        refine ⟨fun finOff known => ?_, Nat.not_lt.mp size, ?_, wrote⟩
        · simpa [known] using agrees
        · -- A final size beyond the limit is refused.
          refine Nat.not_lt.mp fun beyond => ?_
          have larger : (rot.cleared errorCode finalSize).recv.maxData < (fromSlice [] finalSize true).maxOff := by
            rw [RangeBuf.maxOff_fromSlice]
            exact beyond
          rw [RotatingRecvBuf.write, if_pos larger] at wrote
          cases wrote

/--
A reset is reported exactly if it is the first to bring the final size.

Once the final size is known, the empty chunk that should wake the application is dropped as useless.
-/
theorem reset_reported_iff (rot after : RotatingRecvBuf) (errorCode finalSize delta : Nat)
    (clean : rot.recv.error = none) (open_ : rot.recv.drain = false)
    (done : rot.reset errorCode finalSize = (.ok delta, after)) :
    after.Reports errorCode ↔ rot.recv.finOff = none := by
  obtain ⟨agrees, size, flow, wrote⟩ := reset_ok clean done
  cases final : rot.recv.finOff with
  | none =>
    rw [write_cleared_unknown open_ final size flow] at wrote
    cases wrote
    refine iff_of_true ((reports_iff rfl).2 ?_) rfl
    simp [RecvBuf.ready, OrdMap.insert, OrdMap.store, OrdMap.empty, fromSlice, RangeBuf.curOff]
  | some finOff =>
    rw [agrees finOff final] at final
    rw [write_cleared_known final size flow] at wrote
    cases wrote
    -- Nothing is held any more, so nothing is ready.
    refine iff_of_false (fun reports => ?_) (by simp)
    have ready := reports.ready
    simp [cleared, RecvBuf.ready, OrdMap.empty] at ready

/-- Three bytes arrived, with the end of the stream or without it. -/
def threeBytes (fin : Bool) : List RecvEvent := [.write ⟨[1, 2, 3], 0, fin⟩]

theorem reset_reported_iff_threeBytes :
    ∃ after, (Runs.run receive (.new 100 100) (threeBytes false)).reset 7 5 = (.ok 2, after) ∧
      (after.Reports 7 ↔ (Runs.run receive (.new 100 100) (threeBytes false)).recv.finOff = none) :=
  ⟨_, rfl, reset_reported_iff (Runs.run receive (.new 100 100) (threeBytes false)) _ 7 5 2 rfl rfl rfl⟩

/-- A reset behind the final chunk is accepted, and never reported. -/
theorem reset_unreported :
    ¬ ∀ (maxData maxWindow : Nat) (events : List RecvEvent) (rot after : RotatingRecvBuf)
      (errorCode finalSize delta : Nat), Runs.run receive (.new maxData maxWindow) events = rot →
        rot.recv.error = none → rot.recv.drain = false →
          rot.reset errorCode finalSize = (.ok delta, after) → after.Reports errorCode := by
  intro always
  have ready := (always 100 100 (threeBytes true) _ _ 7 3 0 rfl rfl rfl rfl).ready
  exact absurd ready (by decide)

end RotatingRecvBuf

end Flexicast
