import Flexicast.Stream.RotationLaws

/-! Receive limits: the flow controller of `flowcontrol.rs`, and what a stream does beside reading and writing. -/

namespace Flexicast

namespace FlowControl

/-- Whether less than half of the window is available; nothing when more was consumed than the limit allows. -/
def shouldUpdateMaxData (flow : FlowControl) : Option Bool :=
  if flow.maxData < flow.consumed then none
  else some (decide (flow.maxData - flow.consumed < flow.window / 2))

/-- The next limit. -/
def maxDataNext (flow : FlowControl) : Nat := flow.consumed + flow.window

/-- Commits the next limit. -/
def updateMaxData (flow : FlowControl) : FlowControl := { flow with maxData := flow.maxDataNext }

/-- Doubles the window up to its maximum, when the last update is recent. -/
def autotuneWindow (flow : FlowControl) (recent : Bool) : FlowControl :=
  if recent then { flow with window := min (flow.window * 2) flow.maxWindow } else flow

/-- Makes sure that the window is not below a bound. -/
def ensureWindowLowerBound (flow : FlowControl) (minWindow : Nat) : FlowControl :=
  if flow.window < minWindow then { flow with window := minWindow } else flow

/-- The next limit does not fall behind the one in force. -/
def Ahead (flow : FlowControl) : Prop := flow.maxData ≤ flow.maxDataNext

/-- What the limit leaves is not more than the maximum window, when the window is about to be tuned. -/
def Tunable (flow : FlowControl) (recent : Bool) : Prop :=
  recent = true → flow.maxData ≤ flow.consumed + flow.maxWindow

instance (flow : FlowControl) : Decidable flow.Ahead := Nat.decLe _ _

instance (flow : FlowControl) (recent : Bool) : Decidable (flow.Tunable recent) :=
  inferInstanceAs (Decidable (_ → _))

section Laws

variable {flow : FlowControl} {recent : Bool}

@[simp] theorem addConsumed_maxData (flow : FlowControl) (count : Nat) :
    (flow.addConsumed count).maxData = flow.maxData := rfl

@[simp] theorem addConsumed_consumed (flow : FlowControl) (count : Nat) :
    (flow.addConsumed count).consumed = flow.consumed + count := rfl

@[simp] theorem autotuneWindow_maxData (flow : FlowControl) (recent : Bool) :
    (flow.autotuneWindow recent).maxData = flow.maxData := by
  unfold autotuneWindow
  split <;> rfl

@[simp] theorem autotuneWindow_consumed (flow : FlowControl) (recent : Bool) :
    (flow.autotuneWindow recent).consumed = flow.consumed := by
  unfold autotuneWindow
  split <;> rfl

@[simp] theorem ensureWindowLowerBound_maxData (flow : FlowControl) (minWindow : Nat) :
    (flow.ensureWindowLowerBound minWindow).maxData = flow.maxData := by
  unfold ensureWindowLowerBound
  split <;> rfl

@[simp] theorem ensureWindowLowerBound_consumed (flow : FlowControl) (minWindow : Nat) :
    (flow.ensureWindowLowerBound minWindow).consumed = flow.consumed := by
  unfold ensureWindowLowerBound
  split <;> rfl

@[simp] theorem updateMaxData_maxData (flow : FlowControl) : flow.updateMaxData.maxData = flow.maxDataNext := rfl

@[simp] theorem updateMaxData_consumed (flow : FlowControl) : flow.updateMaxData.consumed = flow.consumed := rfl

theorem ahead_of_due (due : flow.shouldUpdateMaxData = some true) : flow.Ahead := by
  -- Less than half of the window is available, so a whole window reaches further.
  unfold shouldUpdateMaxData at due
  split at due
  · cases due
  · simp only [Option.some.injEq, decide_eq_true_eq] at due
    unfold Ahead maxDataNext
    omega

theorem Ahead.addConsumed (ahead : flow.Ahead) (count : Nat) : (flow.addConsumed count).Ahead := by
  unfold Ahead maxDataNext at *
  simp only [FlowControl.addConsumed]
  omega

theorem Ahead.autotune_iff (ahead : flow.Ahead) :
    (flow.autotuneWindow recent).Ahead ↔ flow.Tunable recent := by
  -- The doubled window is no obstacle, so only the maximum can be.
  unfold Ahead maxDataNext autotuneWindow Tunable at *
  cases recent with
  | false => simpa using ahead
  | true =>
    simp only [if_true, true_implies]
    omega

theorem ahead_updateMaxData (flow : FlowControl) : flow.updateMaxData.Ahead := Nat.le_refl _

end Laws

end FlowControl

namespace RotatingRecvBuf

/-- Whether a new limit should be sent; a stream whose final size is known needs none. -/
def almostFull (rot : RotatingRecvBuf) : Option Bool :=
  if rot.recv.finOff.isSome then some false else rot.recv.flowControl.shouldUpdateMaxData

/-- The buffer once the error of a reset is recorded and everything buffered is dropped. -/
def cleared (rot : RotatingRecvBuf) (errorCode finalSize : Nat) : RotatingRecvBuf :=
  { rot with recv := { rot.recv with error := some errorCode, off := finalSize, data := OrdMap.empty } }

/-- Resets the stream at its final size; returns how much of it was not received. -/
def reset (rot : RotatingRecvBuf) (errorCode finalSize : Nat) : Except StreamError Nat × RotatingRecvBuf :=
  if rot.recv.finOff.any (· != finalSize) then (.error .finalSize, rot)
  else if finalSize < rot.recv.len then (.error .finalSize, rot)
  else if rot.recv.error.isSome then (.ok (finalSize - rot.recv.len), rot)
  else
    -- An empty chunk at the final size lets the application learn of the reset.
    match (rot.cleared errorCode finalSize).write (RangeBuf.fromSlice [] finalSize true) with
    | (.error error, after) => (.error error, after)
    | (.ok _, after) => (.ok (finalSize - rot.recv.len), after)

/-- Shuts down receiving data. -/
def shutDown (rot : RotatingRecvBuf) : Except StreamError RotatingRecvBuf :=
  rot.recv.shutDown.map fun recv => { rot with recv := recv }

/-- The buffer with its flow controller changed. -/
def withFlow (rot : RotatingRecvBuf) (f : FlowControl → FlowControl) : RotatingRecvBuf :=
  { rot with recv := { rot.recv with flowControl := f rot.recv.flowControl } }

/-- A buffer without the extension is reset as the plain buffer is. -/
theorem reset_plain (recv : RecvBuf) (errorCode finalSize : Nat) :
    (reset ⟨recv, none⟩ errorCode finalSize).1 = (recv.reset errorCode finalSize).1 ∧
      ∀ delta, (recv.reset errorCode finalSize).1 = .ok delta →
        (reset ⟨recv, none⟩ errorCode finalSize).2 = ⟨(recv.reset errorCode finalSize).2, none⟩ := by
  -- The checks are the same, and so is what the empty chunk does.
  unfold reset RecvBuf.reset
  split
  · exact ⟨rfl, fun _ done => nomatch done⟩
  split
  · exact ⟨rfl, fun _ done => nomatch done⟩
  split
  · exact ⟨rfl, fun _ _ => rfl⟩
  have agrees := write_plain { recv with error := some errorCode, off := finalSize, data := OrdMap.empty }
    (RangeBuf.fromSlice [] finalSize true)
  revert agrees
  dsimp only [cleared]
  generalize write _ _ = written
  generalize RecvBuf.write _ _ = plain
  rintro ⟨same, left⟩
  obtain ⟨result, rot⟩ := written
  cases plain with
  | error error =>
    cases same
    exact ⟨rfl, fun _ done => nomatch done⟩
  | ok after =>
    cases same
    exact ⟨rfl, fun _ _ => left after rfl⟩

section Plain

variable {rot after : RotatingRecvBuf}

theorem eq_plain (plain : rot.fcData = none) : rot = ⟨rot.recv, none⟩ := by
  cases rot
  cases plain
  rfl

theorem write_ok_plain (plain : rot.fcData = none) {buf : RangeBuf} (done : rot.write buf = (.ok (), after)) :
    ∃ recv, rot.recv.write buf = .ok recv ∧ after = ⟨recv, none⟩ := by
  obtain ⟨same, left⟩ := write_plain rot.recv buf
  rw [← eq_plain plain, done] at same left
  cases written : rot.recv.write buf with
  | error error =>
    rw [written] at same
    cases same
  | ok recv => exact ⟨recv, rfl, left recv written⟩

theorem reset_ok_plain (plain : rot.fcData = none) {errorCode finalSize delta : Nat}
    (done : rot.reset errorCode finalSize = (.ok delta, after)) :
    ∃ recv, rot.recv.reset errorCode finalSize = (.ok delta, recv) ∧ after = ⟨recv, none⟩ := by
  obtain ⟨same, left⟩ := reset_plain rot.recv errorCode finalSize
  rw [← eq_plain plain, done] at same left
  exact ⟨_, Prod.ext same.symm rfl, left delta same.symm⟩

theorem emit_eq_plain (plain : rot.fcData = none) {outLen : Nat} {result : Except StreamError (Bytes × Bool)}
    (done : rot.emit outLen = (result, after)) :
    ∃ recv, rot.recv.emit outLen = (result, recv) ∧ after = ⟨recv, none⟩ := by
  rw [eq_plain plain, emit_plain] at done
  obtain ⟨same, left⟩ := Prod.mk.inj done
  exact ⟨_, Prod.ext same rfl, left.symm⟩

end Plain

end RotatingRecvBuf

end Flexicast
