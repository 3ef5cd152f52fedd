import Flexicast.Credit.Changes

/-! What a connection counts as received is what its streams received, as long as no frame is counted twice. -/

namespace Flexicast

namespace RotatingRecvBuf

variable {rot after : RotatingRecvBuf}

theorem reset_delta {errorCode finalSize delta : Nat} (done : rot.reset errorCode finalSize = (.ok delta, after)) :
    delta = finalSize - rot.recv.maxOff ∧ rot.recv.maxOff ≤ finalSize := by
  unfold reset at done
  split at done
  · cases done
  split at done
  · cases done
  rename_i size
  -- The delta is taken before the buffer looks at its error, so every branch that succeeds returns it.
  refine ⟨?_, Nat.not_lt.mp size⟩
  split at done
  · cases done
    rfl
  · split at done
    · cases done
    · cases done
      rfl

end RotatingRecvBuf

namespace Inbound

/-- The data received is the sum of the largest offsets of the streams, and is within the limit. -/
def Charged (self : Inbound) : Prop :=
  self.rxData = self.streams.total InStream.largest ∧ self.rxData ≤ self.maxRxData

instance (self : Inbound) : Decidable self.Charged := inferInstanceAs (Decidable (_ ∧ _))

/-- A frame is counted once: its buffer recorded the largest offset, or the frame does not pass what was recorded.
A new limit of the connection still covers the data received. -/
def Exact (self : Inbound) : InboundEvent → Prop
  | .stream id refused data off _ => ∀ stream, self.getOrCreateStream id refused = .ok stream →
    stream.recv.recv.maxOff = stream.largest ∨
      (off + data.length ≤ stream.recv.recv.maxOff ∧ off + data.length ≤ stream.largest)
  | .resetStream id refused _ _ => ∀ stream, self.getOrCreateStream id refused = .ok stream →
    stream.recv.recv.maxOff = stream.largest
  | .sendMaxData recent fits => recent = true → fits = true → self.almostFull = true →
    self.maxRxData < self.flowControl.maxDataNext →
    self.rxData ≤ self.flowControl.consumed + self.flowControl.maxWindow
  | _ => True

variable {self : Inbound} {event : InboundEvent}

/-- On the stream that changes, the largest offset grows by what the connection is charged exactly when the event is
counted once. -/
theorem Change.exact_iff {id charge credit : Nat} {stream stream' : InStream}
    (change : Change self event id stream stream' charge credit) :
    self.Exact event ↔ stream'.largest = stream.largest + charge := by
  cases change with
  | @written _ off refused data fin stream rot held done =>
    have each : self.Exact (.stream id refused data off fin) ↔ stream.recv.recv.maxOff = stream.largest ∨
        (off + data.length ≤ stream.recv.recv.maxOff ∧ off + data.length ≤ stream.largest) := by
      constructor
      · exact fun all => all stream held
      · intro one other same
        rw [held] at same
        exact Except.ok.inj same ▸ one
    rw [each]
    -- What lies above what was recorded is charged, and what lies above the largest offset is new.
    simp only [Inbound.written]
    omega
  | @reset _ errorCode finalSize delta refused stream rot held done =>
    have each : self.Exact (.resetStream id refused errorCode finalSize) ↔
        stream.recv.recv.maxOff = stream.largest := by
      constructor
      · exact fun all => all stream held
      · intro one other same
        rw [held] at same
        exact Except.ok.inj same ▸ one
    obtain ⟨rfl, size⟩ := RotatingRecvBuf.reset_delta done
    rw [each]
    simp only [wasReset]
    omega
  | @limited _ _ _ fits _ held asked => cases fits <;> exact iff_of_true trivial rfl
  | _ => exact iff_of_true trivial rfl

theorem charged_sendMaxData (charged : self.Charged) (recent fits : Bool) :
    (self.sendMaxData recent fits).Charged ↔ self.Exact (.sendMaxData recent fits) := by
  obtain ⟨same, room⟩ := charged
  obtain ⟨streams, rxData, -, -, -⟩ := self.sendMaxData_keeps recent fits
  unfold Charged
  rw [streams, rxData, and_iff_right same, maxRxData_sendMaxData]
  split
  · -- The doubled window covers the data, so only the maximum window may not.
    rename_i committed
    obtain ⟨full, behind, fitted⟩ := committed
    unfold Exact FlowControl.maxDataNext at *
    cases recent with
    | false =>
      simp only [FlowControl.autotuneWindow, Bool.false_eq_true, if_false, false_implies, iff_true]
      omega
    | true =>
      simp only [FlowControl.autotuneWindow, if_true, true_implies, full, behind, fitted]
      omega
  · rename_i idle
    exact iff_of_true room fun _ fitted full behind => absurd ⟨full, behind, fitted⟩ idle

/-- An accepted event keeps the account exactly when it is counted once. -/
theorem charged_next (charged : self.Charged) (accepted : self.Accepted event) :
    (self.next event).Charged ↔ self.Exact event := by
  obtain ⟨-, turned⟩ := accepted.turned
  cases turned with
  | still idle closed config streams rxData consumed limit =>
    have kept : (self.next event).Charged := by
      unfold Charged
      rw [streams, rxData, limit]
      exact charged
    refine iff_of_true kept ?_
    -- A frame that is ignored has no stream.
    cases event with
    | stream id refused data off fin =>
      intro stream held
      rw [show self.getOrCreateStream id refused = .error .done from idle] at held
      cases held
    | resetStream id refused errorCode finalSize =>
      intro stream held
      rw [show self.getOrCreateStream id refused = .error .done from idle] at held
      cases held
    | sendMaxData recent fits => exact idle.elim
    | _ => exact trivial
  | committed sent done =>
    rw [done, sent]
    exact charged_sendMaxData charged _ _
  | changed collected change closed config streams rxData consumed limit room =>
    have total := change.total InStream.largest rfl collected
    obtain ⟨same, within_⟩ := charged
    have bound : (self.next event).rxData ≤ (self.next event).maxRxData := by
      rw [limit]
      by_cases none : (self.next event).rxData = self.rxData
      · rw [none]
        exact within_
      · exact room fun free => none (by rw [rxData, free, Nat.add_zero])
    rw [change.exact_iff, Charged, and_iff_left bound, rxData, streams]
    -- The sum moves as the largest offset of the stream does.
    simp only at total
    omega

/-- As long as no error is returned, the data received is what the streams received exactly when every frame is counted
once. -/
theorem charged_iff_exact (config : InboundConfig) (events : List InboundEvent)
    (accepted : Runs.Along next Accepted (new config) events) :
    (∀ done, done <+: events → ((new config).run done).Charged) ↔
      Runs.Along next Exact (new config) events := by
  -- The account is kept from one state to the next exactly when the event is counted once.
  have keeps : ∀ (self : Inbound) (event : InboundEvent), True → self.Accepted event → True := fun _ _ _ _ => trivial
  have step : ∀ (self : Inbound) (event : InboundEvent), True → self.Charged → self.Accepted event →
      ((self.next event).Charged ↔ self.Exact event) := fun _ _ _ charged accepted => charged_next charged accepted
  have start : (new config).Charged := ⟨rfl, Nat.zero_le _⟩
  exact Runs.always_iff_along keeps step events trivial start accepted

/-- Two chunks of a stream in the wrong order, a read, and the reset of another stream. -/
def outOfOrder : List InboundEvent :=
  [.stream 0 false [3, 4] 2 true, .stream 0 false [1, 2] 0 false, .streamRecv 0 9,
    .resetStream 4 false 7 20]

theorem charged_outOfOrder :
    (∀ done, done <+: outOfOrder → ((new smallServer).run done).Charged) ↔
      Runs.Along next Exact (new smallServer) outOfOrder :=
  charged_iff_exact smallServer outOfOrder (by decide)

/-- An empty chunk above everything that was received arrives twice. -/
def emptyTwice : List InboundEvent := [.stream 0 false [] 5 false, .stream 0 false [] 5 false]

/-- An empty chunk is charged for each time, and its offset is not recorded. -/
theorem emptyTwice_charged_twice :
    Runs.Along next Accepted (new smallServer) emptyTwice ∧
      ((new smallServer).run emptyTwice).rxData = 10 ∧
      ((new smallServer).run emptyTwice).streams.total InStream.largest = 5 ∧
      ¬ ((new smallServer).run emptyTwice).Charged := by
  decide

end Inbound

end Flexicast
