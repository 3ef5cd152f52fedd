import Flexicast.Credit.Inbound
import Flexicast.Stream.Offsets

/-! What one event does to the streams of a connection, and to its two accounts of received and consumed data. -/

namespace Flexicast

namespace Inbound

variable {self after : Inbound} {event : InboundEvent}

/-- What an event does to one stream, and what the connection is charged and credited for it. -/
inductive Change (self : Inbound) : InboundEvent → Nat → InStream → InStream → Nat → Nat → Prop where
  | opened {id : Nat} (new : self.streams.find? id = none) :
    Change self (.opened id) id (self.newStream id) (self.newStream id) 0 0
  | written {id off : Nat} {refused : Bool} {data : Bytes} {fin : Bool} {stream : InStream}
    {rot : RotatingRecvBuf} (held : self.getOrCreateStream id refused = .ok stream)
    (done : stream.recv.write (RangeBuf.fromSlice data off fin) = (.ok (), rot)) :
    Change self (.stream id refused data off fin) id stream
      (written stream rot (off + data.length) (off + data.length - stream.recv.recv.maxOff))
      (off + data.length - stream.recv.recv.maxOff)
      (if stream.recv.recv.drain then off + data.length - stream.recv.recv.maxOff else 0)
  | reset {id errorCode finalSize delta : Nat} {refused : Bool} {stream : InStream}
    {rot : RotatingRecvBuf} (held : self.getOrCreateStream id refused = .ok stream)
    (done : stream.recv.reset errorCode finalSize = (.ok delta, rot)) :
    Change self (.resetStream id refused errorCode finalSize) id stream (wasReset stream rot finalSize delta) delta 0
  | read {id outLen : Nat} {stream : InStream} {rot : RotatingRecvBuf} {out : Bytes} {fin full : Bool}
    (held : self.get id = some stream) (done : stream.recv.emit outLen = (.ok (out, fin), rot))
    (due : rot.almostFull = some full) :
    Change self (.streamRecv id outLen) id stream (wasRead stream rot out.length full) 0 out.length
  | readFails {id outLen : Nat} {stream : InStream} {rot : RotatingRecvBuf} {error : StreamError}
    (held : self.get id = some stream) (done : stream.recv.emit outLen = (.error error, rot)) :
    Change self (.streamRecv id outLen) id stream { stream with recv := rot } 0 0
  | shutDown {id : Nat} {stream : InStream} {rot : RotatingRecvBuf} (held : self.get id = some stream)
    (done : stream.recv.shutDown = .ok rot) :
    Change self (.streamShutdown id) id stream { stream with recv := rot } 0 0
  | rotated {id offset : Nat} {stream : InStream} (held : self.get id = some stream) :
    Change self (.fcSetOffsetAt id offset) id stream { stream with recv := stream.recv.fcSetOffsetAt offset } 0 0
  /-- The send side is complete. -/
  | sent {id : Nat} {stream : InStream} (held : self.get id = some stream) :
    Change self (.sendDone id) id stream { stream with sendComplete := true } 0 0
  | limited {id minWindow : Nat} {recent fits : Bool} {stream : InStream} (held : self.get id = some stream)
    (asked : stream.almostFull = true) :
    Change self (.sendMaxStreamData id recent fits minWindow) id stream (limited stream recent fits) 0 0
  /-- A collected stream needs no new limit. -/
  | forgotten {id minWindow : Nat} {recent fits : Bool} {stream : InStream}
    (held : self.streams.find? id = some stream) :
    Change self (.sendMaxStreamData id recent fits minWindow) id stream { stream with almostFull := false } 0 0
  | limitLost {id : Nat} {stream : InStream} (held : self.get id = some stream) (sent : stream.limitSent = true) :
    Change self (.maxStreamDataLost id) id stream { stream with almostFull := true } 0 0

/-- An event may leave the streams, the accounts and the limit; a frame does when its stream was collected. -/
def Idle (self : Inbound) : InboundEvent → Prop
  | .stream id refused _ _ _ => self.getOrCreateStream id refused = .error .done
  | .resetStream id refused _ _ => self.getOrCreateStream id refused = .error .done
  | .sendMaxData _ _ => False
  | _ => True

/-- What one event did to a connection that stays open. -/
inductive Turned (self : Inbound) (event : InboundEvent) (after : Inbound) : Prop where
  /-- No stream changed, and neither did the accounts and the limit. -/
  | still (idle : self.Idle event) (closed : after.closed = self.closed) (config : after.config = self.config)
    (streams : after.streams = self.streams) (rxData : after.rxData = self.rxData)
    (consumed : after.flowControl.consumed = self.flowControl.consumed)
    (limit : after.maxRxData = self.maxRxData)
  /-- The connection may have got a new limit. -/
  | committed {recent fits : Bool} (sent : event = .sendMaxData recent fits)
    (done : after = self.sendMaxData recent fits)
  | changed {id charge credit : Nat} {stream stream' : InStream} (collected : Bool)
    (change : Change self event id stream stream' charge credit) (closed : after.closed = self.closed)
    (config : after.config = self.config)
    (streams : after.streams = self.streams.insert id { stream' with collected := collected })
    (rxData : after.rxData = self.rxData + charge)
    (consumed : after.flowControl.consumed = self.flowControl.consumed + credit)
    (limit : after.maxRxData = self.maxRxData)
    (room : charge ≠ 0 → after.rxData ≤ self.maxRxData)

variable {id : Nat} {stream : InStream} {refused : Bool}

theorem find?_of_get (held : self.get id = some stream) :
    self.streams.find? id = some stream ∧ stream.collected = false := by
  obtain ⟨found, live⟩ := Option.filter_eq_some_iff.mp held
  exact ⟨found, by simpa using live⟩

/-- A stream that is found or created was there, or is a new one. -/
theorem find?_of_getOrCreate (held : self.getOrCreateStream id refused = .ok stream) :
    self.streams.find? id = some stream ∨ (self.streams.find? id = none ∧ stream = self.newStream id) := by
  -- A stream that is listed is only returned while it is not collected; no other check may refuse it.
  unfold getOrCreateStream at held
  split at held
  · rename_i old found
    split at held
    · cases held
    · cases held
      exact .inl found
  · rename_i new
    split at held
    · cases held
    split at held
    · cases held
    · cases held
      exact .inr ⟨new, rfl⟩

variable {charge credit : Nat} {stream' : InStream}

/-- The stream that an event changes was there, or is a new one. -/
theorem Change.was (change : Change self event id stream stream' charge credit) :
    self.streams.find? id = some stream ∨ (self.streams.find? id = none ∧ stream = self.newStream id) := by
  -- Frames may create their stream; every other event finds it.
  cases change with
  | opened new => exact .inr ⟨new, rfl⟩
  | written held _ | reset held _ => exact find?_of_getOrCreate held
  | forgotten held => exact .inl held
  | read held _ _ | readFails held _ | shutDown held _ | rotated held | sent held | limited held _ | limitLost held _ =>
    exact .inl (find?_of_get held).1

theorem each_of_was {property : InStream → Prop}
    (each : ∀ id stream, self.streams.find? id = some stream → property stream)
    (new : ∀ maxRxData maxWindow, property (InStream.new maxRxData maxWindow))
    (was : self.streams.find? id = some stream ∨ (self.streams.find? id = none ∧ stream = self.newStream id)) :
    property stream := by
  obtain found | ⟨-, rfl⟩ := was
  · exact each id stream found
  · exact new _ _

theorem Change.total (change : Change self event id stream stream' charge credit) (weight : InStream → Nat)
    (fresh : weight (self.newStream id) = 0) (collected : Bool) :
    (self.streams.insert id { stream' with collected := collected }).total weight + weight stream =
      self.streams.total weight + weight { stream' with collected := collected } := by
  -- The sum leaves the old weight of the identifier and takes the new one; a new identifier had none.
  obtain found | ⟨new, same⟩ := change.was
  · exact OrdMap.total_insert_found weight found _
  · rw [same, fresh, Nat.add_zero]
    exact OrdMap.total_insert_new weight new _

theorem collectComplete_eq (stream : InStream) (id : Nat) (isServer : Bool) :
    ∃ collected, stream.collectComplete id isServer = { stream with collected := collected } := by
  unfold InStream.collectComplete
  split
  · exact ⟨true, rfl⟩
  · exact ⟨stream.collected, rfl⟩

theorem consume_eq {count : Nat} (done : self.consume count = .ok after) :
    ∃ due, after =
      { self with flowControl := self.flowControl.addConsumed count, almostFull := self.almostFull || due } := by
  -- Only the overflow check fails; whether a limit is due is the only other effect.
  unfold consume at done
  split at done
  · cases done
  · rename_i due _
    cases done
    exact ⟨due, rfl⟩

/-- A STREAM frame that is accepted is ignored, or written to its stream. -/
theorem onStream_turned {off : Nat} {data : Bytes} {fin : Bool}
    (done : self.onStream id refused (RangeBuf.fromSlice data off fin) = .ok after) :
    Turned self (.stream id refused data off fin) after := by
  unfold onStream at done
  split at done
  · cases done
  split at done
  · cases done
  rename_i fits
  split at done
  · -- The stream was collected.
    rename_i gone
    cases done
    exact .still gone rfl rfl rfl rfl rfl rfl
  · cases done
  rename_i stream held
  simp only [RangeBuf.maxOff_fromSlice] at done
  split at done
  · cases done
  rename_i room
  split at done
  · cases done
  rename_i rot written_
  have change := Change.written held written_
  -- Data of a drained stream is consumed at once.
  split at done
  · rename_i drained
    obtain ⟨due, rfl⟩ := consume_eq done
    simp only [drained, if_true] at change
    refine .changed stream.collected change rfl rfl rfl rfl rfl rfl fun _ => ?_
    simp only
    omega
  · rename_i buffered
    cases done
    simp only [buffered] at change
    refine .changed stream.collected change rfl rfl rfl rfl rfl rfl fun _ => ?_
    simp only
    omega

/-- A RESET_STREAM frame that is accepted is ignored, or resets its stream. -/
theorem onResetStream_turned {errorCode finalSize : Nat}
    (done : self.onResetStream id refused errorCode finalSize = .ok after) :
    Turned self (.resetStream id refused errorCode finalSize) after := by
  unfold onResetStream at done
  split at done
  · cases done
  split at done
  · cases done
  rename_i fits
  split at done
  -- A stream that was collected ignores the frame.
  · rename_i gone
    cases done
    exact .still gone rfl rfl rfl rfl rfl rfl
  · cases done
  rename_i stream held
  split at done
  · cases done
  rename_i delta rot reset_
  split at done
  · cases done
  rename_i room
  cases done
  -- What is left is the reset itself, and the check that its size fits the limit.
  refine .changed stream.collected (Change.reset held reset_) rfl rfl rfl rfl rfl rfl fun _ => ?_
  simp only
  omega

/-- A read that goes on changes its stream at most. -/
theorem streamRecv_turned {outLen : Nat} (done : self.streamRecv id outLen = .ok after) :
    Turned self (.streamRecv id outLen) after := by
  unfold streamRecv at done
  split at done
  · cases done
    exact .still trivial rfl rfl rfl rfl rfl rfl
  split at done
  · cases done
    exact .still trivial rfl rfl rfl rfl rfl rfl
  rename_i stream held
  split at done
  · cases done
    exact .still trivial rfl rfl rfl rfl rfl rfl
  split at done
  · -- The application gets an error.
    rename_i error rot failed
    cases done
    obtain ⟨collected, same⟩ := collectComplete_eq { stream with recv := rot } id self.config.isServer
    rw [same]
    exact .changed collected (Change.readFails held failed) rfl rfl rfl rfl rfl rfl fun none => absurd rfl none
  rename_i out fin rot emitted
  split at done
  · cases done
  rename_i full due
  obtain ⟨collected, same⟩ := collectComplete_eq (wasRead stream rot out.length full) id self.config.isServer
  rw [same] at done
  obtain ⟨asks, rfl⟩ := consume_eq done
  exact .changed collected (Change.read held emitted due) rfl rfl rfl rfl rfl rfl fun none => absurd rfl none

/-- Each of the other events changes one stream at most. -/
theorem step_turned (done : self.step event = .ok after) : Turned self event after := by
  cases event with
  | stream id refused data off fin => exact onStream_turned done
  | resetStream id refused errorCode finalSize => exact onResetStream_turned done
  | streamRecv id outLen => exact streamRecv_turned done
  | opened id =>
    cases done
    unfold openStream
    split
    · exact .still trivial rfl rfl rfl rfl rfl rfl
    · rename_i new
      exact .changed false (.opened new) rfl rfl rfl rfl rfl rfl fun none => absurd rfl none
  | streamShutdown id =>
    cases done
    unfold streamShutdown
    split
    · exact .still trivial rfl rfl rfl rfl rfl rfl
    split
    · exact .still trivial rfl rfl rfl rfl rfl rfl
    rename_i stream held
    split
    · exact .still trivial rfl rfl rfl rfl rfl rfl
    · rename_i rot shut
      exact .changed stream.collected (.shutDown held shut) rfl rfl rfl rfl rfl rfl fun none => absurd rfl none
  | fcSetOffsetAt id offset =>
    cases done
    unfold fcSetOffsetAt
    split
    · exact .still trivial rfl rfl rfl rfl rfl rfl
    · rename_i stream held
      exact .changed stream.collected (.rotated held) rfl rfl rfl rfl rfl rfl fun none => absurd rfl none
  | sendDone id =>
    cases done
    unfold sendDone
    split
    · exact .still trivial rfl rfl rfl rfl rfl rfl
    rename_i stream held
    dsimp only
    split
    · exact .changed stream.collected (.sent held) rfl rfl rfl rfl rfl rfl fun none => absurd rfl none
    · obtain ⟨collected, same⟩ := collectComplete_eq { stream with sendComplete := true } id self.config.isServer
      rw [same]
      exact .changed collected (.sent held) rfl rfl rfl rfl rfl rfl fun none => absurd rfl none
  | sendMaxStreamData id recent fits minWindow =>
    cases done
    unfold sendMaxStreamData
    split
    · exact .still trivial rfl rfl rfl rfl rfl rfl
    rename_i stream found
    split
    · exact .still trivial rfl rfl rfl rfl rfl rfl
    rename_i asked
    split
    · exact .changed stream.collected (.forgotten found) rfl rfl rfl rfl rfl rfl fun none => absurd rfl none
    rename_i live
    have held : self.get id = some stream := Option.filter_eq_some_iff.mpr ⟨found, by simpa using live⟩
    have change :
        Change self (.sendMaxStreamData id recent fits minWindow) id stream (limited stream recent fits) 0 0 :=
      .limited held (by simpa using asked)
    have same : limited stream recent fits = { limited stream recent fits with collected := stream.collected } := by
      cases fits <;> rfl
    have streams := congrArg (self.streams.insert id) same
    dsimp only
    split
    · -- The window of the connection gets a lower bound, which leaves its account and its limit.
      exact .changed stream.collected change rfl rfl streams rfl (by simp) (by simp [maxRxData])
        fun none => absurd rfl none
    · exact .changed stream.collected change rfl rfl streams rfl rfl rfl fun none => absurd rfl none
  | sendMaxData recent fits =>
    cases done
    exact .committed rfl rfl
  | maxStreamDataLost id =>
    cases done
    unfold maxStreamDataLost
    split
    · exact .still trivial rfl rfl rfl rfl rfl rfl
    rename_i stream held
    split
    · rename_i sent
      exact .changed stream.collected (.limitLost held sent) rfl rfl rfl rfl rfl rfl fun none => absurd rfl none
    · exact .still trivial rfl rfl rfl rfl rfl rfl
  | maxDataLost =>
    cases done
    exact .still trivial rfl rfl rfl rfl rfl rfl

theorem sendMaxData_keeps (self : Inbound) (recent fits : Bool) :
    (self.sendMaxData recent fits).streams = self.streams ∧ (self.sendMaxData recent fits).rxData = self.rxData ∧
      (self.sendMaxData recent fits).flowControl.consumed = self.flowControl.consumed ∧
      (self.sendMaxData recent fits).config = self.config ∧
      (self.sendMaxData recent fits).closed = self.closed := by
  -- A frame that does not fit leaves the tuned window, and nothing else.
  unfold sendMaxData
  split
  · cases fits <;> simp
  · exact ⟨rfl, rfl, rfl, rfl, rfl⟩

theorem maxRxData_sendMaxData (self : Inbound) (recent fits : Bool) :
    (self.sendMaxData recent fits).maxRxData =
      if self.almostFull = true ∧ self.maxRxData < self.flowControl.maxDataNext ∧ fits = true then
        (self.flowControl.autotuneWindow recent).maxDataNext
      else self.maxRxData := by
  unfold sendMaxData
  -- The conditions before tuning are the same in the code and in the statement.
  by_cases asked : self.almostFull = true ∧ self.maxRxData < self.flowControl.maxDataNext
  · rw [if_pos (by simpa using asked)]
    cases fits with
    | false => simp [maxRxData]
    | true =>
      exact (if_pos ⟨asked.1, asked.2, rfl⟩).symm
  · rw [if_neg (by simpa using asked), if_neg fun all => asked ⟨all.1, all.2.1⟩]

/-- A step that returns no error does not close the connection. -/
theorem Turned.closed (turned : Turned self event after) : after.closed = self.closed := by
  cases turned with
  | still _ closed _ _ _ _ _ => exact closed
  | @committed recent fits _ done =>
    rw [done]
    exact (self.sendMaxData_keeps recent fits).2.2.2.2
  | changed _ _ closed _ _ _ _ _ _ => exact closed

/-- A step that returns no error turned an open connection. -/
theorem Accepted.turned (accepted : self.Accepted event) :
    self.closed = none ∧ Turned self event (self.next event) := by
  -- A closed connection does nothing, so an accepted event is one that its step did.
  unfold Accepted at accepted
  unfold next at accepted ⊢
  split at accepted
  · rename_i closed
    rw [accepted] at closed
    cases closed
  · rename_i open_
    rw [if_neg open_]
    split at accepted
    · rename_i after done
      exact ⟨by simpa using open_, step_turned done⟩
    · cases accepted

end Inbound

end Flexicast
