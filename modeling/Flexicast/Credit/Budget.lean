import Flexicast.Credit.Outbound
import Flexicast.Stream.Resetting

/-! What was written on a connection is what its streams hold, and no more than the peer allowed. -/

namespace Flexicast

namespace Outbound

/-- The end of what was written on a stream. -/
def written (stream : OutStream) : Nat := stream.send.offBack

/-- The data that was written is that of all streams, and allowed; no event underflows or takes too much back. -/
structure Accounted (state : Outbound) : Prop where
  /-- What was written is what was written on the streams. -/
  total : state.txData = state.streams.total written
  allowed : state.txData ≤ state.maxTxData
  /-- The room that is left is computed without an underflow. -/
  room : ∀ event, (state.step event).1 ≠ .error .overflow
  /-- No more was ever taken back than had been written. -/
  saturated : state.saturated = false

/-- The frames that were sent on a stream. -/
def framesOf (self : Outbound) (id : Nat) : List Frame :=
  (self.sent.filter fun entry => entry.1 == id).map Prod.snd

/-- What holds of the send side of a connection. -/
structure Budget (state : Outbound) : Prop where
  /-- The streams may have been written, sent, acknowledged and reset. -/
  streams : ∀ id stream, state.streams.find? id = some stream → SendBuf.Bounded (state.framesOf id) stream.send
  /-- Nothing was sent on streams that were not opened. -/
  fresh : ∀ id, state.streams.find? id = none → state.framesOf id = []
  /-- What was written is what was written on the streams. -/
  total : state.txData = state.streams.total written
  /-- The application may only write what the peer allows. -/
  cap : state.txData + state.txCap ≤ state.maxTxData
  /-- No more was ever taken back than had been written. -/
  saturated : state.saturated = false

/-- A stream was the one with an identifier, or there was none and it is a new one. -/
def Was (self : Outbound) (id : Nat) (stream : OutStream) : Prop :=
  self.streams.find? id = some stream ∨ self.streams.find? id = none ∧ stream = self.newStream id

variable {self : Outbound} {id : Nat} {stream : OutStream}

theorem was_of_get (held : self.get id = some stream) : self.Was id stream := .inl (Option.filter_eq_some_iff.mp held).1

variable {isLocal refused : Bool} {send : SendBuf}

/-- So was the one that is got or created. -/
theorem was_of_getOrCreate (made : self.getOrCreateStream id isLocal refused = .ok stream) : self.Was id stream := by
  unfold getOrCreateStream at made
  -- A collected stream is not given back, and a new one may be refused.
  cases found : self.streams.find? id with
  | some other =>
    rw [found] at made
    dsimp only at made
    split at made
    · cases made
    · cases made
      exact .inl found
  | none =>
    rw [found] at made
    dsimp only at made
    split at made
    · cases made
    split at made
    · cases made
    · cases made
      exact .inr ⟨found, rfl⟩

/-- Getting or creating a stream subtracts nothing. -/
theorem getOrCreate_overflow {error : StreamError} (failed : self.getOrCreateStream id isLocal refused = .error error) :
    error ≠ .overflow := by
  unfold getOrCreateStream at failed
  split at failed
  · split at failed
    · cases failed
      simp
    · cases failed
  · split at failed
    · cases failed
      simp
    split at failed
    · cases failed
      simp
    · cases failed

theorem Was.total (was : self.Was id stream) (after : OutStream) :
    (self.streams.insert id after).total written + written stream = self.streams.total written + written after := by
  -- A new stream has nothing written on it yet.
  rcases was with found | ⟨absent, rfl⟩
  · exact OrdMap.total_insert_found written found after
  · have zero : written (self.newStream id) = 0 := rfl
    rw [zero]
    exact OrdMap.total_insert_new written absent after

/-- A stream and what was sent on it fit. -/
theorem Budget.bounded (budget : self.Budget) (was : self.Was id stream) :
    SendBuf.Bounded (self.framesOf id) stream.send := by
  rcases was with found | ⟨absent, rfl⟩
  · exact budget.streams id stream found
  · rw [budget.fresh id absent]
    exact SendBuf.bounded_new _

/-- One stream changes, and what was written with it. -/
theorem Budget.change (budget : self.Budget) (was : self.Was id stream) {after : Outbound} {new : OutStream}
    (streams : after.streams = self.streams.insert id new)
    (others : ∀ other, other ≠ id → after.framesOf other = self.framesOf other)
    (bounded : SendBuf.Bounded (after.framesOf id) new.send)
    (total : after.txData + written stream = self.txData + written new)
    (cap : after.txData + after.txCap ≤ after.maxTxData) (saturated : after.saturated = false) : after.Budget := by
  have found : ∀ probe, after.streams.find? probe = if probe = id then some new else self.streams.find? probe := by
    intro probe
    rw [streams]
    exact OrdMap.find?_insert self.streams id probe new
  constructor
  · intro probe other held
    rw [found] at held
    -- The stream that changed fits by assumption, and the others as before.
    by_cases hit : probe = id
    · rw [if_pos hit] at held
      cases held
      rw [hit]
      exact bounded
    · rw [if_neg hit] at held
      rw [others probe hit]
      exact budget.streams probe other held
  · intro probe absent
    rw [found] at absent
    by_cases hit : probe = id
    · rw [if_pos hit] at absent
      cases absent
    · rw [if_neg hit] at absent
      rw [others probe hit]
      exact budget.fresh probe absent
  · have sum := was.total new
    have before := budget.total
    rw [streams]
    omega
  · exact cap
  · exact saturated

theorem Budget.setSend (budget : self.Budget) (was : self.Was id stream)
    (bounded : SendBuf.Bounded (self.framesOf id) send) (same : send.off = stream.send.off) :
    (self.setSend id stream send).Budget :=
  budget.change was rfl (fun _ _ => rfl) bounded (congrArg (self.txData + ·) same.symm) budget.cap budget.saturated

/-- A stream that is put where it was changes nothing. -/
theorem Budget.set (budget : self.Budget) (was : self.Was id stream) : (self.set id stream).Budget :=
  budget.setSend was (budget.bounded was) rfl

theorem Budget.updateTxCap (budget : self.Budget) (cwinAvailable : Nat) :
    (self.updateTxCap cwinAvailable).1 = .ok () ∧ (self.updateTxCap cwinAvailable).2.Budget := by
  have cap := budget.cap
  unfold Outbound.updateTxCap
  rw [if_neg (by omega)]
  refine ⟨rfl, budget.streams, budget.fresh, budget.total, ?_, budget.saturated⟩
  show self.txData + min cwinAvailable (self.maxTxData - self.txData) ≤ self.maxTxData
  omega

/-- What a stream gives back was written. -/
theorem Budget.clawBack (budget : self.Budget) (was : self.Was id stream) {unsent : Nat}
    (reset : SendBuf.Bounded (self.framesOf id) send ∧ send.off + unsent = stream.send.off) :
    ((self.setSend id stream send).clawBack unsent).Budget := by
  obtain ⟨bounded, back⟩ := reset
  have sum := was.total { stream with send := send }
  have before := budget.total
  have cap := budget.cap
  -- What the stream gives back is a part of its own share of the sum.
  have enough : unsent ≤ self.txData := by
    have ends : written { stream with send := send } + unsent = written stream := back
    omega
  refine budget.change was
    (show ((self.setSend id stream send).clawBack unsent).streams = self.streams.insert id _ from rfl)
    (fun _ _ => rfl) bounded ?_ ?_ ?_
  · show self.txData - unsent + stream.send.off = self.txData + send.off
    omega
  · show self.txData - unsent + self.txCap ≤ self.maxTxData
    omega
  · show (self.saturated || decide (self.txData < unsent)) = false
    rw [budget.saturated, Bool.false_or]
    exact decide_eq_false (by omega)

/-- A write takes no more than the application may write. -/
theorem Budget.streamSend (budget : self.Budget) (id : Nat) (refused : Bool) (data : Bytes) (fin : Bool) :
    (self.streamSend id refused data fin).1 ≠ .error .overflow ∧ (self.streamSend id refused data fin).2.Budget := by
  have cap := budget.cap
  unfold Outbound.streamSend
  split
  · exact ⟨by simp, budget⟩
  rw [if_neg (by omega)]
  cases made : self.getOrCreateStream id true refused with
  | error error =>
    exact ⟨by simpa using getOrCreate_overflow made, budget⟩
  | ok stream =>
    have was := was_of_getOrCreate made
    dsimp only
    split
    · exact ⟨by simp, budget.set was⟩
    cases wrote : stream.send.write (data.take self.txCap) (if self.txCap < data.length then false else fin) with
    | error error =>
      refine ⟨?_, budget.set was⟩
      intro same
      have overflow : error = .overflow := by simpa using same
      exact (budget.bounded was).write_overflow (overflow ▸ wrote)
    | ok result =>
      obtain ⟨sent, send⟩ := result
      obtain ⟨bounded, grown, few⟩ := (budget.bounded was).write wrote
      -- The data was cut to the room that is left, so the sum stays within the limit.
      rw [List.length_take] at few
      constructor
      · dsimp only
        split <;> simp
      refine budget.change was (show self.streams.insert id { stream with send := send } = _ from rfl)
        (fun _ _ => rfl) bounded ?_ ?_ budget.saturated
      · show self.txData + sent + stream.send.off = self.txData + send.off
        omega
      · show self.txData + sent + (self.txCap - sent) ≤ self.maxTxData
        omega

/-- A frame that is sent is one of its stream. -/
theorem Budget.emit (budget : self.Budget) (id outLen : Nat) : (self.emit id outLen).Budget := by
  unfold Outbound.emit
  split
  · exact budget
  rename_i stream held
  have was := was_of_get held
  obtain ⟨bounded, same⟩ := (budget.bounded was).emit outLen
  split
  · exact budget
  refine budget.change was
    (show self.streams.insert id { stream with send := (stream.send.emit outLen).2 } = _ from rfl)
    ?_ ?_ (congrArg (self.txData + ·) same.symm) budget.cap budget.saturated
  · -- The frame is one of this stream only.
    intro other apart
    unfold framesOf
    rw [List.filter_append, List.filter_cons_of_neg (by simpa using Ne.symm apart), List.filter_nil, List.append_nil]
  · unfold framesOf
    rw [List.filter_append, List.filter_cons_of_pos (by simp), List.filter_nil, List.map_append]
    exact bounded

theorem mem_framesOf {index : Nat} {frame : Frame} (sent : self.sent[index]? = some (id, frame)) :
    frame ∈ self.framesOf id :=
  List.mem_map.mpr ⟨(id, frame), List.mem_filter.mpr ⟨List.mem_of_getElem? sent, by simp⟩, rfl⟩

/-- A frame that is lost is sent again. -/
theorem Budget.lost (budget : self.Budget) (index : Nat) : (self.lost index).Budget := by
  unfold Outbound.lost
  split
  · exact budget
  rename_i id frame sent
  split
  · exact budget
  rename_i stream held
  have was := was_of_get held
  obtain ⟨bounded, same⟩ := (budget.bounded was).retransmit frame.off frame.len
  exact budget.setSend was bounded same

/-- A frame that is acknowledged was sent. -/
theorem Budget.acked (budget : self.Budget) (index : Nat) : (self.acked index).Budget := by
  unfold Outbound.acked
  split
  · exact budget
  rename_i id frame sent
  split
  · exact budget
  rename_i stream held
  have was := was_of_get held
  obtain ⟨bounded, same⟩ := (budget.bounded was).ackAndDrop (mem_framesOf sent)
  exact budget.change was rfl (fun _ _ => rfl) bounded (congrArg (self.txData + ·) same.symm) budget.cap
    budget.saturated

theorem Budget.stopSending (budget : self.Budget) (id : Nat) (refused : Bool) (errorCode : Nat) :
    (self.stopSending id refused errorCode).1 ≠ .error .overflow ∧
      (self.stopSending id refused errorCode).2.Budget := by
  unfold Outbound.stopSending
  split
  · exact ⟨by simp, budget⟩
  split
  · exact ⟨by simp, budget⟩
  · rename_i error other made
    exact ⟨by simpa using getOrCreate_overflow made, budget⟩
  · rename_i stream made
    have was := was_of_getOrCreate made
    split
    -- A stream that was stopped before is left as it is.
    · exact ⟨by simp, budget.set was⟩
    · rename_i size unsent send stopped
      exact ⟨by simp, budget.clawBack was ((budget.bounded was).stop stopped)⟩

/-- A stream that is shut down gives back what was not sent. -/
theorem Budget.streamShutdown (budget : self.Budget) (id cwinAvailable : Nat) :
    (self.streamShutdown id cwinAvailable).1 ≠ .error .overflow ∧ (self.streamShutdown id cwinAvailable).2.Budget := by
  unfold Outbound.streamShutdown
  split
  · exact ⟨by simp, budget⟩
  split
  · exact ⟨by simp, budget⟩
  rename_i stream held
  have was := was_of_get held
  split
  · rename_i error failed
    refine ⟨?_, budget⟩
    unfold SendBuf.shutDown at failed
    split at failed
    · cases failed
      simp
    · cases failed
  · -- The room is updated after the data was taken back.
    rename_i size unsent send shut
    obtain ⟨done, later⟩ := (budget.clawBack was ((budget.bounded was).shutDown shut)).updateTxCap cwinAvailable
    exact ⟨by rw [done]; simp, later⟩

theorem Budget.onMaxStreamData (budget : self.Budget) (id : Nat) (refused : Bool) (max : Nat) :
    (self.onMaxStreamData id refused max).1 ≠ .error .overflow ∧ (self.onMaxStreamData id refused max).2.Budget := by
  unfold Outbound.onMaxStreamData
  split
  · exact ⟨by simp, budget⟩
  split
  · exact ⟨by simp, budget⟩
  · rename_i error other made
    exact ⟨by simpa using getOrCreate_overflow made, budget⟩
  · rename_i stream made
    have was := was_of_getOrCreate made
    exact ⟨by simp, budget.setSend was ((budget.bounded was).updateMaxData max) rfl⟩

theorem Budget.recvDone (budget : self.Budget) (id : Nat) : (self.recvDone id).Budget := by
  unfold Outbound.recvDone
  split
  · exact budget
  rename_i stream held
  have was := was_of_get held
  split
  · exact budget.change was (show self.streams.insert id { stream with collected := true } = _ from rfl)
      (fun _ _ => rfl) (show SendBuf.Bounded _ stream.send from budget.bounded was) rfl budget.cap budget.saturated
  · exact budget

theorem Budget.openStream (budget : self.Budget) (id : Nat) : (self.openStream id).Budget := by
  unfold Outbound.openStream
  split
  · exact budget
  · rename_i absent
    exact budget.set (.inr ⟨absent, rfl⟩)

/-- Every event stays within the budget. -/
theorem Budget.step (budget : self.Budget) (event : OutboundEvent) :
    (self.step event).1 ≠ .error .overflow ∧ (self.next event).Budget := by
  cases event with
  | opened id => exact ⟨by simp [Outbound.step], budget.openStream id⟩
  | streamSend id refused data fin => exact budget.streamSend id refused data fin
  | emit id outLen => exact ⟨by simp [Outbound.step], budget.emit id outLen⟩
  | lost index => exact ⟨by simp [Outbound.step], budget.lost index⟩
  | acked index => exact ⟨by simp [Outbound.step], budget.acked index⟩
  | stopSending id refused errorCode => exact budget.stopSending id refused errorCode
  | streamShutdown id cwinAvailable => exact budget.streamShutdown id cwinAvailable
  -- The limit only grows.
  | maxData max =>
    have cap := budget.cap
    refine ⟨by simp [Outbound.step], budget.streams, budget.fresh, budget.total, ?_, budget.saturated⟩
    exact Nat.le_trans cap (Nat.le_max_left _ _)
  | maxStreamData id refused max => exact budget.onMaxStreamData id refused max
  | recvDone id => exact ⟨by simp [Outbound.step], budget.recvDone id⟩
  | updateTxCap cwinAvailable =>
    obtain ⟨done, later⟩ := budget.updateTxCap cwinAvailable
    refine ⟨?_, later⟩
    show (self.updateTxCap cwinAvailable).1 ≠ _
    rw [done]
    simp
  | sendDone =>
    exact ⟨by simp [Outbound.step], ⟨budget.streams, budget.fresh, budget.total, budget.cap, budget.saturated⟩⟩
  | checkAppLimited dgramBytes cwinAvailable =>
    refine ⟨by simp [Outbound.step], ?_⟩
    show (self.checkAppLimited dgramBytes cwinAvailable).2.Budget
    unfold checkAppLimited
    split
    · exact ⟨budget.streams, budget.fresh, budget.total, budget.cap, budget.saturated⟩
    · exact budget

theorem budget_new (config : OutboundConfig) : (new config).Budget := by
  constructor
  · intro id stream found
    cases found
  · exact fun _ _ => rfl
  · rfl
  · exact Nat.zero_le _
  · rfl

theorem Budget.accounted (budget : self.Budget) : self.Accounted :=
  ⟨budget.total, Nat.le_trans (Nat.le_add_right _ _) budget.cap, fun event => (budget.step event).1, budget.saturated⟩

/-- In every run what was written is accounted for. -/
theorem always_accounted (config : OutboundConfig) (events : List OutboundEvent) :
    (Runs.run next (new config) events).Accounted := by
  have keeps : ∀ (state : Outbound) event, state.Budget → (state.next event).Budget :=
    fun _ event budget => (budget.step event).2
  exact (Runs.run_keeps keeps (budget_new config) events).accounted

/-- Less may have been written than before when the rate of delivery is measured: what was taken back counted then. -/
theorem check_saturates :
    let state := Runs.run next (new ⟨false, 100, ⟨100, 100, 100⟩⟩)
      [.updateTxCap 100, .streamSend 0 false [1, 2, 3, 4] false, .emit 0 1, .sendDone, .stopSending 0 false 42]
    state.txData < state.lastTxData ∧ (state.next (.checkAppLimited 0 100)).lastSaturated = true := by
  decide

end Outbound

end Flexicast
