import Flexicast.Credit.Accounts
import Flexicast.Credit.Covering

/-! The limits that a connection advertises do not fall, as long as no window is cut and no raised limit is lost. -/

namespace Flexicast

namespace InStream

/-- A new limit of the stream, if it needs one: what the old one leaves fits the maximum window. If the stream is
rotated, it fits the window as well, and the buffer to loop to has a limit that is not below the new one. -/
def Raisable (stream : InStream) (recent : Bool) : Prop :=
  stream.almostFull = true → stream.recv.recv.flowControl.Tunable recent ∧
    ∀ fc, stream.recv.fcData = some fc → stream.recv.recv.flowControl.Ahead ∧
      ∀ inner, fc.fcRecvBuf = some inner →
        (stream.recv.recv.flowControl.autotuneWindow recent).maxDataNext ≤ inner.maxData

instance (recent : Bool) : DecidablePred (Raisable · recent) := fun stream =>
  let flow := stream.recv.recv.flowControl
  have := fun fc : FcRecvBuf =>
    decidableSome (fun inner : RecvBuf => (flow.autotuneWindow recent).maxDataNext ≤ inner.maxData) fc.fcRecvBuf
  have := decidableSome (fun fc : FcRecvBuf => flow.Ahead ∧ ∀ inner, fc.fcRecvBuf = some inner →
    (flow.autotuneWindow recent).maxDataNext ≤ inner.maxData) stream.recv.fcData
  inferInstanceAs (Decidable (_ → _ ∧ _))

/-- The limit of the stream is covered by the buffer to loop to, and a stream that is not rotated is behind its next
limit once it needed one. -/
structure Covering (stream : InStream) : Prop where
  /-- The buffer to loop to has a limit that is not below the one in force. -/
  covered : stream.recv.Covered
  /-- A stream that is not rotated, and needs a limit or got one before, is not ahead of its next limit. -/
  ahead : stream.recv.fcData = none → stream.almostFull = true ∨ stream.limitSent = true →
    stream.recv.recv.flowControl.Ahead

variable {stream : InStream}

theorem covering_new (maxRxData maxWindow : Nat) : Covering (InStream.new maxRxData maxWindow) := by
  constructor
  · exact fun _ _ none => nomatch none
  · exact fun _ asked => by rcases asked with asked | asked <;> cases asked

/-- A step of the buffer keeps the limit covered, and does not lower it. -/
theorem Covering.advance (covering : stream.Covering) {rot : RotatingRecvBuf} (advances : stream.recv.Advances rot)
    {stream' : InStream} (recv : stream'.recv = rot)
    (asked : stream'.almostFull = true ∨ stream'.limitSent = true →
      (stream.almostFull = true ∨ stream.limitSent = true) ∨ rot.recv.flowControl.Ahead) :
    stream'.Covering ∧ stream.recv.recv.maxData ≤ stream'.recv.recv.maxData := by
  -- The buffer says that the limit grows; what is consumed only moves the next limit ahead.
  obtain ⟨covered, grows⟩ := advances.covered covering.covered
  refine ⟨⟨?_, ?_⟩, ?_⟩
  · rw [recv]
    exact covered
  · intro none asks
    rw [recv] at none ⊢
    obtain ⟨plain, count, same⟩ := advances.plain none
    rcases asked asks with before | ahead
    · rw [same]
      exact (covering.ahead plain before).addConsumed count
    · exact ahead
  · rw [recv]
    exact grows

/-- A new limit that may be raised keeps the limit covered, and does not lower it. -/
theorem Covering.limited (covering : stream.Covering) {recent : Bool} (fits : Bool) (asked : stream.almostFull = true)
    (raisable : stream.Raisable recent) :
    (Inbound.limited stream recent fits).Covering ∧
      stream.recv.recv.maxData ≤ (Inbound.limited stream recent fits).recv.recv.maxData := by
  obtain ⟨tunable, rotated⟩ := raisable asked
  have ahead : stream.recv.recv.flowControl.Ahead := by
    cases held : stream.recv.fcData with
    | none => exact covering.ahead held (.inl asked)
    | some fc => exact (rotated fc held).1
  have tuned : (stream.recv.recv.flowControl.autotuneWindow recent).Ahead := ahead.autotune_iff.mpr tunable
  have same := stream.recv.recv.flowControl.autotuneWindow_maxData recent
  cases fits with
  | false =>
    -- The frame does not fit, and only the window was tuned.
    refine ⟨⟨?_, fun _ _ => tuned⟩, Nat.le_of_eq same.symm⟩
    intro fc inner held has
    exact Nat.le_trans (Nat.le_of_eq same) (covering.covered fc inner held has)
  | true =>
    refine ⟨⟨?_, fun _ _ => FlowControl.ahead_updateMaxData _⟩, ?_⟩
    · intro fc inner held has
      exact (rotated fc held).2 inner has
    · exact Nat.le_trans (Nat.le_of_eq same.symm) tuned

end InStream

namespace Inbound

/-- A new limit of the connection or of a stream is not below the old one. -/
def Raises (self : Inbound) : InboundEvent → Prop
  | .sendMaxStreamData id recent _ _ => ∀ stream, self.get id = some stream → stream.Raisable recent
  | .sendMaxData recent _ => self.almostFull = true → self.maxRxData < self.flowControl.maxDataNext →
    self.flowControl.Tunable recent
  | _ => True

instance (self : Inbound) : (event : InboundEvent) → Decidable (self.Raises event)
  | .sendMaxStreamData _ recent _ _ => decidableSome (InStream.Raisable · recent) _
  | .sendMaxData _ _ => inferInstanceAs (Decidable (_ → _ → _))
  | .opened _ | .stream _ _ _ _ _ | .resetStream _ _ _ _ | .streamRecv _ _ | .streamShutdown _ | .fcSetOffsetAt _ _
  | .sendDone _ | .maxStreamDataLost _ | .maxDataLost => isTrue trivial

/-- The limit of a stream, which a stream that does not exist yet starts with. -/
def streamLimit (self : Inbound) (id : Nat) : Nat :=
  match self.streams.find? id with
  | some stream => stream.recv.recv.maxData
  | none => self.initialMaxStreamData id

/-- No limit of a connection is above the one it has later. -/
structure LimitsGrow (early late : Inbound) : Prop where
  /-- The limit of the connection does not fall. -/
  conn : early.maxRxData ≤ late.maxRxData
  streams : ∀ id, early.streamLimit id ≤ late.streamLimit id

/-- Every stream has its limit covered. -/
def Covering (self : Inbound) : Prop := ∀ id stream, self.streams.find? id = some stream → stream.Covering

variable {self : Inbound} {event : InboundEvent}

theorem LimitsGrow.trans {mid late : Inbound} (first : LimitsGrow self mid) (second : LimitsGrow mid late) :
    LimitsGrow self late :=
  ⟨Nat.le_trans first.conn second.conn, fun id => Nat.le_trans (first.streams id) (second.streams id)⟩

theorem streamLimit_same {after : Inbound} (config : after.config = self.config)
    (streams : after.streams = self.streams) (id : Nat) : after.streamLimit id = self.streamLimit id := by
  unfold streamLimit initialMaxStreamData
  rw [streams, config]

variable {id : Nat} {stream : InStream} {refused : Bool}

theorem streamLimit_of_was
    (was : self.streams.find? id = some stream ∨ (self.streams.find? id = none ∧ stream = self.newStream id)) :
    self.streamLimit id = stream.recv.recv.maxData := by
  unfold streamLimit
  obtain found | ⟨new, rfl⟩ := was
  · rw [found]
  · rw [new]
    rfl

/-- An event that raises the limits keeps the limit of the stream it changes covered, and does not lower it. -/
theorem Change.covering {charge credit : Nat} {stream' : InStream}
    (change : Change self event id stream stream' charge credit) (raises : self.Raises event)
    (covering : stream.Covering) : stream'.Covering ∧ stream.recv.recv.maxData ≤ stream'.recv.recv.maxData := by
  have refl := (RotatingRecvBuf.Steady.refl stream.recv).advances
  cases change with
  | opened new => exact ⟨covering, Nat.le_refl _⟩
  | @written _ off _ data fin stream rot held done =>
    have flows : RotatingRecvBuf.Flows stream.recv _ (stream.recv.write (RangeBuf.fromSlice data off fin)) :=
      RotatingRecvBuf.write_flows (RangeBuf.wf_fromSlice data off fin)
    rw [done] at flows
    exact covering.advance flows.1 rfl .inl
  | @reset _ errorCode finalSize delta _ stream rot held done =>
    obtain ⟨advances, -⟩ := stream.recv.reset_flows errorCode finalSize
    rw [done] at advances
    exact covering.advance advances rfl .inl
  | @read _ outLen stream rot out fin full held done due =>
    have advances := stream.recv.emit_advances outLen
    rw [done] at advances
    refine covering.advance advances rfl fun asks => ?_
    -- The stream needs a limit that it did not need before because an update is due.
    cases full with
    | true =>
      right
      unfold RotatingRecvBuf.almostFull at due
      split at due
      · cases due
      · exact FlowControl.ahead_of_due due
    | false =>
      left
      simpa [wasRead] using asks
  | @readFails _ outLen stream rot error held done =>
    have advances := stream.recv.emit_advances outLen
    rw [done] at advances
    exact covering.advance advances rfl .inl
  | shutDown held done => exact covering.advance (RotatingRecvBuf.shutDown_advances done) rfl .inl
  | rotated held => exact covering.advance (RotatingRecvBuf.fcSetOffsetAt_advances _ _) rfl .inl
  | sent held => exact covering.advance refl rfl .inl
  | limited held asked => exact covering.limited _ asked (raises _ held)
  | forgotten held =>
    refine covering.advance refl rfl fun asks => .inl ?_
    rcases asks with none | sent
    · cases none
    · exact .inr sent
  | limitLost held sent => exact covering.advance refl rfl fun _ => .inl (.inr sent)

theorem sendMaxData_grows {recent : Bool} (fits : Bool) (raises : self.Raises (.sendMaxData recent fits)) :
    self.maxRxData ≤ (self.sendMaxData recent fits).maxRxData := by
  rw [maxRxData_sendMaxData]
  split
  · rename_i committed
    obtain ⟨full, behind, -⟩ := committed
    -- A limit that is behind the next one of the window grows unless the window is tuned down.
    have ahead : self.flowControl.Ahead := Nat.le_of_lt behind
    have tuned := ahead.autotune_iff.mpr (raises full behind)
    have same := self.flowControl.autotuneWindow_maxData recent
    exact Nat.le_trans (Nat.le_of_eq same.symm) tuned
  · exact Nat.le_refl _

/-- An accepted event that raises the limits keeps every limit covered, and lowers none. -/
theorem Covering.next (covering : self.Covering) (accepted : self.Accepted event) (raises : self.Raises event) :
    (self.next event).Covering ∧ LimitsGrow self (self.next event) := by
  obtain ⟨-, turned⟩ := accepted.turned
  cases turned with
  | still idle closed config streams rxData consumed limit =>
    refine ⟨?_, Nat.le_of_eq limit.symm, fun id => Nat.le_of_eq (streamLimit_same config streams id).symm⟩
    unfold Covering
    rw [streams]
    exact covering
  | @committed recent fits sent done =>
    obtain ⟨streams, -, -, config, -⟩ := self.sendMaxData_keeps recent fits
    rw [sent] at raises
    rw [done]
    refine ⟨?_, sendMaxData_grows fits raises, fun id => Nat.le_of_eq (streamLimit_same config streams id).symm⟩
    unfold Covering
    rw [streams]
    exact covering
  | @changed id charge credit stream stream' collected change closed config streams rxData consumed limit room =>
    have before : stream.Covering := each_of_was covering InStream.covering_new change.was
    have held : self.streamLimit id = stream.recv.recv.maxData := streamLimit_of_was change.was
    -- The buffer of the stream that changes covers its limit, and does not lower it.
    obtain ⟨kept, grows⟩ := change.covering raises before
    refine ⟨?_, Nat.le_of_eq limit.symm, ?_⟩
    · unfold Covering
      rw [streams]
      exact OrdMap.each_insert ⟨kept.covered, kept.ahead⟩ covering
    · intro other
      have initial : (self.next event).initialMaxStreamData other = self.initialMaxStreamData other := by
        unfold initialMaxStreamData
        rw [config]
      by_cases same : other = id
      · rw [same, held]
        unfold streamLimit
        rw [streams, OrdMap.find?_insert, if_pos rfl]
        exact grows
      · unfold streamLimit
        rw [streams, OrdMap.find?_insert, if_neg same, initial]

/-- Along a run whose limits are raised, no limit falls. -/
theorem Covering.run (covering : self.Covering) {events : List InboundEvent}
    (accepted : Runs.Along Inbound.next Accepted self events) (raises : Runs.Along Inbound.next Raises self events) :
    (self.run events).Covering ∧ LimitsGrow self (self.run events) := by
  -- What the start promised is the invariant.
  have step : ∀ (conn : Inbound) (event : InboundEvent), conn.Covering ∧ LimitsGrow self conn →
      conn.Accepted event ∧ conn.Raises event → (conn.next event).Covering ∧ LimitsGrow self (conn.next event) := by
    intro conn event held met
    obtain ⟨covering, grows⟩ := held.1.next met.1 met.2
    exact ⟨covering, held.2.trans grows⟩
  exact (accepted.and raises).keeps step ⟨covering, Nat.le_refl _, fun _ => Nat.le_refl _⟩

/-- A frame respects the limits that were advertised: its stream's in one state, and the connection's in another, where
the peer counts the largest offset of every stream. -/
def Respects (told granted self : Inbound) : InboundEvent → Prop
  | .stream id refused data off _ => off + data.length ≤ told.streamLimit id ∧
    ∀ stream, self.getOrCreateStream id refused = .ok stream →
      self.streams.total InStream.largest + (off + data.length - stream.largest) ≤ granted.maxRxData
  | .resetStream id refused _ finalSize => finalSize ≤ told.streamLimit id ∧
    ∀ stream, self.getOrCreateStream id refused = .ok stream →
      self.streams.total InStream.largest + (finalSize - stream.largest) ≤ granted.maxRxData
  | _ => True

theorem consume_flow (self : Inbound) (count : Nat) : self.consume count ≠ .error .flowControl := by
  unfold consume
  split <;> simp

/-- Reading breaks no limit. -/
theorem streamRecv_flow (self : Inbound) (id outLen : Nat) : self.streamRecv id outLen ≠ .error .flowControl := by
  -- Every way out is another error, save the credit for what was read.
  unfold streamRecv
  split
  · simp
  split
  · simp
  split
  · simp
  split
  · simp
  split
  · simp
  · exact consume_flow _ _

theorem Covering.ofFrame (covering : self.Covering) (held : self.getOrCreateStream id refused = .ok stream) :
    stream.Covering ∧ self.streamLimit id = stream.recv.recv.maxData := by
  have was := find?_of_getOrCreate held
  exact ⟨each_of_was covering InStream.covering_new was, streamLimit_of_was was⟩

theorem getOrCreateStream_flow (self : Inbound) (id : Nat) (refused : Bool) :
    self.getOrCreateStream id refused ≠ .error .flowControl := by
  unfold getOrCreateStream
  split
  · split <;> simp
  split
  · simp
  split <;> simp

/-- A STREAM frame within the limits breaks none. -/
theorem Covering.onStream_flow (covering : self.Covering) {buf : RangeBuf} (wf : buf.Wf)
    (stream_ : buf.maxOff ≤ self.streamLimit id) (conn : ∀ stream, self.getOrCreateStream id refused = .ok stream →
      self.rxData + (buf.maxOff - stream.recv.recv.maxOff) ≤ self.maxRxData) :
    self.onStream id refused buf ≠ .error .flowControl := by
  unfold onStream
  split
  · simp
  split
  · simp
  split
  · simp
  · rename_i error _ failed
    intro same
    cases same
    exact getOrCreateStream_flow self id refused failed
  rename_i stream held
  obtain ⟨covers, limit⟩ := covering.ofFrame held
  have room := conn stream held
  have flows : RotatingRecvBuf.Flows stream.recv buf.maxOff (stream.recv.write buf) := RotatingRecvBuf.write_flows wf
  -- The buffer is within its limit, so its write is not what fails.
  have flow := flows.2 covers.covered (by omega)
  -- The connection has room for what it charges.
  dsimp only
  rw [if_neg (by omega)]
  split
  · rename_i error rot written_
    rw [written_] at flow
    exact fun same => flow (by cases same; rfl)
  · split
    · exact consume_flow _ _
    · simp

/-- A RESET_STREAM frame within the limits breaks none. -/
theorem Covering.onResetStream_flow (covering : self.Covering) {errorCode finalSize : Nat}
    (stream_ : finalSize ≤ self.streamLimit id) (conn : ∀ stream, self.getOrCreateStream id refused = .ok stream →
      self.rxData + (finalSize - stream.recv.recv.maxOff) ≤ self.maxRxData) :
    self.onResetStream id refused errorCode finalSize ≠ .error .flowControl := by
  unfold onResetStream
  split
  · simp
  split
  · simp
  split
  · simp
  · rename_i error _ failed
    intro same
    cases same
    exact getOrCreateStream_flow self id refused failed
  rename_i stream held
  obtain ⟨covers, limit⟩ := covering.ofFrame held
  have room := conn stream held
  -- The buffer and the connection have room for the final size.
  have flow := (stream.recv.reset_flows errorCode finalSize).2 covers.covered (by omega)
  split
  · rename_i error rot reset_
    rw [reset_] at flow
    exact fun same => flow (by cases same; rfl)
  · rename_i delta rot reset_
    obtain ⟨rfl, -⟩ := RotatingRecvBuf.reset_delta reset_
    rw [if_neg (by omega)]
    simp

/-- A frame that respects the limits of earlier states, and is counted once, breaks no limit. -/
theorem Covering.flow (covering : self.Covering) (charged : self.Charged) (open_ : self.closed = none)
    {told granted : Inbound} (streams : LimitsGrow told self) (conn : LimitsGrow granted self)
    (exact_ : self.Exact event) (respects : Respects told granted self event) :
    (self.next event).closed ≠ some .flowControl := by
  -- Only the two frames can meet a limit; the others never return the error.
  have step : self.step event ≠ .error .flowControl := by
    have limit := conn.conn
    have same := charged.1
    cases event with
    | stream id refused data off fin =>
      obtain ⟨below, peer⟩ := respects
      apply covering.onStream_flow (RangeBuf.wf_fromSlice data off fin)
      · rw [RangeBuf.maxOff_fromSlice]
        exact Nat.le_trans below (streams.streams id)
      · intro stream held
        -- Every frame is counted once, so what the peer may send is what is still free.
        have counted := exact_ stream held
        have within_ := peer stream held
        rw [RangeBuf.maxOff_fromSlice]
        omega
    | resetStream id refused errorCode finalSize =>
      obtain ⟨below, peer⟩ := respects
      apply covering.onResetStream_flow (Nat.le_trans below (streams.streams id))
      intro stream held
      have counted := exact_ stream held
      have within_ := peer stream held
      omega
    | streamRecv id outLen => exact streamRecv_flow self id outLen
    | _ => simp [Inbound.step]
  unfold Inbound.next
  rw [open_]
  split
  · rename_i some_
    cases some_
  split
  · rename_i after done
    rw [(step_turned done).closed, open_]
    simp
  · rename_i error failed
    intro same
    cases same
    exact step failed

theorem covering_start (config : InboundConfig) : (new config).Covering := fun _ _ none => nomatch none

/-- As long as no error is returned and every new limit is raised, no limit falls. If every frame is counted once too,
a frame that respects limits advertised earlier breaks none. -/
theorem limits_grow_of_raises (config : InboundConfig) (events : List InboundEvent)
    (accepted : Runs.Along next Accepted (new config) events) (raises : Runs.Along next Raises (new config) events) :
    (∀ early late, early <+: late → late <+: events → LimitsGrow ((new config).run early) ((new config).run late)) ∧
      (Runs.Along next Exact (new config) events →
        ∀ told granted event, told <+: events → granted <+: events → ((new config).run events).Exact event →
          Respects ((new config).run told) ((new config).run granted) ((new config).run events) event →
          (((new config).run events).next event).closed ≠ some .flowControl) := by
  have grow : ∀ early late, early <+: late → late <+: events →
      LimitsGrow ((new config).run early) ((new config).run late) := by
    rintro early _ ⟨between, rfl⟩ ⟨rest, rfl⟩
    -- The run goes on from the early state, where every limit is covered.
    obtain ⟨accepted, accepted'⟩ := Runs.along_append.mp (Runs.along_append.mp accepted).1
    obtain ⟨raises, raises'⟩ := Runs.along_append.mp (Runs.along_append.mp raises).1
    have covering := ((covering_start config).run accepted raises).1
    have later := (covering.run accepted' raises').2
    have same : ((new config).run early).run between = (new config).run (early ++ between) :=
      (Runs.run_append next (new config) early between).symm
    rw [← same]
    exact later
  refine ⟨grow, fun exact_ told granted event first second counted respects => ?_⟩
  have start : (new config).Charged := ⟨rfl, Nat.zero_le _⟩
  have step : ∀ (conn : Inbound) (event : InboundEvent), conn.Charged → conn.Accepted event ∧ conn.Exact event →
      (conn.next event).Charged := fun _ _ charged met => (charged_next charged met.1).mpr met.2
  have charged : ((new config).run events).Charged := (accepted.and exact_).keeps step start
  have stays : ∀ (conn : Inbound) (event : InboundEvent), conn.closed = none → conn.Accepted event →
      (conn.next event).closed = none := fun _ _ _ open_ => open_
  have open_ : ((new config).run events).closed = none := accepted.keeps stays rfl
  have covering := ((covering_start config).run accepted raises).1
  have whole := List.prefix_refl events
  exact covering.flow charged open_ (grow told events first whole) (grow granted events second whole) counted respects

/-- A stream that is read until it needs a new limit, and a rotated one that loops. -/
def readOn : List InboundEvent :=
  [.stream 0 false [1, 2, 3, 4, 5] 0 false, .streamRecv 0 9, .sendMaxStreamData 0 true true 12, .sendMaxData false true,
    .opened 4, .fcSetOffsetAt 4 2, .stream 4 false [3] 2 true, .streamRecv 4 9, .stream 4 false [1, 2] 0 false,
    .streamRecv 4 9, .maxStreamDataLost 0, .sendMaxStreamData 0 false true 12]

/-- A server whose limits are eight bytes at first, and whose windows may grow. -/
def growingServer : InboundConfig := ⟨true, 8, ⟨8, 8, 8⟩, 1000, 1000⟩

theorem limits_grow_readOn :
    (∀ early late, early <+: late → late <+: readOn →
      LimitsGrow ((new growingServer).run early) ((new growingServer).run late)) ∧
      (Runs.Along next Exact (new growingServer) readOn →
        ∀ told granted event, told <+: readOn → granted <+: readOn → ((new growingServer).run readOn).Exact event →
          Respects ((new growingServer).run told) ((new growingServer).run granted) ((new growingServer).run readOn)
            event →
          (((new growingServer).run readOn).next event).closed ≠ some .flowControl) :=
  limits_grow_of_raises growingServer readOn (by decide) (by decide)

/-- A server whose limits are eight bytes at first, with a maximum window of one byte for a stream. -/
def narrowServer : InboundConfig := ⟨true, 8, ⟨8, 8, 8⟩, 1, 1000⟩

/-- A stream is read twice, and gets a new limit each time. -/
def limitTwice : List InboundEvent :=
  [.stream 0 false [1, 2, 3, 4, 5] 0 false, .streamRecv 0 9, .sendMaxStreamData 0 false true 12,
    .sendMaxData false true, .stream 0 false [6, 7, 8, 9, 10] 5 false, .streamRecv 0 9,
    .sendMaxStreamData 0 true true 12]

/-- The second limit is below the first one, and a frame that respects the first one is a violation. -/
theorem limitTwice_falls :
    Runs.Along next Accepted (new narrowServer) limitTwice ∧
      ((new narrowServer).run (limitTwice.take 3)).streamLimit 0 = 13 ∧
      ((new narrowServer).run limitTwice).streamLimit 0 = 11 ∧
      (((new narrowServer).run limitTwice).next (.stream 0 false [11, 12, 13] 10 false)).closed =
        some .flowControl := by
  decide

end Inbound

end Flexicast
