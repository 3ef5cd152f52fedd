import Flexicast.Credit.Changes

/-! What a connection is charged for a stream it gets back, unless data is left unread when the stream ends. -/

namespace Flexicast

namespace InStream

/-- The receive side is finished: fully read, reset by the peer, or shut down with its final size known. -/
def Finished (stream : InStream) : Prop :=
  stream.recv.recv.isFin = true ∨ stream.recv.recv.error.isSome = true ∨
    (stream.recv.recv.drain = true ∧ stream.recv.recv.finOff.isSome = true)

instance (stream : InStream) : Decidable stream.Finished := inferInstanceAs (Decidable (_ ∨ _))

/-- The offset of a frame is recorded, unless the stream is drained or was reset: the frame has data, is final, or does
not pass what was received. -/
def Records (stream : InStream) (data : Bytes) (off : Nat) (fin : Bool) : Prop :=
  stream.recv.recv.drain = false → stream.recv.recv.error = none →
    data ≠ [] ∨ fin = true ∨ off ≤ stream.recv.recv.maxOff

/-- A first reset finds everything up to the final size read, or received on a stream that is drained. -/
def ReadUpTo (stream : InStream) (finalSize : Nat) : Prop :=
  stream.recv.recv.error = none →
    finalSize = if stream.recv.recv.drain then stream.recv.recv.maxOff else stream.recv.recv.offFront

/-- A first shutdown finds everything that was received read. -/
def ReadAll (stream : InStream) : Prop :=
  stream.recv.recv.drain = false → stream.recv.recv.offFront = stream.recv.recv.maxOff

instance (data : Bytes) (off : Nat) (fin : Bool) : DecidablePred (Records · data off fin) :=
  fun _ => inferInstanceAs (Decidable (_ → _ → _))

instance (finalSize : Nat) : DecidablePred (ReadUpTo · finalSize) := fun _ => inferInstanceAs (Decidable (_ → _))

instance : DecidablePred ReadAll := fun _ => inferInstanceAs (Decidable (_ → _))

/-- The accounts of a stream while it is read, drained or reset. -/
structure Balanced (stream : InStream) : Prop where
  plain : stream.recv.fcData = none
  bounded : stream.recv.recv.Bounded
  /-- A stream that is read is charged up to what was received, and credited up to what was read. -/
  reading : stream.recv.recv.error = none → stream.recv.recv.drain = false →
    stream.credited = stream.recv.recv.off ∧ stream.charged = stream.recv.recv.len ∧
      ∀ finOff, stream.recv.recv.finOff = some finOff → finOff = stream.recv.recv.len
  /-- A stream that is drained has nothing left to credit, and nothing left to read. -/
  drained : stream.recv.recv.error = none → stream.recv.recv.drain = true →
    stream.credited = stream.charged ∧ stream.recv.recv.data = OrdMap.empty
  /-- A stream that was reset has nothing left to credit, and receives nothing more. -/
  reset : stream.recv.recv.error.isSome = true → stream.credited = stream.charged ∧
    ∃ finOff, stream.recv.recv.finOff = some finOff ∧ finOff ≤ stream.recv.recv.len

variable {stream : InStream}

theorem balanced_new (maxRxData maxWindow : Nat) : Balanced (InStream.new maxRxData maxWindow) where
  plain := rfl
  bounded := RecvBuf.bounded_new _ _
  reading := fun _ _ => ⟨rfl, rfl, fun _ none => nomatch none⟩
  drained := fun _ drained => nomatch drained
  reset := fun reset => nomatch reset

theorem Balanced.conserved (balanced : stream.Balanced) (finished : stream.Finished) :
    stream.credited = stream.charged := by
  cases clean : stream.recv.recv.error with
  | some code => exact (balanced.reset (by rw [clean]; rfl)).1
  | none =>
    cases drains : stream.recv.recv.drain with
    | true => exact (balanced.drained clean drains).1
    | false =>
      -- Neither reset nor drained, the stream was read up to its final offset.
      obtain ⟨credited, charged, final⟩ := balanced.reading clean drains
      rcases finished with read | reset | ⟨drained, -⟩
      · have known : stream.recv.recv.finOff = some stream.recv.recv.off := by
          simpa [RecvBuf.isFin] using read
        rw [credited, charged]
        exact final _ known
      · simp [clean] at reset
      · simp [drains] at drained

/-- The accounts and the offsets of a stream decide whether it is balanced. -/
theorem Balanced.congr (balanced : stream.Balanced) {stream' : InStream} (plain : stream'.recv.fcData = none)
    (data : stream'.recv.recv.data = stream.recv.recv.data) (off : stream'.recv.recv.off = stream.recv.recv.off)
    (len : stream'.recv.recv.len = stream.recv.recv.len) (finOff : stream'.recv.recv.finOff = stream.recv.recv.finOff)
    (error : stream'.recv.recv.error = stream.recv.recv.error)
    (drain : stream'.recv.recv.drain = stream.recv.recv.drain) (charged : stream'.charged = stream.charged)
    (credited : stream'.credited = stream.credited) : stream'.Balanced := by
  -- Each clause speaks of the offsets and the accounts only.
  constructor
  · exact plain
  · constructor
    · unfold RecvBuf.Holding
      rw [data, len]
      exact balanced.bounded.held
    · rw [off, len]
      exact balanced.bounded.read
  · rw [error, drain, charged, credited, off, len, finOff]
    exact balanced.reading
  · rw [error, drain, charged, credited, data]
    exact balanced.drained
  · rw [error, charged, credited, finOff, len]
    exact balanced.reset

variable {rot : RotatingRecvBuf}

/-- A frame that is recorded keeps the accounts balanced. -/
theorem Balanced.written (balanced : stream.Balanced) {data : Bytes} {off : Nat} {fin : Bool}
    (records : stream.Records data off fin)
    (done : stream.recv.write (RangeBuf.fromSlice data off fin) = (.ok (), rot)) :
    (Inbound.written stream rot (off + data.length) (off + data.length - stream.recv.recv.maxOff)).Balanced := by
  obtain ⟨after, written_, rfl⟩ := RotatingRecvBuf.write_ok_plain balanced.plain done
  have wrote := RecvBuf.write_wrote (RangeBuf.wf_fromSlice _ _ _) written_
  have grows := wrote.grows
  have keeps := wrote.keeps
  have inside := wrote.inside
  have same := wrote.same
  have finOff : after.finOff = if fin then some (off + data.length) else stream.recv.recv.finOff := by
    have set := wrote.finOff
    rwa [RangeBuf.maxOff_fromSlice] at set
  have top : stream.recv.recv.maxOff = stream.recv.recv.len := rfl
  rw [RangeBuf.maxOff_fromSlice] at same
  simp only [RangeBuf.maxOff_fromSlice] at inside
  constructor
  · rfl
  · exact wrote.bounded balanced.bounded
  · intro clean buffers
    simp only [Inbound.written] at clean buffers ⊢
    rw [keeps.error] at clean
    rw [keeps.drain] at buffers
    obtain ⟨credited, charged, final⟩ := balanced.reading clean buffers
    -- What is charged is what the largest offset grows by.
    obtain ⟨len, ends⟩ := RecvBuf.write_records balanced.bounded final (records buffers clean) written_
    refine ⟨?_, ?_, ends⟩
    · rw [buffers, keeps.off]
      simpa using credited
    · omega
  · intro clean drains
    simp only [Inbound.written] at clean drains ⊢
    rw [keeps.error] at clean
    rw [keeps.drain] at drains
    obtain ⟨credited, none⟩ := balanced.drained clean drains
    rw [drains, if_pos rfl, credited, keeps.data drains]
    exact ⟨rfl, none⟩
  · intro reset
    simp only [Inbound.written] at reset ⊢
    rw [keeps.error] at reset
    obtain ⟨credited, end_, known, below⟩ := balanced.reset reset
    -- The final size was received, so nothing is charged.
    have short := inside end_ known
    have nothing : off + data.length - stream.recv.recv.maxOff = 0 := by omega
    refine ⟨?_, end_, ?_, by omega⟩
    · rw [nothing, ite_self]
      exact credited
    · rw [finOff]
      cases fin with
      | true => rw [same rfl end_ known, if_pos rfl]
      | false => exact known

/-- A reset that finds everything read keeps the accounts balanced. -/
theorem Balanced.wasReset (balanced : stream.Balanced) {errorCode finalSize delta : Nat}
    (read : stream.ReadUpTo finalSize) (done : stream.recv.reset errorCode finalSize = (.ok delta, rot)) :
    (Inbound.wasReset stream rot finalSize delta).Balanced := by
  obtain ⟨after, reset, rfl⟩ := RotatingRecvBuf.reset_ok_plain balanced.plain done
  have resets := RecvBuf.reset_resetTo reset
  have size := resets.size
  cases clean : stream.recv.recv.error with
  | some code =>
    -- A stream that was reset before has received everything.
    have again : stream.recv.recv.error.isSome = true := by
      rw [clean]
      rfl
    obtain ⟨credited, end_, known, below⟩ := balanced.reset again
    have same := resets.known end_ known
    have nothing : delta = 0 := by
      rw [resets.delta]
      omega
    rw [resets.again again, nothing, ← RotatingRecvBuf.eq_plain balanced.plain]
    exact balanced.congr balanced.plain rfl rfl rfl rfl rfl rfl rfl rfl
  | none =>
    obtain ⟨reset, off, finOff, held⟩ := resets.first clean
    have grows := resets.grows
    have settled : stream.recv.recv.len = finalSize ∧ stream.credited = stream.charged := by
      have upTo := read clean
      cases drains : stream.recv.recv.drain with
      | true =>
        rw [drains, if_pos rfl] at upTo
        exact ⟨upTo.symm, (balanced.drained clean drains).1⟩
      | false =>
        obtain ⟨credited, charged, -⟩ := balanced.reading clean drains
        have front := balanced.bounded.read
        rw [drains] at upTo
        have upTo : finalSize = stream.recv.recv.off := upTo
        exact ⟨by omega, by omega⟩
    obtain ⟨len, credited⟩ := settled
    have nothing : delta = 0 := by
      rw [resets.delta]
      omega
    have isReset : (Inbound.wasReset stream ⟨after, none⟩ finalSize delta).recv.recv.error.isSome = true := reset
    constructor
    · rfl
    · refine ⟨held, ?_⟩
      show after.off ≤ after.len
      omega
    · intro unset
      rw [unset] at isReset
      cases isReset
    · intro unset
      rw [unset] at isReset
      cases isReset
    · intro _
      refine ⟨?_, finalSize, finOff, ?_⟩
      · rw [nothing]
        exact credited
      · show finalSize ≤ after.len
        omega

/-- A read keeps the accounts balanced. -/
theorem Balanced.wasRead (balanced : stream.Balanced) {outLen : Nat} {out : Bytes} {fin full : Bool}
    (done : stream.recv.emit outLen = (.ok (out, fin), rot)) :
    (Inbound.wasRead stream rot out.length full).Balanced := by
  obtain ⟨after, emitted, rfl⟩ := RotatingRecvBuf.emit_eq_plain balanced.plain done
  obtain ⟨clean, reads⟩ := RecvBuf.emit_reads balanced.bounded emitted
  have unset : (Inbound.wasRead stream ⟨after, none⟩ out.length full).recv.recv.error = none := reads.error.trans clean
  constructor
  · rfl
  · exact reads.bounded
  · intro _ buffers
    have buffers : after.drain = false := buffers
    rw [reads.drain] at buffers
    obtain ⟨credited, charged, final⟩ := balanced.reading clean buffers
    simp only [Inbound.wasRead]
    rw [reads.off, reads.len, reads.finOff, credited]
    exact ⟨rfl, charged, final⟩
  · intro _ drains
    have drains : after.drain = true := drains
    rw [reads.drain] at drains
    -- A drained stream holds nothing that could be read.
    obtain ⟨-, none⟩ := balanced.drained clean drains
    have unready : stream.recv.recv.ready = false := by
      unfold RecvBuf.ready
      rw [none]
      rfl
    unfold RecvBuf.emit at emitted
    rw [if_pos unready] at emitted
    cases emitted
  · intro reset
    rw [unset] at reset
    cases reset

/-- A read that fails keeps the accounts balanced. -/
theorem Balanced.readFails (balanced : stream.Balanced) {outLen : Nat} {error : StreamError}
    (done : stream.recv.emit outLen = (.error error, rot)) : Balanced { stream with recv := rot } := by
  obtain ⟨after, emitted, rfl⟩ := RotatingRecvBuf.emit_eq_plain balanced.plain done
  obtain same | ⟨reset, same⟩ := RecvBuf.emit_fails emitted
  · rw [same]
    exact balanced.congr rfl rfl rfl rfl rfl rfl rfl rfl rfl
  · -- Only the chunks of a stream that was reset are dropped.
    rw [same]
    have isReset : ∀ {claim : Prop}, stream.recv.recv.error = none → claim := by
      intro claim clean
      rw [clean] at reset
      cases reset
    constructor
    · rfl
    · exact ⟨fun _ member => (nomatch member), balanced.bounded.read⟩
    · exact fun clean => isReset clean
    · exact fun clean => isReset clean
    · exact fun _ => balanced.reset reset

/-- A shutdown that finds everything read keeps the accounts balanced. -/
theorem Balanced.shutDown (balanced : stream.Balanced) (read : stream.ReadAll) (done : stream.recv.shutDown = .ok rot) :
    Balanced { stream with recv := rot } := by
  unfold RotatingRecvBuf.shutDown at done
  cases shut : stream.recv.recv.shutDown with
  | error error =>
    rw [shut] at done
    cases done
  | ok after =>
    rw [shut] at done
    cases done
    obtain ⟨buffers, bounded, same⟩ := RecvBuf.shutDown_bounded shut
    -- Everything received was read, so nothing that is dropped was charged and not credited.
    have all : stream.recv.recv.off = stream.recv.recv.len := read buffers
    subst same
    constructor
    · exact balanced.plain
    · exact bounded
    · exact fun _ buffers => nomatch buffers
    · intro clean _
      obtain ⟨credited, charged, -⟩ := balanced.reading clean buffers
      refine ⟨?_, rfl⟩
      show stream.credited = stream.charged
      omega
    · exact fun reset => balanced.reset reset

end InStream

namespace Inbound

/-- Every stream that is finished was credited what it was charged, and the accounts of the connection are the sums of
those of its streams. -/
def Conserved (self : Inbound) : Prop :=
  (∀ id stream, self.streams.find? id = some stream → stream.Finished → stream.credited = stream.charged) ∧
    self.rxData = self.streams.total InStream.charged ∧
    self.flowControl.consumed = self.streams.total InStream.credited

instance (self : Inbound) : Decidable self.Conserved :=
  have := OrdMap.decidableAll (fun stream : InStream => stream.Finished → stream.credited = stream.charged) self.streams
  inferInstanceAs (Decidable (_ ∧ _))

/-- No data is lost unread: a frame is recorded, a reset or a shutdown finds all read, and no stream is rotated. -/
def Settled (self : Inbound) : InboundEvent → Prop
  | .stream id refused data off fin => ∀ stream, self.getOrCreateStream id refused = .ok stream →
    stream.Records data off fin
  | .resetStream id refused _ finalSize => ∀ stream, self.getOrCreateStream id refused = .ok stream →
    stream.ReadUpTo finalSize
  | .streamShutdown id => ∀ stream, self.get id = some stream → stream.ReadAll
  | .fcSetOffsetAt id _ => self.get id = none
  | _ => True

instance (self : Inbound) : (event : InboundEvent) → Decidable (self.Settled event)
  | .stream _ _ data off fin => decidableOk (InStream.Records · data off fin) _
  | .resetStream _ _ _ finalSize => decidableOk (InStream.ReadUpTo · finalSize) _
  | .streamShutdown _ => decidableSome InStream.ReadAll _
  | .fcSetOffsetAt id _ => inferInstanceAs (Decidable (self.get id = none))
  | .opened _ | .streamRecv _ _ | .sendDone _ | .sendMaxStreamData _ _ _ _ | .sendMaxData _ _
  | .maxStreamDataLost _ | .maxDataLost => isTrue trivial

variable {self : Inbound} {event : InboundEvent}

variable {id charge credit : Nat} {stream stream' : InStream}

theorem Change.accounts (change : Change self event id stream stream' charge credit) :
    stream'.charged = stream.charged + charge ∧ stream'.credited = stream.credited + credit := by
  cases change with
  | @limited _ _ _ fits _ held asked => cases fits <;> exact ⟨rfl, rfl⟩
  | _ => exact ⟨rfl, rfl⟩

theorem Change.balanced (change : Change self event id stream stream' charge credit) (settled : self.Settled event)
    (balanced : stream.Balanced) : stream'.Balanced := by
  cases change with
  | opened new => exact balanced
  | written held done => exact balanced.written (settled _ held) done
  | reset held done => exact balanced.wasReset (settled _ held) done
  | read held done due => exact balanced.wasRead done
  | readFails held done => exact balanced.readFails done
  | shutDown held done => exact balanced.shutDown (settled _ held) done
  | rotated held =>
    rw [show self.get _ = none from settled] at held
    cases held
  | @limited _ _ _ fits _ held asked =>
    -- Only the flow controller of the stream changes.
    cases fits <;> exact balanced.congr balanced.plain rfl rfl rfl rfl rfl rfl rfl rfl
  | sent held | forgotten held | limitLost held sent =>
    exact balanced.congr balanced.plain rfl rfl rfl rfl rfl rfl rfl rfl

/-- Every stream has balanced accounts, and the accounts of the connection are the sums of those of its streams. -/
structure Balanced (conn : Inbound) : Prop where
  each : ∀ id stream, conn.streams.find? id = some stream → stream.Balanced
  charged : conn.rxData = conn.streams.total InStream.charged
  /-- The data consumed is what the streams are credited. -/
  credited : conn.flowControl.consumed = conn.streams.total InStream.credited

theorem Balanced.conserved (balanced : self.Balanced) : self.Conserved :=
  ⟨fun id stream found => (balanced.each id stream found).conserved, balanced.charged, balanced.credited⟩

/-- Nothing is balanced anew when the streams and the accounts stay. -/
theorem Balanced.same (balanced : self.Balanced) {after : Inbound} (streams : after.streams = self.streams)
    (rxData : after.rxData = self.rxData) (consumed : after.flowControl.consumed = self.flowControl.consumed) :
    after.Balanced := by
  -- The sums are over the same streams.
  constructor
  · rw [streams]
    exact balanced.each
  · rw [rxData, streams]
    exact balanced.charged
  · rw [consumed, streams]
    exact balanced.credited

/-- An accepted event that leaves no data unread keeps the accounts balanced. -/
theorem Balanced.next (balanced : self.Balanced) (accepted : self.Accepted event) (settled : self.Settled event) :
    (self.next event).Balanced := by
  obtain ⟨-, turned⟩ := accepted.turned
  cases turned with
  | still idle closed config streams rxData consumed limit => exact balanced.same streams rxData consumed
  | committed sent done =>
    obtain ⟨streams, rxData, consumed, -, -⟩ := self.sendMaxData_keeps _ _
    rw [done]
    exact balanced.same streams rxData consumed
  | @changed id charge credit stream stream' collected change closed config streams rxData consumed limit room =>
    obtain ⟨charges, credits⟩ := change.accounts
    have charged := balanced.charged
    have credited := balanced.credited
    have before : stream.Balanced := each_of_was balanced.each InStream.balanced_new change.was
    have kept := change.balanced settled before
    constructor
    · rw [streams]
      exact OrdMap.each_insert (kept.congr kept.plain rfl rfl rfl rfl rfl rfl rfl rfl) balanced.each
    · -- The sums move with the charge and the credit of the stream.
      have total := change.total InStream.charged rfl collected
      simp only at total
      rw [rxData, streams]
      omega
    · have total := change.total InStream.credited rfl collected
      simp only at total
      rw [consumed, streams]
      omega

/-- As long as no error is returned and no data is left unread, what a finished stream was charged was credited. -/
theorem conserved_of_settled (config : InboundConfig) (events : List InboundEvent)
    (accepted : Runs.Along next Accepted (new config) events)
    (settled : Runs.Along next Settled (new config) events)
    (done : List InboundEvent) (first : done <+: events) :
    ((new config).run done).Conserved := by
  -- Balanced accounts are the invariant, up to any point of the run.
  obtain ⟨rest, rfl⟩ := first
  have along := (Runs.along_append.mp accepted).1.and (Runs.along_append.mp settled).1
  have start : (new config).Balanced :=
    ⟨fun _ _ none => (nomatch none), rfl, rfl⟩
  have balanced : ((new config).run done).Balanced :=
    along.keeps (fun _ _ balanced met => balanced.next met.1 met.2) start
  exact balanced.conserved

/-- A stream that is read before it ends, one that is drained once all was read, and an empty one that is reset. -/
def readFirst : List InboundEvent :=
  [.stream 0 false [3, 4] 2 true, .stream 0 false [1, 2] 0 false, .streamRecv 0 9,
    .stream 4 false [1] 0 false, .streamRecv 4 9, .streamShutdown 4, .stream 4 false [2, 3] 1 true,
    .resetStream 8 false 7 0]

theorem conserved_readFirst : ((new smallServer).run readFirst).Conserved :=
  conserved_of_settled smallServer readFirst (by decide) (by decide) readFirst
    (List.prefix_refl _)

/-- A chunk arrives, and the stream is reset before it is read. -/
def resetUnread : List InboundEvent := [.stream 0 false [1, 2] 0 false, .resetStream 0 false 7 2]

/-- Data that was not read when the stream was reset is charged for ever. -/
theorem resetUnread_not_credited :
    Runs.Along next Accepted (new smallServer) resetUnread ∧
      ((new smallServer).run resetUnread).rxData = 2 ∧
      ((new smallServer).run resetUnread).flowControl.consumed = 0 ∧
      ¬ ((new smallServer).run resetUnread).Conserved := by
  decide

end Inbound

end Flexicast
