import Flexicast.Stream.Transfer

/-! What both ends of a stream promise: what is read is what was written, and nothing that was written is lost. -/

namespace Flexicast

namespace Transfer

variable {stream : Bytes} {transfer : Transfer}

section Reading

/-- The receiver with the history that its promises speak of, its reports aside. -/
def view (transfer : Transfer) : Receiver :=
  ⟨transfer.recv, transfer.out, fun x => transfer.arrived.any fun segment =>
    decide (segment.off ≤ x ∧ x < segment.off + segment.data.length), transfer.recv.finOff.isSome, true, false⟩

theorem Joined.view (joined : Joined stream transfer) : Receiver.Inv stream transfer.view := by
  have receiving := joined.receiving
  refine ⟨receiving.shape, receiving.out, fun x => ?_, ?_, fun _ _ => .inl rfl, rfl⟩
  · rw [Transfer.view, receiving.has]
    simp only [List.any_eq_true, decide_eq_true_eq]
    rfl
  · show transfer.recv.finOff = if transfer.recv.finOff.isSome = true then _ else _
    cases known : transfer.recv.finOff with
    | none => rfl
    | some finOff => exact congrArg some (receiving.shape.final finOff known)

theorem Joined.view_read (joined : Joined stream transfer) (outLen : Nat) :
    (transfer.next (.read outLen)).view = Receiver.next stream transfer.view (.emit outLen) := by
  have receiving := joined.receiving
  rcases receiving.shape.emit outLen with ⟨_, ran⟩ | ⟨_, bytes, after, ran, emits⟩
  · simp only [Transfer.next, Receiver.next, Transfer.view, ran]
  · simp only [Transfer.next, Receiver.next, Transfer.view, ran, emits.finOff, Bool.true_or]

/-- Reads in turn are reads of the receiver alone. -/
theorem Joined.reads (sizes : List Nat) : ∀ {transfer : Transfer}, Joined stream transfer →
    (Runs.run Transfer.next transfer (sizes.map .read)).out =
      (Runs.run (Receiver.next stream) transfer.view (sizes.map .emit)).out := by
  induction sizes with
  | nil => exact fun _ => rfl
  | cons size rest ih =>
    intro transfer joined
    -- A read leaves the sender alone, so the next one meets the same stream.
    have read : Joined stream (transfer.next (.read size)) := by
      have same : (transfer.next (.read size)).sender = transfer.sender := by
        simp only [Transfer.next]
        split <;> rfl
      refine joined.next trivial ?_ ?_
      · rw [same]
        exact joined.sending.begins
      · rw [same]
        exact joined.sending.final
    rw [List.map_cons, List.map_cons, Runs.run_cons, Runs.run_cons, ih read, joined.view_read]

theorem Joined.readAll (joined : Joined stream transfer)
    (arrived : ∀ x, x < stream.length → transfer.view.received x = true) (sizes : List Nat)
    (positive : ∀ size ∈ sizes, 0 < size) (enough : stream.length ≤ sizes.length) :
    (Runs.run Transfer.next transfer (sizes.map .read)).out = stream := by
  -- The promises of the receiver alone speak of its view of the transfer.
  have promises := joined.view.reassembled
  have kept : Receiver.Inv stream (Runs.run (Receiver.next stream) transfer.view (sizes.map .emit)) := by
    refine Runs.Along.keeps Receiver.Inv.next joined.view (Runs.along_of_mem fun event member receiver => ?_)
    obtain ⟨size, -, rfl⟩ := List.mem_map.mp member
    exact ⟨trivial, trivial⟩
  rw [joined.reads sizes, kept.reassembled.ordered]
  apply List.take_of_length_le
  by_cases empty : stream.length = 0
  · omega
  · -- The last byte is read, and so are those in front of it.
    have last := promises.reads (stream.length - 1) (fun y below => arrived y (by omega)) sizes positive (by omega)
    omega

end Reading

section Finishing

/-- A stream with the segments that were sent and not declared lost since. -/
structure Watched where
  transfer : Transfer
  standing : List Segment

namespace Watched

/-- One step; what is declared lost is told by the step alone. -/
def next (watched : Watched) (event : TransferEvent) : Watched where
  transfer := watched.transfer.next event
  standing :=
    match event with
    | .emit outLen => watched.standing ++ [watched.transfer.segmentOf outLen]
    | .lost frame => watched.standing.filter fun segment => decide (segment.frame ≠ frame)
    | _ => watched.standing

/-- A stream after some steps. -/
def reach (maxData maxWindow : Nat) (events : List TransferEvent) : Watched :=
  Runs.run next ⟨start maxData maxWindow, []⟩ events

theorem run_transfer (events : List TransferEvent) (watched : Watched) :
    (Runs.run next watched events).transfer = Runs.run Transfer.next watched.transfer events := by
  induction events generalizing watched with
  | nil => rfl
  | cons event rest ih => exact ih (watched.next event)

/-- A segment that stands was sent, and an offset that is not to be sent again lies in one that stands. -/
structure Stands (watched : Watched) : Prop where
  sent : ∀ segment ∈ watched.standing, segment ∈ watched.transfer.sent
  marked : ∀ x, watched.transfer.sender.sent x = true → ∃ segment ∈ watched.standing, segment.frame.Covers x

/-- A step that neither sends nor loses a frame leaves what stands. -/
theorem Stands.keep {watched after : Watched} (stands : watched.Stands)
    (sent : ∀ segment ∈ watched.transfer.sent, segment ∈ after.transfer.sent)
    (marks : after.transfer.sender.sent = watched.transfer.sender.sent) (same : after.standing = watched.standing) :
    after.Stands := by
  refine ⟨fun segment member => sent segment (stands.sent segment (same ▸ member)), fun x was => ?_⟩
  rw [same]
  exact stands.marked x (marks ▸ was)

theorem stands_start (maxData maxWindow : Nat) : Stands ⟨start maxData maxWindow, []⟩ := by
  constructor
  · intro segment member
    cases member
  · intro x was
    cases was

/-- Every step keeps this: what is declared lost no longer stands, and is marked to be sent again. -/
theorem Stands.next {watched : Watched} (stands : watched.Stands) (event : TransferEvent) :
    (watched.next event).Stands := by
  cases event with
  | write data fin =>
    refine stands.keep (fun _ member => member) ?_ rfl
    simp only [Watched.next, Transfer.next, Sender.next]
    split <;> rfl
  | emit outLen =>
    constructor
    · intro segment member
      rcases List.mem_append.mp member with old | new
      · exact List.mem_append_left _ (stands.sent segment old)
      · exact List.mem_append_right _ new
    · intro x was
      -- The offset was sent before, or is in the new frame.
      rcases Bool.or_eq_true_iff.mp was with old | new
      · obtain ⟨segment, inside, covers⟩ := stands.marked x old
        exact ⟨segment, List.mem_append_left _ inside, covers⟩
      · have inside := of_decide_eq_true new
        exact ⟨_, List.mem_append_right _ (List.mem_singleton.mpr rfl), inside⟩
  | lost frame =>
    constructor
    · exact fun segment member => stands.sent segment (List.mem_filter.mp member).1
    · intro x was
      obtain ⟨old, outside⟩ := Bool.and_eq_true_iff.mp was
      obtain ⟨segment, inside, covers⟩ := stands.marked x old
      refine ⟨segment, List.mem_filter.mpr ⟨inside, decide_eq_true fun same => ?_⟩, covers⟩
      -- The frame that covers the offset is not the lost one, which would have marked it.
      rw [same] at covers
      simp only [Bool.not_eq_true', decide_eq_false_iff_not] at outside
      exact outside covers
  | ack | limit | lostLimit => exact stands.keep (fun _ member => member) rfl rfl
  | arrive | read | grant =>
    -- The receiver alone is concerned.
    refine stands.keep ?_ ?_ rfl
    all_goals
      simp only [Watched.next, Transfer.next]
      split
    · exact fun _ member => member
    · exact fun _ member => member
    · rfl
    · rfl

theorem Stands.run {watched : Watched} (stands : watched.Stands) (events : List TransferEvent) :
    (Runs.run Watched.next watched events).Stands := by
  have step : ∀ (state : Watched) event, state.Stands → (state.next event).Stands :=
    fun _ event stands => stands.next event
  exact Runs.run_keeps step stands events

end Watched

theorem Joined.quiet (joined : Joined stream transfer) {event : TransferEvent} (allowed : transfer.Allowed event)
    (written : (transfer.next event).sender.written = transfer.sender.written)
    (finOff : (transfer.next event).sender.send.finOff = transfer.sender.send.finOff) :
    Joined stream (transfer.next event) :=
  joined.next allowed (written ▸ joined.sending.begins) (finOff ▸ joined.sending.final)

/-- What a row of emissions leaves behind. -/
theorem Joined.emits (sizes : List Nat) : ∀ {watched : Watched}, Joined stream watched.transfer →
    Runs.Along Transfer.next Allowed watched.transfer (sizes.map .emit) ∧
      Joined stream (Runs.run Transfer.next watched.transfer (sizes.map .emit)) ∧
      (Runs.run Transfer.next watched.transfer (sizes.map .emit)).arrived = watched.transfer.arrived ∧
      (∀ segment ∈ watched.standing, segment ∈ (Runs.run Watched.next watched (sizes.map .emit)).standing) ∧
      ∀ out ∈ Sender.emitAll watched.transfer.sender.send sizes,
        ∃ segment ∈ (Runs.run Watched.next watched (sizes.map .emit)).standing,
          segment.off = out.1 ∧ segment.data = out.2 := by
  induction sizes with
  | nil =>
    intro watched joined
    refine ⟨trivial, joined, rfl, fun _ member => member, fun out member => ?_⟩
    cases member
  | cons size rest ih =>
    intro watched joined
    have finOff : (watched.transfer.next (.emit size)).sender.send.finOff = watched.transfer.sender.send.finOff := by
      obtain ⟨out, data, pos, ran, _⟩ := joined.sending.inv.shape.emit_eq size
      simp only [Transfer.next, Sender.next, ran]
    have next : Joined stream (watched.transfer.next (.emit size)) := joined.quiet trivial rfl finOff
    -- The first frame was sent by the first emission, and the others by the later ones.
    obtain ⟨along, later, arrived, kept, made⟩ := @ih (watched.next (.emit size)) next
    refine ⟨⟨trivial, along⟩, later, arrived, fun segment member => kept segment (List.mem_append_left _ member), ?_⟩
    intro out member
    rcases List.mem_cons.mp member with rfl | others
    · exact ⟨_, kept _ (List.mem_append_right _ (List.mem_singleton.mpr rfl)), rfl, rfl⟩
    · exact made out others

/-- What a row of arrivals leaves behind. -/
theorem Joined.arrivals (segments : List Segment) : ∀ {transfer : Transfer}, Joined stream transfer →
    (∀ segment ∈ segments, segment ∈ transfer.sent) →
      Runs.Along Transfer.next Allowed transfer (segments.map .arrive) ∧
        Joined stream (Runs.run Transfer.next transfer (segments.map .arrive)) ∧
        ∀ segment, segment ∈ transfer.arrived ∨ segment ∈ segments →
          segment ∈ (Runs.run Transfer.next transfer (segments.map .arrive)).arrived := by
  induction segments with
  | nil => exact fun joined _ => ⟨trivial, joined, fun segment either => either.resolve_right List.not_mem_nil⟩
  | cons first rest ih =>
    intro transfer joined sent
    have allowed : transfer.Allowed (.arrive first) := sent first List.mem_cons_self
    have same : (transfer.next (.arrive first)).sender = transfer.sender ∧
        (transfer.next (.arrive first)).sent = transfer.sent := by
      simp only [Transfer.next]
      split <;> exact ⟨rfl, rfl⟩
    have next : Joined stream (transfer.next (.arrive first)) :=
      joined.quiet allowed (by rw [same.1]) (by rw [same.1])
    -- Nothing that was sent is refused, so the segment is recorded.
    have arrived : (transfer.next (.arrive first)).arrived = transfer.arrived ++ [first] := by
      have accepted := next.accepted
      simp only [Transfer.next] at accepted ⊢
      split
      · rename_i error failed
        simp [failed] at accepted
      · rfl
    obtain ⟨along, later, kept⟩ := ih next fun segment member => by
      rw [same.2]
      exact sent segment (List.mem_cons_of_mem _ member)
    refine ⟨⟨allowed, along⟩, later, fun segment either => kept segment ?_⟩
    rw [arrived, List.mem_append, List.mem_singleton]
    rcases either with old | new
    · exact .inl (.inl old)
    · rcases List.mem_cons.mp new with rfl | others
      · exact .inl (.inr rfl)
      · exact .inr others

/--
The steps that go on with a stream to which nothing more is written: what is pending is sent, and what was sent and not
declared lost arrives and is read.
-/
def Watched.finishing (watched : Watched) : List TransferEvent :=
  let sizes := List.replicate (watched.transfer.sender.written.length + 1) 1
  let emitted := Runs.run next watched (sizes.map .emit)
  sizes.map .emit ++ (emitted.standing.map .arrive ++ sizes.map .read)

/-- From what is known of both ends and of the segments that stand, the stream can be read as a whole. -/
theorem Joined.finishes {watched : Watched} (joined : Joined watched.transfer.sender.written watched.transfer)
    (stands : watched.Stands) :
    Runs.Along Transfer.next Allowed watched.transfer watched.finishing ∧
      (Runs.run Transfer.next watched.transfer watched.finishing).out = watched.transfer.sender.written := by
  unfold Watched.finishing
  generalize listed : List.replicate (watched.transfer.sender.written.length + 1) 1 = sizes
  have positive : ∀ size ∈ sizes, 0 < size := by
    subst listed
    intro size member
    rw [(List.mem_replicate.mp member).2]
    exact Nat.one_pos
  have many : sizes.length = watched.transfer.sender.written.length + 1 := by rw [← listed, List.length_replicate]
  obtain ⟨emitting, emitted, before, kept, made⟩ := joined.emits sizes
  have sent := (stands.run (sizes.map .emit)).sent
  rw [Watched.run_transfer] at sent
  simp only [Runs.along_append, Runs.run_append]
  generalize Runs.run Watched.next watched (sizes.map .emit) = ended at *
  generalize Runs.run Transfer.next watched.transfer (sizes.map .emit) = middle at *
  obtain ⟨arriving, arrived, all⟩ := emitted.arrivals ended.standing sent
  generalize Runs.run Transfer.next middle (ended.standing.map .arrive) = later at *
  refine ⟨⟨emitting, arriving, Runs.along_of_mem fun event member state => ?_⟩, ?_⟩
  · obtain ⟨size, -, rfl⟩ := List.mem_map.mp member
    trivial
  apply arrived.readAll _ sizes positive (by omega)
  intro x below
  -- The byte has arrived already, is sent now, or was sent and not lost since.
  have covered : ∃ segment, (segment ∈ middle.arrived ∨ segment ∈ ended.standing) ∧ segment.frame.Covers x := by
    by_cases acked : watched.transfer.sender.Acknowledged x
    · obtain ⟨segment, member, covers⟩ := joined.sending.arrived_of_acknowledged acked
      exact ⟨segment, .inl (before ▸ member), covers⟩
    · rcases joined.sending.inv.faithful.covered x below acked with pending | sent
      · obtain ⟨out, member, covers⟩ := pending sizes positive (by omega)
        obtain ⟨segment, inside, off, data⟩ := made out member
        refine ⟨segment, .inr inside, ?_⟩
        simpa only [Segment.frame, Frame.Covers, off, data] using covers
      · obtain ⟨segment, member, covers⟩ := stands.marked x sent
        exact ⟨segment, .inr (kept segment member), covers⟩
  obtain ⟨segment, member, covers⟩ := covered
  exact List.any_eq_true.mpr ⟨segment, all segment member, decide_eq_true covers⟩

end Finishing

section Promises

/-- What both ends promise of a stream. -/
structure Transferred (transfer : Transfer) : Prop where
  /-- No frame was refused, for flow control or for its final size. -/
  accepted : transfer.refused = false
  ordered : transfer.out <+: transfer.sender.written
  /-- A read that reports the end brings the last of what was written, and the end was written. -/
  ends : ∀ outLen bytes, (transfer.recv.emit outLen).1 = .ok (bytes, true) →
    transfer.out ++ bytes = transfer.sender.written ∧
      transfer.sender.send.finOff = some transfer.sender.written.length
  /-- What was written stays within the limit of the receiver. -/
  limited : transfer.sender.written.length ≤ transfer.recv.maxData
  /-- Once the sender counts the stream as complete, the receiver reads all of it. -/
  complete : transfer.sender.send.isComplete = true → ∀ sizes : List Nat, (∀ size ∈ sizes, 0 < size) →
    transfer.sender.written.length ≤ sizes.length →
      (Runs.run next transfer (sizes.map .read)).out = transfer.sender.written

/-- What is known of both ends of the stream that was written gives what they promise. -/
theorem Joined.transferred (joined : Joined transfer.sender.written transfer) : Transferred transfer := by
  have inv := joined.sending.inv
  have promises := joined.view.reassembled
  have size := inv.shape.size
  refine ⟨joined.accepted, ?_, ?_, ?_, ?_⟩
  · rw [joined.receiving.out]
    exact List.take_prefix _ _
  · intro outLen bytes ran
    obtain ⟨known, whole⟩ := (promises.fin outLen bytes true ran).mp rfl
    refine ⟨whole, ?_⟩
    -- The final offset came with a segment that the sender has marked as the last.
    obtain ⟨finOff, known⟩ := Option.isSome_iff_exists.mp known
    obtain ⟨segment, member, fin⟩ := joined.receiving.final finOff known
    have final := (joined.sending.cut segment (joined.arrived segment member)).2.2 fin
    rw [final, joined.sending.final _ final]
  · have used := joined.used
    have flow := inv.shape.flow
    omega
  · intro complete sizes positive enough
    have finOff : transfer.sender.send.finOff = some transfer.sender.written.length ∧
        transfer.sender.send.acked.eqRange 0 transfer.sender.written.length = true := by
      unfold SendBuf.isComplete at complete
      rw [inv.running.2.2, Bool.or_false] at complete
      split at complete
      · rename_i finOff known
        have final := inv.final finOff known
        rw [← size] at final
        exact ⟨final ▸ known, final ▸ complete⟩
      · cases complete
    -- Every byte is acknowledged, so all of them have arrived.
    have arrived (x : Nat) (below : x < transfer.sender.written.length) : transfer.view.received x = true := by
      have acked : transfer.sender.send.acked.Contains x := by
        have ranges : transfer.sender.send.acked.iter = [(0, transfer.sender.written.length)] := by
          simpa [RangeSet.eqRange] using finOff.2
        refine ⟨(0, transfer.sender.written.length), ?_, Nat.zero_le x, below⟩
        rw [ranges]
        exact List.mem_singleton.mpr rfl
      obtain ⟨segment, member, covers⟩ := joined.sending.arrived_of_acknowledged (inv.backed x acked)
      exact List.any_eq_true.mpr ⟨segment, member, decide_eq_true covers⟩
    exact joined.readAll arrived sizes positive enough

/--
Whatever is written, sent, lost, repeated, reordered, acknowledged, granted and read, the receiver reads the start of
what the sender wrote, and all of it once the sender counts the stream as complete.
-/
theorem transferred_always (maxData maxWindow : Nat) (events : List TransferEvent)
    (allowed : Runs.Along next Allowed (start maxData maxWindow) events) :
    Transferred (Runs.run next (start maxData maxWindow) events) :=
  (Joined.run events (joined_start _ maxData maxWindow) (based_start maxData maxWindow) allowed rfl).transferred

/-- A stream whose first frame is lost and sent again, after the second one has arrived. -/
def overtaken : List TransferEvent :=
  [.write [1, 2, 3, 4] true, .emit 2, .emit 2, .arrive ⟨2, [3, 4], true⟩, .lost ⟨0, 2, false⟩, .emit 2,
    .arrive ⟨0, [1, 2], false⟩, .ack ⟨2, 2, true⟩, .ack ⟨0, 2, false⟩]

theorem overtaken_allowed : Runs.Along next Allowed (start 10 100) overtaken := by
  refine ⟨trivial, trivial, trivial, ?_, ?_, trivial, ?_, ?_, ?_, trivial⟩
  · show _ ∈ _
    decide
  · show _ ∈ _
    decide
  · show _ ∈ _
    decide
  · exact ⟨⟨2, [3, 4], true⟩, by decide, rfl⟩
  · exact ⟨⟨0, [1, 2], false⟩, by decide, rfl⟩

/-- The sender counts this stream as complete, and the receiver reads all of it. -/
theorem transferred_always_overtaken :
    (Runs.run next (Runs.run next (start 10 100) overtaken) ([1, 1, 1, 1].map .read)).out = [1, 2, 3, 4] :=
  (transferred_always 10 100 overtaken overtaken_allowed).complete (by decide) [1, 1, 1, 1] (by decide) (by decide)

/--
However much was lost on the way to a state, what was sent and not declared lost since, what is sent from there on and
enough reads bring all that was written.
-/
theorem finishes_always (maxData maxWindow : Nat) (events : List TransferEvent)
    (allowed : Runs.Along next Allowed (start maxData maxWindow) events) :
    Runs.Along next Allowed (Watched.reach maxData maxWindow events).transfer
        (Watched.reach maxData maxWindow events).finishing ∧
      (Runs.run next (Watched.reach maxData maxWindow events).transfer
          (Watched.reach maxData maxWindow events).finishing).out =
        (Runs.run next (start maxData maxWindow) events).sender.written := by
  have reached : (Watched.reach maxData maxWindow events).transfer = Runs.run next (start maxData maxWindow) events :=
    Watched.run_transfer events _
  have stands : (Watched.reach maxData maxWindow events).Stands := (Watched.stands_start maxData maxWindow).run events
  have joined := Joined.run events (joined_start _ maxData maxWindow) (based_start maxData maxWindow) allowed rfl
  rw [← reached] at joined ⊢
  exact joined.finishes stands

/-- Nothing of the stream has arrived, and one frame was declared lost. -/
theorem finishes_always_lost :
    let watched := Watched.reach 10 100 [.write [1, 2, 3, 4] true, .emit 2, .emit 2, .lost ⟨0, 2, false⟩]
    watched.standing = [⟨2, [3, 4], true⟩] ∧
      (Runs.run next watched.transfer watched.finishing).out = [1, 2, 3, 4] := by
  have allowed : Runs.Along next Allowed (start 10 100)
      [.write [1, 2, 3, 4] true, .emit 2, .emit 2, .lost ⟨0, 2, false⟩] := by
    refine ⟨trivial, trivial, trivial, ?_, trivial⟩
    show _ ∈ _
    decide
  exact ⟨by decide, (finishes_always 10 100 _ allowed).2⟩

end Promises

end Transfer

end Flexicast
