import Flexicast.Ack.McAck
import Flexicast.Lib.Runs
import Flexicast.Ranges.Laws
import Flexicast.Recovery.Marks

/-! Acknowledgments of flexicast packets reach the aggregator once, of `process_frame` in `lib.rs`. -/

namespace Flexicast

namespace Loss

/-- The unicast instance of a server, as far as the aggregator is fed, and what happened to it. -/
structure AckServer where
  /-- The recovery of each path, by its identifier. -/
  paths : Nat → Option Recovery
  fcPathId : Nat
  mcAck : McAck
  fcPnRecv : RangeSet
  /-- The packet numbers that were registered on the flexicast path. -/
  registered : List Nat
  /-- The acknowledgments of the flexicast path that were processed. -/
  acknowledged : List RangeSet
  passed : List RangeSet

/-- What happens to the instance. -/
inductive AckEvent where
  | opened (pathId : Nat)
  /-- A packet of the flow is registered, by `fc_on_new_pkt_sent`. -/
  | registered (pkt : Sent) (now : Int)
  | pathAck (pathId : Nat) (ranges : AckRanges) (before after : Timing) (now : Int)
  /-- Anything else on a path: a packet is sent, an ACK frame comes, a pass runs, a timer fires. -/
  | other (pathId : Nat) (event : Loss.Event)
  /-- Any other use of the aggregator. -/
  | used (mcAck : McAck)

namespace AckServer

section Definitions

/-- Stores the recovery of a path. -/
def setPath (self : AckServer) (pathId : Nat) (recovery : Recovery) : AckServer :=
  { self with paths := fun other => if other = pathId then some recovery else self.paths other }

/-- The recovery of a path, with its flexicast part set up. -/
def withFcRecovery (recovery : Recovery) : Recovery :=
  if recovery.fcRecovery.isNone then recovery.initFcRecoveryState (.serverUnicast ()) else recovery

/-- Acknowledges packets of a path; a path that does not exist is ignored. -/
def ackPath (search : List Nat → Nat → Nat) (self : AckServer) (pathId : Nat) (ranges : RangeSet)
    (before after : Timing) (now : Int) : Option AckServer :=
  match self.paths pathId with
  | none => some self
  | some recovery =>
    ((withFcRecovery recovery).onAckReceived search ranges .application before after now).map (self.setPath pathId)

/-- Gives the newly acknowledged numbers of the flexicast path to the aggregator. -/
def takeNewAcks (self : AckServer) : AckServer :=
  match self.paths self.fcPathId with
  | none => self
  | some recovery =>
    match recovery.fcRecovery with
    | none => self
    | some fc =>
      let newAckRs := fc.fcNewAckPn.foldl RangeSet.pushItem RangeSet.default
      { self.setPath self.fcPathId { recovery with fcRecovery := some { fc with fcNewAckPn := [] } } with
        mcAck := self.mcAck.onAckReceived newAckRs
        -- Also mark the packet as received in the range.
        fcPnRecv := newAckRs.iter.foldl (fun set range => set.insert range.1 range.2) self.fcPnRecv
        passed := self.passed ++ [newAckRs] }

/-- Processes a PATH_ACK frame. -/
def processPathAck (search : List Nat → Nat → Nat) (self : AckServer) (pathId : Nat) (ranges : RangeSet)
    (before after : Timing) (now : Int) : Option AckServer := do
  let self ← self.ackPath search pathId ranges before after now
  -- The unicast path records the acknowledgments from the receiver.
  if pathId = self.fcPathId then
    return { self.takeNewAcks with acknowledged := self.acknowledged ++ [ranges] }
  else return self

/-- One event; no result means that the program panics. -/
def step? (search : List Nat → Nat → Nat) (self : AckServer) : AckEvent → Option AckServer
  | .opened pathId => some (if (self.paths pathId).isSome then self else self.setPath pathId Recovery.new)
  | .registered pkt now =>
    match self.paths self.fcPathId with
    | none => some self
    | some recovery =>
      some { self.setPath self.fcPathId (recovery.onPacketSent pkt .application now) with
        registered := self.registered ++ [pkt.pktNum] }
  | .pathAck pathId ranges before after now => self.processPathAck search pathId ranges.1 before after now
  | .other pathId event =>
    match self.paths pathId with
    | none => some self
    | some recovery =>
      (Connection.step? search ⟨none, recovery⟩ event).map fun connection => self.setPath pathId connection.recovery
  | .used mcAck => some { self with mcAck := mcAck }

/-- One event, after which there is no state once the program has panicked. -/
def next (search : List Nat → Nat → Nat) (state : Option AckServer) (event : AckEvent) : Option AckServer :=
  state.bind fun self => self.step? search event

/-- A new instance, without any path. -/
def new (fcPathId : Nat) : AckServer := ⟨fun _ => none, fcPathId, McAck.new, RangeSet.default, [], [], []⟩

end Definitions

section Properties

/-- Whether the receiver has acknowledged a packet of the flow, registered or not. -/
def Heard (self : AckServer) (num : Nat) : Prop := ∃ ranges ∈ self.acknowledged, ranges.Contains num

instance (self : AckServer) (num : Nat) : Decidable (self.Heard num) :=
  inferInstanceAs (Decidable (∃ ranges ∈ self.acknowledged, ranges.Contains num))

/-- The numbers that the aggregator was given, in order. -/
def passedNums (self : AckServer) : List Nat := self.passed.flatMap RangeSet.flatten

/-- A number was given to the aggregator once and marked as received if it is registered and heard, else neither. -/
def RecordedOnce (self : AckServer) (num : Nat) : Prop :=
  self.passedNums.count num = (if num ∈ self.registered ∧ self.Heard num then 1 else 0) ∧
    (self.fcPnRecv.Contains num ↔ num ∈ self.registered ∧ self.Heard num)

instance (self : AckServer) (num : Nat) : Decidable (self.RecordedOnce num) :=
  inferInstanceAs (Decidable (_ = _ ∧ (_ ↔ _)))

/-- No path keeps newly acknowledged numbers. -/
def Drained (self : AckServer) : Prop :=
  ∀ pathId recovery fc, self.paths pathId = some recovery → recovery.fcRecovery = some fc → fc.fcNewAckPn = []

/-- The packets of a path that are neither acknowledged nor lost. -/
def unmarked (self : AckServer) (pathId : Nat) (epoch : Epoch) : List Nat :=
  ((self.paths pathId).map fun recovery => unmarkedNums (recovery.epochs epoch).sentPackets).getD []

/-- Packets are recorded with increasing numbers, and those of the flexicast path are the registered ones. -/
def Increases : Option AckServer → AckEvent → Prop
  | some self, .registered pkt _ => ∀ num ∈ self.registered, num < pkt.pktNum
  | some self, .other pathId (.sent pkt epoch _) =>
    ¬ (pathId = self.fcPathId ∧ epoch = .application) ∧
      ∀ recovery ∈ self.paths pathId, ∀ held ∈ (recovery.epochs epoch).sentPackets, held.pktNum < pkt.pktNum
  | _, _ => True

/--
A packet of the flow is acknowledged first by a PATH_ACK that finds it registered, and neither acknowledged nor lost.
-/
def FirstHeardUnmarked : Option AckServer → AckEvent → Prop
  | some self, .registered pkt _ => ¬ self.Heard pkt.pktNum
  | some self, .pathAck pathId ranges _ _ _ => pathId = self.fcPathId →
    ∀ num ∈ self.registered, ranges.1.Contains num → self.Heard num ∨ num ∈ self.unmarked pathId .application
  | some self, .other pathId (.acked ranges epoch _ _ _) => pathId = self.fcPathId →
    ∀ num ∈ self.unmarked pathId epoch, ¬ ranges.1.Contains num
  | _, _ => True

/-- No acknowledgment brings anything new, but those that are drained. -/
def NothingNewElsewhere : Option AckServer → AckEvent → Prop
  | some self, .pathAck pathId ranges _ _ _ => pathId ≠ self.fcPathId →
    ∀ num ∈ self.unmarked pathId .application, ¬ ranges.1.Contains num
  | some self, .other pathId (.acked ranges epoch _ _ _) =>
    (∃ recovery ∈ self.paths pathId, recovery.fcRecovery.isSome = true) →
      ∀ num ∈ self.unmarked pathId epoch, ¬ ranges.1.Contains num
  | _, _ => True

end Properties

section Paths

variable {self after : AckServer} {pathId : Nat} {recovery : Recovery}

@[simp] theorem setPath_same (self : AckServer) (pathId : Nat) (recovery : Recovery) :
    (self.setPath pathId recovery).paths pathId = some recovery := by
  simp [setPath]

@[simp] theorem setPath_other (self : AckServer) {pathId other : Nat} (apart : other ≠ pathId) (recovery : Recovery) :
    (self.setPath pathId recovery).paths other = self.paths other := by
  simp [setPath, apart]

/-- The numbers that wait on a path. -/
def waiting (self : AckServer) (pathId : Nat) : List Nat :=
  ((self.paths pathId).map Recovery.waitingAcks).getD []

theorem unmarked_some (found : self.paths pathId = some recovery) (epoch : Epoch) :
    self.unmarked pathId epoch = unmarkedNums (recovery.epochs epoch).sentPackets := by
  simp [unmarked, found]

theorem waiting_some (found : self.paths pathId = some recovery) :
    self.waiting pathId = recovery.waitingAcks := by
  simp [waiting, found]

/-- No path keeps a number just when none waits. -/
theorem drained_iff : self.Drained ↔ ∀ pathId, self.waiting pathId = [] := by
  -- A path without the flexicast part keeps no number.
  constructor
  · intro drained pathId
    cases found : self.paths pathId with
    | none => simp [waiting, found]
    | some recovery =>
      rw [waiting_some found]
      cases held : recovery.fcRecovery with
      | none => simp [Recovery.waitingAcks, Recovery.newAcks, held]
      | some fc => simp [Recovery.waitingAcks, Recovery.newAcks, held, drained pathId recovery fc found held]
  · intro waits pathId recovery fc found held
    have empty := waits pathId
    rw [waiting_some found] at empty
    simpa [Recovery.waitingAcks, Recovery.newAcks, held] using empty

theorem withFcRecovery_queues (recovery : Recovery) :
    (∀ epoch, ((withFcRecovery recovery).epochs epoch).sentPackets = (recovery.epochs epoch).sentPackets) ∧
      (withFcRecovery recovery).newAcks = some recovery.waitingAcks := by
  -- A part that is set up starts without numbers; one that is there stays.
  unfold withFcRecovery
  split
  case isTrue absent =>
    refine ⟨fun _ => rfl, ?_⟩
    simp [Recovery.initFcRecoveryState, Recovery.newAcks, Recovery.waitingAcks, Option.isNone_iff_eq_none.mp absent]
  case isFalse present =>
    refine ⟨fun _ => rfl, ?_⟩
    cases held : recovery.fcRecovery with
    | none => simp [held] at present
    | some fc => simp [Recovery.newAcks, Recovery.waitingAcks, held]

/-- The queues of every path increase, and that of the flexicast path holds registered packets. -/
structure Ordered (server : AckServer) : Prop where
  increasing : ∀ pathId recovery, server.paths pathId = some recovery →
    ∀ epoch, Increasing (recovery.epochs epoch).sentPackets
  held : ∀ recovery, server.paths server.fcPathId = some recovery →
    ∀ num ∈ (recovery.epochs .application).sentPackets.map Sent.pktNum, num ∈ server.registered

/-- Storing a recovery whose queues are in order. -/
theorem Ordered.setPath (ordered : self.Ordered)
    (increasing : ∀ epoch, Increasing (recovery.epochs epoch).sentPackets)
    (held : pathId = self.fcPathId →
      ∀ num ∈ (recovery.epochs .application).sentPackets.map Sent.pktNum, num ∈ self.registered) :
    (self.setPath pathId recovery).Ordered := by
  -- The stored path is the one that changes; the others are found as before.
  refine ⟨fun other found there => ?_, fun found there => ?_⟩
  · by_cases same : other = pathId
    · rw [same, setPath_same] at there
      cases there
      exact increasing
    · rw [setPath_other self same] at there
      exact ordered.increasing other found there
  · by_cases same : self.fcPathId = pathId
    · change (self.setPath pathId recovery).paths self.fcPathId = some found at there
      rw [same, setPath_same] at there
      cases there
      exact held same.symm
    · change (self.setPath pathId recovery).paths self.fcPathId = some found at there
      rw [setPath_other self same] at there
      exact ordered.held found there

theorem Ordered.age (ordered : self.Ordered) {before : Recovery} (found : self.paths pathId = some before)
    (ages : before.Ages recovery) : (self.setPath pathId recovery).Ordered := by
  refine ordered.setPath (fun epoch => ages.increasing (ordered.increasing pathId before found epoch)) ?_
  intro same num member
  subst same
  exact ordered.held before found num ((ages.nums .application).subset member)

variable {search : List Nat → Nat → Nat} {ranges : RangeSet} {before later : Timing} {now : Int}

/-- What acknowledging packets of a path comes to. -/
theorem ackPath_spec (searches : Searches search) (ordered : self.Ordered)
    (done : self.ackPath search pathId ranges before later now = some after) :
    (self.paths pathId = none ∧ after = self) ∨
    ∃ held recovery newly, self.paths pathId = some held ∧ after = self.setPath pathId recovery ∧
      held.Ages recovery ∧
      (∀ num ∈ unmarkedNums (recovery.epochs .application).sentPackets, ¬ ranges.Contains num) ∧
      recovery.newAcks = some (held.waitingAcks ++ newly) ∧
      ∀ num, num ∈ newly ↔ num ∈ self.unmarked pathId .application ∧ ranges.Contains num := by
  unfold ackPath at done
  cases found : self.paths pathId with
  | none =>
    rw [found] at done
    cases done
    exact .inl ⟨rfl, rfl⟩
  | some held =>
    rw [found] at done
    obtain ⟨recovery, received, stored⟩ := Option.map_eq_some_iff.mp done
    obtain ⟨same, notes⟩ := withFcRecovery_queues held
    -- Setting up the flexicast part moves no packet, and the acknowledgment ages the queues.
    have ages := Recovery.Ages.of_queues same
    have increasing := ages.increasing (ordered.increasing pathId held found .application)
    obtain ⟨acked, outside, newly, noted, -, exactly⟩ := onAckReceived_ages searches increasing received
    refine .inr ⟨held, recovery, newly, rfl, stored.symm, ages.trans acked, outside, ?_, fun num => ?_⟩
    · rw [noted, notes]
      rfl
    · rw [exactly, same, unmarked_some found]

/-- A PATH_ACK of another path only acknowledges. -/
theorem processPathAck_other (apart : pathId ≠ self.fcPathId) :
    self.processPathAck search pathId ranges before later now = self.ackPath search pathId ranges before later now := by
  unfold processPathAck
  cases acked : self.ackPath search pathId ranges before later now with
  | none => rfl
  | some state =>
    -- The flexicast path is the same behind the acknowledgment, so the number is handed to nobody.
    have same : state.fcPathId = self.fcPathId := by
      unfold ackPath at acked
      split at acked
      · cases acked
        rfl
      · obtain ⟨recovery, -, stored⟩ := Option.map_eq_some_iff.mp acked
        cases stored
        rfl
    simp [same, apart]

/-- A PATH_ACK of the flexicast path gives the aggregator what waited and what it is the first to mark. -/
theorem processPathAck_flow (searches : Searches search) (ordered : self.Ordered)
    (done : self.processPathAck search self.fcPathId ranges before later now = some after) :
    (self.paths self.fcPathId = none ∧ after = { self with acknowledged := self.acknowledged ++ [ranges] }) ∨
    ∃ held recovery newly, self.paths self.fcPathId = some held ∧ held.Ages recovery ∧
      (∀ num ∈ unmarkedNums (recovery.epochs .application).sentPackets, ¬ ranges.Contains num) ∧
      recovery.waitingAcks = [] ∧
      (∀ num, num ∈ newly ↔ num ∈ self.unmarked self.fcPathId .application ∧ ranges.Contains num) ∧
      let newAckRs := (held.waitingAcks ++ newly).foldl RangeSet.pushItem RangeSet.default
      after = { self.setPath self.fcPathId recovery with
        mcAck := self.mcAck.onAckReceived newAckRs
        fcPnRecv := newAckRs.iter.foldl (fun set range => set.insert range.1 range.2) self.fcPnRecv
        passed := self.passed ++ [newAckRs]
        acknowledged := self.acknowledged ++ [ranges] } := by
  unfold processPathAck at done
  obtain ⟨state, acked, done⟩ := Option.bind_eq_some_iff.mp done
  rcases ackPath_spec searches ordered acked with
    ⟨absent, rfl⟩ | ⟨held, recovery, newly, found, rfl, ages, outside, notes, exactly⟩
  · rw [if_pos rfl] at done
    cases done
    exact .inl ⟨absent, by simp [takeNewAcks, absent]⟩
  · -- The flexicast part is there, so its vector is drained.
    rw [if_pos (show self.fcPathId = (self.setPath self.fcPathId recovery).fcPathId from rfl)] at done
    cases done
    obtain ⟨fc, present, vector⟩ := Option.map_eq_some_iff.mp notes
    refine .inr ⟨held, { recovery with fcRecovery := some { fc with fcNewAckPn := [] } }, newly, found,
      ⟨ages.nums, ages.unmarked⟩, outside, rfl, exactly, ?_⟩
    have there : (self.setPath self.fcPathId recovery).paths (self.setPath self.fcPathId recovery).fcPathId =
        some recovery := setPath_same self self.fcPathId recovery
    unfold takeNewAcks
    simp only [there, present, vector]
    congr 1
    funext other
    simp only [setPath]
    split <;> rfl

end Paths

section Steps

variable {search : List Nat → Nat → Nat} {self after : AckServer} {event : AckEvent}

/-- Every event keeps the queues in order, and the identifier of the flexicast path. -/
theorem Ordered.step (searches : Searches search) (ordered : self.Ordered) (increases : Increases (some self) event)
    (done : self.step? search event = some after) : after.Ordered ∧ after.fcPathId = self.fcPathId := by
  cases event with
  | opened pathId =>
    simp only [step?, Option.some.injEq] at done
    subst done
    split
    · exact ⟨ordered, rfl⟩
    · -- A new path has sent nothing.
      exact ⟨ordered.setPath (fun _ => List.Pairwise.nil) fun _ num member => absurd member List.not_mem_nil, rfl⟩
  | registered pkt now =>
    unfold step? at done
    cases found : self.paths self.fcPathId with
    | none =>
      simp only [found] at done
      cases done
      exact ⟨ordered, rfl⟩
    | some recovery =>
      simp only [found] at done
      cases done
      obtain ⟨requeued, -⟩ := onPacketSent_queue recovery pkt .application now
      have wider : ({ self with registered := self.registered ++ [pkt.pktNum] } : AckServer).Ordered :=
        ⟨ordered.increasing, fun found there num member => List.mem_append_left _ (ordered.held found there num member)⟩
      refine ⟨wider.setPath (fun epoch => ?_) fun _ num member => ?_, rfl⟩
      · by_cases same : epoch = .application
        · rw [same, requeued.queue]
          refine (ordered.increasing _ recovery found _).snoc fun held member => ?_
          exact increases held.pktNum (ordered.held recovery found held.pktNum (List.mem_map_of_mem member))
        · rw [requeued.others epoch same]
          exact ordered.increasing _ recovery found epoch
      · rw [requeued.queue, List.map_append, List.mem_append] at member
        rcases member with earlier | new
        · exact List.mem_append_left _ (ordered.held recovery found num earlier)
        · exact List.mem_append_right _ new
  | pathAck pathId ranges before later now =>
    by_cases flow : pathId = self.fcPathId
    · subst flow
      rcases processPathAck_flow searches ordered done with
        ⟨-, rfl⟩ | ⟨held, recovery, newly, found, ages, -, -, -, rfl⟩
      · exact ⟨⟨ordered.increasing, ordered.held⟩, rfl⟩
      · exact ⟨⟨(ordered.age found ages).increasing, (ordered.age found ages).held⟩, rfl⟩
    · have acked : self.ackPath search pathId ranges.1 before later now = some after :=
        (processPathAck_other flow).symm.trans done
      rcases ackPath_spec searches ordered acked with ⟨-, rfl⟩ | ⟨held, recovery, newly, found, rfl, ages, -⟩
      · exact ⟨ordered, rfl⟩
      · exact ⟨ordered.age found ages, rfl⟩
  | other pathId event =>
    unfold step? at done
    cases found : self.paths pathId with
    | none =>
      simp only [found] at done
      cases done
      exact ⟨ordered, rfl⟩
    | some recovery =>
      simp only [found] at done
      obtain ⟨connection, stepped, stored⟩ := Option.map_eq_some_iff.mp done
      subst stored
      rcases step_queues searches (ordered.increasing pathId recovery found) stepped with
        ⟨pkt, epoch, now, rfl, sent⟩ | ⟨_, _, _, _, _, _, -, ages, -⟩ | ⟨ages, -⟩
      · obtain ⟨requeued, -⟩ := onPacketSent_queue recovery pkt epoch now
        obtain ⟨elsewhere, last⟩ := increases
        rw [sent]
        refine ⟨ordered.setPath (fun other => ?_) fun same num member => ?_, rfl⟩
        · by_cases same : other = epoch
          · rw [same, requeued.queue]
            exact (ordered.increasing pathId recovery found epoch).snoc (last recovery found)
          · rw [requeued.others other same]
            exact ordered.increasing pathId recovery found other
        · -- Application packets of the flexicast path are registered instead.
          have apart : Epoch.application ≠ epoch := fun application => elsewhere ⟨same, application.symm⟩
          rw [requeued.others .application apart] at member
          exact ordered.held recovery (same ▸ found) num member
      · exact ⟨ordered.age found ages, rfl⟩
      · exact ⟨ordered.age found ages, rfl⟩
  | used mcAck =>
    cases done
    exact ⟨⟨ordered.increasing, ordered.held⟩, rfl⟩

variable {num pathId : Nat} {recovery : Recovery} {now : Int}

/-- A number's record after it was given once more, or not at all. -/
theorem RecordedOnce.give (once : self.RecordedOnce num) (new : Prop) [Decidable new]
    (count : after.passedNums.count num = self.passedNums.count num + if new then 1 else 0)
    (received : after.fcPnRecv.Contains num ↔ self.fcPnRecv.Contains num ∨ new)
    (due : num ∈ after.registered ∧ after.Heard num ↔ (num ∈ self.registered ∧ self.Heard num) ∨ new)
    (fresh : new → ¬ self.Heard num) : after.RecordedOnce num := by
  obtain ⟨counted, marked⟩ := once
  refine ⟨?_, by rw [received, due, marked]⟩
  rw [count, counted]
  simp only [due]
  -- A number that is given now was not heard before, so it is counted once.
  by_cases given : new
  · simp [given, fresh given]
  · simp [given]

theorem RecordedOnce.congr (once : self.RecordedOnce num)
    (count : after.passedNums.count num = self.passedNums.count num)
    (received : after.fcPnRecv.Contains num ↔ self.fcPnRecv.Contains num)
    (due : num ∈ after.registered ∧ after.Heard num ↔ num ∈ self.registered ∧ self.Heard num) :
    after.RecordedOnce num :=
  once.give False (by simpa using count) (by simpa using received) (by simpa using due) False.elim

/-- What is kept while every packet is first acknowledged unmarked. -/
structure Recorded (server : AckServer) : Prop where
  waiting : server.waiting server.fcPathId = []
  wf : server.fcPnRecv.Wf
  unheard : ∀ num ∈ server.unmarked server.fcPathId .application, ¬ server.Heard num
  once : ∀ num, server.RecordedOnce num

theorem Recorded.setPath (recorded : self.Recorded) (quiet : pathId = self.fcPathId → recovery.waitingAcks = [] ∧
      unmarkedNums (recovery.epochs .application).sentPackets ⊆ self.unmarked pathId .application) :
    (self.setPath pathId recovery).Recorded := by
  by_cases flow : pathId = self.fcPathId
  · obtain ⟨empty, fewer⟩ := quiet flow
    subst flow
    have there : (self.setPath self.fcPathId recovery).paths self.fcPathId = some recovery :=
      setPath_same self self.fcPathId recovery
    refine ⟨(waiting_some there).trans empty, recorded.wf, fun num member => ?_, recorded.once⟩
    rw [show (self.setPath self.fcPathId recovery).fcPathId = self.fcPathId from rfl, unmarked_some there] at member
    exact recorded.unheard num (fewer member)
  · -- Another path is stored, and that of the flow stays.
    have same : (self.setPath pathId recovery).paths self.fcPathId = self.paths self.fcPathId :=
      setPath_other self (Ne.symm flow) recovery
    refine ⟨?_, recorded.wf, fun num member => ?_, recorded.once⟩
    · rw [AckServer.waiting, show (self.setPath pathId recovery).fcPathId = self.fcPathId from rfl, same]
      exact recorded.waiting
    · rw [AckServer.unmarked, show (self.setPath pathId recovery).fcPathId = self.fcPathId from rfl, same] at member
      exact recorded.unheard num member

/-- Registering a packet that was not acknowledged before. -/
theorem Recorded.register (recorded : self.Recorded) {pkt : Sent} (unheard : ¬ self.Heard pkt.pktNum)
    (done : self.step? search (.registered pkt now) = some after) : after.Recorded := by
  unfold step? at done
  cases found : self.paths self.fcPathId with
  | none =>
    simp only [found] at done
    cases done
    exact recorded
  | some recovery =>
    simp only [found] at done
    cases done
    obtain ⟨requeued, notes⟩ := onPacketSent_queue recovery pkt .application now
    have there : (self.setPath self.fcPathId (recovery.onPacketSent pkt .application now)).paths self.fcPathId =
        some (recovery.onPacketSent pkt .application now) := setPath_same self self.fcPathId _
    refine ⟨?_, recorded.wf, fun num member => ?_, fun num => ?_⟩
    · have before := recorded.waiting
      rw [waiting_some found] at before
      exact (waiting_some there).trans (notes.trans before)
    · change num ∈ AckServer.unmarked (self.setPath self.fcPathId _) self.fcPathId .application at member
      rw [unmarked_some there, requeued.queue, unmarkedNums_append, List.mem_append] at member
      rcases member with earlier | new
      · exact recorded.unheard num (unmarked_some found .application ▸ earlier)
      · obtain ⟨held, alone, -, rfl⟩ := mem_unmarkedNums.mp new
        rw [List.mem_singleton.mp alone]
        exact unheard
    · -- A number that is not heard yet is recorded neither before nor after.
      refine (recorded.once num).congr rfl Iff.rfl ?_
      change num ∈ self.registered ++ [pkt.pktNum] ∧ self.Heard num ↔ num ∈ self.registered ∧ self.Heard num
      rw [List.mem_append, List.mem_singleton]
      constructor
      · rintro ⟨earlier | rfl, heard⟩
        · exact ⟨earlier, heard⟩
        · exact absurd heard unheard
      · exact fun due => ⟨.inl due.1, due.2⟩

/-- What the aggregator gets from one acknowledgment. -/
theorem newAckRs_spec (newly : List Nat) :
    (newly.foldl RangeSet.pushItem RangeSet.default).Wf ∧
      ∀ num, ((newly.foldl RangeSet.pushItem RangeSet.default).Contains num ↔ num ∈ newly) ∧
        (newly.foldl RangeSet.pushItem RangeSet.default).flatten.count num = if num ∈ newly then 1 else 0 := by
  obtain ⟨wf, contains⟩ := @RangeSet.foldl_pushItem newly _ RangeSet.wf_default
  -- The numbers are pushed into an empty set, one by one.
  have exactly : ∀ num, (newly.foldl RangeSet.pushItem RangeSet.default).Contains num ↔ num ∈ newly := by
    intro num
    rw [contains, RangeSet.contains_default, false_or]
  refine ⟨wf, fun num => ⟨exactly num, ?_⟩⟩
  rw [(RangeSet.flatten_nodup wf.separated).count]
  simp only [RangeSet.mem_flatten, exactly]

/-- An acknowledgment of the flexicast path that finds its new packets unmarked. -/
theorem Recorded.acknowledge (searches : Searches search) (ordered : self.Ordered) (recorded : self.Recorded)
    {ranges : RangeSet} {before later : Timing} (first : ∀ num ∈ self.registered, ranges.Contains num →
      self.Heard num ∨ num ∈ self.unmarked self.fcPathId .application)
    (done : self.processPathAck search self.fcPathId ranges before later now = some after) : after.Recorded := by
  have heard : ∀ num, (∃ held ∈ self.acknowledged ++ [ranges], held.Contains num) ↔
      self.Heard num ∨ ranges.Contains num := by
    intro num
    simp [Heard, or_and_right, exists_or]
  rcases processPathAck_flow searches ordered done with
    ⟨absent, rfl⟩ | ⟨held, recovery, newly, found, ages, outside, drained, exactly, rfl⟩
  · -- Without the path every packet that is named was heard before, and nothing is given.
    have none_ : self.unmarked self.fcPathId .application = [] := by simp [AckServer.unmarked, absent]
    refine ⟨recorded.waiting, recorded.wf, fun num member => ?_, fun num => ?_⟩
    · exact absurd (none_ ▸ member) List.not_mem_nil
    · refine (recorded.once num).congr rfl Iff.rfl ?_
      rw [Heard, heard]
      constructor
      · rintro ⟨member, already | named⟩
        · exact ⟨member, already⟩
        · rcases first num member named with already | there
          · exact ⟨member, already⟩
          · exact absurd (none_ ▸ there) List.not_mem_nil
      · exact fun due => ⟨due.1, .inl due.2⟩
  · have empty : held.waitingAcks = [] := (waiting_some found).symm.trans recorded.waiting
    rw [empty, List.nil_append]
    obtain ⟨wf, given⟩ := newAckRs_spec newly
    obtain ⟨received, contains⟩ := RangeSet.foldl_insert recorded.wf wf.separated.forward
    refine ⟨(waiting_some (setPath_same self self.fcPathId recovery)).trans drained, received, fun num member => ?_,
      fun num => ?_⟩
    · change num ∈ (self.setPath self.fcPathId recovery).unmarked self.fcPathId .application at member
      rw [unmarked_some (setPath_same self self.fcPathId recovery)] at member
      rw [Heard, heard]
      rintro (already | named)
      · exact recorded.unheard num (unmarked_some found .application ▸ ages.unmarked .application member) already
      · exact outside num member named
    · -- A number is given now when it is due now, and was not due before.
      have fresh : num ∈ newly → num ∈ self.registered ∧ ranges.Contains num ∧ ¬ self.Heard num := by
        intro member
        obtain ⟨there, named⟩ := (exactly num).mp member
        refine ⟨?_, named, recorded.unheard num there⟩
        rw [unmarked_some found] at there
        obtain ⟨pkt, sent, -, rfl⟩ := mem_unmarkedNums.mp there
        exact ordered.held held found _ (List.mem_map_of_mem sent)
      refine (recorded.once num).give (num ∈ newly) ?_ ?_ ?_ fun new => (fresh new).2.2
      · simp only [passedNums, List.flatMap_append, List.flatMap_singleton, List.count_append, (given num).2]
      · exact (contains num).trans (or_congr_right (given num).1)
      · rw [Heard, heard]
        constructor
        · rintro ⟨member, already | named⟩
          · exact .inl ⟨member, already⟩
          · rcases first num member named with already | there
            · exact .inl ⟨member, already⟩
            · exact .inr ((exactly num).mpr ⟨there, named⟩)
        · rintro (⟨member, already⟩ | new)
          · exact ⟨member, .inl already⟩
          · exact ⟨(fresh new).1, .inr (fresh new).2.1⟩

theorem waiting_nothing_new {later : Recovery} {newly : List Nat}
    (notes : later.newAcks = recovery.newAcks.map (· ++ newly)) (nothing : newly = []) :
    later.waitingAcks = recovery.waitingAcks := by
  subst nothing
  cases held : recovery.newAcks <;> simp [Recovery.waitingAcks, notes, held]

/-- Every event whose packets are first acknowledged unmarked keeps the record. -/
theorem Recorded.step (searches : Searches search) (ordered : self.Ordered) (recorded : self.Recorded)
    (increases : Increases (some self) event) (first : FirstHeardUnmarked (some self) event)
    (done : self.step? search event = some after) :
    after.Recorded := by
  cases event with
  | opened pathId =>
    simp only [step?, Option.some.injEq] at done
    subst done
    split
    · exact recorded
    · exact recorded.setPath fun _ => ⟨rfl, List.nil_subset _⟩
  | registered pkt now => exact recorded.register first done
  | pathAck pathId ranges before later now =>
    by_cases flow : pathId = self.fcPathId
    · subst flow
      exact recorded.acknowledge searches ordered (first rfl) done
    · have acked : self.ackPath search pathId ranges.1 before later now = some after :=
        (processPathAck_other flow).symm.trans done
      rcases ackPath_spec searches ordered acked with ⟨-, rfl⟩ | ⟨held, recovery, newly, -, rfl, -⟩
      · exact recorded
      · exact recorded.setPath fun same => absurd same flow
  | other pathId event =>
    unfold step? at done
    cases found : self.paths pathId with
    | none =>
      simp only [found] at done
      cases done
      exact recorded
    | some recovery =>
      simp only [found] at done
      obtain ⟨connection, stepped, stored⟩ := Option.map_eq_some_iff.mp done
      subst stored
      refine recorded.setPath fun flow => ?_
      have empty : recovery.waitingAcks = [] := by
        have waits := recorded.waiting
        rwa [← flow, waiting_some found] at waits
      rw [unmarked_some found]
      rcases step_queues searches (ordered.increasing pathId recovery found) stepped with
        ⟨pkt, epoch, now, rfl, sent⟩ | ⟨ranges, epoch, _, _, _, newly, rfl, ages, notes, exactly⟩ | ⟨ages, notes⟩
      · -- A packet of the application epoch would be registered.
        obtain ⟨requeued, notes⟩ := onPacketSent_queue recovery pkt epoch now
        have apart : Epoch.application ≠ epoch := fun application => increases.1 ⟨flow, application.symm⟩
        rw [sent, notes, requeued.others .application apart]
        exact ⟨empty, List.Subset.refl _⟩
      · have nothing : newly = [] := by
          refine List.eq_nil_iff_forall_not_mem.mpr fun num member => ?_
          obtain ⟨there, named⟩ := (exactly num).mp member
          exact first flow num (unmarked_some found epoch ▸ there) named
        exact ⟨(waiting_nothing_new notes nothing).trans empty, ages.unmarked .application⟩
      · exact ⟨notes.trans empty, ages.unmarked .application⟩
  | used mcAck =>
    cases done
    exact ⟨recorded.waiting, recorded.wf, recorded.unheard, recorded.once⟩

theorem waiting_setPath (waits : ∀ other, self.waiting other = []) (empty : recovery.waitingAcks = []) (other : Nat) :
    (self.setPath pathId recovery).waiting other = [] := by
  by_cases same : other = pathId
  · rw [same, waiting_some (setPath_same self pathId recovery)]
    exact empty
  · rw [waiting, setPath_other self same]
    exact waits other

/-- While nothing new is acknowledged elsewhere, nothing waits on any path after any event. -/
theorem waiting_step (searches : Searches search) (ordered : self.Ordered)
    (elsewhere : NothingNewElsewhere (some self) event) (waits : ∀ other, self.waiting other = [])
    (done : self.step? search event = some after) : ∀ other, after.waiting other = [] := by
  cases event with
  | opened pathId =>
    simp only [step?, Option.some.injEq] at done
    subst done
    split
    · exact waits
    · exact waiting_setPath waits rfl
  | registered pkt now =>
    unfold step? at done
    cases found : self.paths self.fcPathId with
    | none =>
      simp only [found] at done
      cases done
      exact waits
    | some recovery =>
      simp only [found] at done
      cases done
      have before := waits self.fcPathId
      rw [waiting_some found] at before
      exact waiting_setPath waits ((onPacketSent_queue recovery pkt .application now).2.trans before)
  | pathAck pathId ranges before later now =>
    by_cases flow : pathId = self.fcPathId
    · -- The vector of the flexicast path is drained.
      subst flow
      rcases processPathAck_flow searches ordered done with
        ⟨-, rfl⟩ | ⟨held, recovery, newly, -, -, -, drained, -, rfl⟩
      · exact waits
      · exact waiting_setPath waits drained
    · have acked : self.ackPath search pathId ranges.1 before later now = some after :=
        (processPathAck_other flow).symm.trans done
      rcases ackPath_spec searches ordered acked with
        ⟨-, rfl⟩ | ⟨held, recovery, newly, found, rfl, -, -, notes, exactly⟩
      · exact waits
      · have nothing : newly = [] := by
          refine List.eq_nil_iff_forall_not_mem.mpr fun num member => ?_
          obtain ⟨there, named⟩ := (exactly num).mp member
          exact elsewhere flow num there named
        have before := waits pathId
        rw [waiting_some found] at before
        refine waiting_setPath waits ?_
        rw [Recovery.waitingAcks, notes, before, nothing]
        rfl
  | other pathId event =>
    unfold step? at done
    cases found : self.paths pathId with
    | none =>
      simp only [found] at done
      cases done
      exact waits
    | some recovery =>
      simp only [found] at done
      obtain ⟨connection, stepped, stored⟩ := Option.map_eq_some_iff.mp done
      subst stored
      have before := waits pathId
      rw [waiting_some found] at before
      rcases step_queues searches (ordered.increasing pathId recovery found) stepped with
        ⟨pkt, epoch, now, rfl, sent⟩ | ⟨ranges, epoch, _, _, _, newly, rfl, -, notes, exactly⟩ | ⟨-, notes⟩
      · exact waiting_setPath waits (sent ▸ (onPacketSent_queue recovery pkt epoch now).2.trans before)
      · -- Without a flexicast part nothing can wait.
        cases held : recovery.fcRecovery with
        | none =>
          refine waiting_setPath waits ?_
          rw [Recovery.waitingAcks, notes, Recovery.newAcks, held]
          rfl
        | some fc =>
          have nothing : newly = [] := by
            refine List.eq_nil_iff_forall_not_mem.mpr fun num member => ?_
            obtain ⟨there, named⟩ := (exactly num).mp member
            exact elsewhere ⟨recovery, found, by rw [held]; rfl⟩ num (unmarked_some found epoch ▸ there) named
          exact waiting_setPath waits ((waiting_nothing_new notes nothing).trans before)
      · exact waiting_setPath waits (notes.trans before)
  | used mcAck =>
    cases done
    exact waits

end Steps

section Runs

/--
Packets that are first acknowledged unmarked are recorded once, and no other number is; and no path keeps a number
while nothing new is acknowledged on the other paths.
-/
theorem acks_recorded_once {search : List Nat → Nat → Nat} (searches : Searches search) (fcPathId : Nat)
    (events : List AckEvent) (increases : Runs.Along (next search) Increases (some (new fcPathId)) events)
    {final : AckServer} (reached : Runs.run (next search) (some (new fcPathId)) events = some final) :
    (Runs.Along (next search) FirstHeardUnmarked (some (new fcPathId)) events → ∀ num, final.RecordedOnce num) ∧
      (Runs.Along (next search) NothingNewElsewhere (some (new fcPathId)) events → final.Drained) := by
  have ordered : (new fcPathId).Ordered :=
    ⟨fun _ _ found => by simp [new] at found, fun _ found => by simp [new] at found⟩
  constructor
  · intro first
    have recorded : (new fcPathId).Recorded :=
      ⟨rfl, RangeSet.wf_default, fun num member => absurd member List.not_mem_nil,
        fun num => ⟨by simp [new, passedNums], by simp [new]⟩⟩
    refine (Runs.Along.keeps_some (step? search) (fun server => server.Ordered ∧ server.Recorded) ?_
      ⟨ordered, recorded⟩ (increases.and first) reached).2.once
    rintro self event after ⟨ordered, recorded⟩ ⟨increases, first⟩ done
    exact ⟨(ordered.step searches increases done).1, recorded.step searches ordered increases first done⟩
  · intro elsewhere
    refine drained_iff.mpr (Runs.Along.keeps_some (step? search)
      (fun server => server.Ordered ∧ ∀ pathId, server.waiting pathId = []) ?_
      ⟨ordered, fun _ => rfl⟩ (increases.and elsewhere) reached).2
    rintro self event after ⟨ordered, waits⟩ ⟨increases, elsewhere⟩ done
    exact ⟨(ordered.step searches increases done).1, waiting_step searches ordered elsewhere waits done⟩

instance : (state : Option AckServer) → (event : AckEvent) → Decidable (Increases state event)
  | some self, .registered pkt _ => inferInstanceAs (Decidable (∀ num ∈ self.registered, num < pkt.pktNum))
  | some self, .other pathId (.sent pkt epoch _) =>
    inferInstanceAs (Decidable (¬ (pathId = self.fcPathId ∧ epoch = .application) ∧
      ∀ recovery ∈ self.paths pathId, ∀ held ∈ (recovery.epochs epoch).sentPackets, held.pktNum < pkt.pktNum))
  | some _, .opened _ | some _, .pathAck .. | some _, .used _ | none, _ => isTrue trivial
  | some _, .other _ (.acked ..) | some _, .other _ (.lossDetection ..) | some _, .other _ (.timeout ..)
  | some _, .other _ (.discarded ..) | some _, .other _ .markedAll | some _, .other _ (.copied ..)
  | some _, .other _ (.changed ..) | some _, .other _ (.initialised ..) => isTrue trivial

instance : (state : Option AckServer) → (event : AckEvent) → Decidable (FirstHeardUnmarked state event)
  | some self, .registered pkt _ => inferInstanceAs (Decidable (¬ self.Heard pkt.pktNum))
  | some self, .pathAck pathId ranges _ _ _ => inferInstanceAs (Decidable (pathId = self.fcPathId →
      ∀ num ∈ self.registered, ranges.1.Contains num → self.Heard num ∨ num ∈ self.unmarked pathId .application))
  | some self, .other pathId (.acked ranges epoch _ _ _) => inferInstanceAs (Decidable (pathId = self.fcPathId →
      ∀ num ∈ self.unmarked pathId epoch, ¬ ranges.1.Contains num))
  | some _, .opened _ | some _, .used _ | none, _ => isTrue trivial
  | some _, .other _ (.sent ..) | some _, .other _ (.lossDetection ..) | some _, .other _ (.timeout ..)
  | some _, .other _ (.discarded ..) | some _, .other _ .markedAll | some _, .other _ (.copied ..)
  | some _, .other _ (.changed ..) | some _, .other _ (.initialised ..) => isTrue trivial

instance : (state : Option AckServer) → (event : AckEvent) → Decidable (NothingNewElsewhere state event)
  | some self, .pathAck pathId ranges _ _ _ => inferInstanceAs (Decidable (pathId ≠ self.fcPathId →
      ∀ num ∈ self.unmarked pathId .application, ¬ ranges.1.Contains num))
  | some self, .other pathId (.acked ranges epoch _ _ _) => inferInstanceAs (Decidable (
      (∃ recovery ∈ self.paths pathId, recovery.fcRecovery.isSome = true) →
        ∀ num ∈ self.unmarked pathId epoch, ¬ ranges.1.Contains num))
  | some _, .opened _ | some _, .registered .. | some _, .used _ | none, _ => isTrue trivial
  | some _, .other _ (.sent ..) | some _, .other _ (.lossDetection ..) | some _, .other _ (.timeout ..)
  | some _, .other _ (.discarded ..) | some _, .other _ .markedAll | some _, .other _ (.copied ..)
  | some _, .other _ (.changed ..) | some _, .other _ (.initialised ..) => isTrue trivial

/-- A path is opened and set up, five packets are registered on it, and one of them is acknowledged. -/
def fiveRegistered (heard : Nat) : List AckEvent :=
  [.opened 1, .other 1 (.initialised (.serverUnicast ()))] ++
    (List.range 5).map (fun pktNum => .registered (flightPacket pktNum) pktNum) ++
    [.pathAck 1 (ackOf heard) secondTiming secondTiming 20]

theorem searches_firstAtLeast : Searches firstAtLeast := fun _ _ _ => rfl

theorem acks_recorded_once_lastTwo :
    let events := fiveRegistered 4 ++ [.pathAck 1 (ackOf 3) secondTiming secondTiming 30]
    (Runs.run (next firstAtLeast) (some (new 1)) events).map passedNums = some [4, 3] ∧
      ∀ final, Runs.run (next firstAtLeast) (some (new 1)) events = some final →
        (∀ num, final.RecordedOnce num) ∧ final.Drained := by
  intro events
  have increases : Runs.Along (next firstAtLeast) Increases (some (new 1)) events := by decide
  have first : Runs.Along (next firstAtLeast) FirstHeardUnmarked (some (new 1)) events := by decide
  have elsewhere : Runs.Along (next firstAtLeast) NothingNewElsewhere (some (new 1)) events := by decide
  refine ⟨by decide, fun final reached => ?_⟩
  obtain ⟨recorded, drained⟩ := acks_recorded_once searches_firstAtLeast 1 events increases reached
  exact ⟨recorded first, drained elsewhere⟩

/-- A packet that was declared lost is not recorded when it is acknowledged, and a PATH_ACK of another path leaves
its numbers behind. -/
theorem lost_then_acked_unrecorded :
    (¬ ∀ (search : List Nat → Nat → Nat) (_ : Searches search) (fcPathId : Nat) (events : List AckEvent)
      (_ : Runs.Along (next search) Increases (some (new fcPathId)) events) (final : AckServer),
      Runs.run (next search) (some (new fcPathId)) events = some final → ∀ num, final.RecordedOnce num) ∧
    ¬ ∀ (search : List Nat → Nat → Nat) (_ : Searches search) (fcPathId : Nat) (events : List AckEvent)
      (pathId : Nat) (ranges : AckRanges) (before after : Timing) (now : Int)
      (_ : Runs.Along (next search) Increases (some (new fcPathId))
        (events ++ [.pathAck pathId ranges before after now])) (final : AckServer),
      Runs.run (next search) (some (new fcPathId)) (events ++ [.pathAck pathId ranges before after now]) =
        some final → final.Drained := by
  constructor
  · -- The acknowledgment of packet four makes packet zero lost, and then packet zero is acknowledged.
    intro always
    let events := fiveRegistered 4 ++ [.pathAck 1 (ackOf 0) secondTiming secondTiming 30]
    have increases : Runs.Along (next firstAtLeast) Increases (some (new 1)) events := by decide
    have missed : (Runs.run (next firstAtLeast) (some (new 1)) events).map (fun final =>
        decide (final.RecordedOnce 0)) = some false := by decide
    obtain ⟨final, reached, unrecorded⟩ := Option.map_eq_some_iff.mp missed
    exact of_decide_eq_false unrecorded (always firstAtLeast searches_firstAtLeast 1 events increases final reached 0)
  · -- Path zero is acknowledged, and its vector stays filled.
    intro always
    have increases : Runs.Along (next firstAtLeast) Increases (some (new 1))
        ([.opened 0, .other 0 (.sent (flightPacket 0) .application 0)] ++
          [.pathAck 0 (ackOf 0) secondTiming secondTiming 20]) := by decide
    have left : (Runs.run (next firstAtLeast) (some (new 1))
        ([.opened 0, .other 0 (.sent (flightPacket 0) .application 0)] ++
          [.pathAck 0 (ackOf 0) secondTiming secondTiming 20])).map (fun final => final.waiting 0) = some [0] := by
      decide
    obtain ⟨final, reached, kept⟩ := Option.map_eq_some_iff.mp left
    have drained := always firstAtLeast searches_firstAtLeast 1 _ 0 (ackOf 0) secondTiming secondTiming 20 increases
      final reached
    rw [drained_iff.mp drained 0] at kept
    simp at kept

end Runs

end AckServer

end Loss

end Flexicast
