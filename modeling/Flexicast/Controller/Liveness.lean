import Flexicast.Controller.FcController
import Flexicast.Recovery.Replica

/-! The scheduler by which a unicast instance decides whether its flow is alive, of `asynchronous/scheduler.rs`. -/

namespace Flexicast

section Definitions

/-- Decides whether the flexicast flow works for a receiver; instants are integers. -/
structure FcFlowAliveScheduler where
  /-- Last (highest) packet number received on the flow. -/
  fcfLastRecv : Option Nat
  fcfNextTimeout : Option Int
  /-- Whether the receiver currently receives data through the flow. -/
  fcfAlive : Bool
  /-- The delay before the receiver falls back on the unicast path. -/
  fallBackDelay : Option Nat
  didUcRetransmit : Bool

namespace FcFlowAliveScheduler

/-- A new scheduler, of a flow that is alive if an instant is given. -/
def new (fallBackDelay : Option Nat) (now : Option Int) : FcFlowAliveScheduler :=
  ⟨none, none, now.isSome, fallBackDelay, false⟩

/-- The timeout that starts now, if there is a delay. -/
def startTimeout (self : FcFlowAliveScheduler) (now : Int) : Option Int :=
  self.fallBackDelay.map fun delay => now + delay

/-- Whether a packet number is larger than the last one. -/
def isNew (self : FcFlowAliveScheduler) (lastPn : Nat) : Bool := (self.fcfLastRecv.map (decide <| · < lastPn)).getD true

/-- Updates the flow on an acknowledgment, and tells whether it was not alive and now is. -/
def onAckReceived (self : FcFlowAliveScheduler) (lastPn : Nat) (now : Int) (bytesInFlight : Bool) :
    FcFlowAliveScheduler × Bool :=
  let wasAlive := self.fcfAlive
  let self := if self.isNew lastPn then { self with
      fcfLastRecv := some lastPn
      fcfAlive := true
      didUcRetransmit := false
      fcfNextTimeout := if bytesInFlight then self.startTimeout now else none }
    else self
  (self, !wasAlive && self.fcfAlive)

/-- The time until the flow times out. -/
def fcfTimeout (self : FcFlowAliveScheduler) (now : Int) : Option Nat :=
  -- A flow that is already dead does not time out.
  if !self.fcfAlive then none else self.fcfNextTimeout.map fun instant => (instant - now).toNat

/-- Whether the receiver should fall back on unicast. -/
def shouldUcFallBack (self : FcFlowAliveScheduler) (now : Int) : Bool := self.fcfTimeout now == some 0

/-- The receiver falls back on unicast. -/
def ucFallBack (self : FcFlowAliveScheduler) : FcFlowAliveScheduler :=
  { self with fcfNextTimeout := none, fcfAlive := false }

/-- Starts listening to the flow, which is considered alive. -/
def setFcfAlive (self : FcFlowAliveScheduler) : FcFlowAliveScheduler :=
  { self with fcfAlive := true, fcfNextTimeout := none }

/-- New packets were sent on the flow, which starts a timeout unless one runs. -/
def onPacketSent (self : FcFlowAliveScheduler) (now : Int) : FcFlowAliveScheduler :=
  if !self.fcfAlive then self
  else if self.fcfNextTimeout.isNone then { self with fcfNextTimeout := self.startTimeout now }
  else self

end FcFlowAliveScheduler

/-- What the connection makes of a packet of the receiver. -/
structure Received where
  /-- The packet numbers of the flow that the packet acknowledges. -/
  acked : List Nat
  /-- Whether a join comes with the packet while the server is aware of the flows and the receiver is in none. -/
  rejoins : Bool
  /-- The joined channel after the packet. -/
  fcChanId : Option Nat
  /-- Whether the flexicast path exists after the packet. -/
  hasPath : Bool
  /-- Whether the receiver listens to the flexicast path after the packet. -/
  listens : Bool
  /-- Whether bytes are in flight on a path after the packet; paths go by their place. -/
  bytesInFlight : Nat → Option Bool

/-- The unicast instance of a receiver, as far as it follows the flow. -/
structure Client where
  conn : Loss.Connection
  /-- Whether the status of the receiver is `ListenMcPath(true)`. -/
  listens : Bool
  clientId : Nat
  /-- Whether the controller knows that the receiver joined. -/
  listenFcChannel : Bool
  /-- Whether the controller knows that the receiver is ready. -/
  sentReady : Bool
  fcfScheduler : Option FcFlowAliveScheduler
  /-- Whether the task has panicked or has returned an error. -/
  ended : Bool

namespace Client

/-- The index of the joined channel. -/
def fcChanId (self : Client) : Option Nat := self.conn.flexicast.bind Loss.FcState.fcChanId

/-- The number behind the highest packet that was sent on the flow, as far as the instance knows. -/
def fcHighestPn (self : Client) : Option Nat := (self.conn.flexicast.bind Loss.FcState.fcHighestPn).join

/-- What the packet leaves of the connection. -/
def connRecv (self : Client) (received : Received) : Client :=
  { self with
    listens := received.listens
    conn := { self.conn with flexicast := self.conn.flexicast.map fun flexicast =>
      { flexicast with
        -- Such a join resets the reliable state, and the number with it.
        fcHighestPn := if received.rejoins then some none else flexicast.fcHighestPn
        fcChanId := received.fcChanId
        hasPath := received.hasPath } } }

/-- Handles a packet of the receiver, and what is sent to the controller. -/
def recv (self : Client) (received : Received) (now : Int) : Client × List MsgFcCtl :=
  let self := self.connRecv received
  match self.fcfScheduler, self.fcHighestPn, self.fcChanId with
  | some scheduler, some pn, some fcChanId =>
    -- The bytes in flight are looked up by the index of the channel, which is taken for a path.
    let (scheduler, nowAlive) :=
      scheduler.onAckReceived pn now ((received.bytesInFlight fcChanId).getD false)
    ({ self with fcfScheduler := some scheduler },
      if nowAlive then [.join self.clientId fcChanId] else [])
  | _, _, _ => (self, [])

/-- Handles a message of the controller. -/
def handleCtlMsg (self : Client) (now : Int) : MsgRecv → Client
  | .closeRtp => self
  | .newHighestPn _ pn =>
    match self.conn.fcSetHighestFcPn pn with
    | (conn, .ok ()) => { self with conn := conn }
    | (conn, .error _) => { self with conn := conn, ended := true }
  | .sent fcId sent =>
    { self with
      conn := (self.conn.fcOnNewPktSent fcId sent now).1
      fcfScheduler := self.fcfScheduler.map (·.onPacketSent now) }
  | .delegateStreams _ _ => self
  | .rtpData _ _ => self

/-- The timer of the flow fires. -/
def flowTimeout (self : Client) (now : Int) : Client × List MsgFcCtl :=
  match self.fcfScheduler with
  | none => (self, [])
  | some scheduler =>
    if scheduler.shouldUcFallBack now then
      let self := { self with fcfScheduler := some scheduler.ucFallBack }
      match self.fcChanId with
      | some fcChanId => (self, [.recvUcFallBack self.clientId fcChanId])
      | none => ({ self with ended := true }, [])
    else (self, [])

/-- Informs the controller that the receiver has joined a channel. -/
def announceJoin (self : Client) : Client × List MsgFcCtl :=
  match self.fcChanId with
  | some fcChanId =>
    if self.listenFcChannel then (self, [])
    else ({ self with listenFcChannel := true }, [.join self.clientId fcChanId])
  | none => (self, [])

/-- Informs the controller that the receiver is ready. -/
def announceReady (self : Client) : Client × List MsgFcCtl :=
  if !self.sentReady && self.conn.flexicast.isSome && self.listens then
    ({ self with
      sentReady := true
      fcfScheduler := self.fcfScheduler.map FcFlowAliveScheduler.setFcfAlive }, [.recvReady self.clientId])
  else (self, [])

/-- What the loop tells the controller after every event. -/
def announce (self : Client) : Client × List MsgFcCtl :=
  let (self, joined) := self.announceJoin
  let (self, ready) := self.announceReady
  (self, joined ++ ready)

end Client

/-- What a unicast instance wakes up for. -/
inductive ClientEvent where
  /-- The timer of the connection. -/
  | connTimeout
  | flowTimeout (now : Int)
  | ctlMsg (now : Int) (msg : MsgRecv)
  | packet (now : Int) (received : Received)

/-- A unicast instance with what it has sent and what its receiver has acknowledged. -/
structure Feedback where
  client : Client
  posts : List MsgFcCtl
  /-- The largest packet number of the flow that the receiver acknowledged. -/
  largestAcked : Option Nat
  /-- Whether the receiver has fallen back on unicast. -/
  fellBack : Bool

namespace Feedback

/-- An instance before its first event. -/
def start (conn : Loss.Connection) (clientId : Nat) (fallBackDelay : Option Nat) : Feedback where
  client := ⟨conn, false, clientId, false, false, fallBackDelay.map fun delay => .new (some delay) none, false⟩
  posts := []
  largestAcked := none
  fellBack := false

/-- What wakes the instance up is handled first. -/
def select (client : Client) : ClientEvent → Client × List MsgFcCtl
  | .connTimeout => (client, [])
  | .flowTimeout now => client.flowTimeout now
  | .ctlMsg now msg => (client.handleCtlMsg now msg, [])
  | .packet now received => client.recv received now

/-- The packet numbers of the flow that an event acknowledges. -/
def acked : ClientEvent → List Nat
  | .packet _ received => received.acked
  | .connTimeout | .flowTimeout _ | .ctlMsg _ _ => []

/-- One turn of the loop of the instance; a task that has ended takes none. -/
def next (self : Feedback) (event : ClientEvent) : Feedback :=
  if self.client.ended then self
  else
    let (woken, answers) := select self.client event
    let (client, announced) := if woken.ended then (woken, []) else woken.announce
    { client := client
      posts := self.posts ++ answers ++ announced
      largestAcked := (acked event).foldl (fun largest pn => some ((largest.map (max · pn)).getD pn)) self.largestAcked
      fellBack := self.fellBack || answers.any fun
        | .recvUcFallBack _ _ => true
        | _ => false }

/-- A running timeout was moved to a later instant, or was taken away without firing. -/
def Postponed (before after : FcFlowAliveScheduler) : Prop :=
  after.fcfAlive = true ∧ ∃ instant ∈ before.fcfNextTimeout, ∀ later ∈ after.fcfNextTimeout, instant < later

/-- A flow that the receiver fell back from is declared alive again. -/
def Revived (self : Feedback) (before after : FcFlowAliveScheduler) : Prop :=
  self.fellBack = true ∧ before.fcfAlive = false ∧ after.fcfAlive = true

/-- The event is a packet that acknowledges a larger packet number of the flow than any before. -/
def LargerAcked (self : Feedback) (event : ClientEvent) : Prop :=
  ∃ pn ∈ acked event, ∀ held ∈ self.largestAcked, held < pn

/-- The timeout is postponed, and the flow revived, only by an acknowledgment of a larger packet number. -/
def OnlyOnFeedback (self : Feedback) (event : ClientEvent) : Prop :=
  ∀ before ∈ self.client.fcfScheduler, ∀ after ∈ (self.next event).client.fcfScheduler,
    Postponed before after ∨ self.Revived before after → self.LargerAcked event

/-- Whether the loop finds the receiver listening for the first time after a packet. -/
def becomesReady (client : Client) (received : Received) : Bool :=
  !client.sentReady && client.conn.flexicast.isSome && received.listens

/-- The flow sent a packet that the scheduler was not told of, and the packet of the receiver leaves it a channel. -/
def Ahead (client : Client) (received : Received) (scheduler : FcFlowAliveScheduler) : Prop :=
  received.rejoins = false ∧ received.fcChanId.isSome = true ∧ ∃ pn ∈ client.fcHighestPn, scheduler.isNew pn = true

/-- A timeout runs, or the receiver has fallen back and the flow is dead. -/
def AtStake (self : Feedback) (scheduler : FcFlowAliveScheduler) : Prop :=
  scheduler.fcfNextTimeout.isSome = true ∨ (self.fellBack = true ∧ scheduler.fcfAlive = false)

/--
While a timeout runs or the flow is dead, the receiver answers what was sent on the flow: its first packet after that
acknowledges a larger number, and so does the one after which it listens for the first time.
-/
def Answers (self : Feedback) : ClientEvent → Prop
  | .packet now received => self.client.ended = false → ∀ scheduler ∈ self.client.fcfScheduler,
    self.AtStake scheduler → Ahead self.client received scheduler ∨ becomesReady self.client received = true →
      self.LargerAcked (.packet now received)
  | .connTimeout | .flowTimeout _ | .ctlMsg _ _ => True

end Feedback

end Definitions

namespace FcFlowAliveScheduler

variable {self : FcFlowAliveScheduler}

theorem onAckReceived_old {lastPn : Nat} (old : self.isNew lastPn = false) (now : Int) (bytesInFlight : Bool) :
    (self.onAckReceived lastPn now bytesInFlight).1 = self := by
  simp [onAckReceived, old]

theorem onPacketSent_keeps (now : Int) :
    (self.onPacketSent now).fcfAlive = self.fcfAlive ∧
      ∀ instant ∈ self.fcfNextTimeout, (self.onPacketSent now).fcfNextTimeout = some instant := by
  -- A timeout starts only where none runs.
  unfold onPacketSent
  split
  · exact ⟨rfl, fun _ held => held⟩
  · split
    · exact ⟨rfl, fun instant held => by simp_all⟩
    · exact ⟨rfl, fun _ held => held⟩

end FcFlowAliveScheduler

namespace Client

variable (self : Client)

theorem announceJoin_keeps :
    self.announceJoin.1.fcfScheduler = self.fcfScheduler ∧ self.announceJoin.1.conn = self.conn ∧
      self.announceJoin.1.listens = self.listens ∧ self.announceJoin.1.sentReady = self.sentReady ∧
      self.announceJoin.1.ended = self.ended := by
  -- At most the record that the join was announced is written.
  unfold announceJoin
  cases self.fcChanId with
  | none => exact ⟨rfl, rfl, rfl, rfl, rfl⟩
  | some fcChanId =>
    dsimp only
    split <;> exact ⟨rfl, rfl, rfl, rfl, rfl⟩

theorem announce_quiet (quiet : (!self.sentReady && self.conn.flexicast.isSome && self.listens) = false) :
    self.announce.1.fcfScheduler = self.fcfScheduler ∧ self.announce.1.sentReady = self.sentReady := by
  -- The join comes first, and keeps what the readiness depends on.
  obtain ⟨scheduler, conn, listens, ready, -⟩ := self.announceJoin_keeps
  simp only [announce, announceReady, conn, listens, ready, quiet, scheduler, Bool.false_eq_true, if_false, and_self]

theorem announce_first (first : (!self.sentReady && self.conn.flexicast.isSome && self.listens) = true) :
    self.announce.1.fcfScheduler = self.fcfScheduler.map FcFlowAliveScheduler.setFcfAlive := by
  obtain ⟨scheduler, conn, listens, ready, -⟩ := self.announceJoin_keeps
  simp only [announce, announceReady, conn, listens, ready, first, scheduler, if_true]

theorem announce_keeps : self.announce.1.conn = self.conn ∧ self.announce.1.listens = self.listens := by
  obtain ⟨-, conn, listens, -, -⟩ := self.announceJoin_keeps
  unfold announce announceReady
  dsimp only
  split <;> exact ⟨conn, listens⟩

theorem announce_told (flexicast : self.conn.flexicast.isSome = true) (listening : self.listens = true) :
    self.announce.1.sentReady = true := by
  obtain ⟨-, conn, listens, ready, -⟩ := self.announceJoin_keeps
  unfold announce announceReady
  dsimp only
  split
  · rfl
  · simp_all

/-- A scheduler that is not moved: it is alive only if it was, and then a running timeout stays. -/
structure Still (before after : FcFlowAliveScheduler) : Prop where
  alive : after.fcfAlive = true → before.fcfAlive = true
  timeout : after.fcfAlive = true → ∀ instant ∈ before.fcfNextTimeout, after.fcfNextTimeout = some instant

/-- What an event that brings no packet keeps: the status of the receiver, and a scheduler that is not moved. -/
structure Keeps (before after : Client) : Prop where
  listens : after.listens = before.listens
  sentReady : after.sentReady = before.sentReady
  flexicast : after.conn.flexicast.isSome = before.conn.flexicast.isSome
  scheduler : ∀ moved ∈ after.fcfScheduler, ∃ held ∈ before.fcfScheduler, Still held moved

theorem Still.refl (held : FcFlowAliveScheduler) : Still held held := ⟨id, fun _ _ same => same⟩

theorem Keeps.refl : Keeps self self := ⟨rfl, rfl, rfl, fun held same => ⟨held, same, Still.refl held⟩⟩

theorem flowTimeout_keeps (now : Int) : Keeps self (self.flowTimeout now).1 := by
  unfold flowTimeout
  cases same : self.fcfScheduler with
  | none => exact Keeps.refl self
  | some scheduler =>
    dsimp only
    split
    · -- The receiver falls back, whether or not its channel is known.
      have still : Still scheduler scheduler.ucFallBack :=
        ⟨fun alive => (nomatch alive), fun alive => (nomatch alive)⟩
      split <;> exact ⟨rfl, rfl, rfl, fun moved held => by
        cases held
        exact ⟨scheduler, same, still⟩⟩
    · exact Keeps.refl self

theorem fcSetHighestFcPn_isSome (conn : Loss.Connection) (pn : Nat) :
    (conn.fcSetHighestFcPn pn).1.flexicast.isSome = conn.flexicast.isSome := by
  unfold Loss.Connection.fcSetHighestFcPn
  cases same : conn.flexicast <;> simp [same]

/-- Recording packets leaves a flexicast connection one. -/
theorem fcOnNewPktSent_isSome (conn : Loss.Connection) (fcId : Nat) (sent : List Loss.Sent) (now : Int) :
    (conn.fcOnNewPktSent fcId sent now).1.flexicast.isSome = conn.flexicast.isSome := by
  -- Every branch either keeps the flexicast state or moves its mark.
  unfold Loss.Connection.fcOnNewPktSent
  cases same : conn.flexicast with
  | none => simp [same]
  | some flexicast =>
    dsimp only
    split
    · simp [same]
    · cases flexicast.fcHighestPn with
      | none => simp [same]
      | some highestPn =>
        cases sent.getLast? <;> dsimp only <;> split <;> first | rfl | (split <;> rfl)

/-- A message of the controller starts a timeout at most. -/
theorem handleCtlMsg_keeps (now : Int) (msg : MsgRecv) : Keeps self (self.handleCtlMsg now msg) := by
  -- The mark of the connection moves, which the scheduler sees with the next packet only.
  cases msg with
  | closeRtp => exact Keeps.refl self
  | delegateStreams fcId pieces => exact Keeps.refl self
  | rtpData data streamId => exact Keeps.refl self
  | newHighestPn fcId pn =>
    have some := fcSetHighestFcPn_isSome self.conn pn
    unfold handleCtlMsg
    dsimp only
    split <;> rename_i set
    · exact ⟨rfl, rfl, by simpa [set] using some, fun held same => ⟨held, same, Still.refl held⟩⟩
    · exact ⟨rfl, rfl, by simpa [set] using some, fun held same => ⟨held, same, Still.refl held⟩⟩
  | sent fcId sent =>
    refine ⟨rfl, rfl, fcOnNewPktSent_isSome self.conn fcId sent now, fun moved held => ?_⟩
    obtain ⟨scheduler, same, rfl⟩ := Option.map_eq_some_iff.mp held
    obtain ⟨alive, timeout⟩ := scheduler.onPacketSent_keeps now
    exact ⟨scheduler, same, fun after => alive ▸ after, fun _ => timeout⟩

end Client

namespace Feedback

section Moving

variable {self : Feedback}

/-- The controller knows that a receiver that listens is ready. -/
def Told (self : Feedback) : Prop :=
  self.client.conn.flexicast.isSome = true → self.client.listens = true → self.client.sentReady = true

theorem select_keeps (client : Client) {event : ClientEvent} (silent : ∀ now received, event ≠ .packet now received) :
    Client.Keeps client (select client event).1 := by
  cases event with
  | connTimeout => exact Client.Keeps.refl client
  | flowTimeout now => exact client.flowTimeout_keeps now
  | ctlMsg now msg => exact client.handleCtlMsg_keeps now msg
  | packet now received => exact absurd rfl (silent now received)

theorem next_client (alive : self.client.ended = false) (event : ClientEvent) :
    (self.next event).client =
      if (select self.client event).1.ended then (select self.client event).1
      else (select self.client event).1.announce.1 := by
  simp only [next, alive, Bool.false_eq_true, if_false]
  split <;> rfl

/-- Whatever wakes the instance up without a packet, its scheduler is not moved. -/
theorem next_silent (told : self.Told) (alive : self.client.ended = false) {event : ClientEvent}
    (silent : ∀ now received, event ≠ .packet now received) : Client.Keeps self.client (self.next event).client := by
  have keeps := select_keeps self.client silent
  rw [next_client alive]
  split
  · exact keeps
  · -- The receiver is known to be ready if it listens, so nothing is announced that concerns the scheduler.
    generalize (select self.client event).1 = woken at keeps ⊢
    have quiet : (!woken.sentReady && woken.conn.flexicast.isSome && woken.listens) = false := by
      rw [keeps.sentReady, keeps.flexicast, keeps.listens]
      unfold Told at told
      cases ready : self.client.sentReady <;> cases some : self.client.conn.flexicast.isSome <;>
        cases listening : self.client.listens <;> simp_all
    obtain ⟨scheduler, ready⟩ := woken.announce_quiet quiet
    obtain ⟨conn, listens⟩ := woken.announce_keeps
    constructor
    · exact listens.trans keeps.listens
    · exact ready.trans keeps.sentReady
    · rw [conn]
      exact keeps.flexicast
    · rw [scheduler]
      exact keeps.scheduler

/-- The number that the scheduler is given after a packet. -/
def feeds (client : Client) (received : Received) : Option Nat :=
  received.fcChanId.bind fun _ => if received.rejoins then none else client.fcHighestPn

/-- Whether bytes are in flight, as the scheduler is told after a packet. -/
def inFlight (received : Received) : Bool := (received.fcChanId.bind received.bytesInFlight).getD false

/-- The scheduler after it was given a number, if it is given one. -/
def fed (scheduler : FcFlowAliveScheduler) (given : Option Nat) (now : Int) (bytesInFlight : Bool) :
    FcFlowAliveScheduler :=
  (given.map fun pn => (scheduler.onAckReceived pn now bytesInFlight).1).getD scheduler

theorem recv_spec (client : Client) (received : Received) (now : Int) :
    (client.recv received now).1.conn = (client.connRecv received).conn ∧
      (client.recv received now).1.listens = received.listens ∧
      (client.recv received now).1.sentReady = client.sentReady ∧
      (client.recv received now).1.ended = client.ended ∧
      (client.recv received now).1.fcfScheduler =
        client.fcfScheduler.map (fed · (feeds client received) now (inFlight received)) := by
  -- Without a scheduler, a mark or a channel, only the connection moves.
  cases scheduler : client.fcfScheduler with
  | none => simp [Client.recv, Client.connRecv, scheduler]
  | some held =>
    cases flexicast : client.conn.flexicast with
    | none =>
      have unfed : feeds client received = none := by simp [feeds, Client.fcHighestPn, flexicast]
      simp [Client.recv, Client.connRecv, Client.fcHighestPn, scheduler, flexicast, unfed, fed]
    | some state =>
      -- A join that starts over leaves no mark.
      cases mark : state.fcHighestPn.join <;> cases chan : received.fcChanId <;> cases again : received.rejoins <;>
        simp [Client.recv, Client.connRecv, Client.fcHighestPn, Client.fcChanId, scheduler, flexicast, mark, chan,
          again, feeds, inFlight, fed]

theorem next_packet (alive : self.client.ended = false) {scheduler : FcFlowAliveScheduler}
    (present : self.client.fcfScheduler = some scheduler) (now : Int) (received : Received) :
    (self.next (.packet now received)).client.fcfScheduler =
      some (if becomesReady self.client received
        then (fed scheduler (feeds self.client received) now (inFlight received)).setFcfAlive
        else fed scheduler (feeds self.client received) now (inFlight received)) := by
  -- The packet is handled first, and what is announced depends on what it leaves.
  obtain ⟨conn, listens, ready, ended, moved⟩ := recv_spec self.client received now
  rw [present, Option.map_some] at moved
  have woken : (!(self.client.recv received now).1.sentReady &&
      (self.client.recv received now).1.conn.flexicast.isSome && (self.client.recv received now).1.listens) =
      becomesReady self.client received := by
    simp [conn, listens, ready, becomesReady, Client.connRecv]
  rw [next_client alive]
  simp only [select, ended, alive, Bool.false_eq_true, if_false]
  split <;> rename_i first
  · rw [Client.announce_first _ (woken.trans first), moved, Option.map_some]
  · rw [(Client.announce_quiet _ (woken.trans (by simpa using first))).1, moved]

theorem still_unmoved {before after : FcFlowAliveScheduler} (still : Client.Still before after) :
    ¬ (Postponed before after ∨ self.Revived before after) := by
  rintro (⟨alive, instant, held, later⟩ | ⟨-, dead, alive⟩)
  · exact absurd (later instant (still.timeout alive instant held)) (lt_irrefl instant)
  · exact absurd (still.alive alive) (by simp [dead])

/-- After every turn of the loop, the controller knows that a receiver that listens is ready. -/
theorem Told.next (told : self.Told) (event : ClientEvent) : (self.next event).Told := by
  cases alive : self.client.ended with
  | true => simpa [Feedback.next, alive] using told
  | false =>
    by_cases silent : ∀ now received, event ≠ .packet now received
    · have keeps := next_silent told alive silent
      unfold Told
      rw [keeps.flexicast, keeps.listens, keeps.sentReady]
      exact told
    · -- Only a packet changes the status of the receiver, and what is announced follows it.
      obtain ⟨now, received, rfl⟩ : ∃ now received, event = .packet now received := by simpa using silent
      obtain ⟨-, -, -, ended, -⟩ := recv_spec self.client received now
      obtain ⟨conn, listens⟩ := (self.client.recv received now).1.announce_keeps
      unfold Told
      rw [next_client alive, if_neg (by simp [select, ended, alive])]
      simp only [select, conn, listens]
      exact Client.announce_told _

/-- A packet of a receiver that answers moves the timeout and revives the flow on feedback only. -/
theorem onlyOnFeedback_packet (alive : self.client.ended = false) {now : Int} {received : Received}
    (answers : self.Answers (.packet now received)) : self.OnlyOnFeedback (.packet now received) := by
  intro scheduler present after reached moved
  have stake : self.AtStake scheduler := by
    rcases moved with ⟨-, instant, held, -⟩ | ⟨fallen, dead, -⟩
    · exact .inl (Option.isSome_of_mem held)
    · exact .inr ⟨fallen, dead⟩
  have answered := answers alive scheduler present stake
  by_cases first : becomesReady self.client received = true
  · exact answered (.inr first)
  by_cases ahead : Ahead self.client received scheduler
  · exact answered (.inl ahead)
  -- Otherwise the scheduler hears nothing new, and stays as it is.
  have same : fed scheduler (feeds self.client received) now (inFlight received) = scheduler := by
    cases given : feeds self.client received with
    | none => rfl
    | some pn =>
      refine FcFlowAliveScheduler.onAckReceived_old ?_ now _
      rw [← Bool.not_eq_true]
      intro fresh
      obtain ⟨fcChanId, joined, mark⟩ := Option.bind_eq_some_iff.mp given
      cases rejoined : received.rejoins with
      | true => simp [rejoined] at mark
      | false => exact ahead ⟨rejoined, by simp [joined], pn, by simpa [rejoined] using mark, fresh⟩
  rw [next_packet alive present now received, if_neg first, same] at reached
  cases reached
  exact absurd moved (still_unmoved (Client.Still.refl scheduler))

theorem onlyOnFeedback_of_answers (told : self.Told) {event : ClientEvent} (answers : self.Answers event) :
    self.OnlyOnFeedback event := by
  cases alive : self.client.ended with
  | true =>
    -- A task that has ended moves nothing.
    intro before present after same moved
    rw [next, if_pos alive, present] at same
    cases same
    exact absurd moved (still_unmoved (Client.Still.refl before))
  | false =>
    by_cases silent : ∀ now received, event ≠ .packet now received
    · intro before present after same moved
      obtain ⟨held, there, still⟩ := (next_silent told alive silent).scheduler after same
      rw [present] at there
      cases there
      exact absurd moved (still_unmoved still)
    · obtain ⟨now, received, rfl⟩ : ∃ now received, event = .packet now received := by simpa using silent
      exact onlyOnFeedback_packet alive answers

/-- In every run whose receiver answers what was sent on the flow, the timeout is postponed and the flow revived only on
feedback. -/
theorem live_on_feedback_of_answers (conn : Loss.Connection) (clientId : Nat) (fallBackDelay : Option Nat)
    (events : List ClientEvent) (answers : Runs.Along next Answers (start conn clientId fallBackDelay) events) :
    Runs.Along next OnlyOnFeedback (start conn clientId fallBackDelay) events := by
  -- The step lemma holds in every state of the run, because the start is announced correctly.
  have told : (start conn clientId fallBackDelay).Told := fun _ listening => nomatch listening
  exact Runs.Along.under (fun _ event told _ => told.next event)
    (fun _ _ told answers => onlyOnFeedback_of_answers told answers) told answers

instance (before after : FcFlowAliveScheduler) : Decidable (Postponed before after) :=
  inferInstanceAs (Decidable (_ ∧ ∃ instant ∈ before.fcfNextTimeout, ∀ later ∈ after.fcfNextTimeout, instant < later))

instance (before after : FcFlowAliveScheduler) : Decidable (self.Revived before after) :=
  inferInstanceAs (Decidable (_ ∧ _ ∧ _))

instance (event : ClientEvent) : Decidable (self.LargerAcked event) :=
  inferInstanceAs (Decidable (∃ pn ∈ acked event, ∀ held ∈ self.largestAcked, held < pn))

instance (event : ClientEvent) : Decidable (self.OnlyOnFeedback event) :=
  inferInstanceAs (Decidable (∀ before ∈ self.client.fcfScheduler, ∀ after ∈ (self.next event).client.fcfScheduler,
    Postponed before after ∨ self.Revived before after → self.LargerAcked event))

instance (scheduler : FcFlowAliveScheduler) : Decidable (self.AtStake scheduler) :=
  inferInstanceAs (Decidable (_ ∨ _ ∧ _))

instance (client : Client) (received : Received) (scheduler : FcFlowAliveScheduler) :
    Decidable (Ahead client received scheduler) :=
  inferInstanceAs (Decidable (_ ∧ _ ∧ ∃ pn ∈ client.fcHighestPn, scheduler.isNew pn = true))

instance : (event : ClientEvent) → Decidable (self.Answers event)
  | .packet now received => inferInstanceAs (Decidable (self.client.ended = false →
      ∀ scheduler ∈ self.client.fcfScheduler, self.AtStake scheduler →
        Ahead self.client received scheduler ∨ becomesReady self.client received = true →
          self.LargerAcked (.packet now received)))
  | .connTimeout | .flowTimeout _ | .ctlMsg _ _ => isTrue trivial

/-- A packet of a receiver that listens to channel zero with bytes in flight, and what it acknowledges. -/
def packetOf (acked : List Nat) (rejoins : Bool) : Received := ⟨acked, rejoins, some 0, true, true, fun _ => some true⟩

/-- A copy of a packet of the flow. -/
def copyOf (pktNum : Nat) (now : Int) : ClientEvent :=
  .ctlMsg now (.sent 0 [⟨pktNum, [], now, none, none, 100, true, true, true, false, false⟩])

/-- A connection to a receiver that has joined no flow. -/
def unjoined : Loss.Connection := .new (some ⟨.serverUnicast (), some none, none, false⟩) (.serverUnicast ()) false

/-- A receiver listens and acknowledges what is sent on the flow. It falls back once and comes back, and a packet with
which it joins again acknowledges nothing. -/
def goodReceiver : List ClientEvent :=
  [.packet 0 (packetOf [] true), copyOf 4 1, .packet 5 (packetOf [4] false), copyOf 5 6, .flowTimeout 15,
    .packet 16 (packetOf [5] false), copyOf 6 17, .packet 18 (packetOf [] true)]

theorem live_on_feedback_of_answers_good :
    (Runs.run next (start unjoined 7 (some 10)) goodReceiver).posts =
        [.join 7 0, .recvReady 7, .recvUcFallBack 7 0, .join 7 0] ∧
      Runs.Along next OnlyOnFeedback (start unjoined 7 (some 10)) goodReceiver :=
  ⟨rfl, live_on_feedback_of_answers unjoined 7 (some 10) goodReceiver (by decide)⟩

/-- A receiver listens, and its packets acknowledge nothing while packets are sent on the flow: the second one comes
before the timeout of the flow, the third one after the receiver fell back. -/
def deafReceiver : List ClientEvent :=
  [.packet 0 (packetOf [] true), copyOf 4 1, .packet 5 (packetOf [] false), copyOf 5 6, .flowTimeout 15,
    .packet 16 (packetOf [] false)]

/-- The numbers that were sent, and not acknowledged, move the timeout of the flow and revive it. -/
theorem silent_packet_postpones : ¬ ∀ conn clientId fallBackDelay events,
    Runs.Along next OnlyOnFeedback (start conn clientId fallBackDelay) events := by
  intro always
  have postponed := always unjoined 7 (some 10) deafReceiver
  exact absurd postponed (by decide)

end Moving

end Feedback

end Flexicast
