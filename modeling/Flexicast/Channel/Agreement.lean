import Flexicast.Channel.Membership
import Flexicast.Lib.Runs

/-! A client and its unicast server, and which late `MC_STATE` frames leave the server's view alone. -/

namespace Flexicast

namespace Channel

section Parties

/-- One end of a connection, which is closed once it fails to handle what it receives. -/
structure Party where
  flexicast : FlexicastAttributes
  closed : Bool
  deriving DecidableEq

namespace Party

/-- The application calls the library; a call that fails changes nothing. -/
def call (self : Party) (operation : FlexicastAttributes → Except FcError FlexicastAttributes) : Party :=
  if self.closed then self
  else
    match operation self.flexicast with
    | .ok flexicast => { self with flexicast := flexicast }
    | .error _ => self

/-- An acknowledgment or a frame is handled; a failure closes the connection. -/
def handle (self : Party) (operation : FlexicastAttributes → Except FcError FlexicastAttributes) : Party :=
  if self.closed then self
  else
    match operation self.flexicast with
    | .ok flexicast => { self with flexicast := flexicast }
    | .error _ => { self with closed := true }

/-- An `MC_STATE` frame is received. -/
def receive (self : Party) (frame : McState) (createMcPath : Except FcError Nat) : Party :=
  if self.closed then self
  else
    match self.flexicast.processMcState frame createMcPath with
    | (flexicast, .ok ()) => { self with flexicast := flexicast }
    | (flexicast, .error _) => ⟨flexicast, true⟩

/-- The frame that is sent next, and the party after sending it. -/
def send? (self : Party) : Option (McState × Party) :=
  if self.closed || !self.flexicast.shouldSendFcState then none
  else
    match self.flexicast.stateFrame with
    | .ok frame => some (frame, { self with flexicast := { self.flexicast with mcStateInFlight := true } })
    | .error _ => none

end Party

/-- A client and its server, with the frames that were sent so far. -/
structure System where
  /-- The client, once a channel was announced to it. -/
  client : Option Party
  server : Party
  /-- The frames of the client, in the order they were sent. -/
  sent : List McState
  serverSent : List McState
  /-- Whether the newest frame of the client was processed. -/
  newestProcessed : Bool
  deriving DecidableEq

/-- What may happen; the network delivers any frame at any time, late and several times. -/
inductive Event where
  /-- The server has a new channel to announce. -/
  | announce (announced : McAnnounceData)
  | announceSent
  | announceReceived (announced : Nat)
  | announceAcked
  | announceLost (channelId : Bytes)
  | join (fcChanId : Option Bytes)
  | leave
  | change (fcChanId : Bytes)
  /-- The server asks the client to leave. -/
  | expel
  | pathCreated (pathId : Nat)
  | keySent
  | keyReceived
  | keyAcked
  | keyLost
  /-- The client sends an `MC_STATE` frame, if it has one to send. -/
  | send
  | deliver (sent : Nat) (createMcPath : Except FcError Nat)
  | acked (sent : Nat)
  | lost
  /-- The server sends an `MC_STATE` frame, if it has one to send. -/
  | serverSend
  | serverDeliver (sent : Nat)
  | serverAcked (sent : Nat)
  | serverLost

namespace System

/-- A server with the channels that it announces. -/
def new (first : McAnnounceData) (rest : List McAnnounceData) : System :=
  ⟨none,
    ⟨⟨.serverUnicast .unaware, first :: rest, false, false, false, none, none⟩, false⟩,
    [], [], false⟩

/-- The client learns of a channel. -/
def learn (client : Option Party) (announced : McAnnounceData) : Party :=
  match client with
  | some party => if party.closed then party else
    { party with flexicast := { party.flexicast with
      mcAnnounceData := party.flexicast.mcAnnounceData ++ [{ announced with isProcessed := true }] } }
  | none =>
    ⟨⟨.client .awareUnjoined, [{ announced with isProcessed := true }], false, false, false, none, none⟩, false⟩

/-- An acknowledged `MC_STATE` frame. -/
def ackedAt (frames : List McState) (position : Nat) (flexicast : FlexicastAttributes) :
    Except FcError FlexicastAttributes :=
  match frames[position]? with
  | some frame => flexicast.onMcStateAcked frame
  | none => .ok flexicast

/-- Changes the server. -/
def onServer (self : System) (change : Party → Party) : System := { self with server := change self.server }

/-- Changes the client, if there is one. -/
def onClient (self : System) (change : Party → Party) : System := { self with client := self.client.map change }

/-- One event. -/
def next (self : System) : Event → System
  | .announce announced => self.onServer fun party => party.call fun flexicast =>
      .ok { flexicast with mcAnnounceData := flexicast.mcAnnounceData ++ [announced] }
  | .announceSent => self.onServer fun party => party.call fun flexicast => .ok flexicast.sendAnnounce
  | .announceReceived position =>
    match self.server.flexicast.mcAnnounceData[position]? with
    | some announced => { self with client := some (learn self.client announced) }
    | none => self
  | .announceAcked => self.onServer fun party => party.handle (·.updateClientState .notify none)
  | .announceLost channelId => self.onServer fun party => party.handle fun flexicast =>
      .ok (flexicast.onMcAnnounceLost channelId)
  | .join fcChanId => self.onClient fun party => party.call (·.mcJoinChannel fcChanId)
  | .leave => self.onClient fun party => party.call (·.mcLeaveChannel)
  | .change fcChanId => self.onClient fun party => party.call (·.fcChangeChannel fcChanId)
  | .expel => self.onServer fun party => party.call (·.mcLeaveChannel)
  | .pathCreated pathId => self.onClient fun party => party.call fun flexicast =>
      .ok { flexicast with fcPathId := some pathId }
  | .keySent => self.onServer fun party => party.call fun flexicast => .ok flexicast.sendKey
  | .keyReceived => self.onClient fun party => party.handle (·.receiveKey)
  | .keyAcked => self.onServer fun party => party.handle fun flexicast =>
      { flexicast with mcKeyUpToDate := true }.updateClientState .decryptionKey none
  | .keyLost => self.onServer fun party => party.handle fun flexicast =>
      .ok { flexicast with mcKeyUpToDate := false }
  | .send =>
    match self.client.bind Party.send? with
    | some (frame, party) =>
      { self with client := some party, sent := self.sent ++ [frame], newestProcessed := false }
    | none => self
  | .deliver position createMcPath =>
    match self.sent[position]? with
    | some frame => { self with
        server := self.server.receive frame createMcPath
        newestProcessed := self.newestProcessed || position + 1 = self.sent.length }
    | none => self
  | .acked position => self.onClient fun party => party.handle (ackedAt self.sent position)
  | .lost => self.onClient fun party => party.handle fun flexicast =>
      .ok { flexicast with mcStateInFlight := false }
  | .serverSend =>
    match self.server.send? with
    | some (frame, party) => { self with server := party, serverSent := self.serverSent ++ [frame] }
    | none => self
  | .serverDeliver position =>
    match self.serverSent[position]? with
    | some frame => self.onClient fun party => party.receive frame (.error .path)
    | none => self
  | .serverAcked position => self.onServer fun party => party.handle (ackedAt self.serverSent position)
  | .serverLost => self.onServer fun party => party.handle fun flexicast =>
      .ok { flexicast with mcStateInFlight := false }

end System

end Parties

section View

/-- Whether a client with this status is in a channel. -/
def McClientStatus.inChannel : McClientStatus → Bool
  | .joinedNoKey => true
  | .joinedAndKey => true
  | .listenMcPath _ => true
  | .changing => true
  -- A client that leaves still listens until its leave is acknowledged.
  | .leaving _ => true
  | _ => false

/-- Whether the server takes its client to be in a channel. -/
def McRole.inChannel : McRole → Bool
  | .serverUnicast status => status.inChannel
  | _ => false

/-- What the server knows of its client's channel. -/
def FlexicastAttributes.view (self : FlexicastAttributes) : Option (Bytes × Nat) × Bool :=
  (self.fcChanId, self.mcRole.inChannel)

/-- An older frame that is processed once the newest one was, by a server that is not closed. -/
def System.stale (self : System) : Event → Option McState
  | .deliver position _ =>
    if self.newestProcessed && !self.server.closed && position + 1 < self.sent.length then self.sent[position]?
    else none
  | _ => none

/-- An older frame changes neither the recorded channel nor whether the client is in one. -/
def Unchanged (self : System) (event : Event) : Prop :=
  (self.stale event).isSome → (self.next event).server.flexicast.view = self.server.flexicast.view

instance (self : System) (event : Event) : Decidable (Unchanged self event) := inferInstanceAs (Decidable (_ → _))

/-- Whether a join brings a client in: it is outside, and an announcement reached it. -/
def FlexicastAttributes.letsIn (self : FlexicastAttributes) (status : McClientStatus) : Bool :=
  status = .awareUnjoined || (status = .unaware && self.mcAnnounceData.head?.any McAnnounceData.isProcessed)

/-- A frame that finds the client where it puts it, and names the recorded channel. -/
structure McState.Settled (server : FlexicastAttributes) (frame : McState) : Prop where
  join : frame.action = FcClientAction.join.toU64 →
    ∀ status, server.mcRole = .serverUnicast status → server.letsIn status = false
  /-- A leave does not find the client listening or leaving. -/
  leave : frame.action = FcClientAction.leave.toU64 →
    ∀ status, server.mcRole = .serverUnicast status → status.hadPath = false
  channel : ∀ idx, server.getMcAnnounceDataIndex frame.channelId = some idx →
    server.fcChanId = some (frame.channelId, idx)

/-- Every older frame that is processed is settled. -/
def Harmless (self : System) (event : Event) : Prop :=
  ∀ frame ∈ self.stale event, frame.Settled self.server.flexicast

end View

section Steps

open FlexicastAttributes

/-- The statuses that a server gives its client. -/
def McClientStatus.serves : McClientStatus → Bool
  | .declinedJoin => false
  | .waitingToJoin => false
  | .unspecified => false
  | _ => true

/-- A unicast server with channels to announce. -/
structure FlexicastAttributes.Serves (server : FlexicastAttributes) : Prop where
  role : ∃ status, server.mcRole = .serverUnicast status ∧ status.serves
  announced : server.mcAnnounceData ≠ []

/-- A frame as a client sends it. -/
def McState.Formed (frame : McState) : Prop :=
  frame.action = FcClientAction.join.toU64 ∨
  (frame.action = FcClientAction.leave.toU64 ∧ frame.actionData = leaveFromClient) ∨
  frame.action = FcClientAction.mcPath.toU64 ∨
  frame.action = FcClientAction.change.toU64

variable {self moved : FlexicastAttributes} {status : McClientStatus} {action : FcClientAction}
  {actionData : Option Nat}

/-- A step of the state machine keeps the channels, and gives a server's client a status of its own. -/
theorem transition_keeps {result : FlexicastAttributes × McClientStatus} (serves : status.serves)
    (done : self.transition true status action actionData = .ok result) :
    result.1.mcAnnounceData = self.mcAnnounceData ∧ result.1.fcChanId = self.fcChanId ∧ result.2.serves := by
  -- One case for each arm of the source; the statuses that only a client has are excluded.
  unfold transition at done
  split at done
  case h_1 =>
    cases done
    exact ⟨rfl, rfl, rfl⟩
  case h_2 =>
    cases done
    exact ⟨rfl, rfl, rfl⟩
  case h_3 =>
    -- A join that comes before the announcement was acknowledged.
    simp only [if_true] at done
    split at done
    · cases done
      refine ⟨rfl, rfl, ?_⟩
      simp only
      split <;> rfl
    · cases done
  case h_4 => exact absurd serves (by decide)
  case h_5 =>
    cases done
    exact ⟨rfl, rfl, rfl⟩
  case h_6 => exact absurd serves (by decide)
  -- A server that leaves is told so by its client, or asks for it.
  case h_7 =>
    split at done
    · simp only [if_true] at done
      split at done
      · cases done
        exact ⟨rfl, rfl, rfl⟩
      · split at done
        · cases done
          exact ⟨rfl, rfl, rfl⟩
        · cases done
    · cases done
  case h_8 =>
    cases done
    exact ⟨rfl, rfl, rfl⟩
  case h_9 =>
    split at done <;> cases done <;> exact ⟨rfl, rfl, rfl⟩
  case h_10 =>
    split at done <;> cases done <;> exact ⟨rfl, rfl, rfl⟩
  case h_11 =>
    split at done <;> cases done <;> exact ⟨rfl, rfl, rfl⟩
  case h_12 =>
    cases done
    exact ⟨rfl, rfl, rfl⟩
  case h_13 =>
    cases done
    exact ⟨rfl, rfl, serves⟩

theorem updateClientState_server (role : self.mcRole = .serverUnicast status) :
    self.updateClientState action actionData =
      (self.transition true status action actionData).map fun moved => moved.1.settle true status moved.2 action := by
  simp only [updateClientState, role]

/-- Moving a server's client keeps the channels, and its role. -/
theorem updateClientState_keeps (serves : self.Serves) (done : self.updateClientState action actionData = .ok moved) :
    moved.Serves ∧ moved.mcAnnounceData = self.mcAnnounceData ∧ moved.fcChanId = self.fcChanId := by
  -- The step decides the status, and settling it touches neither the channels nor the role.
  obtain ⟨status, role, serving⟩ := serves.role
  rw [updateClientState_server role] at done
  cases stepped : self.transition true status action actionData with
  | error error =>
    rw [stepped] at done
    cases done
  | ok result =>
    rw [stepped] at done
    cases done
    obtain ⟨announced, channel, kept⟩ := transition_keeps serving stepped
    refine ⟨⟨⟨result.2, rfl, kept⟩, ?_⟩, announced, channel⟩
    rw [show (result.1.settle true status result.2 action).mcAnnounceData = _ from announced]
    exact serves.announced

/-- A join brings a client in that is outside. -/
theorem transition_join (serves : status.serves) (announced : self.mcAnnounceData ≠ []) :
    ∃ result, self.transition true status .join actionData = .ok result ∧
      (result.2.inChannel = status.inChannel ↔ self.letsIn status = false) := by
  -- The status after a join is known for each status before it.
  obtain ⟨first, rest, listed⟩ := List.exists_cons_of_ne_nil announced
  cases status with
  | unaware =>
    refine ⟨_, by simp only [transition, listed, List.head?_cons, if_true]; rfl, ?_⟩
    cases processed : first.isProcessed <;>
      simp [letsIn, listed, processed, McClientStatus.inChannel]
  | awareUnjoined => exact ⟨_, rfl, by simp [letsIn, McClientStatus.inChannel]⟩
  | waitingToJoin => exact absurd serves (by decide)
  | listenMcPath up => cases up <;> exact ⟨_, rfl, by simp [letsIn]⟩
  | _ => exact ⟨_, rfl, by simp [letsIn]⟩

theorem transition_leave (self : FlexicastAttributes) (status : McClientStatus) :
    ∃ result, self.transition true status .leave (some leaveFromClient) = .ok result ∧
      (result.2.inChannel = status.inChannel ↔ status.hadPath = false) := by
  -- Only a client that had a path goes back outside; every other one stays where it is.
  cases status with
  | listenMcPath up => exact ⟨_, rfl, by simp [McClientStatus.hadPath, McClientStatus.inChannel]⟩
  | leaving notified => exact ⟨_, rfl, by simp [McClientStatus.hadPath, McClientStatus.inChannel]⟩
  | _ => exact ⟨_, rfl, by simp [McClientStatus.hadPath]⟩

theorem transition_mcPath (self : FlexicastAttributes) (status : McClientStatus) (pathId : Nat) :
    ∃ result, self.transition true status .mcPath (some pathId) = .ok result ∧
      result.2.inChannel = status.inChannel := by
  cases status <;> exact ⟨_, rfl, rfl⟩

theorem transition_change (self : FlexicastAttributes) (status : McClientStatus) (pathId : Nat) :
    ∃ result, self.transition true status .change (some pathId) = .ok result ∧
      result.2.inChannel = status.inChannel := by
  cases status with
  | listenMcPath up => cases up <;> exact ⟨_, rfl, rfl⟩
  | _ => exact ⟨_, rfl, rfl⟩

/-- What a frame's channel leaves of the server's view. -/
theorem recordChannel_view (self : FlexicastAttributes) (channelId : Bytes) (action : FcClientAction)
    (createMcPath : Except FcError Nat) :
    (self.recordChannel channelId action createMcPath).1.view =
      (((self.getMcAnnounceDataIndex channelId).map fun idx => (channelId, idx)).or self.fcChanId,
        self.mcRole.inChannel) := by
  -- A channel that is not known leaves the record alone; a path that cannot be created does not undo it.
  unfold recordChannel
  cases self.getMcAnnounceDataIndex channelId with
  | none => rfl
  | some idx =>
    simp only
    split
    · split
      · rfl
      · cases createMcPath <;> rfl
    · rfl

/-- Processing a frame as a client sends it keeps the server's view exactly when the frame is settled. -/
theorem processMcState_view (serves : self.Serves) {frame : McState} (formed : frame.Formed)
    (createMcPath : Except FcError Nat) :
    (self.processMcState frame createMcPath).1.view = self.view ↔ frame.Settled self := by
  obtain ⟨status, role, serving⟩ := serves.role
  -- Every action that a client sends has a next status, which is settled or not.
  have moves : ∃ action result, FcClientAction.tryFrom frame.action = some action ∧
      self.transition true status action (some frame.actionData) = .ok result ∧
      (result.2.inChannel = status.inChannel ↔
        (frame.action = FcClientAction.join.toU64 → self.letsIn status = false) ∧
        (frame.action = FcClientAction.leave.toU64 → status.hadPath = false)) := by
    obtain joins | ⟨leaves, fromClient⟩ | follows | changes := formed
    · obtain ⟨result, stepped, kept⟩ := transition_join serving serves.announced
      exact ⟨.join, result, by rw [joins]; rfl, stepped, by simp [kept, joins, FcClientAction.toU64]⟩
    · obtain ⟨result, stepped, kept⟩ := transition_leave self status
      exact ⟨.leave, result, by rw [leaves]; rfl, by rw [fromClient]; exact stepped,
        by simp [kept, leaves, FcClientAction.toU64]⟩
    · obtain ⟨result, stepped, kept⟩ := transition_mcPath self status frame.actionData
      exact ⟨.mcPath, result, by rw [follows]; rfl, stepped, by simp [kept, follows, FcClientAction.toU64]⟩
    · obtain ⟨result, stepped, kept⟩ := transition_change self status frame.actionData
      exact ⟨.change, result, by rw [changes]; rfl, stepped, by simp [kept, changes, FcClientAction.toU64]⟩
  obtain ⟨action, result, known, stepped, kept⟩ := moves
  obtain ⟨announced, channel, -⟩ := transition_keeps serving stepped
  unfold processMcState
  simp only [known, updateClientState_server role, stepped, Except.map]
  rw [recordChannel_view]
  -- The recorded channel and the membership are settled apart from each other.
  have index : (result.1.settle true status result.2 action).getMcAnnounceDataIndex frame.channelId =
      self.getMcAnnounceDataIndex frame.channelId := by
    simp only [getMcAnnounceDataIndex, settle, announced]
  have recorded : (result.1.settle true status result.2 action).fcChanId = self.fcChanId := channel
  rw [index, recorded]
  simp only [view, settle, role, McRole.inChannel, Prod.mk.injEq, if_true]
  -- The view is a channel and a membership, and each is kept for its own reason.
  constructor
  · intro same
    obtain ⟨joins, leaves⟩ := kept.mp same.2
    refine ⟨fun join other known => ?_, fun leave other known => ?_, fun idx found => ?_⟩
    · rw [role] at known
      cases known
      exact joins join
    · rw [role] at known
      cases known
      exact leaves leave
    · have chan := same.1
      rw [found] at chan
      exact chan.symm
  · intro settled
    refine ⟨?_, kept.mpr ⟨fun join => settled.join join status role, fun leave => settled.leave leave status role⟩⟩
    cases found : self.getMcAnnounceDataIndex frame.channelId with
    | none => rfl
    | some idx => exact (settled.channel idx found).symm

end Steps

section Runs

open FlexicastAttributes

variable {self moved : FlexicastAttributes} {party : Party}

theorem FlexicastAttributes.Serves.congr (serves : self.Serves) (role : moved.mcRole = self.mcRole)
    (announced : moved.mcAnnounceData = self.mcAnnounceData) : moved.Serves :=
  ⟨role ▸ serves.role, announced ▸ serves.announced⟩

variable {operation : FlexicastAttributes → Except FcError FlexicastAttributes} {state : System}

theorem Party.call_serves (serves : party.flexicast.Serves)
    (keeps : ∀ moved, operation party.flexicast = .ok moved → moved.Serves) :
    (party.call operation).flexicast.Serves := by
  -- A closed party does nothing, and a call that fails changes nothing.
  unfold Party.call
  split
  · exact serves
  · split
    case h_1 moved done => exact keeps moved done
    case h_2 => exact serves

theorem Party.handle_flexicast (party : Party)
    (operation : FlexicastAttributes → Except FcError FlexicastAttributes) :
    (party.handle operation).flexicast = (party.call operation).flexicast := by
  unfold Party.handle Party.call
  split
  · rfl
  · cases operation party.flexicast <;> rfl

/-- Recording a channel keeps the role and the channels. -/
theorem recordChannel_keeps (self : FlexicastAttributes) (channelId : Bytes) (action : FcClientAction)
    (createMcPath : Except FcError Nat) :
    (self.recordChannel channelId action createMcPath).1.mcRole = self.mcRole ∧
      (self.recordChannel channelId action createMcPath).1.mcAnnounceData = self.mcAnnounceData := by
  -- Only the record of the channel and of its path changes.
  unfold recordChannel
  cases self.getMcAnnounceDataIndex channelId with
  | none => exact ⟨rfl, rfl⟩
  | some idx =>
    simp only
    split
    · split
      · exact ⟨rfl, rfl⟩
      · cases createMcPath <;> exact ⟨rfl, rfl⟩
    · exact ⟨rfl, rfl⟩

/-- Processing any frame keeps a server serving. -/
theorem processMcState_serves (serves : self.Serves) (frame : McState) (createMcPath : Except FcError Nat) :
    (self.processMcState frame createMcPath).1.Serves := by
  -- An unknown action and a failed step end before the channel is recorded.
  unfold processMcState
  split
  · exact serves
  · split
    · exact serves
    case h_2 moved stepped =>
      obtain ⟨kept, -, -⟩ := updateClientState_keeps serves stepped
      obtain ⟨role, announced⟩ := recordChannel_keeps moved frame.channelId _ createMcPath
      exact kept.congr role announced

/-- Every frame is sent as the state machine asks. -/
theorem stateFrame_formed {frame : McState} (done : self.stateFrame = .ok frame) : frame.Formed := by
  -- A frame is sent only when there is an action and an active channel.
  unfold stateFrame at done
  cases acts : self.stateAction with
  | error error =>
    rw [acts] at done
    cases active : self.getMcAnnounceDataActive <;> rw [active] at done <;> cases done
  | ok pair =>
    rw [acts] at done
    cases active : self.getMcAnnounceDataActive with
    | none =>
      rw [active] at done
      cases done
    | some announce =>
      rw [active] at done
      cases done
      -- The role decides the action, and a leave carries no data.
      unfold stateAction at acts
      split at acts <;> cases acts
      · exact .inl rfl
      · exact .inr (.inr (.inl rfl))
      · exact .inr (.inl ⟨rfl, rfl⟩)
      · exact .inr (.inl ⟨rfl, rfl⟩)
      · exact .inr (.inr (.inr rfl))

theorem Party.send_formed {frame : McState} {after : Party} (sends : party.send? = some (frame, after)) :
    frame.Formed ∧ after.flexicast.mcRole = party.flexicast.mcRole ∧
      after.flexicast.mcAnnounceData = party.flexicast.mcAnnounceData := by
  -- Sending only marks the frame as in flight.
  unfold Party.send? at sends
  split at sends
  · cases sends
  · split at sends
    case h_1 sentFrame done =>
      cases sends
      exact ⟨stateFrame_formed done, rfl, rfl⟩
    case h_2 => cases sends

/-- Handling an acknowledged frame keeps a server serving. -/
theorem ackedAt_serves (serves : self.Serves) {frames : List McState} {position : Nat}
    (done : System.ackedAt frames position self = .ok moved) : moved.Serves := by
  -- An acknowledged frame is no longer in flight, and may move the client.
  unfold System.ackedAt at done
  split at done
  case h_2 =>
    cases done
    exact serves
  case h_1 frame listed =>
    have landed : FlexicastAttributes.Serves { self with mcStateInFlight := false } := serves.congr rfl rfl
    unfold onMcStateAcked at done
    simp only at done
    split at done
    · cases done
      exact landed
    · split at done
      · exact (updateClientState_keeps landed done).1
      · cases done

/-- What every event keeps. -/
structure System.Sound (state : System) : Prop where
  serves : state.server.flexicast.Serves
  frames : ∀ frame ∈ state.sent, frame.Formed

theorem System.Sound.onServer (sound : state.Sound) {change : Party → Party}
    (serves : (change state.server).flexicast.Serves) : (state.onServer change).Sound :=
  ⟨serves, sound.frames⟩

/-- A call of the server that keeps it serving keeps the system sound. -/
theorem System.Sound.calls (sound : state.Sound)
    (keeps : ∀ moved, operation state.server.flexicast = .ok moved → moved.Serves) :
    (state.onServer fun party => party.call operation).Sound :=
  sound.onServer (Party.call_serves sound.serves keeps)

/-- What the server handles and keeps it serving keeps the system sound. -/
theorem System.Sound.handles (sound : state.Sound)
    (keeps : ∀ moved, operation state.server.flexicast = .ok moved → moved.Serves) :
    (state.onServer fun party => party.handle operation).Sound := by
  apply sound.onServer
  rw [Party.handle_flexicast]
  exact Party.call_serves sound.serves keeps

theorem System.Sound.onClient (sound : state.Sound) (change : Party → Party) : (state.onClient change).Sound :=
  ⟨sound.serves, sound.frames⟩

/-- A frame that the server receives keeps the system sound. -/
theorem System.Sound.receives (sound : state.Sound) (frame : McState) (createMcPath : Except FcError Nat) :
    (state.server.receive frame createMcPath).flexicast.Serves := by
  -- A closed server drops the frame, and a failure leaves what was done before it.
  have kept := processMcState_serves sound.serves frame createMcPath
  simp only [Party.receive]
  split
  · exact sound.serves
  · split
    case h_1 same => rw [same] at kept; exact kept
    case h_2 same => rw [same] at kept; exact kept

theorem sendAnnounce_marks (self : FlexicastAttributes) :
    self.sendAnnounce.mcRole = self.mcRole ∧ self.sendAnnounce.fcChanId = self.fcChanId ∧
      self.sendAnnounce.mcKeyUpToDate = self.mcKeyUpToDate ∧
      self.sendAnnounce.mcAnnounceData.length = self.mcAnnounceData.length := by
  unfold sendAnnounce
  split
  · split
    · exact ⟨rfl, rfl, rfl, List.length_modify ..⟩
    · exact ⟨rfl, rfl, rfl, rfl⟩
  · exact ⟨rfl, rfl, rfl, rfl⟩

theorem onMcAnnounceLost_marks (self : FlexicastAttributes) (channelId : Bytes) :
    (self.onMcAnnounceLost channelId).mcRole = self.mcRole ∧
      (self.onMcAnnounceLost channelId).fcChanId = self.fcChanId ∧
      (self.onMcAnnounceLost channelId).mcKeyUpToDate = self.mcKeyUpToDate ∧
      (self.onMcAnnounceLost channelId).mcAnnounceData.length = self.mcAnnounceData.length := by
  unfold onMcAnnounceLost
  split
  · exact ⟨rfl, rfl, rfl, List.length_modify ..⟩
  · exact ⟨rfl, rfl, rfl, rfl⟩

/-- Every event keeps the system sound. -/
theorem System.Sound.next (sound : state.Sound) (event : Event) : (state.next event).Sound := by
  have serves := sound.serves
  -- The client is free to do anything; only what the server does and what was sent matter.
  cases event with
  | announce announced =>
    apply sound.calls
    intro moved done
    cases done
    exact ⟨serves.role, List.append_ne_nil_of_left_ne_nil serves.announced _⟩
  | announceSent =>
    apply sound.calls
    intro moved done
    cases done
    obtain ⟨role, -, -, channels⟩ := sendAnnounce_marks state.server.flexicast
    refine ⟨role ▸ serves.role, List.ne_nil_of_length_pos ?_⟩
    rw [channels]
    exact List.length_pos_iff.mpr serves.announced
  | announceReceived position =>
    simp only [System.next]
    split
    · exact ⟨serves, sound.frames⟩
    · exact sound
  | announceAcked =>
    apply sound.handles
    exact fun moved done => (updateClientState_keeps serves done).1
  | announceLost channelId =>
    apply sound.handles
    intro moved done
    cases done
    obtain ⟨role, -, -, channels⟩ := onMcAnnounceLost_marks state.server.flexicast channelId
    refine ⟨role ▸ serves.role, List.ne_nil_of_length_pos ?_⟩
    rw [channels]
    exact List.length_pos_iff.mpr serves.announced
  | join fcChanId => exact sound.onClient _
  | leave => exact sound.onClient _
  | change fcChanId => exact sound.onClient _
  | expel =>
    apply sound.calls
    intro moved done
    unfold mcLeaveChannel at done
    split at done
    · exact (updateClientState_keeps serves done).1
    · exact (updateClientState_keeps serves done).1
    · cases done
  | pathCreated pathId => exact sound.onClient _
  | keySent =>
    apply sound.calls
    intro moved done
    cases done
    unfold sendKey
    split <;> exact serves.congr rfl rfl
  | keyReceived => exact sound.onClient _
  | keyAcked =>
    apply sound.handles
    intro moved done
    -- The key is marked before the client is moved.
    have keyed : FlexicastAttributes.Serves { state.server.flexicast with mcKeyUpToDate := true } :=
      serves.congr rfl rfl
    exact (updateClientState_keeps keyed done).1
  | keyLost =>
    apply sound.handles
    intro moved done
    cases done
    exact serves.congr rfl rfl
  | send =>
    simp only [System.next]
    split
    case h_1 frame after sends =>
      -- The frame that is appended is formed like all before it.
      obtain ⟨client, -, sends⟩ := Option.bind_eq_some_iff.mp sends
      refine ⟨serves, fun held member => ?_⟩
      cases List.mem_append.mp member with
      | inl before => exact sound.frames held before
      | inr last =>
        rw [List.mem_singleton.mp last]
        exact (Party.send_formed sends).1
    case h_2 => exact sound
  | deliver position createMcPath =>
    simp only [System.next]
    split
    case h_1 frame listed => exact ⟨sound.receives frame createMcPath, sound.frames⟩
    case h_2 => exact sound
  | acked position => exact sound.onClient _
  | lost => exact sound.onClient _
  | serverSend =>
    simp only [System.next]
    split
    case h_1 frame after sends =>
      obtain ⟨-, role, announced⟩ := Party.send_formed sends
      exact ⟨serves.congr role announced, sound.frames⟩
    case h_2 => exact sound
  | serverDeliver position =>
    simp only [System.next]
    split
    · exact sound.onClient _
    · exact sound
  | serverAcked position =>
    apply sound.handles
    exact fun moved done => ackedAt_serves serves done
  | serverLost =>
    apply sound.handles
    intro moved done
    cases done
    exact serves.congr rfl rfl

theorem Party.receive_flexicast (running : party.closed = false) (frame : McState)
    (createMcPath : Except FcError Nat) :
    (party.receive frame createMcPath).flexicast = (party.flexicast.processMcState frame createMcPath).1 := by
  -- What processing left is kept whether it failed or not.
  unfold Party.receive
  rw [running]
  cases processed : party.flexicast.processMcState frame createMcPath with
  | mk flexicast result => cases result <;> rfl

/-- An event leaves the server's view alone exactly when it is harmless. -/
theorem unchanged_iff_harmless (sound : state.Sound) (event : Event) :
    Unchanged state event ↔ Harmless state event := by
  unfold Unchanged Harmless
  cases late : state.stale event with
  | none => simp
  | some frame =>
    -- Only a delivery is late, and it is processed by a server that is not closed.
    cases event with
    | deliver position createMcPath =>
      simp only [System.stale] at late
      split at late
      case isFalse => cases late
      case isTrue guards =>
        simp only [Bool.and_eq_true, Bool.not_eq_true'] at guards
        have member := List.mem_of_getElem? late
        have exactly := processMcState_view sound.serves (sound.frames frame member) createMcPath
        rw [← Party.receive_flexicast guards.1.2] at exactly
        simp only [System.next, late, Option.isSome_some, true_imp_iff, Option.mem_some_iff, forall_eq']
        exact exactly
    | _ => cases late

/-- Older frames leave the server's view alone along a run exactly when each is settled when it is processed. -/
theorem System.older_frames_harmless_iff (first : McAnnounceData) (rest : List McAnnounceData) (events : List Event) :
    Runs.Along System.next Unchanged (System.new first rest) events ↔
      Runs.Along System.next Harmless (System.new first rest) events := by
  -- The invariant makes both conditions the same at every step.
  apply Runs.along_congr (fun _ event sound => System.Sound.next sound event)
    (fun _ event sound => unchanged_iff_harmless sound event)
  exact ⟨⟨⟨_, rfl, rfl⟩, List.cons_ne_nil _ _⟩, fun _ member => nomatch member⟩

/-- A client joins a first channel by a frame that is sent again, leaves it, and joins a second one. -/
def changesChannel : List Event :=
  [.announceSent, .announceSent, .announceReceived 0, .announceReceived 1, .announceAcked,
    .join (some [1]), .send, .lost, .send, .deliver 1 (.ok 1), .keySent, .keyReceived, .keyAcked, .acked 1,
    .pathCreated 1, .send, .deliver 2 (.ok 1), .acked 2, .leave, .send, .deliver 3 (.ok 1), .acked 3,
    .join (some [2]), .send, .deliver 4 (.ok 2)]

/-- The first join arrives late and puts the server back to the first channel. -/
theorem System.late_join_takes_back :
    ¬ ∀ (first : McAnnounceData) (rest : List McAnnounceData) (events : List Event),
      Runs.Along System.next Unchanged (System.new first rest) events := by
  intro always
  have late := always ⟨[1], false, false⟩ [⟨[2], false, false⟩] (changesChannel ++ [.deliver 0 (.ok 3)])
  exact absurd late (by decide)

end Runs

end Channel

end Flexicast
