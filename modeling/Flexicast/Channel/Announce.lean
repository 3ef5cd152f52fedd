import Flexicast.Channel.Keys

/-! The announcements of channels: how they are sent, lost and acknowledged, and which of them are forgotten. -/

namespace Flexicast

namespace Channel

/-- The `FC_ANNOUNCE` frame, as far as joining its channel goes. -/
structure McAnnounce where
  channelId : Bytes
  probePath : Nat
  deriving DecidableEq

/-- Why an announcement is refused. -/
inductive AnnounceError where
  | mcDisabled
  | invalidFrame
  deriving DecidableEq

/-- What happens to a connection around its announcements. -/
inductive Around where
  | join (fcChanId : Option Bytes)
  | leave
  | change (fcChanId : Bytes)
  | pathCreated (pathId : Nat)
  | stateSent
  | stateReceived (frame : McState) (createMcPath : Except FcError Nat)
  | stateAcked (frame : McState)
  | stateLost
  | keySent
  | keyReceived
  | keyAcked
  | keyLost

/-- What happens to a party around its announcements. -/
def Party.around (self : Party) : Around → Party
  | .join fcChanId => self.call (·.mcJoinChannel fcChanId)
  | .leave => self.call (·.mcLeaveChannel)
  | .change fcChanId => self.call (·.fcChangeChannel fcChanId)
  | .pathCreated pathId => self.call fun flexicast => .ok { flexicast with fcPathId := some pathId }
  | .stateSent =>
    match self.send? with
    | some (_, party) => party
    | none => self
  | .stateReceived frame createMcPath => self.receive frame createMcPath
  | .stateAcked frame => self.handle (·.onMcStateAcked frame)
  | .stateLost => self.handle fun flexicast => .ok { flexicast with mcStateInFlight := false }
  | .keySent => self.call fun flexicast => .ok flexicast.sendKey
  | .keyReceived => self.handle (·.receiveKey)
  | .keyAcked => self.handle fun flexicast =>
      { flexicast with mcKeyUpToDate := true }.updateClientState .decryptionKey none
  | .keyLost => self.handle fun flexicast => .ok { flexicast with mcKeyUpToDate := false }

/-- Whether a connection without a flexicast part fails. -/
def Around.needsFlexicast : Around → Bool
  | .stateReceived _ _ => true
  | .keyReceived => true
  | _ => false

/-- One end of a connection, as far as announcing channels goes. -/
structure Endpoint where
  isServer : Bool
  /-- Whether the local transport parameters support flexicast. -/
  flexicastSupport : Bool
  /-- The flexicast part, once there is a channel. -/
  flexicast : Option FlexicastAttributes
  closed : Bool
  deriving DecidableEq

/-- What happens to a connection. -/
inductive EndpointEvent where
  /-- The application has a further channel to announce. -/
  | setAnnounceData (announced : McAnnounceData)
  /-- An `FC_ANNOUNCE` frame fits into a packet. -/
  | announceSent
  | announceReceived (frame : McAnnounce)
  | announceAcked (channelId : Bytes)
  | announceLost (channelId : Bytes)
  | around (event : Around)

namespace Endpoint

/-- A connection before any channel is announced. -/
def new (isServer flexicastSupport : Bool) : Endpoint := ⟨isServer, flexicastSupport, none, false⟩

/-- The first announcement that should be sent. -/
def fcShouldSendFcAnnounce (self : Endpoint) : Option Nat :=
  if !self.isServer then none
  else if !self.flexicastSupport then none
  else
    match self.flexicast with
    | some flexicast =>
      let idx := flexicast.mcAnnounceData.findIdx? fun announce => !announce.isProcessed
      -- Nothing is announced any more to a client that knows of some channel.
      if idx.isSome && flexicast.mcRole = .serverUnicast .unaware then idx else none
    | none => none

/-- Sets the data of a channel, and creates the flexicast part if it does not exist yet. -/
def fcSetAnnounceData (self : Endpoint) (announced : McAnnounceData) : Except AnnounceError Endpoint :=
  if self.isServer && !self.flexicastSupport then .error .mcDisabled
  else
    match self.flexicast with
    -- A further channel comes last, whatever the others are.
    | some flexicast => .ok { self with
        flexicast := some { flexicast with mcAnnounceData := flexicast.mcAnnounceData ++ [announced] } }
    | none => .ok { self with
        flexicast := some {
          mcRole := if self.isServer then .serverUnicast .unaware else .client .awareUnjoined
          mcAnnounceData := [{ announced with isProcessed := !self.isServer }]
          mcKeyUpToDate := false
          mcClientLeftNeedSync := false
          mcStateInFlight := false
          fcPathId := none
          fcChanId := none } }

/-- The announcement that is sent next, and the connection after sending it. -/
def sendMcAnnounce? (self : Endpoint) : Option (McAnnounce × Endpoint) :=
  match self.fcShouldSendFcAnnounce, self.flexicast with
  | some idx, some flexicast =>
    (flexicast.mcAnnounceData[idx]?).map fun announce =>
      (⟨announce.channelId, if announce.probePath then 1 else 0⟩,
        { self with
          flexicast := some { flexicast with
            mcAnnounceData := flexicast.mcAnnounceData.modify idx fun announce =>
              { announce with isProcessed := true } } })
  | _, _ => none

/-- Processes an `FC_ANNOUNCE` frame. -/
def processMcAnnounce (self : Endpoint) (frame : McAnnounce) : Except AnnounceError Endpoint :=
  -- The server should not receive an announcement.
  if self.isServer then .error .invalidFrame
  else self.fcSetAnnounceData ⟨frame.channelId, frame.probePath == 1, true⟩

/-- An announcement was acknowledged, so the client knows of some channel. -/
def onMcAnnounceAcked (channelId : Bytes) (flexicast : FlexicastAttributes) : Except FcError FlexicastAttributes :=
  if (flexicast.getMcAnnounceDataIndex channelId).isSome then flexicast.updateClientState .notify none
  else .ok flexicast

/-- Changes the flexicast part with its connection, if there is one. -/
def onParty (self : Endpoint) (change : Party → Party) : Endpoint :=
  match self.flexicast with
  | some flexicast =>
    let party := change ⟨flexicast, self.closed⟩
    { self with flexicast := some party.flexicast, closed := party.closed }
  | none => self

/-- One event. -/
def next (self : Endpoint) : EndpointEvent → Endpoint
  | .setAnnounceData announced => (self.fcSetAnnounceData announced).toOption.getD self
  | .announceSent =>
    if self.closed then self
    else
      match self.sendMcAnnounce? with
      | some (_, sent) => sent
      | none => self
  | .announceReceived frame =>
    if self.closed then self
    else
      match self.processMcAnnounce frame with
      | .ok processed => processed
      | .error _ => { self with closed := true }
  | .announceAcked channelId => self.onParty fun party => party.handle (onMcAnnounceAcked channelId)
  | .announceLost channelId => self.onParty fun party => party.handle fun flexicast =>
      .ok (flexicast.onMcAnnounceLost channelId)
  | .around event =>
    if self.flexicast.isNone && event.needsFlexicast then { self with closed := true }
    else self.onParty (·.around event)

end Endpoint

section Forgotten

/-- Some announcement was never sent, or was lost. -/
def FlexicastAttributes.Unsent (self : FlexicastAttributes) : Prop :=
  ∃ announce ∈ self.mcAnnounceData, announce.isProcessed = false

instance (self : FlexicastAttributes) : Decidable self.Unsent :=
  inferInstanceAs (Decidable (∃ announce ∈ self.mcAnnounceData, announce.isProcessed = false))

/-- As long as an announcement was not sent, one of those is the next to send. -/
def Endpoint.NoneForgotten (self : Endpoint) : Prop :=
  ∀ flexicast ∈ self.flexicast, flexicast.Unsent →
    ∃ idx ∈ self.fcShouldSendFcAnnounce, ∃ announce ∈ flexicast.mcAnnounceData[idx]?, announce.isProcessed = false

instance (self : Endpoint) : Decidable self.NoneForgotten := inferInstanceAs (Decidable (∀ _ ∈ _, _ → _))

/-- Whether an action tells the server that an unaware client is aware. -/
def FlexicastAttributes.raises (self : FlexicastAttributes) : FcClientAction → Bool
  | .notify => true
  | .join => self.mcAnnounceData.head?.any McAnnounceData.isProcessed
  | _ => false

/-- The action that an event has for the state machine of a server. -/
def Around.serverAction : Around → Option FcClientAction
  | .stateReceived frame _ => FcClientAction.tryFrom frame.action
  | .stateAcked frame => FcClientAction.tryFrom frame.action
  | .keyAcked => some .decryptionKey
  | _ => none

/-- The client becomes aware when every announcement was sent, and no further one is to be sent afterwards. -/
def Timely (self : Endpoint) (event : EndpointEvent) : Prop :=
  ∀ flexicast ∈ self.flexicast,
    match event with
    | .setAnnounceData announced => announced.isProcessed = true ∨ flexicast.mcRole = .serverUnicast .unaware
    | .announceLost channelId =>
      self.closed = true ∨ flexicast.getMcAnnounceDataIndex channelId = none ∨
        flexicast.mcRole = .serverUnicast .unaware
    | .announceAcked channelId =>
      self.closed = true ∨ flexicast.getMcAnnounceDataIndex channelId = none ∨
        ¬ (flexicast.mcRole = .serverUnicast .unaware ∧ flexicast.Unsent)
    | .around event =>
      self.closed = true ∨ (∀ action ∈ event.serverAction, flexicast.raises action = false) ∨
        ¬ (flexicast.mcRole = .serverUnicast .unaware ∧ flexicast.Unsent)
    | _ => True

end Forgotten

section Servers

open FlexicastAttributes

variable {self moved : FlexicastAttributes} {status : McClientStatus} {action : FcClientAction}
  {actionData : Option Nat}

/-- A client stays unaware only as long as no action tells that it is aware. -/
theorem transition_unaware {result : FlexicastAttributes × McClientStatus}
    (done : self.transition true status action actionData = .ok result) :
    result.2 = .unaware ↔ status = .unaware ∧ self.raises action = false := by
  -- No arm leads back to an unaware client, and two of them lead away from it.
  unfold transition at done
  split at done
  case h_1 =>
    cases done
    simp [raises]
  case h_3 =>
    simp only [if_true] at done
    split at done
    case h_1 announce first =>
      cases done
      cases sent : announce.isProcessed <;> simp [raises, first, sent]
    case h_2 => cases done
  case h_13 noNotify _ noJoin _ _ _ _ _ _ _ _ _ =>
    -- An action that is ignored.
    cases done
    simp only [iff_self_and]
    rintro rfl
    cases action with
    | notify => exact (noNotify rfl rfl).elim
    | join => exact (noJoin rfl rfl).elim
    | leave => rfl
    | decryptionKey => rfl
    | mcPath => rfl
    | change => rfl
  -- Everywhere else the client is aware already.
  all_goals
    repeat' split at done
    all_goals cases done
    all_goals simp

theorem updateClientState_unaware (role : self.mcRole = .serverUnicast status)
    (done : self.updateClientState action actionData = .ok moved) :
    moved.mcRole = .serverUnicast .unaware ↔
      self.mcRole = .serverUnicast .unaware ∧ self.raises action = false := by
  rw [updateClientState_server role] at done
  cases stepped : self.transition true status action actionData with
  | error error =>
    rw [stepped] at done
    cases done
  | ok result =>
    rw [stepped] at done
    cases done
    -- The transition decides; settling the new status afterwards does not move an unaware client.
    have unaware := transition_unaware stepped
    simpa [settle, role] using unaware

/-- Moving an unaware client does not fail. -/
theorem updateClientState_of_unaware (unaware : self.mcRole = .serverUnicast .unaware)
    (announced : self.mcAnnounceData ≠ []) (action : FcClientAction) (actionData : Option Nat) :
    ∃ moved, self.updateClientState action actionData = .ok moved := by
  -- Only a join looks at the announcements, and there is one.
  obtain ⟨first, rest, listed⟩ := List.exists_cons_of_ne_nil announced
  rw [updateClientState_server unaware]
  cases action with
  | join => exact ⟨_, by simp only [transition, listed, List.head?_cons, if_true]; rfl⟩
  | notify => exact ⟨_, rfl⟩
  | leave => exact ⟨_, rfl⟩
  | decryptionKey => exact ⟨_, rfl⟩
  | mcPath => exact ⟨_, rfl⟩
  | change => exact ⟨_, rfl⟩

/-- What a server does to its attributes around the announcements, given the action for the state machine. -/
structure Steps (action : Option FcClientAction) (before after : FlexicastAttributes) : Prop where
  serves : after.Serves
  announced : after.mcAnnounceData = before.mcAnnounceData
  unaware : after.mcRole = .serverUnicast .unaware ↔
    before.mcRole = .serverUnicast .unaware ∧ ∀ told ∈ action, before.raises told = false

/-- Whatever keeps the role and the announcements is a step without an action. -/
theorem Steps.same (serves : self.Serves) (role : moved.mcRole = self.mcRole)
    (announced : moved.mcAnnounceData = self.mcAnnounceData) : Steps none self moved :=
  ⟨serves.congr role announced, announced, by rw [role]; simp⟩

/-- Moving the client is a step with its action. -/
theorem Steps.moves (serves : self.Serves) (done : self.updateClientState action actionData = .ok moved) :
    Steps (some action) self moved := by
  obtain ⟨status, role, -⟩ := serves.role
  obtain ⟨serving, announced, -⟩ := updateClientState_keeps serves done
  refine ⟨serving, announced, ?_⟩
  rw [updateClientState_unaware role done]
  simp

/-- Moving the client fails only when it is aware, or when the action does not tell that it is. -/
theorem Steps.fails (serves : self.Serves) {error : FcError}
    (failed : self.updateClientState action actionData = .error error) : Steps (some action) self self := by
  refine ⟨serves, rfl, ?_⟩
  -- An unaware client would have been moved.
  have aware : self.mcRole ≠ .serverUnicast .unaware := by
    intro unaware
    obtain ⟨moved, done⟩ := updateClientState_of_unaware unaware serves.announced action actionData
    rw [done] at failed
    cases failed
  simp [aware]

variable {told : Option FcClientAction} {before after : FlexicastAttributes}

theorem Steps.congr {other : FlexicastAttributes} (steps : Steps told before moved)
    (role : before.mcRole = other.mcRole) (announced : before.mcAnnounceData = other.mcAnnounceData) :
    Steps told other moved := by
  refine ⟨steps.serves, steps.announced.trans announced, ?_⟩
  have raises : before.raises = other.raises := by
    funext action
    cases action <;> simp [FlexicastAttributes.raises, announced]
  rw [steps.unaware, role, raises]

theorem Steps.movesFrom {middle : FlexicastAttributes} (serves : self.Serves)
    (done : middle.updateClientState action actionData = .ok moved) (role : middle.mcRole = self.mcRole)
    (announced : middle.mcAnnounceData = self.mcAnnounceData) : Steps (some action) self moved :=
  (Steps.moves (serves.congr role announced) done).congr role announced

theorem Steps.trans (steps : Steps told before moved) (role : after.mcRole = moved.mcRole)
    (announced : after.mcAnnounceData = moved.mcAnnounceData) : Steps told before after :=
  ⟨steps.serves.congr role announced, announced.trans steps.announced, by rw [role, steps.unaware]⟩

theorem Steps.quiet (steps : Steps (some action) before after) (tells : before.raises action = false) :
    Steps none before after :=
  ⟨steps.serves, steps.announced, by simp [steps.unaware, tells]⟩

/-- A call on a server is a step when it is one wherever it succeeds. -/
theorem Steps.calls (serves : self.Serves) {operation : FlexicastAttributes → Except FcError FlexicastAttributes}
    (succeeds : ∀ moved, operation self = .ok moved → Steps none self moved) :
    Steps none self (Party.call ⟨self, false⟩ operation).flexicast := by
  unfold Party.call
  simp only [Bool.false_eq_true, if_false]
  split
  case h_1 moved done => exact succeeds moved done
  case h_2 => exact .same serves rfl rfl

theorem mcJoinChannel_server (serves : self.Serves) (fcChanId : Option Bytes) :
    self.mcJoinChannel fcChanId = .error .mcInvalidRole := by
  obtain ⟨status, role, -⟩ := serves.role
  simp only [mcJoinChannel, role]
  rfl

theorem processMcState_steps (serves : self.Serves) (frame : McState) (createMcPath : Except FcError Nat) :
    Steps (FcClientAction.tryFrom frame.action) self (self.processMcState frame createMcPath).1 := by
  unfold processMcState
  cases FcClientAction.tryFrom frame.action with
  | none => exact .same serves rfl rfl
  | some action =>
    simp only
    cases stepped : self.updateClientState action (some frame.actionData) with
    | error error => exact .fails serves stepped
    | ok moved =>
      -- Recording the channel touches neither the role nor the announcements.
      obtain ⟨role, announced⟩ := recordChannel_keeps moved frame.channelId action createMcPath
      exact (Steps.moves serves stepped).trans role announced

/-- A server's acknowledged frame moves the client by its action, or not at all. -/
theorem stateAcked_steps (serves : self.Serves) (frame : McState) :
    Steps (FcClientAction.tryFrom frame.action) self
      (Party.handle ⟨self, false⟩ (·.onMcStateAcked frame)).flexicast := by
  obtain ⟨status, role, serving⟩ := serves.role
  have settled : Serves { self with mcStateInFlight := false } := serves.congr rfl rfl
  simp only [Party.handle, Bool.false_eq_true, if_false]
  -- Only a client may have changed its channel meanwhile, so the action decides.
  cases known : FcClientAction.tryFrom frame.action with
  | none =>
    have server : self.onMcStateAcked frame = .error .mcInvalidAction := by
      simp [onMcStateAcked, role, known]
    rw [server]
    exact .same serves rfl rfl
  | some action =>
    have server : self.onMcStateAcked frame =
        updateClientState { self with mcStateInFlight := false } action (some frame.actionData) := by
      simp [onMcStateAcked, role, known]
    rw [server]
    cases stepped : updateClientState { self with mcStateInFlight := false } action (some frame.actionData) with
    | error error =>
      have failed : Steps _ self _ := (Steps.fails settled stepped).congr rfl rfl
      exact failed.trans rfl rfl
    | ok moved => exact .movesFrom serves stepped rfl rfl

/-- Around its announcements, a server moves its client by the action of what happens. -/
theorem around_steps (serves : self.Serves) (event : Around) :
    Steps event.serverAction self (Party.around ⟨self, false⟩ event).flexicast := by
  obtain ⟨status, role, serving⟩ := serves.role
  cases event with
  | join fcChanId =>
    refine .calls serves fun moved done => ?_
    rw [mcJoinChannel_server serves] at done
    cases done
  | leave =>
    -- Leaving tells nothing to an unaware client.
    refine .calls serves fun moved done => ?_
    simp only [mcLeaveChannel, role] at done
    split at done
    case h_1 same => cases same
    case h_2 => exact (Steps.moves serves done).quiet rfl
    case h_3 => cases done
  | change fcChanId =>
    refine .calls serves fun moved done => ?_
    unfold fcChangeChannel at done
    repeat' split at done
    all_goals first
      | cases done
      | exact (Steps.movesFrom serves done rfl rfl).quiet rfl
  | pathCreated pathId =>
    refine .calls serves fun moved done => ?_
    cases done
    exact .same serves rfl rfl
  | stateSent =>
    simp only [Party.around, Party.send?]
    split
    case h_1 frame party sends =>
      split at sends
      · cases sends
      · split at sends
        · cases sends
          exact .same serves rfl rfl
        · cases sends
    case h_2 => exact .same serves rfl rfl
  | stateReceived frame createMcPath =>
    have steps := processMcState_steps serves frame createMcPath
    simp only [Party.around, Party.receive, Bool.false_eq_true, if_false]
    split
    case h_1 moved done =>
      rw [done] at steps
      exact steps
    case h_2 moved error done =>
      rw [done] at steps
      exact steps
  | stateAcked frame => exact stateAcked_steps serves frame
  | stateLost =>
    rw [Party.around, Party.handle_flexicast]
    refine .calls serves fun moved done => ?_
    cases done
    exact .same serves rfl rfl
  | keySent =>
    refine .calls serves fun moved done => ?_
    cases done
    unfold sendKey
    split <;> exact .same serves rfl rfl
  | keyReceived =>
    -- A server has no key to receive.
    rw [Party.around, Party.handle_flexicast]
    refine .calls serves fun moved done => ?_
    simp only [receiveKey, role] at done
    cases done
  | keyAcked =>
    rw [Party.around, Party.handle_flexicast]
    have steps : Steps none self (Party.call ⟨self, false⟩ fun flexicast =>
        { flexicast with mcKeyUpToDate := true }.updateClientState .decryptionKey none).flexicast := by
      refine .calls serves fun moved done => ?_
      exact (Steps.movesFrom serves done rfl rfl).quiet rfl
    exact ⟨steps.serves, steps.announced, by rw [steps.unaware]; simp [Around.serverAction, raises]⟩
  | keyLost =>
    rw [Party.around, Party.handle_flexicast]
    refine .calls serves fun moved done => ?_
    cases done
    exact .same serves rfl rfl

theorem around_closed (flexicast : FlexicastAttributes) (event : Around) :
    Party.around ⟨flexicast, true⟩ event = ⟨flexicast, true⟩ := by
  cases event <;> rfl

end Servers

section Announcing

open FlexicastAttributes

variable {conn : Endpoint} {flexicast : FlexicastAttributes}

/-- A unicast server that supports flexicast. -/
structure Endpoint.Serving (conn : Endpoint) : Prop where
  server : conn.isServer = true
  support : conn.flexicastSupport = true
  channels : ∀ flexicast ∈ conn.flexicast, flexicast.Serves

theorem fcShouldSendFcAnnounce_server (serving : conn.Serving) (channels : conn.flexicast = some flexicast) :
    conn.fcShouldSendFcAnnounce =
      if flexicast.mcRole = .serverUnicast .unaware then
        flexicast.mcAnnounceData.findIdx? fun announce => !announce.isProcessed
      else none := by
  simp only [Endpoint.fcShouldSendFcAnnounce, serving.server, serving.support, channels, Bool.not_true,
    Bool.false_eq_true, if_false, Bool.and_eq_true, decide_eq_true_eq]
  -- Unless the client is unaware, the guard answers that there is nothing to send.
  by_cases unaware : flexicast.mcRole = .serverUnicast .unaware
  · cases found : flexicast.mcAnnounceData.findIdx? fun announce => !announce.isProcessed <;> simp [unaware]
  · simp [unaware]

/-- No announcement is forgotten as long as those that were not sent are for an unaware client. -/
theorem noneForgotten_iff (serving : conn.Serving) :
    conn.NoneForgotten ↔
      ∀ flexicast ∈ conn.flexicast, flexicast.Unsent → flexicast.mcRole = .serverUnicast .unaware := by
  constructor
  · intro held flexicast channels unsent
    obtain ⟨idx, next, -⟩ := held flexicast channels unsent
    rw [fcShouldSendFcAnnounce_server serving channels] at next
    by_cases unaware : flexicast.mcRole = .serverUnicast .unaware
    · exact unaware
    · rw [if_neg unaware] at next
      cases next
  · intro held flexicast channels unsent
    have unaware := held flexicast channels unsent
    obtain ⟨announce, listed, waits⟩ := unsent
    rw [fcShouldSendFcAnnounce_server serving channels, if_pos unaware]
    -- The first announcement that was not sent is found, as there is one.
    cases found : flexicast.mcAnnounceData.findIdx? fun announce => !announce.isProcessed with
    | none =>
      have sent := List.findIdx?_eq_none_iff.mp found announce listed
      simp [waits] at sent
    | some idx =>
      obtain ⟨inside, first, -⟩ := List.findIdx?_eq_some_iff_getElem.mp found
      refine ⟨idx, rfl, flexicast.mcAnnounceData[idx], List.getElem?_eq_getElem inside, ?_⟩
      simpa using first

/-- What setting the data of a channel does to a server. -/
theorem fcSetAnnounceData_server (serving : conn.Serving) (announced : McAnnounceData) :
    ∃ after, conn.fcSetAnnounceData announced = .ok after ∧ after.isServer = true ∧ after.flexicastSupport = true ∧
      after.closed = conn.closed ∧
      after.flexicast = some (match conn.flexicast with
        | some flexicast => { flexicast with mcAnnounceData := flexicast.mcAnnounceData ++ [announced] }
        | none => ⟨.serverUnicast .unaware, [{ announced with isProcessed := false }], false, false, false, none,
            none⟩) := by
  simp only [Endpoint.fcSetAnnounceData, serving.server, serving.support, Bool.not_true, Bool.and_false,
    Bool.false_eq_true, if_false, if_true]
  -- The first announcement brings the attributes, and the others are pushed behind it.
  cases conn.flexicast with
  | none => exact ⟨_, rfl, rfl, rfl, rfl, rfl⟩
  | some flexicast => exact ⟨_, rfl, rfl, rfl, rfl, rfl⟩

theorem Endpoint.Serving.onParty (serving : conn.Serving) {change : Party → Party}
    (keeps : ∀ flexicast ∈ conn.flexicast, (change ⟨flexicast, conn.closed⟩).flexicast.Serves) :
    (conn.onParty change).Serving := by
  -- Only the attributes change, and only when there are any.
  unfold Endpoint.onParty
  cases channels : conn.flexicast with
  | none => exact serving
  | some flexicast =>
    refine ⟨serving.server, serving.support, fun moved same => ?_⟩
    cases same
    exact keeps flexicast channels

/-- Marking an announcement keeps the channels. -/
theorem map_channelId_modify (announced : List McAnnounceData) (idx : Nat) (processed : Bool) :
    (announced.modify idx fun announce => { announce with isProcessed := processed }).map McAnnounceData.channelId =
      announced.map McAnnounceData.channelId := by
  -- Each place holds the channel that it held.
  apply List.ext_getElem?
  intro place
  rw [List.getElem?_map, List.getElem?_map, List.getElem?_modify]
  cases announced[place]? with
  | none => rfl
  | some announce =>
    by_cases here : idx = place <;> simp [here]

/-- Sending an announcement marks it, for a client that is unaware. -/
theorem sendMcAnnounce?_server (serving : conn.Serving) {frame : McAnnounce} {after : Endpoint}
    (sends : conn.sendMcAnnounce? = some (frame, after)) :
    ∃ flexicast sent, conn.flexicast = some flexicast ∧ flexicast.mcRole = .serverUnicast .unaware ∧
      after = { conn with flexicast := some sent } ∧ sent.mcRole = flexicast.mcRole ∧
      sent.mcAnnounceData.map McAnnounceData.channelId = flexicast.mcAnnounceData.map McAnnounceData.channelId := by
  unfold Endpoint.sendMcAnnounce? at sends
  split at sends
  case h_1 idx flexicast next channels =>
    -- There is an announcement to send for an unaware client only.
    rw [fcShouldSendFcAnnounce_server serving channels] at next
    split at next
    case isTrue unaware =>
      obtain ⟨announce, listed, same⟩ := Option.map_eq_some_iff.mp sends
      cases same
      exact ⟨flexicast, _, channels, unaware, rfl, rfl, map_channelId_modify _ _ _⟩
    case isFalse => cases next
  case h_2 => cases sends

/-- Attributes with the same role and as many channels serve as well. -/
theorem Serves.marks {moved : FlexicastAttributes} (serves : flexicast.Serves) (role : moved.mcRole = flexicast.mcRole)
    (channels : moved.mcAnnounceData.map McAnnounceData.channelId =
      flexicast.mcAnnounceData.map McAnnounceData.channelId) : moved.Serves := by
  refine ⟨role ▸ serves.role, fun empty => serves.announced ?_⟩
  rw [empty] at channels
  exact List.map_eq_nil_iff.mp channels.symm

theorem onMcAnnounceLost_keeps (channelId : Bytes) (flexicast : FlexicastAttributes) :
    (flexicast.onMcAnnounceLost channelId).mcRole = flexicast.mcRole ∧
      (flexicast.onMcAnnounceLost channelId).mcAnnounceData.map McAnnounceData.channelId =
        flexicast.mcAnnounceData.map McAnnounceData.channelId := by
  unfold FlexicastAttributes.onMcAnnounceLost
  split
  · exact ⟨rfl, map_channelId_modify _ _ _⟩
  · exact ⟨rfl, rfl⟩

/-- Every event keeps a server serving. -/
theorem Endpoint.Serving.next (serving : conn.Serving) (event : EndpointEvent) : (conn.next event).Serving := by
  cases event with
  | setAnnounceData announced =>
    obtain ⟨after, done, server, support, -, channels⟩ := fcSetAnnounceData_server serving announced
    simp only [Endpoint.next, done, Except.toOption, Option.getD_some]
    refine ⟨server, support, fun flexicast same => ?_⟩
    rw [channels] at same
    cases same
    -- The first channel comes with an unaware client, and a further one with the client as it is.
    cases before : conn.flexicast with
    | none => exact ⟨⟨.unaware, rfl, rfl⟩, by simp⟩
    | some flexicast => exact ⟨(serving.channels flexicast before).role, by simp⟩
  | announceSent =>
    simp only [Endpoint.next]
    split
    · exact serving
    · split
      case h_1 frame sent sends =>
        obtain ⟨flexicast, marked, channels, -, rfl, role, same⟩ := sendMcAnnounce?_server serving sends
        refine ⟨serving.server, serving.support, fun moved eq => ?_⟩
        cases eq
        exact Serves.marks (serving.channels flexicast channels) role same
      case h_2 => exact serving
  | announceReceived frame =>
    -- A server refuses the frame.
    simp only [Endpoint.next, Endpoint.processMcAnnounce, serving.server, if_true]
    split
    · exact serving
    · exact ⟨rfl, serving.support, serving.channels⟩
  | announceAcked channelId =>
    simp only [Endpoint.next]
    refine serving.onParty fun flexicast channels => ?_
    have serves := serving.channels flexicast channels
    rw [Party.handle_flexicast]
    refine Party.call_serves serves fun moved done => ?_
    unfold Endpoint.onMcAnnounceAcked at done
    split at done
    · exact (updateClientState_keeps serves done).1
    · cases done
      exact serves
  | announceLost channelId =>
    simp only [Endpoint.next]
    refine serving.onParty fun flexicast channels => ?_
    have serves := serving.channels flexicast channels
    rw [Party.handle_flexicast]
    refine Party.call_serves serves fun moved done => ?_
    cases done
    obtain ⟨role, same⟩ := onMcAnnounceLost_keeps channelId flexicast
    exact Serves.marks serves role same
  | around event =>
    simp only [Endpoint.next]
    split
    · exact ⟨serving.server, serving.support, serving.channels⟩
    · refine serving.onParty fun flexicast channels => ?_
      have serves := serving.channels flexicast channels
      cases conn.closed with
      | true =>
        rw [around_closed]
        exact serves
      | false => exact (around_steps serves event).serves

theorem onParty_flexicast (conn : Endpoint) (change : Party → Party) :
    (conn.onParty change).flexicast = conn.flexicast.map fun flexicast =>
      (change ⟨flexicast, conn.closed⟩).flexicast := by
  unfold Endpoint.onParty
  cases channels : conn.flexicast with
  | none => simp [channels]
  | some flexicast => rfl

theorem announceAcked_steps (serves : flexicast.Serves) (channelId : Bytes) :
    Steps (if (flexicast.getMcAnnounceDataIndex channelId).isSome then some .notify else none) flexicast
      (Party.handle ⟨flexicast, false⟩ (Endpoint.onMcAnnounceAcked channelId)).flexicast := by
  simp only [Party.handle, Endpoint.onMcAnnounceAcked, Bool.false_eq_true, if_false]
  -- An unknown channel is skipped; a known one notifies the client.
  cases (flexicast.getMcAnnounceDataIndex channelId).isSome with
  | false => exact .same serves rfl rfl
  | true =>
    simp only [if_true]
    cases moved : flexicast.updateClientState .notify none with
    | error error => exact .fails serves moved
    | ok after => exact .moves serves moved

/-- After a step, what was not sent is for an unaware client unless the step made it aware. -/
theorem Steps.unsent {told : Option FcClientAction} {after : FlexicastAttributes} (steps : Steps told flexicast after)
    (held : flexicast.Unsent → flexicast.mcRole = .serverUnicast .unaware) :
    (after.Unsent → after.mcRole = .serverUnicast .unaware) ↔
      (∀ action ∈ told, flexicast.raises action = false) ∨
        ¬ (flexicast.mcRole = .serverUnicast .unaware ∧ flexicast.Unsent) := by
  -- A step sends nothing, so the same announcements are still unsent.
  have same : after.Unsent ↔ flexicast.Unsent := by simp only [Unsent, steps.announced]
  rw [same, steps.unaware]
  constructor
  · intro kept
    by_cases unsent : flexicast.Unsent
    · exact .inl (kept unsent).2
    · exact .inr fun both => unsent both.2
  · rintro (quiet | sent) unsent
    · exact ⟨held unsent, quiet⟩
    · exact absurd ⟨held unsent, unsent⟩ sent

theorem unsent_lost {idx : Nat} (inside : idx < flexicast.mcAnnounceData.length) :
    Unsent { flexicast with
      mcAnnounceData :=
        flexicast.mcAnnounceData.modify idx fun announce => { announce with isProcessed := false } } := by
  refine ⟨{ flexicast.mcAnnounceData[idx] with isProcessed := false }, ?_, rfl⟩
  rw [List.mem_iff_getElem?]
  exact ⟨idx, by simp [inside]⟩

/-- After an event none is forgotten, just if the event was timely. -/
theorem noneForgotten_next (serving : conn.Serving) (held : conn.NoneForgotten) (event : EndpointEvent) :
    (conn.next event).NoneForgotten ↔ Timely conn event := by
  rw [noneForgotten_iff serving] at held
  rw [noneForgotten_iff (serving.next event)]
  cases event with
  | setAnnounceData announced =>
    obtain ⟨after, done, -, -, -, channels⟩ := fcSetAnnounceData_server serving announced
    simp only [Endpoint.next, done, Except.toOption, Option.getD_some, channels, Option.mem_some, forall_eq', Timely]
    cases before : conn.flexicast with
    | none => simp
    | some flexicast =>
      -- The further channel is the last one.
      have earlier := held flexicast before
      simp only [Unsent, List.mem_append, List.mem_singleton, Option.mem_some, forall_eq'] at earlier ⊢
      cases sent : announced.isProcessed with
      | true =>
        simp only [true_or, iff_true]
        rintro ⟨announce, listed | rfl, waits⟩
        · exact earlier ⟨announce, listed, waits⟩
        · rw [sent] at waits
          cases waits
      | false =>
        simp only [Bool.false_eq_true, false_or]
        exact ⟨fun all => all ⟨announced, .inr rfl, sent⟩, fun unaware _ => unaware⟩
  | announceSent =>
    -- Sending is for an unaware client, and leaves it unaware.
    simp only [Endpoint.next, Timely, implies_true, iff_true]
    split
    · exact held
    · split
      case h_1 frame sent sends =>
        obtain ⟨flexicast, marked, channels, unaware, rfl, role, -⟩ := sendMcAnnounce?_server serving sends
        intro moved same _
        cases same
        exact role.trans unaware
      case h_2 => exact held
  | announceReceived frame =>
    simp only [Endpoint.next, Endpoint.processMcAnnounce, serving.server, if_true, Timely, implies_true, iff_true]
    split <;> exact held
  | announceAcked channelId =>
    simp only [Endpoint.next, onParty_flexicast, Timely]
    cases before : conn.flexicast with
    | none => simp
    | some flexicast =>
      have earlier := held flexicast before
      simp only [Option.map_some, Option.mem_some, forall_eq']
      cases conn.closed with
      | true => simpa [Party.handle] using earlier
      | false =>
        -- The acknowledgment makes the client aware, whichever channel it is for.
        rw [(announceAcked_steps (serving.channels flexicast before) channelId).unsent earlier]
        cases flexicast.getMcAnnounceDataIndex channelId <;> simp [raises]
  | announceLost channelId =>
    simp only [Endpoint.next, onParty_flexicast, Timely]
    cases before : conn.flexicast with
    | none => simp
    | some flexicast =>
      have earlier := held flexicast before
      simp only [Option.map_some, Option.mem_some, forall_eq']
      cases conn.closed with
      | true => simpa [Party.handle] using earlier
      | false =>
        simp only [Party.handle, FlexicastAttributes.onMcAnnounceLost, Bool.false_eq_true, if_false, false_or]
        cases found : flexicast.getMcAnnounceDataIndex channelId with
        | none => simpa using earlier
        | some idx =>
          -- The lost announcement waits to be sent again.
          have waits := unsent_lost (getMcAnnounceDataIndex_lt found)
          simp [waits]
  | around event =>
    simp only [Endpoint.next, Timely]
    cases before : conn.flexicast with
    | none =>
      simp only [Option.isNone_none, Bool.true_and, Option.not_mem_none, false_implies, implies_true, iff_true]
      split
      · simp
      · simp [onParty_flexicast, before]
    | some flexicast =>
      have earlier := held flexicast before
      simp only [Option.isNone_some, Bool.false_and, Bool.false_eq_true, if_false, onParty_flexicast, before,
        Option.map_some, Option.mem_some, forall_eq']
      cases conn.closed with
      | true => simpa [around_closed] using earlier
      | false =>
        rw [(around_steps (serving.channels flexicast before) event).unsent earlier]
        simp

end Announcing

/-- No announcement is forgotten in a run of a server just if each event of it is timely. -/
theorem none_forgotten_iff_timely (events : List EndpointEvent) :
    (∀ done, done <+: events → (Runs.run Endpoint.next (.new true true) done).NoneForgotten) ↔
      Runs.Along Endpoint.next Timely (.new true true) events := by
  -- A step decides whether one is forgotten, from any connection that serves.
  have keeps (conn : Endpoint) (event : EndpointEvent) (serving : conn.Serving) (_ : True) :
      (conn.next event).Serving := serving.next event
  have step (conn : Endpoint) (event : EndpointEvent) (serving : conn.Serving) (held : conn.NoneForgotten)
      (_ : True) : (conn.next event).NoneForgotten ↔ Timely conn event := noneForgotten_next serving held event
  have start : (Endpoint.new true true).Serving := ⟨rfl, rfl, by simp [Endpoint.new]⟩
  have empty : (Endpoint.new true true).NoneForgotten := by simp [Endpoint.NoneForgotten, Endpoint.new]
  exact Runs.always_iff_along keeps step events start empty (Runs.along_true _ _ events)

/-- Two channels are announced, and the second announcement is lost before the first one is acknowledged. -/
def lostBeforeAware : List EndpointEvent :=
  [.setAnnounceData ⟨[1], false, false⟩, .setAnnounceData ⟨[2], false, false⟩, .announceSent, .announceSent,
    .announceLost [2], .announceAcked [1]]

/-- The second channel is never announced again. -/
theorem lost_announcement_forgotten : ¬ (Runs.run Endpoint.next (.new true true) lostBeforeAware).NoneForgotten := by
  decide

end Channel

end Flexicast
