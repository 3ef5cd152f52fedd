import Flexicast.Channel.Keys

/-! Whether the server can always send the key that it has to send. -/

namespace Flexicast

namespace Channel

/-- A unicast server, with the `MC_STATE` frames that it sent. -/
structure KeyServer where
  keyed : KeyedAttributes
  closed : Bool
  sent : List McState
  deriving DecidableEq

/-- What may happen to a server, whatever its peer does. -/
inductive KeyServerEvent where
  | announce (announced : McAnnounceData) (key : ChannelKey)
  | configure (secret : Bytes) (fcPathId : Nat) (algo : Algorithm) (mcAnnounceId : Option Nat)
  | pathCreated (fcPathId : Nat)
  /-- The server asks the client to leave. -/
  | expel
  | announceSent
  | announceAcked (channelId : Bytes)
  | announceLost (channelId : Bytes)
  | stateReceived (frame : McState) (createMcPath : Except FcError Nat)
  | stateSent
  | stateAcked (sent : Nat)
  | stateLost
  /-- A packet is built, and the key fits into it or not. -/
  | keySent (fits : Bool)
  | keyAcked
  | keyLost

/-- Whether the server takes its client to have the key. -/
def McRole.toldKey : McRole → Bool
  | .serverUnicast status => status.pastKey
  | _ => false

/-- Whether the client was told a key that is not up to date. -/
def FlexicastAttributes.exposed (self : FlexicastAttributes) : Bool := self.mcRole.toldKey && !self.mcKeyUpToDate

/-- The secret of the joined channel. -/
def KeyedAttributes.activeSecret (self : KeyedAttributes) : Option Bytes := self.fcChanIdx.bind self.secretAt

namespace KeyServer

/-- A server with the channels that it announces, and their keys. -/
def new (first : McAnnounceData × ChannelKey) (rest : List (McAnnounceData × ChannelKey)) : KeyServer where
  keyed :=
    { flexicast := ⟨.serverUnicast .unaware, (first :: rest).map Prod.fst, false, false, false, none, none⟩
      channelKeys := (first :: rest).map Prod.snd
      fcFirstPn := none
      mcCrypto := none
      recvPktNeedAck := [] }
  closed := false
  sent := []

/-- The party that the server is, without the keys. -/
def party (self : KeyServer) : Party := ⟨self.keyed.flexicast, self.closed⟩

/-- Changes the party. -/
def withParty (self : KeyServer) (party : Party) : KeyServer :=
  { self with keyed := { self.keyed with flexicast := party.flexicast }, closed := party.closed }

/-- The server is given a key, unless it is closed. -/
def configure (self : KeyServer) (configured : Except KeyError KeyedAttributes) : KeyServer :=
  if self.closed then self
  else
    match configured with
    | .ok keyed => { self with keyed := keyed }
    | .error _ => self

/-- One event. -/
def next (self : KeyServer) : KeyServerEvent → KeyServer
  | .announce announced key => self.configure (.ok { self.keyed with
      flexicast := { self.keyed.flexicast with
        mcAnnounceData := self.keyed.flexicast.mcAnnounceData ++ [announced] }
      channelKeys := self.keyed.channelKeys ++ [key] })
  | .configure secret fcPathId algo mcAnnounceId =>
    self.configure (self.keyed.mcSetFlexicastReceiver secret fcPathId algo mcAnnounceId)
  | .pathCreated fcPathId => self.withParty <| self.party.call fun flexicast =>
      .ok { flexicast with fcPathId := some fcPathId }
  | .expel => self.withParty <| self.party.call (·.mcLeaveChannel)
  | .announceSent => self.withParty <| self.party.call fun flexicast => .ok flexicast.sendAnnounce
  | .announceAcked channelId => self.withParty <| self.party.handle fun flexicast =>
      match flexicast.getMcAnnounceDataIndex channelId with
      | some _ => flexicast.updateClientState .notify none
      | none => .ok flexicast
  | .announceLost channelId => self.withParty <| self.party.handle fun flexicast =>
      .ok (flexicast.onMcAnnounceLost channelId)
  | .stateReceived frame createMcPath => self.withParty <| self.party.receive frame createMcPath
  | .stateSent =>
    match self.party.send? with
    | some (frame, party) => { self.withParty party with sent := self.sent ++ [frame] }
    | none => self
  | .stateAcked position => self.withParty <| self.party.handle (System.ackedAt self.sent position)
  | .stateLost => self.withParty <| self.party.handle fun flexicast =>
      .ok { flexicast with mcStateInFlight := false }
  | .keySent fits =>
    match self.closed, self.keyed.mcKeyFrame with
    | false, .ok (some _) => if fits then { self with keyed := self.keyed.setMcKeyRead true } else self
    | _, _ => self
  | .keyAcked => self.withParty <| self.party.handle fun flexicast =>
      { flexicast with mcKeyUpToDate := true }.updateClientState .decryptionKey none
  | .keyLost => self.withParty <| self.party.handle fun flexicast =>
      .ok { flexicast with mcKeyUpToDate := false }

/-- A server that is not closed can read the secret whenever it has to send it. -/
def Unwedged (self : KeyServer) : Prop :=
  self.closed = false → (∃ key ∈ self.keyed.channelKeys, key.fcChannelSecret.isSome = true) →
    self.keyed.shouldSendFcKey = true → ∃ secret, self.keyed.getDecryptionKeySecret = .ok secret

/-- Whether an action would leave a server past the key, with a key that is not up to date. -/
def exposes (upToDate : Bool) : McClientStatus → FcClientAction → Bool
  | .joinedAndKey, .leave => true
  | .listenMcPath _, .leave => false
  | .listenMcPath true, .change => false
  | .joinedNoKey, .mcPath => !upToDate
  | .joinedNoKey, .decryptionKey => !upToDate
  | .changing, .decryptionKey => !upToDate
  | status, _ => status.pastKey && !upToDate

/-- Whether a frame would leave the server past the key of a configured channel, without an up to date key. -/
def exposedBy (self : KeyServer) (frame : McState) (createMcPath : Except FcError Nat) : Bool :=
  match FcClientAction.tryFrom frame.action, self.keyed.flexicast.getMcAnnounceDataIndex frame.channelId,
      self.keyed.flexicast.mcRole with
  | some action, some idx, .serverUnicast status =>
    -- A path that cannot be created closes the connection.
    let accepted := action ≠ .join ∨ (self.keyed.flexicast.mcAnnounceData[idx]?).any McAnnounceData.probePath ∨
      createMcPath.isOk
    exposes self.keyed.flexicast.mcKeyUpToDate status action && (self.keyed.secretAt idx).isSome && decide accepted
  | _, _, _ => false

/-- An event that keeps the key sendable. -/
def KeepsSendable (self : KeyServer) (event : KeyServerEvent) : Prop :=
  self.closed = false →
    match event with
    | .keyLost => self.keyed.flexicast.mcRole.toldKey = true → self.keyed.activeSecret = none
    | .stateReceived frame createMcPath => self.exposedBy frame createMcPath = false
    | .stateAcked position =>
      position < self.sent.length → self.keyed.flexicast.mcRole = .serverUnicast .joinedAndKey →
        self.keyed.activeSecret = none
    | .configure _ _ _ mcAnnounceId =>
      self.keyed.flexicast.exposed = true → mcAnnounceId.or self.keyed.fcChanIdx ≠ self.keyed.fcChanIdx
    | _ => True

/-- The key is up to date wherever the client was told a secret. -/
def Sendable (self : KeyServer) : Prop :=
  self.closed = false → self.keyed.flexicast.exposed = true → self.keyed.activeSecret = none

/-- What every event keeps. -/
structure Sound (server : KeyServer) : Prop where
  serves : server.keyed.flexicast.Serves
  keys : server.keyed.channelKeys.length = server.keyed.flexicast.mcAnnounceData.length
  joined : ∀ chan, server.keyed.flexicast.fcChanId = some chan → chan.2 < server.keyed.channelKeys.length
  /-- A client that has the key or awaits it has joined a channel. -/
  recorded : server.closed = false → ∀ status, server.keyed.flexicast.mcRole = .serverUnicast status →
    status.pastKey = true ∨ status.awaitsKey = true → server.keyed.flexicast.fcChanId.isSome = true
  leaves : ∀ frame ∈ server.sent, frame.action = FcClientAction.leave.toU64 ∧ frame.actionData = leaveFromClient

/-- The key can be sent whenever it has to be just when it is up to date wherever the client was told a secret. -/
theorem unwedged_iff_sendable {self : KeyServer} (sound : self.Sound) : self.Unwedged ↔ self.Sendable := by
  obtain ⟨status, role, -⟩ := sound.serves.role
  unfold Unwedged Sendable
  refine imp_congr_right fun running => ?_
  cases joined : self.keyed.flexicast.fcChanId with
  | none =>
    -- Without a channel, the client neither has the key nor awaits it.
    have outside := sound.recorded running status role
    rw [joined] at outside
    have quiet : self.keyed.shouldSendFcKey = false := by
      unfold KeyedAttributes.shouldSendFcKey
      rw [role]
      cases status <;> simp_all [McClientStatus.pastKey, McClientStatus.awaitsKey]
    simp [quiet, KeyedAttributes.activeSecret, KeyedAttributes.fcChanIdx, joined]
  | some chan =>
    rw [shouldSendFcKey_iff role joined, getDecryptionKeySecret_iff role joined]
    simp only [FlexicastAttributes.exposed, McRole.toldKey, role, KeyedAttributes.activeSecret,
      KeyedAttributes.fcChanIdx, joined, Option.map_some, Option.bind_some, Bool.and_eq_true, Bool.not_eq_true']
    constructor
    · -- A client that was told the secret does not await it.
      rintro sends ⟨told, stale⟩
      apply Option.not_isSome_iff_eq_none.mp
      intro configured
      have listed : ∃ key ∈ self.keyed.channelKeys, key.fcChannelSecret.isSome = true := by
        obtain ⟨secret, read⟩ := Option.isSome_iff_exists.mp configured
        obtain ⟨key, listed, secretOf⟩ := Option.bind_eq_some_iff.mp read
        exact ⟨key, List.mem_of_getElem? listed, by rw [secretOf]; rfl⟩
      have awaits := (sends listed ⟨configured, stale, .inl told⟩).2
      revert awaits told
      cases status <;> simp [McClientStatus.pastKey, McClientStatus.awaitsKey]
    · intro untold _ sends
      refine ⟨sends.1, sends.2.2.resolve_left fun told => ?_⟩
      rw [untold ⟨told, sends.2.1⟩] at sends
      exact absurd sends.1 (by decide)

end KeyServer

section Moving

open KeyServer FlexicastAttributes

variable {self moved : FlexicastAttributes} {status : McClientStatus} {action : FcClientAction}
  {actionData : Nat}

/-- What a step does to the key of a client, and whether the client is still in a channel. -/
theorem transition_exposes {result : FlexicastAttributes × McClientStatus} (serves : status.serves)
    (done : self.transition true status action (some actionData) = .ok result) :
    (result.2.pastKey && !(if action = .leave then false else result.1.mcKeyUpToDate)) =
        exposes self.mcKeyUpToDate status action ∧
      (result.2.pastKey = true ∨ result.2.awaitsKey = true → action ≠ .join →
        status.pastKey = true ∨ status.awaitsKey = true) := by
  -- One case for each status and action; the statuses that only a client has are excluded.
  cases status with
  | declinedJoin => exact absurd serves (by decide)
  | waitingToJoin => exact absurd serves (by decide)
  | unspecified => exact absurd serves (by decide)
  | listenMcPath up =>
    cases action with
    | leave =>
      -- Whoever asks to leave, the client does not listen afterwards.
      simp only [transition, if_true] at done
      split at done
      · cases done
        simp [exposes, McClientStatus.pastKey, McClientStatus.awaitsKey]
      · split at done
        · cases done
          simp [exposes, McClientStatus.pastKey, McClientStatus.awaitsKey]
        · cases done
    | _ =>
      cases up <;> simp only [transition] at done <;> cases done <;>
        simp [exposes, McClientStatus.pastKey, McClientStatus.awaitsKey]
  | unaware =>
    cases action with
    | join =>
      -- The first announcement decides whether the client is in.
      simp only [transition, if_true] at done
      split at done
      · cases done
        simp only
        split <;> simp [exposes, McClientStatus.pastKey]
      · cases done
    | _ =>
      simp only [transition] at done
      cases done
      simp [exposes, McClientStatus.pastKey, McClientStatus.awaitsKey]
  | _ =>
    cases action <;> simp only [transition, if_true] at done <;> cases done <;>
      simp [exposes, McClientStatus.pastKey, McClientStatus.awaitsKey]

theorem updateClientState_exposes (role : self.mcRole = .serverUnicast status) (serves : status.serves)
    (done : self.updateClientState action (some actionData) = .ok moved) :
    ∃ status', moved.mcRole = .serverUnicast status' ∧
      (status'.pastKey && !moved.mcKeyUpToDate) = exposes self.mcKeyUpToDate status action ∧
      (status'.pastKey = true ∨ status'.awaitsKey = true → action ≠ .join →
        status.pastKey = true ∨ status.awaitsKey = true) := by
  rw [updateClientState_server role] at done
  cases stepped : self.transition true status action (some actionData) with
  | error error =>
    rw [stepped] at done
    cases done
  | ok result =>
    rw [stepped] at done
    cases done
    refine ⟨result.2, rfl, ?_⟩
    -- Settling keeps what the transition made of the key.
    have exposed := transition_exposes serves stepped
    simpa [settle] using exposed

theorem updateClientState_dataless (self : FlexicastAttributes)
    (dataless : action = .notify ∨ action = .decryptionKey) :
    self.updateClientState action none = self.updateClientState action (some 0) := by
  -- Only the other actions look at their data.
  have same (isServer : Bool) (status : McClientStatus) :
      self.transition isServer status action none = self.transition isServer status action (some 0) := by
    rcases dataless with rfl | rfl
    · cases status with
      | listenMcPath up => cases up <;> rfl
      | _ => rfl
    · cases status with
      | listenMcPath up => cases up <;> rfl
      | _ => rfl
  simp only [updateClientState, same]

/-- Whether the server takes its client to be in a channel whose key it has or awaits. -/
def McRole.keyed : McRole → Bool
  | .serverUnicast status => status.pastKey || status.awaitsKey
  | _ => false

/-- A change of a server that leaves its channels alone, and brings no client into one. -/
structure FlexicastAttributes.Stays (before moved : FlexicastAttributes) : Prop where
  serves : moved.Serves
  channels : moved.mcAnnounceData.length = before.mcAnnounceData.length
  joined : moved.fcChanId = before.fcChanId
  outside : moved.mcRole.keyed = true → before.mcRole.keyed = true

theorem updateClientState_stays (serves : self.Serves) (other : action ≠ .join)
    (done : self.updateClientState action (some actionData) = .ok moved) : self.Stays moved := by
  obtain ⟨status, role, serving⟩ := serves.role
  obtain ⟨served, announced, joined⟩ := updateClientState_keeps serves done
  obtain ⟨status', role', -, inside⟩ := updateClientState_exposes role serving done
  refine ⟨served, by rw [announced], joined, fun keyed => ?_⟩
  simp only [McRole.keyed, role, role', Bool.or_eq_true] at keyed ⊢
  exact inside keyed other

theorem updateClientState_exposed (role : self.mcRole = .serverUnicast status) (serves : status.serves)
    (done : self.updateClientState action (some actionData) = .ok moved) :
    moved.exposed = exposes self.mcKeyUpToDate status action := by
  obtain ⟨status', role', exposed, -⟩ := updateClientState_exposes role serves done
  simpa only [FlexicastAttributes.exposed, McRole.toldKey, role'] using exposed

end Moving

section Events

open FlexicastAttributes

namespace KeyServer

variable {self : KeyServer} {operation : FlexicastAttributes → Except FcError FlexicastAttributes}

variable {moved : FlexicastAttributes} {status : McClientStatus} {frame : McState}

/-- A change that leaves the channels alone keeps the server sound. -/
theorem Sound.moves (sound : self.Sound) {closed : Bool} (stays : self.keyed.flexicast.Stays moved)
    (running : closed = false → self.closed = false) :
    (self.withParty ⟨moved, closed⟩).Sound where
  serves := stays.serves
  keys := sound.keys.trans stays.channels.symm
  joined := by
    intro chan joined
    exact sound.joined chan (stays.joined.symm.trans joined)
  recorded := by
    intro opened status role inside
    -- A client that is in a channel now was in one before.
    have keyed : moved.mcRole.keyed = true := by
      rw [show moved.mcRole = _ from role]
      simpa [McRole.keyed] using inside
    obtain ⟨before, role', -⟩ := sound.serves.role
    have held := stays.outside keyed
    rw [role'] at held
    rw [show (self.withParty ⟨moved, closed⟩).keyed.flexicast.fcChanId = _ from stays.joined]
    exact sound.recorded (running opened) before role' (by simpa [McRole.keyed] using held)
  leaves := sound.leaves

/-- Nothing that is called or handled makes the server unsound unless it touches the channels. -/
theorem Sound.handles (sound : self.Sound)
    (stays : ∀ moved, operation self.keyed.flexicast = .ok moved → self.keyed.flexicast.Stays moved) :
    (self.withParty (self.party.handle operation)).Sound := by
  have kept : self.keyed.flexicast.Stays self.keyed.flexicast := ⟨sound.serves, rfl, rfl, id⟩
  -- A failure closes the connection, and leaves the attributes as they are.
  unfold Party.handle
  split
  · exact sound.moves kept id
  · split
    case h_1 moved done => exact sound.moves (stays moved done) id
    case h_2 => exact sound.moves kept (fun opened => absurd opened (by simp))

/-- A call keeps the server sound where handling does. -/
theorem Sound.calls (sound : self.Sound)
    (stays : ∀ moved, operation self.keyed.flexicast = .ok moved → self.keyed.flexicast.Stays moved) :
    (self.withParty (self.party.call operation)).Sound := by
  -- A closed party, and a call that fails, change nothing.
  have kept : self.keyed.flexicast.Stays self.keyed.flexicast := ⟨sound.serves, rfl, rfl, id⟩
  unfold Party.call
  split
  · exact sound.moves kept id
  · split
    case h_1 moved done => exact sound.moves (stays moved done) id
    case h_2 => exact sound.moves kept id

/-- What is handled keeps the key sendable just when it does not expose the client. -/
theorem sendable_handles
    (joined : ∀ moved, operation self.keyed.flexicast = .ok moved →
      moved.fcChanId = self.keyed.flexicast.fcChanId) :
    (self.withParty (self.party.handle operation)).Sendable ↔
      (self.closed = false → ∀ moved, operation self.keyed.flexicast = .ok moved → moved.exposed = true →
        self.keyed.activeSecret = none) := by
  -- A closed server is never stuck, neither before nor after.
  unfold Party.handle
  split
  case isTrue closed =>
    have closed : self.closed = true := closed
    exact iff_of_true (fun opened => absurd opened (by simp [withParty, party, closed]))
      (fun opened => absurd opened (by simp [closed]))
  case isFalse opened =>
    have opened : self.closed = false := by simpa [party] using opened
    split
    case h_1 moved done =>
      have done : operation self.keyed.flexicast = .ok moved := done
      have same : (self.withParty { self.party with flexicast := moved }).keyed.activeSecret =
          self.keyed.activeSecret := by
        simp only [KeyedAttributes.activeSecret, KeyedAttributes.fcChanIdx, withParty, joined moved done]
        rfl
      unfold Sendable
      rw [same]
      constructor
      · intro held _ moved' done' exposed
        cases done.symm.trans done'
        exact held opened exposed
      · exact fun held _ exposed => held opened moved done exposed
    case h_2 error failed =>
      have failed : operation self.keyed.flexicast = .error error := failed
      refine iff_of_true (fun opened => absurd opened (by simp [withParty])) fun _ moved done => ?_
      cases failed.symm.trans done

theorem sendable_calls (sendable : self.Sendable)
    (joined : ∀ moved, operation self.keyed.flexicast = .ok moved →
      moved.fcChanId = self.keyed.flexicast.fcChanId) :
    (self.withParty (self.party.call operation)).Sendable ↔
      (self.closed = false → ∀ moved, operation self.keyed.flexicast = .ok moved → moved.exposed = true →
        self.keyed.activeSecret = none) := by
  rw [← sendable_handles joined]
  -- They differ only where the operation fails, which leaves the attributes as they were.
  unfold Party.call Party.handle
  split
  · rfl
  · split
    case h_1 => rfl
    case h_2 => exact iff_of_true sendable fun opened => absurd opened (by simp [withParty])

/-- Whether the channel of a frame is recorded, and its path created. -/
theorem recordChannel_spec {server : FlexicastAttributes} {status : McClientStatus} {channelId : Bytes} {idx : Nat}
    (role : server.mcRole = .serverUnicast status) (found : server.getMcAnnounceDataIndex channelId = some idx)
    (action : FcClientAction) (createMcPath : Except FcError Nat) :
    let recorded := server.recordChannel channelId action createMcPath
    recorded.1.fcChanId = some (channelId, idx) ∧ recorded.1.exposed = server.exposed ∧
      (recorded.2 = .ok () ↔ (action ≠ .join ∨ (server.mcAnnounceData[idx]?).any McAnnounceData.probePath = true ∨
        createMcPath.isOk = true)) := by
  have inside : idx < server.mcAnnounceData.length := by
    unfold getMcAnnounceDataIndex at found
    exact (List.findIdx?_eq_some_iff_findIdx_eq.mp found).1
  simp only [recordChannel, found, role, List.getElem?_eq_getElem inside, Option.any_some]
  cases action with
  | join =>
    -- Only a join may need a path.
    simp only
    split
    case isTrue probes => simp [probes, exposed, role]
    case isFalse direct =>
      cases createMcPath <;> simp [direct, exposed, role, Except.isOk, Except.toBool]
  | _ => simp [exposed, role]

variable {server : FlexicastAttributes} {idx position : Nat} {action : FcClientAction}

theorem exposes_of_error {actionData : Nat} {error : FcError} (role : server.mcRole = .serverUnicast status)
    (failed : server.updateClientState action (some actionData) = .error error) :
    exposes server.mcKeyUpToDate status action = false := by
  rw [updateClientState_server role] at failed
  cases status with
  | listenMcPath up =>
    -- A leave may fail, which no other action does here.
    cases up <;> cases action <;> first | rfl | (simp only [transition] at failed; cases failed)
  | unaware => cases action <;> rfl
  | _ => cases action <;> simp only [transition] at failed <;> cases failed

theorem exposedBy_eq (createMcPath : Except FcError Nat) (known : FcClientAction.tryFrom frame.action = some action)
    (found : self.keyed.flexicast.getMcAnnounceDataIndex frame.channelId = some idx)
    (role : self.keyed.flexicast.mcRole = .serverUnicast status) :
    self.exposedBy frame createMcPath = (exposes self.keyed.flexicast.mcKeyUpToDate status action &&
      (self.keyed.secretAt idx).isSome && decide (action ≠ .join ∨
        (self.keyed.flexicast.mcAnnounceData[idx]?).any McAnnounceData.probePath ∨ createMcPath.isOk)) := by
  simp only [exposedBy, known, found, role]

/-- A frame keeps the key sendable just when it does not expose the client. -/
theorem sendable_receives (sound : self.Sound) (frame : McState) (createMcPath : Except FcError Nat) :
    (self.withParty (self.party.receive frame createMcPath)).Sendable ↔
      (self.closed = false → self.exposedBy frame createMcPath = false) := by
  obtain ⟨status, role, serving⟩ := sound.serves.role
  -- A frame that closes the connection exposes nothing.
  have closes (flexicast : FlexicastAttributes) (harmless : self.exposedBy frame createMcPath = false) :
      (self.withParty ⟨flexicast, true⟩).Sendable ↔
        (self.closed = false → self.exposedBy frame createMcPath = false) :=
    iff_of_true (fun opened => absurd opened (by simp [withParty])) fun _ => harmless
  unfold Party.receive
  split
  case isTrue closed =>
    have closed : self.closed = true := closed
    exact iff_of_true (fun opened => absurd opened (by simp [withParty, party, closed]))
      (fun opened => absurd opened (by simp [closed]))
  case isFalse opened =>
    have opened : self.closed = false := by simpa [party] using opened
    unfold processMcState
    cases known : FcClientAction.tryFrom frame.action with
    | none => exact closes _ (by simp [exposedBy, known])
    | some action =>
      cases found : self.keyed.flexicast.getMcAnnounceDataIndex frame.channelId with
      | none =>
        -- The step may succeed, but the channel is not known.
        have harmless : self.exposedBy frame createMcPath = false := by simp [exposedBy, known, found]
        simp only
        cases stepped : self.party.flexicast.updateClientState action (some frame.actionData) with
        | error error => exact closes _ harmless
        | ok moved =>
          have announced : moved.mcAnnounceData = self.keyed.flexicast.mcAnnounceData :=
            (updateClientState_keeps sound.serves stepped).2.1
          have index : moved.getMcAnnounceDataIndex frame.channelId = none := by
            rw [← found]
            simp only [getMcAnnounceDataIndex, announced]
          simp only [recordChannel, index]
          exact closes _ harmless
      | some idx =>
        have eq := exposedBy_eq createMcPath known found role
        simp only
        cases stepped : self.party.flexicast.updateClientState action (some frame.actionData) with
        | error error => exact closes _ (by rw [eq, exposes_of_error role stepped]; rfl)
        | ok moved =>
          obtain ⟨served, announced, -⟩ := updateClientState_keeps sound.serves stepped
          have announced : moved.mcAnnounceData = self.keyed.flexicast.mcAnnounceData := announced
          obtain ⟨status', role', -⟩ := served.role
          have index : moved.getMcAnnounceDataIndex frame.channelId = some idx := by
            rw [← found]
            simp only [getMcAnnounceDataIndex, announced]
          have exposed := updateClientState_exposed role serving stepped
          obtain ⟨joined, same, accepted⟩ := recordChannel_spec role' index action createMcPath
          rw [announced] at accepted
          simp only
          cases recorded : moved.recordChannel frame.channelId action createMcPath with
          | mk flexicast outcome =>
            rw [recorded] at joined same accepted
            simp only at joined same accepted ⊢
            cases outcome with
            | error error =>
              refine closes _ ?_
              rw [eq, decide_eq_false (fun met => absurd (accepted.mpr met) (by simp)), Bool.and_false]
            | ok done =>
              -- The frame is taken, and its channel is the one whose secret counts.
              have active : (self.withParty { self.party with flexicast := flexicast }).keyed.activeSecret =
                  self.keyed.secretAt idx := by
                simp only [KeyedAttributes.activeSecret, KeyedAttributes.fcChanIdx, withParty, joined,
                  Option.map_some, Option.bind_some]
                rfl
              rw [eq, decide_eq_true (accepted.mp rfl), Bool.and_true, ← exposed, ← same]
              unfold Sendable
              rw [active]
              cases self.keyed.secretAt idx <;> simp [withParty, party]

/-- Processing a frame keeps the server sound. -/
theorem Sound.receives (sound : self.Sound) (frame : McState) (createMcPath : Except FcError Nat) :
    (self.withParty (self.party.receive frame createMcPath)).Sound := by
  -- The frame records its channel, which is an announced one.
  have served := processMcState_serves sound.serves frame createMcPath
  obtain ⟨announced, joined, recorded⟩ := processMcState_channels self.keyed.flexicast frame createMcPath
  unfold Party.receive
  split
  case isTrue closed =>
    exact ⟨sound.serves, sound.keys, sound.joined, sound.recorded, sound.leaves⟩
  case isFalse opened =>
    have opened : self.closed = false := by simpa [party] using opened
    -- A failure leaves what was done before it, on a connection that is closed.
    have landed (flexicast : FlexicastAttributes) (closed : Bool) (outcome : Except FcError Unit)
        (result : self.keyed.flexicast.processMcState frame createMcPath = (flexicast, outcome))
        (failed : closed = false → outcome = .ok ()) : (self.withParty ⟨flexicast, closed⟩).Sound := by
      rw [result] at served announced joined recorded
      constructor
      · exact served
      · rw [show (self.withParty ⟨flexicast, closed⟩).keyed.flexicast.mcAnnounceData = _ from announced]
        exact sound.keys
      · intro chan now
        rcases joined with same | ⟨idx, inside, found⟩
        · exact sound.joined chan (same.symm.trans now)
        · have now : some (frame.channelId, idx) = some chan := found.symm.trans now
          cases now
          exact sound.keys ▸ inside
      · exact fun running _ _ _ => recorded (failed running)
      · exact sound.leaves
    split
    case h_1 flexicast result => exact landed flexicast _ _ result fun _ => rfl
    case h_2 flexicast error result => exact landed flexicast true _ result fun running => absurd running (by decide)

/-- A change that leaves the role, the channels and their number alone. -/
theorem Sound.stays (sound : self.Sound) (role : moved.mcRole = self.keyed.flexicast.mcRole)
    (channels : moved.mcAnnounceData.length = self.keyed.flexicast.mcAnnounceData.length)
    (joined : moved.fcChanId = self.keyed.flexicast.fcChanId) : self.keyed.flexicast.Stays moved where
  serves := ⟨role ▸ sound.serves.role, by
    apply List.ne_nil_of_length_pos
    rw [channels]
    exact List.length_pos_iff.mpr sound.serves.announced⟩
  channels := channels
  joined := joined
  outside := by rw [role]; exact id

theorem ackedAt_leave (sound : self.Sound) (listed : self.sent[position]? = some frame)
    (flexicast : FlexicastAttributes) (server : ∃ status, flexicast.mcRole = .serverUnicast status) :
    System.ackedAt self.sent position flexicast =
      { flexicast with mcStateInFlight := false }.updateClientState .leave (some leaveFromClient) := by
  obtain ⟨status, role⟩ := server
  -- All that a server ever sends is that the client is to leave.
  obtain ⟨leave, data⟩ := sound.leaves frame (List.mem_of_getElem? listed)
  simp only [System.ackedAt, listed, onMcStateAcked, leave, data, FcClientAction.tryFrom_toU64, role]
  rfl

/-- A server only ever asks its client to leave. -/
theorem send_leave {party after : Party} (role : party.flexicast.mcRole = .serverUnicast status)
    (sends : party.send? = some (frame, after)) :
    frame.action = FcClientAction.leave.toU64 ∧ frame.actionData = leaveFromClient ∧
      after = { party with flexicast := { party.flexicast with mcStateInFlight := true } } := by
  unfold Party.send? at sends
  split at sends
  · cases sends
  · split at sends
    case h_1 sentFrame done =>
      cases sends
      unfold stateFrame at done
      cases active : party.flexicast.getMcAnnounceDataActive with
      | none =>
        rw [active] at done
        cases acts : party.flexicast.stateAction <;> rw [acts] at done <;> cases done
      | some announce =>
        rw [active] at done
        -- The role decides the action.
        cases acts : party.flexicast.stateAction with
        | error error =>
          rw [acts] at done
          cases done
        | ok pair =>
          rw [acts] at done
          cases done
          unfold stateAction at acts
          rw [role] at acts
          split at acts
          case h_4 =>
            cases acts
            exact ⟨rfl, rfl, rfl⟩
          case h_6 => cases acts
          -- The other arms are those of a client.
          all_goals
            rename_i client
            cases client
    case h_2 => cases sends

/-- An acknowledgment leaves the joined channel alone. -/
theorem ackedAt_joined {frames : List McState} {flexicast : FlexicastAttributes}
    (done : System.ackedAt frames position flexicast = .ok moved) : moved.fcChanId = flexicast.fcChanId := by
  -- The frame at most moves the client.
  unfold System.ackedAt at done
  split at done
  case h_1 frame listed =>
    unfold onMcStateAcked at done
    simp only at done
    split at done
    · cases done
      rfl
    · split at done
      · exact (updateClientState_channels done).2
      · cases done
  case h_2 =>
    cases done
    rfl

theorem keySent_cases (self : KeyServer) (fits : Bool) :
    self.next (.keySent fits) = self ∨
      self.next (.keySent fits) = { self with keyed := self.keyed.setMcKeyRead true } := by
  simp only [next]
  -- A closed server, and a key that does not fit or is not due, send nothing.
  split
  · split
    · exact .inr rfl
    · exact .inl rfl
  · exact .inl rfl

/-- A channel that is announced goes behind the others, with its key. -/
theorem Sound.announces (sound : self.Sound) (announced : McAnnounceData) (key : ChannelKey) :
    (self.next (.announce announced key)).Sound := by
  simp only [KeyServer.next, configure]
  split
  · exact sound
  · constructor
    · exact ⟨sound.serves.role, List.append_ne_nil_of_left_ne_nil sound.serves.announced _⟩
    · simp [sound.keys]
    · intro chan joined
      have inside := sound.joined chan joined
      simp only [List.length_append, List.length_cons]
      omega
    · exact sound.recorded
    · exact sound.leaves

theorem Sound.configures (sound : self.Sound) (secret : Bytes) (fcPathId : Nat) (algo : Algorithm)
    (mcAnnounceId : Option Nat) : (self.next (.configure secret fcPathId algo mcAnnounceId)).Sound := by
  simp only [KeyServer.next, configure, KeyedAttributes.mcSetFlexicastReceiver]
  split
  · exact sound
  · split
    case h_1 keyed done =>
      -- The entry of one channel changes, and their number does not.
      split at done
      · split at done
        · cases done
          exact ⟨⟨sound.serves.role, sound.serves.announced⟩, by simpa using sound.keys,
            by simpa using sound.joined, sound.recorded, sound.leaves⟩
        · cases done
      · cases done
      · cases done
    case h_2 => exact sound

/-- A server sends no state but that of a leave. -/
theorem Sound.sendsState (sound : self.Sound) : (self.next .stateSent).Sound := by
  simp only [KeyServer.next]
  split
  case h_1 frame after sends =>
    obtain ⟨status, role, -⟩ := sound.serves.role
    have role : self.party.flexicast.mcRole = .serverUnicast status := role
    obtain ⟨leave, data, rfl⟩ := send_leave role sends
    refine ⟨⟨sound.serves.role, sound.serves.announced⟩, sound.keys, sound.joined, sound.recorded, ?_⟩
    intro held member
    rcases List.mem_append.mp member with before | last
    · exact sound.leaves held before
    · rw [List.mem_singleton.mp last]
      exact ⟨leave, data⟩
  case h_2 => exact sound

theorem Sound.acksState (sound : self.Sound) (position : Nat) : (self.next (.stateAcked position)).Sound := by
  apply sound.handles
  intro moved done
  cases listed : self.sent[position]? with
  | none =>
    simp only [System.ackedAt, listed] at done
    cases done
    exact sound.stays rfl rfl rfl
  | some frame =>
    obtain ⟨status, role, -⟩ := sound.serves.role
    rw [ackedAt_leave sound listed _ ⟨status, role⟩] at done
    have served : FlexicastAttributes.Serves { self.keyed.flexicast with mcStateInFlight := false } :=
      sound.serves.congr rfl rfl
    have stays := updateClientState_stays served (by decide) done
    exact ⟨stays.serves, stays.channels, stays.joined, stays.outside⟩

theorem Sound.acksKey (sound : self.Sound) : (self.next .keyAcked).Sound := by
  apply sound.handles
  intro moved done
  rw [updateClientState_dataless _ (.inr rfl)] at done
  have served : FlexicastAttributes.Serves { self.keyed.flexicast with mcKeyUpToDate := true } :=
    sound.serves.congr rfl rfl
  have stays := updateClientState_stays served (by decide) done
  exact ⟨stays.serves, stays.channels, stays.joined, stays.outside⟩

/-- Every event keeps the server sound. -/
theorem Sound.next (sound : self.Sound) (event : KeyServerEvent) : (self.next event).Sound := by
  cases event with
  | announce announced key => exact sound.announces announced key
  | configure secret fcPathId algo mcAnnounceId => exact sound.configures secret fcPathId algo mcAnnounceId
  | pathCreated fcPathId =>
    apply sound.calls
    intro moved done
    cases done
    exact sound.stays rfl rfl rfl
  | expel =>
    apply sound.calls
    intro moved done
    unfold mcLeaveChannel at done
    split at done
    · exact updateClientState_stays sound.serves (by decide) done
    · exact updateClientState_stays sound.serves (by decide) done
    · cases done
  | announceSent =>
    apply sound.calls
    intro moved done
    cases done
    obtain ⟨role, joined, -, channels⟩ := sendAnnounce_marks self.keyed.flexicast
    exact sound.stays role channels joined
  | announceAcked channelId =>
    apply sound.handles
    intro moved done
    split at done
    · rw [updateClientState_dataless _ (.inl rfl)] at done
      exact updateClientState_stays sound.serves (by decide) done
    · cases done
      exact sound.stays rfl rfl rfl
  | announceLost channelId =>
    apply sound.handles
    intro moved done
    cases done
    obtain ⟨role, joined, -, channels⟩ := onMcAnnounceLost_marks self.keyed.flexicast channelId
    exact sound.stays role channels joined
  | stateReceived frame createMcPath => exact sound.receives frame createMcPath
  | stateSent => exact sound.sendsState
  | stateAcked position => exact sound.acksState position
  | stateLost =>
    apply sound.handles
    intro moved done
    cases done
    exact sound.stays rfl rfl rfl
  | keySent fits =>
    rcases self.keySent_cases fits with same | sent
    · rw [same]
      exact sound
    · rw [sent]
      exact ⟨⟨sound.serves.role, sound.serves.announced⟩, sound.keys, sound.joined, sound.recorded, sound.leaves⟩
  | keyAcked => exact sound.acksKey
  | keyLost =>
    apply sound.handles
    intro moved done
    cases done
    exact sound.stays rfl rfl rfl

/-- A step that leaves the role and the mark of the key alone exposes nobody anew. -/
theorem Sendable.same (sendable : self.Sendable) (running : self.closed = false)
    (role : moved.mcRole = self.keyed.flexicast.mcRole)
    (upToDate : moved.mcKeyUpToDate = self.keyed.flexicast.mcKeyUpToDate) (exposed : moved.exposed = true) :
    self.keyed.activeSecret = none := by
  apply sendable running
  simpa only [FlexicastAttributes.exposed, role, upToDate] using exposed

theorem activeSecret_append (sound : self.Sound) (key : ChannelKey) (announced : List McAnnounceData) :
    KeyedAttributes.activeSecret { self.keyed with
      flexicast := { self.keyed.flexicast with mcAnnounceData := announced }
      channelKeys := self.keyed.channelKeys ++ [key] } = self.keyed.activeSecret := by
  simp only [KeyedAttributes.activeSecret, KeyedAttributes.fcChanIdx]
  -- The joined channel is one of the channels before.
  cases joined : self.keyed.flexicast.fcChanId with
  | none => rfl
  | some chan =>
    simp only [Option.map_some, Option.bind_some, KeyedAttributes.secretAt,
      List.getElem?_append_left (sound.joined chan joined)]

/-- Being given a key keeps the key sendable unless it is the key of a channel whose client is exposed. -/
theorem sendable_configure (sound : self.Sound) (sendable : self.Sendable) (secret : Bytes) (fcPathId : Nat)
    (algo : Algorithm) (mcAnnounceId : Option Nat) :
    (self.next (.configure secret fcPathId algo mcAnnounceId)).Sendable ↔
      self.KeepsSendable (.configure secret fcPathId algo mcAnnounceId) := by
  obtain ⟨status, role, -⟩ := sound.serves.role
  simp only [KeyServer.next, configure, KeepsSendable, KeyedAttributes.mcSetFlexicastReceiver, role]
  split
  case isTrue closed => exact iff_of_true sendable fun opened => absurd opened (by simp [closed])
  case isFalse opened =>
    have opened : self.closed = false := by simpa using opened
    simp only [opened, true_imp_iff]
    cases joined : self.keyed.fcChanIdx with
    | none =>
      -- Nobody is exposed outside of the channels.
      have quiet : self.keyed.flexicast.exposed = false := by
        have recorded := sound.recorded opened status role
        have none' : self.keyed.flexicast.fcChanId = none := by simpa [KeyedAttributes.fcChanIdx] using joined
        rw [none'] at recorded
        cases status <;> simp_all [FlexicastAttributes.exposed, McRole.toldKey, McClientStatus.pastKey]
      refine iff_of_true ?_ fun exposed => absurd exposed (by simp [quiet])
      cases mcAnnounceId with
      | none => exact sendable
      | some idx =>
        simp only [Option.some_or]
        split
        case h_1 keyed done =>
          split at done
          · cases done
            exact fun _ exposed => absurd exposed (by simpa [FlexicastAttributes.exposed, role] using quiet)
          · cases done
        case h_2 => exact sendable
    | some chan =>
      have bound : chan < self.keyed.channelKeys.length := by
        obtain ⟨pair, recorded, rfl⟩ := Option.map_eq_some_iff.mp joined
        exact sound.joined pair recorded
      have named : ∃ idx, mcAnnounceId.or (some chan) = some idx := by cases mcAnnounceId <;> simp
      obtain ⟨idx, named⟩ := named
      simp only [named]
      by_cases inside : idx < self.keyed.channelKeys.length
      · simp only [if_pos inside]
        have secretAt : ((self.keyed.channelKeys.set idx ⟨some secret, some algo⟩)[chan]?).bind
            ChannelKey.fcChannelSecret = if idx = chan then some secret else self.keyed.activeSecret := by
          simp only [KeyedAttributes.activeSecret, joined, Option.bind_some, KeyedAttributes.secretAt,
            List.getElem?_set]
          split
          · simp
          · rfl
        constructor
        · -- The channel has a secret from now on.
          rintro kept exposed same
          cases same
          have none' := kept rfl (by simpa [FlexicastAttributes.exposed, role] using exposed)
          simp only [KeyedAttributes.activeSecret, KeyedAttributes.fcChanIdx] at none' joined
          simp only [joined, Option.bind_some, KeyedAttributes.secretAt, secretAt, if_true] at none'
          cases none'
        · intro other running exposed
          have exposed : self.keyed.flexicast.exposed = true := by
            simpa [FlexicastAttributes.exposed, role] using exposed
          have apart : idx ≠ chan := fun same => other exposed (congrArg some same)
          rw [if_neg apart] at secretAt
          simp only [KeyedAttributes.activeSecret, KeyedAttributes.fcChanIdx] at joined secretAt ⊢
          simp only [joined, Option.bind_some, KeyedAttributes.secretAt] at secretAt ⊢
          rw [secretAt]
          have kept := sendable opened exposed
          simpa [KeyedAttributes.activeSecret, KeyedAttributes.fcChanIdx, joined, KeyedAttributes.secretAt] using kept
      · simp only [if_neg inside]
        refine iff_of_true sendable fun _ same => ?_
        cases same
        exact inside bound

/-- The acknowledgment of a leave keeps the key sendable unless it exposes a client whose secret cannot be read. -/
theorem sendable_stateAcked (sound : self.Sound) (sendable : self.Sendable) (position : Nat) :
    (self.next (.stateAcked position)).Sendable ↔ self.KeepsSendable (.stateAcked position) := by
  obtain ⟨status, role, serving⟩ := sound.serves.role
  refine (sendable_handles fun moved done => ?_).trans ?_
  · exact ackedAt_joined done
  · cases listed : self.sent[position]? with
    | none =>
      have outside : ¬ position < self.sent.length := by simpa using listed
      refine iff_of_true ?_ fun _ inside => absurd inside outside
      intro running moved done exposed
      simp only [System.ackedAt, listed] at done
      cases done
      exact sendable running exposed
    | some frame =>
      have inside : position < self.sent.length := (List.getElem?_eq_some_iff.mp listed).1
      have leaves := ackedAt_leave sound listed self.keyed.flexicast ⟨status, role⟩
      generalize at_ : { self.keyed.flexicast with mcStateInFlight := false } = landing at leaves
      have landed : landing.mcRole = .serverUnicast status := by
        rw [← at_]
        exact role
      rw [leaves]
      simp only [KeepsSendable, inside, true_imp_iff, role, RoleOf.serverUnicast.injEq]
      refine imp_congr_right fun running => ?_
      constructor
      · -- The leave changes nothing but the mark of the key.
        rintro exposes' rfl
        exact exposes' _ (updateClientState_server landed) rfl
      · intro told moved done exposed
        rw [updateClientState_exposed landed serving done] at exposed
        apply told
        cases status <;> simp_all [exposes, McClientStatus.pastKey]

/-- A client that is asked to leave does not listen afterwards. -/
theorem sendable_expel (sound : self.Sound) (sendable : self.Sendable) :
    (self.next .expel).Sendable ↔ self.KeepsSendable .expel := by
  obtain ⟨status, role, serving⟩ := sound.serves.role
  refine (sendable_calls sendable fun moved done => ?_).trans (iff_of_true ?_ fun _ => trivial)
  · unfold mcLeaveChannel at done
    split at done
    · exact (updateClientState_channels done).2
    · exact (updateClientState_channels done).2
    · cases done
  · intro running moved done exposed
    unfold mcLeaveChannel at done
    rw [role] at done
    cases status with
    | listenMcPath up =>
      rw [updateClientState_exposed role serving done] at exposed
      cases exposed
    | _ => cases done

/-- An announcement that is acknowledged has its client notified. -/
theorem sendable_announceAcked (sound : self.Sound) (sendable : self.Sendable) (channelId : Bytes) :
    (self.next (.announceAcked channelId)).Sendable ↔ self.KeepsSendable (.announceAcked channelId) := by
  obtain ⟨status, role, serving⟩ := sound.serves.role
  refine (sendable_handles fun moved done => ?_).trans (iff_of_true ?_ fun _ => trivial)
  · split at done
    · exact (updateClientState_channels done).2
    · cases done
      rfl
  · intro running moved done exposed
    split at done
    · rw [updateClientState_dataless _ (.inl rfl)] at done
      rw [updateClientState_exposed role serving done] at exposed
      apply sendable running
      cases status <;> simp_all [exposes, FlexicastAttributes.exposed, McRole.toldKey, McClientStatus.pastKey]
    · cases done
      exact sendable running exposed

/-- The acknowledged key is marked before the client is moved. -/
theorem sendable_keyAcked (sound : self.Sound) : (self.next .keyAcked).Sendable ↔ self.KeepsSendable .keyAcked := by
  obtain ⟨status, role, serving⟩ := sound.serves.role
  refine (sendable_handles fun moved done => ?_).trans (iff_of_true ?_ fun _ => trivial)
  · exact (updateClientState_channels done).2
  · intro running moved done exposed
    rw [updateClientState_dataless _ (.inr rfl)] at done
    have marked : FlexicastAttributes.mcRole { self.keyed.flexicast with mcKeyUpToDate := true } =
        .serverUnicast status := role
    rw [updateClientState_exposed marked serving done] at exposed
    exact absurd exposed (by cases status <;> simp [exposes])

/-- An event keeps the key sendable just when it meets the condition. -/
theorem sendable_next (sound : self.Sound) (sendable : self.Sendable) (event : KeyServerEvent) :
    (self.next event).Sendable ↔ self.KeepsSendable event := by
  obtain ⟨status, role, serving⟩ := sound.serves.role
  cases event with
  | announce announced key =>
    refine iff_of_true ?_ fun _ => trivial
    simp only [KeyServer.next, configure]
    split
    · exact sendable
    · intro running exposed
      rw [activeSecret_append sound]
      exact sendable running exposed
  | configure secret fcPathId algo mcAnnounceId =>
    exact sendable_configure sound sendable secret fcPathId algo mcAnnounceId
  | pathCreated fcPathId =>
    refine (sendable_calls sendable fun moved done => ?_).trans (iff_of_true ?_ fun _ => trivial)
    · cases done
      rfl
    · intro running moved done exposed
      cases done
      exact sendable.same running rfl rfl exposed
  | expel => exact sendable_expel sound sendable
  | announceSent =>
    refine (sendable_calls sendable fun moved done => ?_).trans (iff_of_true ?_ fun _ => trivial)
    · cases done
      exact (sendAnnounce_marks self.keyed.flexicast).2.1
    · intro running moved done exposed
      cases done
      obtain ⟨role, -, upToDate, -⟩ := sendAnnounce_marks self.keyed.flexicast
      exact sendable.same running role upToDate exposed
  | announceAcked channelId => exact sendable_announceAcked sound sendable channelId
  | announceLost channelId =>
    refine (sendable_handles fun moved done => ?_).trans (iff_of_true ?_ fun _ => trivial)
    · cases done
      exact (onMcAnnounceLost_marks self.keyed.flexicast channelId).2.1
    · intro running moved done exposed
      cases done
      obtain ⟨role, -, upToDate, -⟩ := onMcAnnounceLost_marks self.keyed.flexicast channelId
      exact sendable.same running role upToDate exposed
  | stateReceived frame createMcPath => exact sendable_receives sound frame createMcPath
  | stateSent =>
    refine iff_of_true ?_ fun _ => trivial
    simp only [KeyServer.next]
    split
    case h_1 frame after sends =>
      have role : self.party.flexicast.mcRole = .serverUnicast status := role
      obtain ⟨-, -, rfl⟩ := send_leave role sends
      exact sendable
    case h_2 => exact sendable
  | stateAcked position => exact sendable_stateAcked sound sendable position
  | stateLost =>
    refine (sendable_handles fun moved done => ?_).trans (iff_of_true ?_ fun _ => trivial)
    · cases done
      rfl
    · intro running moved done exposed
      cases done
      exact sendable.same running rfl rfl exposed
  | keySent fits =>
    refine iff_of_true ?_ fun _ => trivial
    rcases self.keySent_cases fits with same | sent
    · rw [same]
      exact sendable
    · rw [sent]
      intro _ exposed
      simp [KeyedAttributes.setMcKeyRead, FlexicastAttributes.exposed] at exposed
  | keyAcked => exact sendable_keyAcked sound
  | keyLost =>
    refine (sendable_handles fun moved done => ?_).trans ?_
    · cases done
      rfl
    · simp [KeepsSendable, FlexicastAttributes.exposed]

/-- A new server is sound. -/
theorem new_sound (first : McAnnounceData × ChannelKey) (rest : List (McAnnounceData × ChannelKey)) :
    (new first rest).Sound where
  serves := ⟨⟨_, rfl, rfl⟩, List.cons_ne_nil _ _⟩
  keys := by simp [new]
  joined := by
    intro chan joined
    cases joined
  recorded := by
    intro _ status role inside
    cases role
    exact absurd inside (by decide)
  leaves := by
    intro frame member
    cases member

/-- The secret can be read whenever it has to be sent, in every state of a run, just when every event of the run
keeps the key sendable. -/
theorem unwedged_iff_keepsSendable (first : McAnnounceData × ChannelKey)
    (rest : List (McAnnounceData × ChannelKey)) (events : List KeyServerEvent) :
    (∀ done, done <+: events → (Runs.run next (new first rest) done).Unwedged) ↔
      Runs.Along next KeepsSendable (new first rest) events := by
  have started := new_sound first rest
  -- The states of the run are sound, so both properties are the same there.
  have sound (done : List KeyServerEvent) : (Runs.run next (new first rest) done).Sound :=
    Runs.run_keeps (fun _ event sound => sound.next event) started done
  have sendable : (new first rest).Sendable := by
    intro _ exposed
    cases exposed
  have keeps : ∀ state event, Sound state → True → (state.next event).Sound := fun _ event sound _ => sound.next event
  have step : ∀ state event, Sound state → Sendable state → True →
      ((state.next event).Sendable ↔ state.KeepsSendable event) :=
    fun _ event sound sendable _ => sendable_next sound sendable event
  rw [← Runs.always_iff_along keeps step events started sendable (Runs.along_true _ _ _)]
  exact forall_congr' fun done => imp_congr_right fun _ => unwedged_iff_sendable (sound done)

/-- A client has got its key and listens, while the packet with the key was taken to be lost. -/
def keyTakenLost : List KeyServerEvent :=
  [.announceSent, .announceAcked [1], .stateReceived ⟨[1], FcClientAction.join.toU64, 0⟩ (.ok 1), .keySent true,
    .keyLost, .stateReceived ⟨[1], FcClientAction.mcPath.toU64, 1⟩ (.ok 1)]

/-- The server has to send the key again to a client that listens, and cannot read the secret for it. -/
theorem lost_key_wedges :
    ¬ ∀ (first : McAnnounceData × ChannelKey) (rest : List (McAnnounceData × ChannelKey))
      (events : List KeyServerEvent), (Runs.run next (new first rest) events).Unwedged := by
  intro always
  have stuck := always (⟨[1], false, false⟩, ⟨some [7], some .aes128Gcm⟩) [] keyTakenLost
  obtain ⟨secret, read⟩ := stuck (by decide) ⟨_, List.mem_cons_self .., rfl⟩ (by decide)
  cases read

end KeyServer

end Events

end Channel

end Flexicast
