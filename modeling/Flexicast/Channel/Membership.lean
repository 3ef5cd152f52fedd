import Flexicast.Stream.RangeBuf

/-! The state machine of a channel's members, of `flexicast/mod.rs`, and its frames. -/

namespace Flexicast

namespace Channel

/-- What a client has to do with its channel. -/
inductive McClientStatus where
  | leaving (notified : Bool)
  | declinedJoin
  | joinedNoKey
  | awareUnjoined
  | waitingToJoin
  | joinedAndKey
  | listenMcPath (up : Bool)
  | unaware
  | unspecified
  | changing
  deriving DecidableEq

/-- Actions of the state machine. -/
inductive FcClientAction where
  | notify
  | join
  | leave
  | decryptionKey
  | mcPath
  | change
  deriving DecidableEq

/-- The action that a number stands for. -/
def FcClientAction.tryFrom (value : Nat) : Option FcClientAction :=
  match value with
  | 0 => some .notify
  | 1 => some .join
  | 2 => some .leave
  | 3 => some .decryptionKey
  | 4 => some .mcPath
  | 5 => some .change
  | _ => none

/-- The number of an action. -/
def FcClientAction.toU64 : FcClientAction → Nat
  | .notify => 0
  | .join => 1
  | .leave => 2
  | .decryptionKey => 3
  | .mcPath => 4
  | .change => 5

@[simp] theorem FcClientAction.tryFrom_toU64 (action : FcClientAction) :
    FcClientAction.tryFrom action.toU64 = some action := by
  cases action <;> rfl

/-- The roles of a flexicast connection, with what is known of the status of its client. -/
inductive RoleOf (Status : Type) where
  | serverFlexicast
  | serverUnicast (status : Status)
  | client (status : Status)
  | undefined
  deriving DecidableEq

/-- The roles of a connection that joins channels. -/
abbrev McRole := RoleOf McClientStatus

/-- Why an operation fails. -/
inductive FcError where
  | mcDisabled
  | mcReliableDisabled
  | mcInvalidRole
  | mcInvalidAction
  | mcAnnounce
  | mcPath
  | fcChangeChan
  | path
  /-- A missing value is unwrapped. -/
  | panicked
  deriving DecidableEq

/-- What a channel announces of itself, as far as joining it goes. -/
structure McAnnounceData where
  channelId : Bytes
  probePath : Bool
  isProcessed : Bool
  deriving DecidableEq

/-- The flexicast part of a connection, as far as joining channels goes. -/
structure FlexicastAttributes where
  mcRole : McRole
  mcAnnounceData : List McAnnounceData
  mcKeyUpToDate : Bool
  mcClientLeftNeedSync : Bool
  mcStateInFlight : Bool
  fcPathId : Option Nat
  fcChanId : Option (Bytes × Nat)
  deriving DecidableEq

/-- The `MC_STATE` frame. -/
structure McState where
  channelId : Bytes
  action : Nat
  actionData : Nat
  deriving DecidableEq

def leaveFromClient : Nat := 0

def leaveFromServer : Nat := 1

/-- Whether the flexicast path is forgotten when the channel was left. -/
def McClientStatus.hadPath : McClientStatus → Bool
  | .leaving _ => true
  | .listenMcPath _ => true
  | _ => false

namespace FlexicastAttributes

/-- Where a channel stands among the announced ones. -/
def getMcAnnounceDataIndex (self : FlexicastAttributes) (fcChanId : Bytes) : Option Nat :=
  self.mcAnnounceData.findIdx? fun announce => announce.channelId == fcChanId

/-- The announced data of the channel that was joined. -/
def getMcAnnounceDataActive (self : FlexicastAttributes) : Option McAnnounceData :=
  self.fcChanId.bind fun chan => self.mcAnnounceData[chan.2]?

section Machine

/-- The new status of a client, before what follows from it. -/
def transition (self : FlexicastAttributes) (isServer : Bool) (currentStatus : McClientStatus)
    (action : FcClientAction) (actionData : Option Nat) :
    Except FcError (FlexicastAttributes × McClientStatus) :=
  match currentStatus, action with
  -- A client learns of the channel before it can join.
  | .unaware, .notify => .ok (self, .awareUnjoined)
  -- The client waits for the server, which has taken it in at once.
  | .awareUnjoined, .join => .ok (self, if isServer then .joinedNoKey else .waitingToJoin)
  -- The server looks at the first announcement, which has to be there.
  | .unaware, .join =>
    if isServer then
      match self.mcAnnounceData.head? with
      | some announce => .ok (self, if announce.isProcessed then .joinedNoKey else .unaware)
      | none => .error .panicked
    else .ok (self, .unaware)
  | .waitingToJoin, .join => .ok (self, .joinedNoKey)
  | .joinedNoKey, .decryptionKey => .ok (self, .joinedAndKey)
  -- The key may overtake the acknowledgment of the request to join.
  | .waitingToJoin, .decryptionKey =>
    .ok (self, if !isServer || self.mcKeyUpToDate then .joinedAndKey else .waitingToJoin)
  -- The party that asks first waits for the other one.
  | .listenMcPath _, .leave =>
    match actionData with
    | some leavingFrom =>
      if leavingFrom = leaveFromClient then
        if isServer then .ok ({ self with mcClientLeftNeedSync := true }, .awareUnjoined)
        else .ok (self, .leaving false)
      else if leavingFrom = leaveFromServer then
        if isServer then .ok ({ self with mcClientLeftNeedSync := true }, .leaving false)
        else .ok (self, .awareUnjoined)
      else .error .mcInvalidAction
    | none => .error .mcInvalidAction
  | .leaving _, .leave => .ok (self, .awareUnjoined)
  -- The number of the path comes with the action.
  | .joinedAndKey, .mcPath =>
    match actionData with
    | some pathId => .ok ({ self with fcPathId := some pathId }, .listenMcPath true)
    | none => .ok (self, .joinedAndKey)
  -- The server may hear of the path before its key was acknowledged.
  | .joinedNoKey, .mcPath =>
    match isServer, actionData with
    | true, some pathId => .ok ({ self with fcPathId := some pathId }, .listenMcPath true)
    | _, _ => .ok (self, .joinedNoKey)
  -- The other channel has a key of its own.
  | .listenMcPath true, .change =>
    match actionData with
    | some pathId => .ok ({ self with mcKeyUpToDate := false, fcPathId := some pathId }, .changing)
    | none => .ok (self, .listenMcPath true)
  | .changing, .decryptionKey => .ok (self, .listenMcPath true)
  -- Any other action is ignored.
  | currentStatus, _ => .ok (self, currentStatus)

/-- Stores a new status, with what follows from it. -/
def settle (self : FlexicastAttributes) (isServer : Bool) (currentStatus newStatus : McClientStatus)
    (action : FcClientAction) : FlexicastAttributes :=
  { self with
    -- A client that leaves has no key that is up to date.
    mcKeyUpToDate := if action = .leave && isServer then false else self.mcKeyUpToDate
    fcPathId := if newStatus = .awareUnjoined && currentStatus.hadPath then none else self.fcPathId
    mcRole := if isServer then .serverUnicast newStatus else .client newStatus }

/-- Moves the client along the state machine. -/
def updateClientState (self : FlexicastAttributes) (action : FcClientAction) (actionData : Option Nat) :
    Except FcError FlexicastAttributes :=
  match self.mcRole with
  -- The same machine runs on both sides, which differ in a flag.
  | .client status =>
    (self.transition false status action actionData).map fun moved => moved.1.settle false status moved.2 action
  | .serverUnicast status =>
    (self.transition true status action actionData).map fun moved => moved.1.settle true status moved.2 action
  | _ => .error .mcInvalidRole

end Machine

section Frames

/-- Whether an `MC_STATE` frame is to be sent. -/
def shouldSendFcState (self : FlexicastAttributes) : Bool :=
  -- One frame at a time is under way.
  if self.mcStateInFlight then false
  else
    match self.mcRole with
    | .client .waitingToJoin => true
    | .client .joinedAndKey => self.fcPathId.isSome
    | .client (.leaving false) => true
    | .client .changing => true
    | .serverUnicast (.leaving false) => true
    | _ => false

/-- The action of the `MC_STATE` frame that is to be sent, and its data. -/
def stateAction (self : FlexicastAttributes) : Except FcError (FcClientAction × Option Nat) :=
  match self.mcRole with
  | .client .waitingToJoin => .ok (.join, none)
  | .client .joinedAndKey => .ok (.mcPath, self.fcPathId)
  | .client (.leaving false) => .ok (.leave, none)
  | .serverUnicast (.leaving false) => .ok (.leave, none)
  | .client .changing => .ok (.change, self.fcPathId)
  | _ => .error .mcInvalidRole

/-- The `MC_STATE` frame that is to be sent. -/
def stateFrame (self : FlexicastAttributes) : Except FcError McState :=
  -- The frame names the channel that was joined, which has to be announced.
  match self.stateAction, self.getMcAnnounceDataActive with
  | .ok (action, actionData), some announce =>
    .ok ⟨announce.channelId, action.toU64, actionData.getD 0⟩
  | .ok _, none => .error .mcAnnounce
  | .error error, _ => .error error

/-- Handles the acknowledgment of an `MC_STATE` frame. -/
def onMcStateAcked (self : FlexicastAttributes) (frame : McState) : Except FcError FlexicastAttributes :=
  let self := { self with mcStateInFlight := false }
  -- A client that has got the key meanwhile does not change the channel again.
  if self.mcRole = .client (.listenMcPath true) && frame.action = FcClientAction.change.toU64 then .ok self
  else
    match FcClientAction.tryFrom frame.action with
    | some action => self.updateClientState action (some frame.actionData)
    | none => .error .mcInvalidAction

/-- Records the channel of an `MC_STATE` frame, and creates the path of a client that joined without probing. -/
def recordChannel (self : FlexicastAttributes) (channelId : Bytes) (action : FcClientAction)
    (createMcPath : Except FcError Nat) : FlexicastAttributes × Except FcError Unit :=
  match self.getMcAnnounceDataIndex channelId with
  | none => (self, .error .mcAnnounce)
  | some idx =>
    -- The channel is recorded even if the path cannot be created then.
    let self := { self with fcChanId := some (channelId, idx) }
    match self.mcRole, action, self.mcAnnounceData[idx]? with
    | .serverUnicast _, .join, some announce =>
      if announce.probePath then (self, .ok ())
      else
        match createMcPath with
        | .ok pathId => ({ self with fcPathId := some pathId }, .ok ())
        | .error error => (self, .error error)
    | _, _, _ => (self, .ok ())

/-- Processes an `MC_STATE` frame; a failed call keeps what it did before. -/
def processMcState (self : FlexicastAttributes) (frame : McState) (createMcPath : Except FcError Nat) :
    FlexicastAttributes × Except FcError Unit :=
  match FcClientAction.tryFrom frame.action with
  | none => (self, .error .mcInvalidAction)
  | some action =>
    match self.updateClientState action (some frame.actionData) with
    | .error error => (self, .error error)
    | .ok moved => moved.recordChannel frame.channelId action createMcPath

end Frames

section Calls

/-- The client asks to join a channel. -/
def mcJoinChannel (self : FlexicastAttributes) (fcChanId : Option Bytes) : Except FcError FlexicastAttributes :=
  let joins := match self.mcRole with
    | .client .awareUnjoined => true
    -- Client attempting to change the channel.
    | .client (.leaving _) => true
    | _ => false
  if joins then
    match fcChanId with
    | some chanId =>
      match self.getMcAnnounceDataIndex chanId with
      | some idx => { self with fcChanId := some (chanId, idx) }.updateClientState .join none
      -- Without a channel the first announced one is joined.
      | none => .error .mcAnnounce
    | none =>
      match self.mcAnnounceData.head? with
      | some announce => { self with fcChanId := some (announce.channelId, 0) }.updateClientState .join none
      | none => .error .panicked
  else .error .mcInvalidRole

/-- Either party asks to leave the channel. -/
def mcLeaveChannel (self : FlexicastAttributes) : Except FcError FlexicastAttributes :=
  match self.mcRole with
  | .client (.listenMcPath _) => self.updateClientState .leave (some leaveFromClient)
  | .serverUnicast (.listenMcPath _) => self.updateClientState .leave (some leaveFromServer)
  | _ => .error .mcInvalidRole

/-- Joins another channel while already being in one. -/
def fcChangeChannel (self : FlexicastAttributes) (fcChanId : Bytes) : Except FcError FlexicastAttributes :=
  if self.mcRole = .client (.listenMcPath true) || self.mcRole = .serverUnicast (.listenMcPath true) then
    match self.fcChanId, self.getMcAnnounceDataIndex fcChanId with
    | none, _ => .error .mcPath
    | _, none => .error .mcAnnounce
    | some (_, oldIdx), some newIdx =>
      match self.mcAnnounceData[oldIdx]?, self.mcAnnounceData[newIdx]? with
      | some old, some new =>
        -- Only bother if both channels do not use path probing.
        if old.probePath || new.probePath then .error .fcChangeChan
        else
          match self.fcPathId with
          | none => .error .mcPath
          | some pathId =>
            { self with fcChanId := some (fcChanId, newIdx), fcPathId := some (pathId + 1) }.updateClientState
              .change (some (pathId + 1))
      | _, _ => .error .panicked
  else .error .mcInvalidRole

/-- The client reads the key of its channel. -/
def receiveKey (self : FlexicastAttributes) : Except FcError FlexicastAttributes :=
  match self.mcRole with
  | .client .joinedNoKey => self.updateClientState .decryptionKey none
  | .client .waitingToJoin => self.updateClientState .decryptionKey none
  | .client .changing => self.updateClientState .decryptionKey none
  | _ => .error .mcInvalidRole

/-- The server sends the key of the channel. -/
def sendKey (self : FlexicastAttributes) : FlexicastAttributes :=
  -- In any other status the secret cannot be read, and the call fails before it changes anything.
  match self.mcRole with
  | .serverUnicast .joinedNoKey => { self with mcKeyUpToDate := true }
  | .serverUnicast .changing => { self with mcKeyUpToDate := true }
  | _ => self

/-- The server sends the first announcement that was not sent, to a client that knows of none. -/
def sendAnnounce (self : FlexicastAttributes) : FlexicastAttributes :=
  if self.mcRole = .serverUnicast .unaware then
    match self.mcAnnounceData.findIdx? fun announce => !announce.isProcessed with
    | some idx => { self with
        mcAnnounceData := self.mcAnnounceData.modify idx fun announce => { announce with isProcessed := true } }
    | none => self
  else self

/-- An announcement was lost, and has to be sent again. -/
def onMcAnnounceLost (self : FlexicastAttributes) (channelId : Bytes) : FlexicastAttributes :=
  match self.getMcAnnounceDataIndex channelId with
  | some idx => { self with
      mcAnnounceData := self.mcAnnounceData.modify idx fun announce => { announce with isProcessed := false } }
  | none => self

end Calls

end FlexicastAttributes

end Channel

end Flexicast
