import Flexicast.Channel.Agreement

/-! The key of a channel: when the server sends it, and what the client does with it. -/

namespace Flexicast

namespace Channel

/-- Algorithms of keys. -/
inductive Algorithm where
  | aes128Gcm
  | aes256Gcm
  | chaCha20Poly1305
  deriving DecidableEq

/-- Why a key cannot be sent or installed. -/
inductive KeyError where
  | mcAnnounce
  | mcInvalidRole
  | mcInvalidSymKey
  | cryptoFail
  | state (error : FcError)
  deriving DecidableEq

/-- The key of a channel, once it is known. -/
structure ChannelKey where
  fcChannelSecret : Option Bytes
  fcChannelAlgo : Option Algorithm
  deriving DecidableEq

/-- The `MC_KEY` frame. -/
structure McKey where
  channelId : Bytes
  key : Bytes
  algo : Algorithm
  firstPn : Nat
  deriving DecidableEq

/-- The flexicast part of a connection with the keys of its channels, in the order of their announcements. -/
structure KeyedAttributes where
  flexicast : FlexicastAttributes
  channelKeys : List ChannelKey
  fcFirstPn : Option Nat
  mcCrypto : Option (Algorithm × Bytes)
  /-- The packet numbers to acknowledge, with their paths. -/
  recvPktNeedAck : List (Nat × Nat)
  deriving DecidableEq

namespace KeyedAttributes

/-- Where the joined channel stands among the announced ones. -/
def fcChanIdx (self : KeyedAttributes) : Option Nat := self.flexicast.fcChanId.map Prod.snd

/-- The secret of an announced channel. -/
def secretAt (self : KeyedAttributes) (idx : Nat) : Option Bytes :=
  (self.channelKeys[idx]?).bind ChannelKey.fcChannelSecret

/-- Whether an `MC_KEY` frame is to be sent. -/
def shouldSendFcKey (self : KeyedAttributes) : Bool :=
  if self.fcChanIdx.any fun idx => (self.secretAt idx).isNone then false
  else if self.flexicast.mcKeyUpToDate then false
  else
    match self.flexicast.mcRole with
    | .serverUnicast .joinedAndKey => true
    | .serverUnicast (.listenMcPath _) => true
    | .serverUnicast .changing => true
    | .serverUnicast .joinedNoKey => true
    | _ => false

/-- The secret to send, of the joined channel. -/
def getDecryptionKeySecret (self : KeyedAttributes) : Except KeyError Bytes :=
  let secret := match self.fcChanIdx with
    | none => .error .mcAnnounce
    | some idx =>
      match self.secretAt idx with
      | none => .error .mcInvalidSymKey
      | some secret => .ok secret
  match self.flexicast.mcRole with
  | .serverUnicast .joinedNoKey => secret
  | .serverUnicast .changing => secret
  | _ => .error .mcInvalidRole

/-- The algorithm of the joined channel, or of the first one. -/
def getDecryptionKeyAlgo (self : KeyedAttributes) : Algorithm :=
  ((self.channelKeys[self.fcChanIdx.getD 0]?).bind ChannelKey.fcChannelAlgo).getD .aes128Gcm

/-- The `MC_KEY` frame that a packet has to carry, if any. -/
def mcKeyFrame (self : KeyedAttributes) : Except KeyError (Option McKey) :=
  if self.shouldSendFcKey then
    match self.flexicast.getMcAnnounceDataActive, self.getDecryptionKeySecret with
    | none, _ => .error .mcAnnounce
    | some _, .error error => .error error
    | some announce, .ok key =>
      .ok (some ⟨announce.channelId, key, self.getDecryptionKeyAlgo, self.fcFirstPn.getD 0⟩)
  else .ok none

/-- Notes whether the client has got the key. -/
def setMcKeyRead (self : KeyedAttributes) (read : Bool) : KeyedAttributes :=
  { self with flexicast := { self.flexicast with mcKeyUpToDate := read } }

/-- The server is given the key of a channel, and its path. -/
def mcSetFlexicastReceiver (self : KeyedAttributes) (secret : Bytes) (fcPathId : Nat) (algo : Algorithm)
    (mcAnnounceId : Option Nat) : Except KeyError KeyedAttributes :=
  match self.flexicast.mcRole, mcAnnounceId.or self.fcChanIdx with
  | .serverUnicast _, some idx =>
    if idx < self.channelKeys.length then
      .ok { self with
        channelKeys := self.channelKeys.set idx ⟨some secret, some algo⟩
        flexicast := { self.flexicast with fcPathId := some fcPathId } }
    else .error (.state .panicked)
  | .serverUnicast _, none => .error .mcAnnounce
  | _, _ => .error .mcInvalidRole

/-- Installs the key of the joined channel, which some secrets may not allow. -/
def setDecryptionKeySecret (fromSecret : Algorithm → Bytes → Bool) (self : KeyedAttributes) (key : Bytes)
    (algo : Algorithm) : Except KeyError KeyedAttributes :=
  let install : Except KeyError KeyedAttributes :=
    if !fromSecret algo key then .error .cryptoFail
    else
      match self.fcChanIdx with
      | none => .error .mcAnnounce
      | some idx =>
        if idx < self.channelKeys.length then
          .ok { self with
            channelKeys := self.channelKeys.set idx ⟨some key, some algo⟩
            mcCrypto := some (algo, key) }
        else .error (.state .panicked)
  match self.flexicast.mcRole with
  | .client .joinedNoKey => install
  | .client .waitingToJoin => install
  | .client .changing => install
  | _ => .error .mcInvalidRole

/-- The client processes an `MC_KEY` frame. -/
def processMcKey (fromSecret : Algorithm → Bytes → Bool) (self : KeyedAttributes) (frame : McKey) :
    Except KeyError KeyedAttributes :=
  match self.setDecryptionKeySecret fromSecret frame.key frame.algo with
  | .error error => .error error
  | .ok keyed =>
    match keyed.flexicast.updateClientState .decryptionKey none with
    | .error error => .error (.state error)
    | .ok flexicast => .ok { keyed with
        flexicast := flexicast
        -- The first packet of interest is acknowledged on the flexicast path.
        recvPktNeedAck := match flexicast.fcPathId with
          | some path => (path, frame.firstPn) :: keyed.recvPktNeedAck
          | none => keyed.recvPktNeedAck }

end KeyedAttributes

/-- The statuses in which the client has been told the key. -/
def McClientStatus.pastKey : McClientStatus → Bool
  | .joinedAndKey => true
  | .listenMcPath _ => true
  | _ => false

/-- The statuses in which the key is awaited. -/
def McClientStatus.awaitsKey : McClientStatus → Bool
  | .joinedNoKey => true
  | .changing => true
  | _ => false

section Sending

variable {keyed : KeyedAttributes} {status : McClientStatus}

theorem shouldSendFcKey_iff {chan : Bytes × Nat} (role : keyed.flexicast.mcRole = .serverUnicast status)
    (joined : keyed.flexicast.fcChanId = some chan) :
    keyed.shouldSendFcKey = true ↔
      (keyed.secretAt chan.2).isSome = true ∧ keyed.flexicast.mcKeyUpToDate = false ∧
        (status.pastKey = true ∨ status.awaitsKey = true) := by
  simp only [KeyedAttributes.shouldSendFcKey, KeyedAttributes.fcChanIdx, joined, Option.map_some, Option.any_some,
    role]
  -- Without a configured secret, and with an up to date key, the code stops before it looks at the status.
  cases keyed.secretAt chan.2 with
  | none => simp
  | some secret =>
    cases keyed.flexicast.mcKeyUpToDate
    · cases status <;> simp [McClientStatus.pastKey, McClientStatus.awaitsKey]
    · simp

theorem getDecryptionKeySecret_iff {chan : Bytes × Nat} (role : keyed.flexicast.mcRole = .serverUnicast status)
    (joined : keyed.flexicast.fcChanId = some chan) :
    (∃ secret, keyed.getDecryptionKeySecret = .ok secret) ↔
      (keyed.secretAt chan.2).isSome = true ∧ status.awaitsKey = true := by
  simp only [KeyedAttributes.getDecryptionKeySecret, KeyedAttributes.fcChanIdx, joined, Option.map_some, role]
  cases keyed.secretAt chan.2 with
  | none => cases status <;> simp [McClientStatus.awaitsKey]
  | some secret => cases status <;> simp [McClientStatus.awaitsKey]

end Sending

section Channels

open FlexicastAttributes

variable {self moved : FlexicastAttributes} {isServer : Bool} {status : McClientStatus} {action : FcClientAction}
  {actionData : Option Nat}

theorem transition_channels {result : FlexicastAttributes × McClientStatus}
    (done : self.transition isServer status action actionData = .ok result) :
    result.1.mcAnnounceData = self.mcAnnounceData ∧ result.1.fcChanId = self.fcChanId := by
  -- Every arm only sets the fields of the key and of the path.
  unfold transition at done
  repeat' split at done
  all_goals cases done
  all_goals exact ⟨rfl, rfl⟩

/-- Moving a client touches none of the channels, on either side. -/
theorem updateClientState_channels (done : self.updateClientState action actionData = .ok moved) :
    moved.mcAnnounceData = self.mcAnnounceData ∧ moved.fcChanId = self.fcChanId := by
  -- Both sides transition and settle; neither looks at the channels.
  have settled (isServer : Bool) (status : McClientStatus)
      (done : (self.transition isServer status action actionData).map
        (fun moved => moved.1.settle isServer status moved.2 action) = .ok moved) :
      moved.mcAnnounceData = self.mcAnnounceData ∧ moved.fcChanId = self.fcChanId := by
    cases stepped : self.transition isServer status action actionData with
    | error error =>
      rw [stepped] at done
      cases done
    | ok result =>
      rw [stepped] at done
      cases done
      exact transition_channels stepped
  unfold updateClientState at done
  split at done
  · exact settled _ _ done
  · exact settled _ _ done
  · cases done

theorem getMcAnnounceDataIndex_lt {fcChanId : Bytes} {idx : Nat}
    (found : self.getMcAnnounceDataIndex fcChanId = some idx) : idx < self.mcAnnounceData.length := by
  unfold getMcAnnounceDataIndex at found
  exact (List.findIdx?_eq_some_iff_findIdx_eq.mp found).1

/-- A frame that is processed records its channel, which is an announced one. -/
theorem processMcState_channels (self : FlexicastAttributes) (frame : McState) (createMcPath : Except FcError Nat) :
    (self.processMcState frame createMcPath).1.mcAnnounceData = self.mcAnnounceData ∧
      ((self.processMcState frame createMcPath).1.fcChanId = self.fcChanId ∨
        ∃ idx < self.mcAnnounceData.length,
          (self.processMcState frame createMcPath).1.fcChanId = some (frame.channelId, idx)) ∧
      ((self.processMcState frame createMcPath).2 = .ok () →
        (self.processMcState frame createMcPath).1.fcChanId.isSome = true) := by
  unfold processMcState
  split
  · exact ⟨rfl, .inl rfl, fun failed => absurd failed (by simp)⟩
  · rename_i action _
    split
    · exact ⟨rfl, .inl rfl, fun failed => absurd failed (by simp)⟩
    case h_2 moved stepped =>
      obtain ⟨announced, joined⟩ := updateClientState_channels stepped
      have kept := (recordChannel_keeps moved frame.channelId action createMcPath).2
      refine ⟨kept.trans announced, ?_⟩
      cases found : moved.getMcAnnounceDataIndex frame.channelId with
      | none =>
        simp only [recordChannel, found]
        exact ⟨.inl joined, fun failed => absurd failed (by simp)⟩
      | some idx =>
        -- The channel is recorded even if its path cannot be created.
        have recorded : (moved.recordChannel frame.channelId action createMcPath).1.fcChanId =
            some (frame.channelId, idx) := by
          simp only [recordChannel, found]
          split
          · split
            · rfl
            · cases createMcPath <;> rfl
          · rfl
        have inside : idx < self.mcAnnounceData.length := by
          rw [← announced]
          exact getMcAnnounceDataIndex_lt found
        rw [recorded]
        exact ⟨.inr ⟨idx, inside, rfl⟩, fun _ => rfl⟩

end Channels

end Channel

end Flexicast
