import Flexicast.Paths.Bounded
import Flexicast.Stream.RangeBuf

/-! A path of `path.rs`: its validation, and the state that says what it may be used for. -/

namespace Flexicast

/-- The least size of a packet that validates the MTU of a path. -/
def minClientInitialLen : Nat := 1200

/-- The least number of bytes for a probing packet. -/
def minProbingSize : Nat := 25

/-- How many probing packets may be lost before a path fails. -/
def maxProbingTimeouts : Nat := 3

/-- How far the validation of a path went. -/
inductive PathValidationState where
  | failed
  /-- Nothing is known of the path. -/
  | unknown
  /-- A challenge was sent. -/
  | validating
  /-- The peer is reachable, but the MTU was not validated. -/
  | validatingMTU
  | validated
  deriving DecidableEq

/-- The order of the validation states. -/
def PathValidationState.rank : PathValidationState → Nat
  | .failed => 0
  | .unknown => 1
  | .validating => 2
  | .validatingMTU => 3
  | .validated => 4

/-- What a path is used for. -/
inductive PathState where
  /-- Only for probing packets. -/
  | unused
  /-- For all packets. -/
  | active
  /-- The path is being closed, with an error code. -/
  | closing (errorCode : Nat)
  | closed (errorCode : Nat)
  deriving DecidableEq

/-- What the application asks for on a path. -/
inductive PathRequest where
  /-- No packets but probing ones. -/
  | unused
  /-- All packets. -/
  | active
  | abandon (errorCode : Nat)

/-- The state that is asked for. -/
def PathRequest.requestedState : PathRequest → PathState
  | .unused => .unused
  | .active => .active
  | .abandon errorCode => .closing errorCode

/-- A challenge that was sent. -/
structure Challenge where
  data : Bytes
  pktSize : Nat
  sentTime : Nat
  deriving DecidableEq

/-- A network path. -/
structure Path where
  pathId : Nat
  /-- The identifier of the peer that is used on the path. -/
  activeDcidSeq : Option Nat
  validationState : PathValidationState
  state : PathState
  /-- Challenges without a response, the oldest first. -/
  inFlightChallenges : List Challenge
  /-- The largest packet of a challenge that was answered. -/
  maxChallengeSize : Nat
  probingLost : Nat
  lastProbeLostTime : Option Nat
  receivedChallenges : List Bytes
  receivedChallengesMaxLen : Nat
  /-- How many bytes a server may send before the address of the peer is verified. -/
  maxSendBytes : Nat
  challengeRequested : Bool
  deriving DecidableEq

namespace Path

/-- A new path, which is validated when it is the initial one. -/
def new (pathId pathChallengeRecvMaxQueueLen : Nat) (isInitial : Bool) : Path where
  pathId := pathId
  activeDcidSeq := if isInitial then some 0 else none
  validationState := if isInitial then .validated else .unknown
  state := .unused
  inFlightChallenges := []
  maxChallengeSize := 0
  probingLost := 0
  lastProbeLostTime := none
  receivedChallenges := []
  receivedChallengesMaxLen := pathChallengeRecvMaxQueueLen
  maxSendBytes := 0
  challengeRequested := false

variable (self : Path)

/-- The path did not fail. -/
def working : Bool := decide (PathValidationState.failed.rank < self.validationState.rank)

/-- The path is active. -/
def active : Bool := decide (self.state = .active) && self.working && self.activeDcidSeq.isSome

/-- The path is not in use. -/
def unused : Bool := !self.active && self.activeDcidSeq.isNone

/-- The path is being closed. -/
def isClosing : Bool :=
  match self.state with
  | .closing _ => true
  | _ => false

/-- The path is closed. -/
def closed : Bool :=
  match self.state with
  | .closed _ => true
  | _ => false

/-- Raises the validation state. -/
def promoteTo (state : PathValidationState) : Path :=
  if self.validationState.rank < state.rank then { self with validationState := state } else self

/-- The path is validated. -/
def validated : Bool := decide (self.validationState = .validated)

/-- The path is being validated. -/
def underValidation : Bool := decide (self.validationState = .validating ∨ self.validationState = .validatingMTU)

/-- Asks for a challenge. -/
def requestValidation : Path := { self with challengeRequested := true }

/-- A challenge was sent. -/
def onChallengeSent : Path := { self.promoteTo .validating with challengeRequested := false }

/-- A challenge was sent, with some data in a packet of some size. -/
def addChallengeSent (challenge : Challenge) : Path :=
  { self.onChallengeSent with inFlightChallenges := self.onChallengeSent.inFlightChallenges ++ [challenge] }

/-- A challenge was received. -/
def onChallengeReceived (data : Bytes) : Path :=
  if self.receivedChallenges.length = self.receivedChallengesMaxLen then self
  else { self with receivedChallenges := self.receivedChallenges ++ [data] }

/-- The response to a challenge is sent. -/
def popReceivedChallenge : Path := { self with receivedChallenges := self.receivedChallenges.tail }

/-- A challenge with some data has no response yet. -/
def hasPendingChallenge (data : Bytes) : Bool := self.inFlightChallenges.any fun challenge => challenge.data == data

/-- The challenges that a response answers. -/
def answeredBy (data : Bytes) : List Challenge :=
  self.inFlightChallenges.filter fun challenge => challenge.data == data

/-- A response was received; also returns whether it validates the path. -/
def onResponseReceived (data : Bytes) : Bool × Path :=
  let challengeSize := ((self.answeredBy data).getLast?.map Challenge.pktSize).getD 0
  let self := { self with
    probingLost := 0
    inFlightChallenges := self.inFlightChallenges.filter fun challenge => challenge.data != data }
  -- The peer is reachable, but the MTU may not be validated.
  let self := self.promoteTo .validatingMTU
  let self := { self with maxChallengeSize := max self.maxChallengeSize challengeSize }
  if self.validationState = .validatingMTU then
    if minClientInitialLen ≤ self.maxChallengeSize then (true, self.promoteTo .validated)
    else (false, self.requestValidation)
  else (false, self)

/-- The validation failed. -/
def onFailedValidation : Path := { self with validationState := .failed, state := .unused }

/-- The error code of a path that is being closed. -/
def closingErrorCode : Except PathError Nat :=
  match self.state with
  | .closing errorCode => .ok errorCode
  | .closed errorCode => .ok errorCode
  | _ => .error .invalidState

/-- A state may follow. -/
def validStateTransition (newState : PathState) : Bool :=
  match self.state, newState with
  | .unused, _ => true
  | .active, _ => true
  | .closing _, .closing _ => true
  | .closing _, .closed _ => true
  | .closed _, .closed _ => true
  | _, _ => false

/-- Sets the state, if it may follow. -/
def setState (state : PathState) : Except PathError Path :=
  if self.validStateTransition state then .ok { self with state := state } else .error .invalidState

/-- How many probing packets were lost in a row, and when, with another one that was sent at some time. -/
def countLoss (rtt lostProbeTime : Nat) : Nat × Nat :=
  match self.lastProbeLostTime with
  | none => (self.probingLost + 1, lostProbeTime)
  | some last =>
    -- A loss counts if a round trip passed since the last one.
    if rtt ≤ lostProbeTime - last then (self.probingLost + 1, lostProbeTime) else (self.probingLost, last)

/-- The loss detection timer fired. -/
def onLossDetectionTimeout (now rtt : Nat) (isServer : Bool) : Path :=
  match self.inFlightChallenges.find? fun challenge => challenge.sentTime ≤ now with
  | none => self
  | some lost =>
    let counted := self.countLoss rtt lost.sentTime
    let self := { self with
      inFlightChallenges := self.inFlightChallenges.filter fun challenge => decide (now < challenge.sentTime)
      probingLost := counted.1
      lastProbeLostTime := some counted.2 }
    -- A server that may not send a probing packet has no way to validate the path.
    if maxProbingTimeouts ≤ self.probingLost ∨ (isServer = true ∧ self.maxSendBytes < minProbingSize) then
      self.onFailedValidation
    else self.requestValidation

end Path

end Flexicast
