import Flexicast.Channel.Packing
import Flexicast.Congestion.Window
import Mathlib.Data.List.Sort

/-! The EXP3 heuristic that moves a client between channels, of `flexicast/congestion`. -/

namespace Flexicast

namespace Congestion

open Packing (McAnnounceData)

/-- The operations of the 64-bit floats that the computations use; what they return is left open. -/
class Float64 (F : Type) extends Zero F, One F, Add F, Sub F, Neg F, Mul F, Div F, NatCast F, LT F where
  decidableLt : DecidableLT F
  e : F
  powf : F → F → F
  /-- The conversion to an unsigned 64-bit integer, which saturates. -/
  toU64 : F → Nat

instance decidableLt {F : Type} [Float64 F] : DecidableLT F := Float64.decidableLt

variable {F : Type} [Float64 F]

/-- The sum of floats. -/
def sum (array : List F) : F := array.foldl (· + ·) 0

/-- What is measured of the current channel. -/
structure CongestionStats (F : Type) where
  lossRate : F
  rtt : Nat
  ecnRate : F
  throughput : Nat
  throughputWindow : MaxTimeWindow

namespace CongestionStats

/-- The weight of a new mark. -/
def alpha : F := (5 : Nat) / (100 : Nat)

/-- Nothing measured yet; times are in milliseconds. -/
def new (timeWindow : Nat) : CongestionStats F := ⟨0, 333, 0, 0, .new timeWindow⟩

/-- The statistics after a reset. -/
def default : CongestionStats F := new 5000

def onMarked (stats : CongestionStats F) : CongestionStats F :=
  { stats with ecnRate := (1 - alpha) * stats.ecnRate + alpha * 1 }

def onNotMarked (stats : CongestionStats F) : CongestionStats F :=
  { stats with ecnRate := (1 - alpha) * stats.ecnRate + alpha * 0 }

def setLossRate (stats : CongestionStats F) (lossRate : F) : CongestionStats F := { stats with lossRate := lossRate }

/-- Adds the throughput that a bitrate leaves after the losses, as long as times and counts stay within their types. -/
def updateWindow (stats : CongestionStats F) (now bitrate : Nat) : Option (CongestionStats F) := do
  let throughput := Float64.toU64 (NatCast.natCast bitrate * (1 - stats.lossRate))
  let throughputWindow ← stats.throughputWindow.addDataWithin now throughput
  return { stats with throughput := throughput, throughputWindow := throughputWindow }

/-- The largest throughput of the window; it fails on an empty one. -/
def maxThroughput (stats : CongestionStats F) : Option Nat := stats.throughputWindow.max

end CongestionStats

/-- The configuration of the heuristic; the rewarder stands apart. -/
structure EXP3Conf (F : Type) where
  migrationTimeout : Nat
  lossThreshold : F
  hardLossThreshold : F
  k : F
  gamma : Option F

/-- Gives a reward for the last action, from what was measured; it may fail. -/
abbrev EXP3Rewarder (F : Type) := CongestionStats F → EXP3Conf F → Option F

/-- Draws an index from weights; it may fail. -/
abbrev ChooseWeighted (F : Type) := List F → Option Nat

inductive EXP3Error
  | alreadyTaken
  | notTaken
  | invalidReward
  deriving DecidableEq

/-- One bandit, with the action whose reward it waits for. -/
structure EXP3 (F : Type) where
  k : Nat
  weights : List F
  probas : List F
  gamma : F
  takenAction : Option Nat

namespace EXP3

/-- Recomputes the probabilities from the weights. -/
def computeProbas (exp3 : EXP3 F) : EXP3 F :=
  let total := sum exp3.weights
  { exp3 with probas := exp3.weights.map fun w =>
      (1 - exp3.gamma) * (w / total) + exp3.gamma * (1 / NatCast.natCast exp3.k) }

/-- A bandit over some actions, all alike. -/
def new (k : Nat) (gamma : Option F) : EXP3 F :=
  computeProbas ⟨k, List.replicate k 1, [], gamma.getD (1 / NatCast.natCast 10), none⟩

/-- Each float as its part of the sum. -/
def normalize (array : List F) : List F := array.map (· / sum array)

/-- The weights that an action is drawn with: banned actions get none. -/
def weightedActions (exp3 : EXP3 F) (banned : List Nat) : List F :=
  normalize (exp3.probas.mapIdx fun action proba => if action ∈ banned then 0 else proba)

/-- Draws an action; it fails when the draw does. -/
def takeAction (exp3 : EXP3 F) (banned : List Nat) (choose : ChooseWeighted F) :
    Option (Except EXP3Error Nat × EXP3 F) := do
  if exp3.takenAction.isSome then return (.error .alreadyTaken, exp3)
  let exp3 := exp3.computeProbas
  let action ← choose (exp3.weightedActions banned)
  return (.ok action, { exp3 with takenAction := some action })

/-- A float bounded from below and from above. -/
def clamp (x low high : F) : F :=
  let x := if x < low then low else x
  if high < x then high else x

/-- The next weight of one action. -/
def rewardedWeight (exp3 : EXP3 F) (takenAction : Nat) (value : F) (weights : List F) (i : Nat) : Option (List F) := do
  let weight ← weights[i]?
  let proba ← exp3.probas[i]?
  let reward := if takenAction = i then value / proba else 0
  let newWeight := weight * Float64.powf Float64.e (exp3.gamma * reward / NatCast.natCast exp3.k)
  return weights.set i (clamp newWeight (1 / NatCast.natCast 1000) (NatCast.natCast 1000))

/-- Rewards the action that was taken; it fails on a weight or a probability that is not there. -/
def reward (exp3 : EXP3 F) (value : F) : Option (Except EXP3Error Unit × EXP3 F) :=
  if 1 < value ∨ value < 0 then some (.error .invalidReward, exp3)
  else
    match exp3.takenAction with
    | some takenAction => do
      let weights ← (List.range exp3.k).foldlM (exp3.rewardedWeight takenAction value) exp3.weights
      return (.ok (), { exp3 with weights := normalize weights, takenAction := none })
    | none => some (.error .notTaken, exp3)

end EXP3

inductive Action
  | increase
  | decrease
  | stay
  deriving DecidableEq

namespace Action

/-- The action of an index; every other index is unreachable. -/
def ofUsize : Nat → Option Action
  | 0 => some increase
  | 1 => some decrease
  | 2 => some stay
  | _ => none

def toUsize : Action → Nat
  | increase => 0
  | decrease => 1
  | stay => 2

end Action

/-- A call of an instance, recorded for the proofs. -/
inductive Call
  | reward (channel : Bytes)
  | take (channel : Bytes)
  deriving DecidableEq

/-- The state of the heuristic. -/
structure EXP3State (F : Type) where
  instances : Bytes → Option (EXP3 F)
  takenAction : Bool
  lastTakenAction : Option Action
  lastTakenActionInstant : Nat
  failedIncreaseCount : Nat
  banIncreaseRounds : Nat
  orderedChannels : List Bytes
  previousChannel : Option Bytes
  conf : EXP3Conf F

namespace EXP3State

/-- The state at the start. -/
def new (config : EXP3Conf F) (now : Nat) : EXP3State F where
  instances := fun _ => none
  takenAction := true
  lastTakenAction := none
  lastTakenActionInstant := now
  failedIncreaseCount := 0
  banIncreaseRounds := 0
  orderedChannels := []
  previousChannel := none
  conf := config

/-- Opens the instance of a channel that has none. -/
def openInstance (state : EXP3State F) (announce : McAnnounceData) : EXP3State F :=
  if (state.instances announce.channelId).isSome then state
  else
    let instances := Function.update state.instances announce.channelId (some (EXP3.new 3 state.conf.gamma))
    { state with instances := instances }

/-- A bitrate as the channels are ordered by it. -/
def bitrate (announce : McAnnounceData) : Nat := (announce.bitrate.map UInt64.toNat).getD 0

/-- The announced channels by increasing bitrate, equal ones in the order of their announcements. -/
def byBitrate (announceData : List McAnnounceData) : List McAnnounceData :=
  announceData.insertionSort fun a b => bitrate a ≤ bitrate b

/-- Opens the instances of new channels and orders the channels. -/
def updateInstances (state : EXP3State F) (announceData : List McAnnounceData) : EXP3State F :=
  { announceData.foldl openInstance state with
    orderedChannels := (byBitrate announceData).map fun announce => announce.channelId }

/-- Whether the last migration is long enough ago for a new action. -/
def waitTimeoutElapsed (state : EXP3State F) (now : Nat) : Bool :=
  !state.takenAction && state.lastTakenActionInstant + state.conf.migrationTimeout < now

/-- The actions that are banned by the loss rate. -/
def bannedByLoss (state : EXP3State F) (stats : CongestionStats F) : List Action :=
  if stats.lossRate < NatCast.natCast 5 / NatCast.natCast 1000 then [.decrease]
  else if state.conf.hardLossThreshold < stats.lossRate then [.stay, .increase]
  else []

/-- The actions that must not be taken from a channel. -/
def getBanned (state : EXP3State F) (stats : CongestionStats F) (currentChannelIdx : Nat) :
    EXP3State F × List Action :=
  let banned := state.bannedByLoss stats
  let (state, banned) :=
    if 0 < state.banIncreaseRounds then
      ({ state with banIncreaseRounds := state.banIncreaseRounds - 1 }, banned.insert .increase)
    else (state, banned)
  let banned := if currentChannelIdx = 0 then banned.insert .decrease else banned
  let banned := if currentChannelIdx = state.orderedChannels.length - 1 then banned.insert .increase else banned
  if .decrease ∈ banned ∧ .increase ∈ banned ∧ .stay ∈ banned then (state, banned.erase .stay) else (state, banned)

/-- Counts the increases that failed, and bans the next ones for longer each time. -/
def updateTrialCount (state : EXP3State F) (stats : CongestionStats F) : EXP3State F :=
  if state.lastTakenAction = some .increase then
    let count := if state.conf.hardLossThreshold < stats.lossRate then state.failedIncreaseCount + 1 else 0
    let count := min count 4
    { state with failedIncreaseCount := count, banIncreaseRounds := 1 <<< count - 1 }
  else state

/-- The instances of the ordered channels; it fails when one has none. -/
def iterInstances (state : EXP3State F) : Option (List (EXP3 F)) := state.orderedChannels.mapM state.instances

/-- Rewards the instance of the previous channel, if there is one. -/
def rewardPrevious (state : EXP3State F) (rewarder : EXP3Rewarder F) (stats : CongestionStats F) :
    Option (EXP3State F × List Call) :=
  match state.previousChannel with
  | none => some (state, [])
  | some previous => do
    let reward ← rewarder stats state.conf
    match state.instances previous with
    | none => return (state, [])
    | some exp3 =>
      match ← exp3.reward reward with
      | (.error _, _) => none
      | (.ok _, exp3) =>
        return ({ state with instances := Function.update state.instances previous (some exp3) }, [.reward previous])

/-- What comes before the draw of an action: the channel's place, the banned actions, and the calls so far. -/
structure Prepared (F : Type) where
  exp3State : EXP3State F
  currentChannelIdx : Nat
  banned : List Action
  exp3 : EXP3 F
  calls : List Call

/-- Everything before an action is drawn from the instance of the current channel. -/
def prepare (state : EXP3State F) (rewarder : EXP3Rewarder F) (stats : CongestionStats F)
    (announceData : List McAnnounceData) (current : Bytes) : Option (Prepared F) := do
  let state := state.updateInstances announceData
  let currentChannelIdx ← state.orderedChannels.findIdx? (· = current)
  let (state, calls) ← state.rewardPrevious rewarder stats
  let (state, banned) := state.getBanned stats currentChannelIdx
  let state := state.updateTrialCount stats
  let exp3 ← state.instances current
  return ⟨state, currentChannelIdx, banned, exp3, calls⟩

/-- The weights of the draw that is about to happen. -/
def Prepared.weights (prepared : Prepared F) : List F :=
  prepared.exp3.computeProbas.weightedActions (prepared.banned.map Action.toUsize)

/-- The channel that an action leads to. -/
def Prepared.newChannel (prepared : Prepared F) (current : Bytes) (action : Action) : Option Bytes :=
  let ordered := prepared.exp3State.orderedChannels
  match action with
  | .increase =>
    if prepared.currentChannelIdx < ordered.length - 1 then ordered[prepared.currentChannelIdx + 1]? else some current
  | .decrease => if 0 < prepared.currentChannelIdx then ordered[prepared.currentChannelIdx - 1]? else some current
  | .stay => some current

/-- Takes an action in the current channel, and returns the channel it leads to. -/
def Prepared.take (prepared : Prepared F) (current : Bytes) (choose : ChooseWeighted F) :
    Option (EXP3State F × Bytes) := do
  match ← prepared.exp3.takeAction (prepared.banned.map Action.toUsize) choose with
  | (.error _, _) => none
  | (.ok index, exp3) =>
    let action ← Action.ofUsize index
    let channel ← prepared.newChannel current action
    return ({ prepared.exp3State with
      instances := Function.update prepared.exp3State.instances current (some exp3)
      previousChannel := some current
      lastTakenAction := some action
      takenAction := true }, channel)

end EXP3State

/-- The flexicast part of a connection, as far as the heuristic goes. -/
structure FlexicastAttributes (F : Type) where
  mcAnnounceData : List McAnnounceData
  fcChanIdx : Option Nat
  exp3State : EXP3State F
  statistics : CongestionStats F

namespace FlexicastAttributes

/-- The announcement of the current channel. -/
def getMcAnnounceDataActive (flexicast : FlexicastAttributes F) : Option McAnnounceData :=
  flexicast.fcChanIdx.bind (flexicast.mcAnnounceData[·]?)

/-- What a call to change channels did: the channel it returned, the actions it banned and the calls it made. -/
structure Turn (F : Type) where
  flexicast : FlexicastAttributes F
  channel : Option Bytes
  banned : List Action
  calls : List Call

/-- The state once the throughput was added to the window. -/
def measured (flexicast : FlexicastAttributes F) (now : Nat) (current : McAnnounceData) :
    Option (FlexicastAttributes F) := do
  let bitrate ← current.bitrate
  let statistics ← flexicast.statistics.updateWindow now bitrate.toNat
  return { flexicast with statistics := statistics }

/-- The channel that the client should be on now, if it is time to choose one. -/
def exp3ShouldChangeChannel (rewarder : EXP3Rewarder F) (flexicast : FlexicastAttributes F) (now : Nat)
    (choose : ChooseWeighted F) : Option (Turn F) := do
  let current ← flexicast.getMcAnnounceDataActive
  let flexicast ← flexicast.measured now current
  if flexicast.exp3State.waitTimeoutElapsed now then
    let prepared ← flexicast.exp3State.prepare rewarder flexicast.statistics flexicast.mcAnnounceData current.channelId
    let (exp3State, channel) ← prepared.take current.channelId choose
    return ⟨{ flexicast with exp3State := exp3State }, some channel, prepared.banned,
      prepared.calls ++ [.take current.channelId]⟩
  else return ⟨flexicast, none, [], []⟩

/-- The client changed channels. -/
def exp3DidChangeChannel (flexicast : FlexicastAttributes F) (now : Nat) : FlexicastAttributes F :=
  { flexicast with exp3State :=
    { flexicast.exp3State with lastTakenActionInstant := now, takenAction := false } }

end FlexicastAttributes

end Congestion

end Flexicast
