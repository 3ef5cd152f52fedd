import Flexicast.Lib.HashOrder
import Flexicast.Recovery.Flow
import Flexicast.Recovery.Loss

/-! The controller between the flexicast sources and the unicast instances, of `asynchronous/controller.rs`. -/

namespace Flexicast

/-- Messages sent to the controller. -/
inductive MsgFcCtl where
  /-- Stop RTP on a flow. -/
  | closeRtp (id : Nat)
  | newClient (id : Nat)
  /-- The receiver joins a new flexicast flow. -/
  | join (clientId fcChanId : Nat)
  /-- The receiver changes its flexicast flow, from the old to the new one. -/
  | change (clientId oldFcChanId newFcChanId : Nat)
  /-- New highest and lowest packet number sent on the flexicast flow. -/
  | newHighestPn (fcId highestPn lowestPn : Nat)
  /-- The receiver acknowledges packets of the flow, and stream pieces delegated to its unicast path. -/
  | ackData (recvId fcId : Nat) (ackPn : Option RangeSet) (ackStreamPieces : Option (List (Nat × RangeSet)))
  /-- The source forwards the packets it just sent. -/
  | sent (fcId : Nat) (sent : List Loss.Sent)
  /-- The source forwards the delegated streams, because of an early retransmit query or not. -/
  | delegateStreams (fcId : Nat) (delegatedStreams : List FcDelegatedStream) (earlyRetransmit : Bool)
  /-- The new receiver is ready to receive content. -/
  | recvReady (id : Nat)
  /-- New data for the receivers that listen to unicast only. -/
  | rtpData (data : Bytes) (streamId : Nat)
  /-- The receiver falls back on unicast. -/
  | recvUcFallBack (id fcChanId : Nat)
  /-- New estimation of the congestion window of a receiver. -/
  | cwnd (recvId fcId cwnd : Nat)

/-- Messages sent to the receiver. -/
inductive MsgRecv where
  /-- Stop RTP. -/
  | closeRtp
  /-- Highest packet number sent on the flexicast flow. -/
  | newHighestPn (fcId highestPn : Nat)
  /-- Packets sent on the flexicast flow. -/
  | sent (fcId : Nat) (sent : List Loss.Sent)
  /-- Pieces of streams to be sent again on the unicast path. -/
  | delegateStreams (fcId : Nat) (delegatedStreams : List FcDelegatedStream)
  /-- New data for a receiver that listens to unicast only. -/
  | rtpData (data : Bytes) (streamId : Nat)
  deriving DecidableEq

/-- Messages sent to the flexicast source. -/
inductive MsgFcSource where
  /-- Packet numbers acknowledged by all clients. -/
  | ackPn (ranges : RangeSet)
  /-- Stream pieces received by all clients that should receive them. -/
  | ackStreamPieces (pieces : List (Nat × RangeSet))
  | ready
  /-- Asks for a full retransmission. -/
  | askStreamPieces
  /-- New estimation of the common congestion window. -/
  | newCwnd (cwnd : Nat)
  deriving DecidableEq

/-- A message of the controller, with its destination. -/
inductive Post where
  /-- A message to a receiver. -/
  | client (id : Nat) (msg : MsgRecv)
  | source (fcId : Nat) (msg : MsgFcSource)
  /-- The main thread learns that a flow stopped. -/
  | fcFlowStop (id : Nat)
  deriving DecidableEq

/-- The controller. Its vectors are functions, of a flow below `flows` or of a client below `txClients`. -/
structure FcController where
  nbClients : Option Nat
  /-- Number of channels towards the receivers. -/
  txClients : Nat
  flows : Nat
  activeClients : Nat → Finset Nat
  /-- The receivers of each flow that need early retransmission. -/
  delegatedRecv : Nat → Finset Nat
  /-- All receivers that do not listen to any flow. -/
  unicastRecv : Finset Nat
  mcAcks : Nat → McAck
  /-- The last expired packet of each flow. -/
  lastDrainedPn : Nat → Option Nat
  /-- Number of channels towards the sources. -/
  txFcSources : Nat
  /-- The packet numbers received by each client. -/
  recvAck : Nat → RangeSet
  /-- Number of clients to wait for before data is sent. -/
  wait : Option Nat
  /-- Number of receivers that are ready. -/
  nbReady : Nat
  /-- Delay between two aggregated acknowledgments. -/
  ackDelay : Option Nat
  /-- Congestion windows of the receivers of each flow. -/
  recvCwnd : Nat → OrdMap Nat
  /-- The window last sent to each flow, and the receiver that was responsible for it. -/
  lastCwnd : Nat → Option (Nat × Nat)

namespace FcController

open Function (update)

/-- A new controller of some flows. -/
def new (flows txFcSources : Nat) (wait ackDelay : Option Nat) : FcController where
  nbClients := none
  txClients := 0
  flows := flows
  activeClients := fun _ => ∅
  delegatedRecv := fun _ => ∅
  unicastRecv := ∅
  mcAcks := fun _ => McAck.new
  lastDrainedPn := fun _ => none
  txFcSources := txFcSources
  recvAck := fun _ => RangeSet.default
  wait := wait
  nbReady := 0
  ackDelay := ackDelay
  recvCwnd := fun _ => OrdMap.empty
  lastCwnd := fun _ => none

/-- A handler's result: the controller and the messages sent; no result is a panic. -/
abbrev Handled := Option (FcController × List Post)

/-- Sends a message to several receivers. -/
def sendClients (ctl : FcController) (ids : List Nat) (msg : MsgRecv) : Handled :=
  if ids.all (· < ctl.txClients) then some (ctl, ids.map (Post.client · msg)) else none

/-- Sends messages to a source. -/
def sendSource (ctl : FcController) (fcId : Nat) (msgs : List MsgFcSource) : Handled :=
  if msgs.isEmpty || fcId < ctl.txFcSources then some (ctl, msgs.map (Post.source fcId)) else none

/-- Sends to clients listening to a flow that RTP is closed. -/
def sendCloseRtp (order : HashOrder) (ctl : FcController) (id : Nat) : Handled :=
  let group := if id < ctl.flows then order.visit (ctl.activeClients id) else []
  (ctl.sendClients group .closeRtp).map fun (ctl, posts) =>
    ({ ctl with nbClients := ctl.nbClients.map (· - group.length) }, posts ++ [.fcFlowStop id])

/-- Pushes a new client. -/
def newClient (ctl : FcController) (id : Nat) : FcController :=
  { ctl with
    nbClients := some (ctl.nbClients.getD 0 + 1)
    txClients := ctl.txClients + 1
    recvAck := update ctl.recvAck ctl.txClients RangeSet.default
    unicastRecv := insert id ctl.unicastRecv }

/-- A client joins a flow. -/
def join (ctl : FcController) (clientId fcChanId : Nat) : FcController :=
  { ctl with
    activeClients := update ctl.activeClients fcChanId (insert clientId (ctl.activeClients fcChanId))
    unicastRecv := ctl.unicastRecv.erase clientId
    mcAcks :=
      -- A client that was there already is not counted again.
      if clientId ∈ ctl.activeClients fcChanId then ctl.mcAcks
      else update ctl.mcAcks fcChanId ((ctl.mcAcks fcChanId).newRecv ((ctl.lastDrainedPn fcChanId).getD 0)) }

/-- A client changes its flow. -/
def change (ctl : FcController) (clientId oldFcChanId newFcChanId : Nat) : FcController :=
  let left := update ctl.activeClients oldFcChanId ((ctl.activeClients oldFcChanId).erase clientId)
  { ctl with activeClients := update left newFcChanId (insert clientId (left newFcChanId)) }

/-- The source sent packets up to a new one, and its oldest packet is another one. -/
def newHighestPn (order : HashOrder) (ctl : FcController) (fcId highestPn lowestPn : Nat) : Handled :=
  { ctl with lastDrainedPn := update ctl.lastDrainedPn fcId (some (lowestPn - 1)) }.sendClients
    (order.visit (ctl.activeClients fcId)) (.newHighestPn fcId highestPn)

/-- Tells a source what all its receivers acknowledged. -/
def forwardAcks (ctl : FcController) (fcId : Nat) : Handled :=
  let (fullyAcked, mcAck) := (ctl.mcAcks fcId).fullAck
  let (fullyAckedStreamPieces, mcAck) := mcAck.ackedStreamOff
  { ctl with mcAcks := update ctl.mcAcks fcId mcAck }.sendSource fcId
    ((fullyAcked.map MsgFcSource.ackPn).toList ++
      (fullyAckedStreamPieces.map MsgFcSource.ackStreamPieces).toList)

/-- Counts the packets that a receiver acknowledged, and stores them. -/
def ackPackets (ctl : FcController) (recvId fcId : Nat) : Option RangeSet → Option FcController
  | none => some ctl
  | some ranges =>
    let ctl := { ctl with mcAcks := update ctl.mcAcks fcId ((ctl.mcAcks fcId).onAckReceived ranges) }
    if ranges.iter.isEmpty then some ctl
    else if recvId < ctl.txClients then
      some { ctl with
        recvAck := update ctl.recvAck recvId
          (ranges.iter.foldl (fun held range => held.insert range.1 range.2) (ctl.recvAck recvId)) }
    else none

/-- Counts the stream pieces that a receiver acknowledged. -/
def ackPieces (ctl : FcController) (fcId : Nat) : Option (List (Nat × RangeSet)) → Option FcController
  | none => some ctl
  | some pieces =>
    ((ctl.mcAcks fcId).ackPieces (streamPieces pieces)).map fun mcAck =>
      { ctl with mcAcks := update ctl.mcAcks fcId mcAck }

/-- Handles the packets and stream pieces that a receiver acknowledged. -/
def handleAckPnStreamPieces (ctl : FcController) (recvId fcId : Nat) (ackPn : Option RangeSet)
    (ackStreamPieces : Option (List (Nat × RangeSet))) : Handled := do
  let ctl ← ctl.ackPackets recvId fcId ackPn
  let ctl ← ctl.ackPieces fcId ackStreamPieces
  -- With a delay, the notifications are aggregated later.
  if ctl.ackDelay.isNone then ctl.forwardAcks fcId else return (ctl, [])

/-- Forwards to the unicast instances the packets sent on the flow. -/
def handleSentPkt (order : HashOrder) (ctl : FcController) (fcId : Nat) (sent : List Loss.Sent) : Handled :=
  ctl.sendClients (order.visit (ctl.activeClients fcId)) (.sent fcId sent)

/-- The pieces that a client lost. -/
def lostPieces (ctl : FcController) (clientId : Nat) (delegatedStreams : List FcDelegatedStream) :
    List FcDelegatedStream :=
  delegatedStreams.filter fun piece => !(ctl.recvAck clientId).flatten.contains piece.pn

/-- Releases the acknowledgments of a client up to the last expired packet of a flow. -/
def releaseAcks (ctl : FcController) (fcId clientId : Nat) : FcController :=
  match ctl.lastDrainedPn fcId with
  | some maxPn =>
    { ctl with recvAck := update ctl.recvAck clientId ((ctl.recvAck clientId).removeUntil maxPn) }
  | none => ctl

/-- The loop of `handle_delegated_streams` over the clients. -/
def delegateTo (fcId : Nat) (delegatedStreams : List FcDelegatedStream) : List Nat → FcController → Handled
  | [], ctl => some (ctl, [])
  | clientId :: rest, ctl =>
    if clientId < ctl.txClients then
      (delegateTo fcId delegatedStreams rest (ctl.releaseAcks fcId clientId)).map fun (after, posts) =>
        (after, .client clientId (.delegateStreams fcId (ctl.lostPieces clientId delegatedStreams)) :: posts)
    else none

/-- Dispatches delegated streams to receivers. -/
def handleDelegatedStreams (order : HashOrder) (ctl : FcController) (fcId : Nat)
    (delegatedStreams : List FcDelegatedStream) (earlyRetransmit : Bool) : Handled :=
  let clients :=
    if earlyRetransmit then order.visit (ctl.delegatedRecv fcId)
    else order.visit (ctl.delegatedRecv fcId) ++ order.visit (ctl.activeClients fcId)
  (delegateTo fcId delegatedStreams clients ctl).map fun (ctl, posts) =>
    -- Remove delegated receivers.
    (if earlyRetransmit then { ctl with delegatedRecv := update ctl.delegatedRecv fcId ∅ } else ctl, posts)

/-- A new receiver is ready; the sources are told once all are. -/
def handleNewReady (ctl : FcController) : FcController × List Post :=
  let ctl := { ctl with nbReady := ctl.nbReady + 1 }
  if some ctl.nbReady = ctl.wait then
    -- Reset to avoid going multiple times here.
    ({ ctl with wait := none }, (List.range ctl.txFcSources).map (Post.source · .ready))
  else (ctl, [])

/-- Elects the receiver with the lowest window, when the one that left was responsible for it. -/
def electCwnd (order : HashOrder) (ctl : FcController) (id fcChanId : Nat) : FcController × List MsgFcSource :=
  match ctl.lastCwnd fcChanId with
  | none => (ctl, [])
  | some (i, cwnd) =>
    if i = id then
      match HashOrder.minBy (order.visitMap (ctl.recvCwnd fcChanId)) with
      | none => (ctl, [])
      | some elected =>
        -- The window that is sent is the former one.
        ({ ctl with lastCwnd := update ctl.lastCwnd fcChanId (some elected) }, [.newCwnd cwnd])
    else (ctl, [])

/-- Takes a receiver out of a flow, with the state of its congestion window. -/
def takeOut (ctl : FcController) (id fcChanId : Nat) (mcAck : McAck) : FcController :=
  { ctl with
    activeClients := update ctl.activeClients fcChanId ((ctl.activeClients fcChanId).erase id)
    unicastRecv := insert id ctl.unicastRecv
    delegatedRecv := update ctl.delegatedRecv fcChanId (insert id (ctl.delegatedRecv fcChanId))
    mcAcks := update ctl.mcAcks fcChanId mcAck
    recvCwnd := update ctl.recvCwnd fcChanId ((ctl.recvCwnd fcChanId).erase id) }

/-- A receiver falls back on unicast; the count of receivers may underflow. -/
def recvUcFallBack (order : HashOrder) (ctl : FcController) (id fcChanId : Nat) : Handled := do
  let mcAck ← (ctl.mcAcks fcChanId).removeRecv
  let elected := (ctl.takeOut id fcChanId mcAck).electCwnd order id fcChanId
  elected.1.sendSource fcChanId (.askStreamPieces :: elected.2)

/-- The window that a new estimation makes the common one, with its receiver, if it changes anything. -/
def newMinimum (order : HashOrder) (ctl : FcController) (recvId fcId cwnd : Nat) : Option (Nat × Nat) :=
  match ctl.lastCwnd fcId with
  -- There was no minimum.
  | none => some (recvId, cwnd)
  | some (id, lastCwnd) =>
    -- This is an absolute new minimum.
    if cwnd < lastCwnd then some (recvId, cwnd)
    -- The receiver that was responsible for the old minimum has another window now, which is in the map.
    else if recvId = id then HashOrder.minBy (order.visitMap (ctl.recvCwnd fcId))
    else none

/-- A receiver has a new estimation of its congestion window. -/
def recvWindow (order : HashOrder) (ctl : FcController) (recvId fcId cwnd : Nat) : Handled :=
  -- First check if the receiver is active in this flow.
  if recvId ∈ ctl.activeClients fcId then
    let ctl := { ctl with recvCwnd := update ctl.recvCwnd fcId ((ctl.recvCwnd fcId).insert recvId cwnd) }
    match ctl.newMinimum order recvId fcId cwnd with
    | none => some (ctl, [])
    | some minimum =>
      { ctl with lastCwnd := update ctl.lastCwnd fcId (some minimum) }.sendSource fcId [.newCwnd minimum.2]
  else some (ctl, [])

/-- The flows that a message is about. -/
def indexed : MsgFcCtl → List Nat
  | .join _ fcId | .newHighestPn fcId _ _ | .ackData _ fcId _ _ | .sent fcId _ | .delegateStreams fcId _ _
  | .recvUcFallBack _ fcId | .cwnd _ fcId _ => [fcId]
  | .change _ oldFcId newFcId => [oldFcId, newFcId]
  | .closeRtp _ | .newClient _ | .recvReady _ | .rtpData _ _ => []

/-- Handles a message whose flows exist. -/
def dispatch (order : HashOrder) (ctl : FcController) : MsgFcCtl → Handled
  | .closeRtp id => ctl.sendCloseRtp order id
  | .newClient id => some (ctl.newClient id, [])
  | .join clientId fcChanId => some (ctl.join clientId fcChanId, [])
  | .change clientId oldFcChanId newFcChanId => some (ctl.change clientId oldFcChanId newFcChanId, [])
  | .newHighestPn fcId highestPn lowestPn => ctl.newHighestPn order fcId highestPn lowestPn
  | .ackData recvId fcId ackPn ackStreamPieces =>
    ctl.handleAckPnStreamPieces recvId fcId ackPn ackStreamPieces
  | .sent fcId sent => ctl.handleSentPkt order fcId sent
  | .delegateStreams fcId delegatedStreams earlyRetransmit =>
    ctl.handleDelegatedStreams order fcId delegatedStreams earlyRetransmit
  | .recvReady _ => some ctl.handleNewReady
  | .rtpData data streamId => ctl.sendClients (order.visit ctl.unicastRecv) (.rtpData data streamId)
  | .recvUcFallBack id fcChanId => ctl.recvUcFallBack order id fcChanId
  | .cwnd recvId fcId cwnd => ctl.recvWindow order recvId fcId cwnd

/-- Handles a message; an index out of bounds is a panic. -/
def handleFcMsg (order : HashOrder) (ctl : FcController) (msg : MsgFcCtl) : Handled :=
  if (indexed msg).all (· < ctl.flows) then ctl.dispatch order msg else none

/-- Tells each source in turn what all its receivers acknowledged. -/
def forwardAll : List Nat → FcController → Handled
  | [], ctl => some (ctl, [])
  | fcId :: rest, ctl => do
    let (ctl, posts) ← ctl.forwardAcks fcId
    let (ctl, more) ← forwardAll rest ctl
    return (ctl, posts ++ more)

/-- Sends the aggregated acknowledgments of all flows, when there is a delay between them. -/
def handleSendAck (ctl : FcController) : Handled :=
  if ctl.ackDelay.isNone then some (ctl, []) else forwardAll (List.range ctl.flows) ctl

end FcController

/-- What the controller reacts to. -/
inductive CtlEvent where
  /-- A message, with the order in which sets are visited meanwhile. -/
  | message (order : HashOrder) (msg : MsgFcCtl)
  /-- The timer for aggregated acknowledgments. -/
  | sendAck

/-- A controller, with the messages that it handled and those that it sent. -/
structure ControllerRun where
  ctl : FcController
  history : List MsgFcCtl
  posts : List Post

namespace ControllerRun

/-- A run of a new controller. -/
def start (flows txFcSources : Nat) (wait ackDelay : Option Nat) : ControllerRun :=
  ⟨FcController.new flows txFcSources wait ackDelay, [], []⟩

/-- Takes over what a handler did, unless it panicked. -/
def after (run : ControllerRun) (handled : FcController.Handled) (msgs : List MsgFcCtl) : ControllerRun :=
  match handled with
  | none => run
  | some (ctl, posts) => ⟨ctl, run.history ++ msgs, run.posts ++ posts⟩

/-- One step of the controller. -/
def next (run : ControllerRun) : CtlEvent → ControllerRun
  | .message order msg => run.after (run.ctl.handleFcMsg order msg) [msg]
  | .sendAck => run.after run.ctl.handleSendAck []

end ControllerRun

end Flexicast
