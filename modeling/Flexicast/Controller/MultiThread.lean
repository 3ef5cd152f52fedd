import Flexicast.Controller.Dispatch
import Flexicast.Recovery.Buffered
import Flexicast.Recovery.Rounds

/-! Delegation over three actors, of `control.rs` and `asynchronous/controller.rs`, beside the direct one. -/

namespace Flexicast

section Definitions

/-- Why delegated pieces are not buffered. -/
inductive DelegatedError where
  | flexicast (error : Channel.FcError)
  | stream (error : StreamError)
  deriving DecidableEq

/-- A unicast instance of the server: its flexicast state, and what it retransmits with. -/
structure UnicastServer where
  flexicast : Option Loss.FcState
  uc : Unicast

/-- The flow that the receiver has joined. -/
def UnicastServer.joined (receiver : UnicastServer) : Option Nat := receiver.flexicast.bind Loss.FcState.fcChanId

/-- The loop of `fc_delegated_streams` over the pieces. -/
def Unicast.bufferPieces : List FcDelegatedStream → Unicast → Except StreamError Unit × Unicast
  | [], uc => (.ok (), uc)
  | piece :: rest, uc =>
    -- The stream counts as a local one, whoever opened it on the flow.
    match uc.streams.getOrCreate piece.streamId uc.localParams uc.peerParams true uc.isServer with
    | .error error =>
      if error = .done ∧ uc.streams.isCollected piece.streamId = true then bufferPieces rest uc
      else (.error error, uc)
    | .ok (stream, streams) =>
      let (result, send) := stream.send.writeAtOffset piece.payload piece.off piece.fin
      let uc := { uc with streams := streams.set piece.streamId { stream with send := send } }
      match result with
      | .ok _ => bufferPieces rest uc
      | .error .finalSize => bufferPieces rest uc
      | .error error => (.error error, uc)

/-- Buffers pieces that the flexicast source delegated. -/
def UnicastServer.fcDelegatedStreams (receiver : UnicastServer) (fcId : Nat) (pieces : List FcDelegatedStream) :
    Except DelegatedError Unit × UnicastServer :=
  match receiver.flexicast with
  | none => (.error (.flexicast .mcDisabled), receiver)
  | some flexicast =>
    if flexicast.role ≠ .serverUnicast () then (.error (.flexicast .mcInvalidRole), receiver)
    -- Maybe a transient state.
    else if flexicast.fcChanId ≠ some fcId then (.ok (), receiver)
    else
      let (result, uc) := receiver.uc.bufferPieces pieces
      (result.mapError .stream, { receiver with uc := uc })

/-- The three actors: the source of a flow, the controller, and the receivers. -/
structure MultiThread where
  source : Source
  ctl : FcController
  receivers : Nat → UnicastServer

namespace MultiThread

/-- The receivers that the controller visits when it dispatches lost pieces, one after another. -/
def visited (threads : MultiThread) (order : HashOrder) (fcId : Nat) : List Nat :=
  order.visit (threads.ctl.delegatedRecv fcId) ++ order.visit (threads.ctl.activeClients fcId)

/-- A receiver handles the delegated pieces that were sent to it. -/
def deliver (receivers : Nat → UnicastServer) : Post → Nat → UnicastServer
  | .client id (.delegateStreams fcId pieces) =>
    Function.update receivers id ((receivers id).fcDelegatedStreams fcId pieces).2
  | _ => receivers

/--
The source collects its lost pieces, the controller dispatches them, and the receivers buffer them.

A failure of the source ends its task before anything is sent, and no result means that the controller panics.
-/
def round (order : HashOrder) (fcId : Nat) (threads : MultiThread) : Option (MultiThread × List Post) :=
  match threads.source.fcGetDelegatedStream (.delegates true) with
  | (.error _, source) => some ({ threads with source := source }, [])
  | (.ok pieces, source) =>
    (threads.ctl.handleFcMsg order (.delegateStreams fcId pieces false)).map fun (ctl, posts) =>
      (⟨source, ctl, posts.foldl deliver threads.receivers⟩, posts)

/-- The receiver of a piece has acknowledged it, and its instance tells the controller what is complete. -/
def acknowledge (order : HashOrder) (piece : FcDelegatedStream) (threads : MultiThread) (id : Nat) :
    Option (MultiThread × List Post) :=
  match (threads.receivers id).uc.server with
  | none => some (threads, [])
  | some rfc => do
    let mcAck ← rfc.mcAck.onStreamAckReceived piece.streamId piece.off piece.payload.length
    let (ackPn, mcAck) := mcAck.fullAck
    let (ackStream, mcAck) := mcAck.ackedStreamOff
    let receiver := { threads.receivers id with
      uc := { (threads.receivers id).uc with server := some { rfc with mcAck := mcAck } } }
    let threads := { threads with receivers := Function.update threads.receivers id receiver }
    match receiver.joined with
    | none => return (threads, [])
    | some fcId =>
      -- Skip if nothing to send.
      if ackPn.isSome || ackStream.isSome then
        let (ctl, posts) ← threads.ctl.handleFcMsg order (.ackData id fcId ackPn ackStream)
        return ({ threads with ctl := ctl }, posts)
      else return (threads, [])

/-- Several receivers acknowledge a piece, and the timer of the controller fires; these are the messages sent. -/
def acknowledgeAll (order : HashOrder) (piece : FcDelegatedStream) : List Nat → MultiThread → Option (List Post)
  | [], threads => threads.ctl.handleSendAck.map Prod.snd
  | id :: rest, threads => do
    let (threads, posts) ← threads.acknowledge order piece id
    let more ← acknowledgeAll order piece rest threads
    return posts ++ more

/-- The source of a flow is told that all bytes of a piece are acknowledged. -/
def Covered (fcId : Nat) (piece : FcDelegatedStream) (posts : List Post) : Prop :=
  ∀ x, piece.off ≤ x → x < piece.off + piece.payload.length →
    ∃ pieces, Post.source fcId (.ackStreamPieces pieces) ∈ posts ∧
      ∃ ranges, (piece.streamId, ranges) ∈ pieces ∧ ranges.Contains x

end MultiThread

/-- One round of direct calls; only the last is for sure, and the first error ends the round. -/
def directRound : List Nat → Source → (Nat → Unicast) → Bool × Source × (Nat → Unicast)
  | [], source, ucs => (true, source, ucs)
  | [id], source, ucs =>
    let call := source.rfcDelegateStreams (ucs id) (.delegates true)
    (call.result.isOk, call.source, Function.update ucs id call.uc)
  | id :: second :: rest, source, ucs =>
    let call := source.rfcDelegateStreams (ucs id) (.delegates false)
    if call.result.isOk then directRound (second :: rest) call.source (Function.update ucs id call.uc)
    else (false, call.source, Function.update ucs id call.uc)

/-- The pieces that a round of direct calls delegates, in order. -/
def directPieces : List Nat → Source → (Nat → Unicast) → List FcDelegatedStream
  | [], _, _ => []
  | [id], source, ucs => (source.rfcDelegateStreams (ucs id) (.delegates true)).pieces
  | id :: second :: rest, source, ucs =>
    let call := source.rfcDelegateStreams (ucs id) (.delegates false)
    call.pieces ++
      if call.result.isOk then directPieces (second :: rest) call.source (Function.update ucs id call.uc) else []

/-- The delegation that a piece leads to. -/
def FcDelegatedStream.call (piece : FcDelegatedStream) : Nat × Nat × Nat :=
  (piece.streamId, piece.off, piece.payload.length)

/-- A frame brings bytes to a unicast connection: it has some, of a stream that the connection did not collect. -/
def Unicast.bears (uc : Unicast) : SentFrame → Bool
  | .streamHeader streamId _ len _ => !uc.skips streamId && decide (0 < len)
  | .other => false

/--
A direct call gets to a frame that brings bytes to its receiver: the frames before it, which bring none, are handled
without an error, the source has the stream, and the unicast connection can open it.
-/
def Source.reaches (source : Source) (uc : Unicast) : Bool :=
  let turns := lostFrames (.delegates true) (Source.recvPn uc) source.packets
  match turns.dropWhile fun turn => !uc.bears turn.2 with
  | (_, .streamHeader streamId _ _ _) :: _ =>
    match Delegation.delegateTurns (.delegates true) (turns.takeWhile fun turn => !uc.bears turn.2)
        (source.startLoop uc (.delegates true)).state with
    | (.error _, _) => false
    | (.ok _, state) =>
      match state.streams.get streamId with
      | none => false
      | some streamFc => uc.listens && (state.ucStream streamId streamFc.isLocal).isOk
  | _ => false

/-- Some call of a direct round gets to a frame that brings bytes to its receiver. -/
def roundReaches : List Nat → Source → (Nat → Unicast) → Bool
  | [], _, _ => false
  | id :: rest, source, ucs =>
    let call := source.rfcDelegateStreams (ucs id) (.delegates false)
    source.reaches (ucs id) ||
      (call.result.isOk && roundReaches rest call.source (Function.update ucs id call.uc))

/-- The controller sends a receiver a lost frame that brings it bytes, as it does not know the packet to be received. -/
def FcController.dispatches (fcId : Nat) (lost : List (Nat × SentFrame)) (bears : Nat → SentFrame → Bool) :
    List Nat → FcController → Bool
  | [], _ => false
  | id :: rest, ctl =>
    (lost.any fun turn => bears id turn.2 && !(ctl.recvAck id).flatten.contains turn.1) ||
      dispatches fcId lost bears rest (ctl.releaseAcks fcId id)

/-- The source has the stream of a frame. -/
def StreamMap.has (streams : StreamMap) : SentFrame → Bool
  | .streamHeader streamId _ _ _ => (streams.get streamId).isSome
  | .other => true

/-- A unicast connection has a byte of a stream buffered at an offset. -/
def Unicast.Buffers (uc : Unicast) (streamId x : Nat) (byte : UInt8) : Prop :=
  ∃ stream, uc.streams.get streamId = some stream ∧ stream.send.Buffers x byte

/-- How often a unicast connection counts a byte of a stream as delegated. -/
def Unicast.counter (uc : Unicast) (streamId x : Nat) : Option Nat :=
  uc.server.map fun rfc => rfc.mcAck.counter streamId x

namespace MultiThread

/-- The receivers that a piece was sent to, and that do not pass its stream over. -/
def targets (threads : MultiThread) (visited : List Nat) (posts : List Post) (piece : FcDelegatedStream) : List Nat :=
  visited.filter fun id => decide (piece ∈ sentTo id posts) && !(threads.receivers id).uc.skips piece.streamId

/-- What the actors did in a round agrees with what the direct calls do. -/
structure Refines (threads : MultiThread) (order : HashOrder) (fcId : Nat) (after : MultiThread) (posts : List Post)
    (source : Source) (ucs : Nat → Unicast) : Prop where
  bytes : ∀ id streamId x byte, (after.receivers id).uc.Buffers streamId x byte ↔ (ucs id).Buffers streamId x byte
  aggregator : ∀ streamId x, (after.ctl.mcAcks fcId).counter streamId x = source.mcAck.counter streamId x
  unicast : ∀ id streamId x, (after.receivers id).uc.counter streamId x = (ucs id).counter streamId x
  /-- Once all receivers of a piece acknowledged it, the source is told. -/
  released : ∀ piece, threads.targets (threads.visited order fcId) posts piece ≠ [] → ∀ later,
    acknowledgeAll order piece (threads.targets (threads.visited order fcId) posts piece) after = some later →
      Covered fcId piece later

/-- The direct calls start from the same state as the actors. -/
structure Agrees (threads : MultiThread) (order : HashOrder) (fcId : Nat) : Prop where
  aggregator : threads.ctl.mcAcks fcId = threads.source.mcAck
  /-- The controller knows the same packets of each receiver to be acknowledged as its unicast connection. -/
  acked : ∀ id ∈ threads.visited order fcId, ∀ packet ∈ threads.source.packets,
    received (Source.recvPn (threads.receivers id).uc) packet.pktNum =
      (threads.ctl.recvAck id).flatten.contains packet.pktNum
  formed : ∀ id streamId stream, (threads.receivers id).uc.streams.get streamId = some stream → stream.send.Formed

/-- The STREAM frames of lost packets, whoever received them. -/
def lost (threads : MultiThread) : List (Nat × SentFrame) :=
  lostFrames (.delegates true) RangeSet.default threads.source.packets

/--
No direct call gets to a frame that brings bytes to its receiver. When the source can collect its lost pieces, the
controller sends no receiver such a frame either.
-/
structure NothingMissed (threads : MultiThread) (order : HashOrder) (fcId : Nat) : Prop where
  direct : roundReaches (threads.visited order fcId) threads.source (fun id => (threads.receivers id).uc) = false
  dispatched : (threads.lost.all fun turn => threads.source.streams.has turn.2) = true →
    FcController.dispatches fcId threads.lost (fun id => (threads.receivers id).uc.bears)
      (threads.visited order fcId) threads.ctl = false

end MultiThread

end Definitions

section Quiet

/-- A unicast connection with the same bytes buffered and the same bytes counted as before. -/
structure Unicast.Quiet (before after : Unicast) : Prop where
  closed : ∀ streamId stream, after.streams.get streamId = some stream → stream.send.Closed
  bytes : ∀ streamId x byte, after.Buffers streamId x byte ↔ before.Buffers streamId x byte
  counter : ∀ streamId x, after.counter streamId x = before.counter streamId x
  skips : ∀ streamId, after.skips streamId = before.skips streamId

variable {before uc after : Unicast} {streamId off maxTxData : Nat} {fin isLocal : Bool} {stream : Stream}
  {streams : StreamMap}

theorem Unicast.Quiet.refl
    (closed : ∀ streamId stream, uc.streams.get streamId = some stream → stream.send.Closed) : uc.Quiet uc :=
  ⟨closed, fun _ _ _ => Iff.rfl, fun _ _ => rfl, fun _ => rfl⟩

theorem Unicast.Quiet.trans (first : before.Quiet uc) (second : uc.Quiet after) : before.Quiet after where
  closed := second.closed
  bytes := fun streamId x byte => (second.bytes streamId x byte).trans (first.bytes streamId x byte)
  counter := fun streamId x => (second.counter streamId x).trans (first.counter streamId x)
  skips := fun streamId => (second.skips streamId).trans (first.skips streamId)

theorem opened_buffers (closed : ∀ streamId stream, uc.streams.get streamId = some stream → stream.send.Closed)
    (opened : StreamMap.Opened uc.streams streamId isLocal maxTxData stream streams) :
    stream.send.Closed ∧ (∀ x byte, stream.send.Buffers x byte ↔ uc.Buffers streamId x byte) ∧
      uc.skips streamId = false := by
  unfold Unicast.Buffers Unicast.skips
  rcases opened.origin with present | ⟨absent, fresh, _, _, rfl⟩
  · rw [present]
    exact ⟨closed streamId stream present, fun x byte => by simp, rfl⟩
  · -- A new stream has nothing, and the connection had none.
    rw [absent, fresh]
    refine ⟨(RotSendBuf.formed_new maxTxData).closed, fun x byte => ?_, rfl⟩
    constructor
    · exact fun held => absurd held (RotSendBuf.not_buffers_new maxTxData x byte)
    · rintro ⟨_, found, -⟩
      cases found

/-- Writing no bytes to a stream is quiet. -/
theorem Unicast.Quiet.writeNothing (quiet : before.Quiet uc)
    (opened : StreamMap.Opened uc.streams streamId isLocal maxTxData stream streams)
    (written : after.streams = streams.set streamId { stream with send := (stream.send.writeAtOffset [] off fin).2 })
    (counter : ∀ streamId x, after.counter streamId x = uc.counter streamId x) : before.Quiet after := by
  -- The stream is found or created, and an empty write leaves its buffers.
  obtain ⟨closed, held, open_⟩ := opened_buffers quiet.closed opened
  obtain ⟨stays, same⟩ := closed.writeNothing off fin
  have get : ∀ probe, after.streams.get probe = if probe = streamId then
      some { stream with send := (stream.send.writeAtOffset [] off fin).2 } else uc.streams.get probe := by
    intro probe
    rw [written, StreamMap.get_set]
    by_cases here : probe = streamId
    · rw [if_pos here, if_pos here]
    · rw [if_neg here, if_neg here, opened.get, if_neg here]
  -- Reading the streams behind the write, only the one written differs, and by nothing.
  refine ⟨fun probe other found => ?_, fun probe x byte => ?_, fun probe x => ?_, fun probe => ?_⟩
  · rw [get] at found
    split at found
    · cases found
      exact stays
    · exact quiet.closed probe other found
  · rw [← quiet.bytes]
    by_cases here : probe = streamId
    · subst here
      rw [← held, ← same]
      simp [Unicast.Buffers, get]
    · simp [Unicast.Buffers, get, here]
  · rw [counter, quiet.counter]
  · rw [← quiet.skips]
    by_cases here : probe = streamId
    · subst here
      rw [open_]
      simp [Unicast.skips, get]
    · have collected : after.streams.isCollected probe = uc.streams.isCollected probe := by
        rw [written, StreamMap.isCollected_set, opened.collected]
      simp [Unicast.skips, get, here, collected]

/-- Pieces without bytes, or of streams that are passed over, are buffered quietly. -/
theorem bufferPieces_quiet (pieces : List FcDelegatedStream) : ∀ {uc : Unicast}, before.Quiet uc →
    (∀ piece ∈ pieces, before.skips piece.streamId = false → piece.payload = []) →
    before.Quiet (uc.bufferPieces pieces).2 := by
  induction pieces with
  | nil => exact fun quiet _ => quiet
  | cons piece rest ih =>
    intro uc quiet empty
    have later := fun other member => empty other (List.mem_cons_of_mem _ member)
    unfold Unicast.bufferPieces
    cases made : uc.streams.getOrCreate piece.streamId uc.localParams uc.peerParams true uc.isServer with
    | error error =>
      dsimp only
      split
      · exact ih quiet later
      · exact quiet
    | ok found =>
      obtain ⟨stream, streams⟩ := found
      have opened := StreamMap.getOrCreate_ok made
      have open_ : before.skips piece.streamId = false := by
        rw [← quiet.skips]
        exact (opened_buffers quiet.closed opened).2.2
      have none_ := empty piece List.mem_cons_self open_
      dsimp only
      rw [none_]
      -- Whatever becomes of the write, no byte is buffered by it.
      have wrote : before.Quiet { uc with
          streams := streams.set piece.streamId
            { stream with send := (stream.send.writeAtOffset [] piece.off piece.fin).2 } } :=
        quiet.writeNothing opened rfl fun _ _ => rfl
      split
      · exact ih wrote later
      · exact ih wrote later
      · exact wrote

/-- A receiver handles such pieces quietly. -/
theorem fcDelegatedStreams_quiet {receiver : UnicastServer} (quiet : before.Quiet receiver.uc) (fcId : Nat)
    {pieces : List FcDelegatedStream}
    (empty : ∀ piece ∈ pieces, before.skips piece.streamId = false → piece.payload = []) :
    before.Quiet (receiver.fcDelegatedStreams fcId pieces).2.uc := by
  -- A closed receiver, another flow, and a receiver without a path handle nothing.
  unfold UnicastServer.fcDelegatedStreams
  split
  · exact quiet
  · split
    · exact quiet
    · split
      · exact quiet
      · exact bufferPieces_quiet pieces quiet empty

/-- The same streams and the same counts are as quiet. -/
theorem Unicast.Quiet.congr (quiet : before.Quiet uc) (streams : after.streams = uc.streams)
    (counted : after.server.map RFcUcPath.mcAck = uc.server.map RFcUcPath.mcAck) : before.Quiet after := by
  -- What is counted is read off the aggregator only.
  have counter : ∀ streamId x, after.counter streamId x = uc.counter streamId x := by
    intro streamId x
    have both := congrArg (Option.map fun mcAck => McAck.counter mcAck streamId x) counted
    simpa [Unicast.counter, Option.map_map, Function.comp_def] using both
  refine ⟨fun streamId stream found => ?_, fun streamId x byte => ?_, fun streamId x => ?_, fun streamId => ?_⟩
  · rw [streams] at found
    exact quiet.closed streamId stream found
  · rw [← quiet.bytes]
    simp only [Unicast.Buffers, streams]
  · rw [counter, quiet.counter]
  · rw [← quiet.skips]
    simp only [Unicast.skips, streams]

/-- Frames that bring no bytes are delegated quietly, and count nothing at the source. -/
theorem delegateTurns_quiet {sure : Bool} {turns : List (Nat × SentFrame)} {state : Delegation} {mcAck : McAck}
    (quiet : before.Quiet state.uc ∧ state.mcAck = mcAck)
    (silent : ∀ turn ∈ turns, before.bears turn.2 = false) :
    before.Quiet (Delegation.delegateTurns (.delegates sure) turns state).2.uc ∧
      (Delegation.delegateTurns (.delegates sure) turns state).2.mcAck = mcAck := by
  refine @Delegation.delegateTurns_keeps (.delegates sure)
    (fun state => before.Quiet state.uc ∧ state.mcAck = mcAck) turns state quiet ?_
  rintro ⟨pn, frame⟩ member state ⟨quiet, same⟩
  cases frame with
  | other => exact ⟨quiet, same⟩
  | streamHeader streamId off len fin =>
    rcases Delegation.delegateFrame_cases (.delegates sure) pn streamId off len fin state with ⟨result, ran, -⟩ |
      ⟨streamFc, streamUc, payload, handed⟩
    · rw [ran]
      exact ⟨quiet, same⟩
    · -- A frame that is handed over and brings no bytes has none.
      have open_ : before.skips streamId = false := by
        rw [← quiet.skips]
        exact handed.skips.1
      have none_ : len = 0 := by simpa [Unicast.bears, open_] using silent _ member
      subst none_
      obtain rfl : payload = [] := List.length_eq_zero_iff.mp handed.length
      obtain ⟨streams, opened, written⟩ := handed.opened
      refine ⟨quiet.writeNothing opened written fun probe x => ?_, ?_⟩
      · have settled := handed.settled
        unfold Delegation.Settled at settled
        have idle : ∀ rfc : RFcUcPath, { rfc with mcAck := rfc.mcAck.delegate streamId off 0 } = rfc := fun _ => rfl
        simp only [List.length_nil, idle, Option.map_id', ite_self] at settled
        unfold Unicast.counter
        split at settled
        · rw [settled.2]
        · rw [settled.2]
        · rw [settled.2]
      · rw [handed.mcAck]
        exact same

/-- A frame whose stream the unicast connection can neither open nor pass over ends the loop, and changes nothing. -/
theorem delegateFrame_fails {kind : FcUnicastRetransmission} {pn off len : Nat} {state : Delegation}
    (open_ : state.uc.skips streamId = false)
    (shut : ∀ streamFc, state.streams.get streamId = some streamFc →
      (state.ucStream streamId streamFc.isLocal).isOk = false) :
    ∃ error, state.delegateFrame kind pn (.streamHeader streamId off len fin) =
      (.error error, { state with nbLostMcStreamFrames := state.nbLostMcStreamFrames + 1 }) := by
  simp only [Delegation.delegateFrame]
  cases found : state.streams.get streamId with
  | none => exact ⟨_, rfl⟩
  | some streamFc =>
    simp only
    cases made : Delegation.ucStream { state with nbLostMcStreamFrames := state.nbLostMcStreamFrames + 1 } streamId
        streamFc.isLocal with
    | error error =>
      obtain ⟨absent, -⟩ := StreamMap.getOrCreate_error made
      have missing : state.uc.streams.get streamId = none := absent
      -- The stream was not collected, or else it would be passed over.
      have kept : state.uc.streams.isCollected streamId = false := by simpa [Unicast.skips, missing] using open_
      refine ⟨error, ?_⟩
      simp [kept]
    | ok opened =>
      have fails := shut streamFc found
      have same : state.ucStream streamId streamFc.isLocal = .ok opened := made
      rw [same] at fails
      cases fails

/-- Whether the packets are marked makes no difference for the loop over their frames. -/
theorem delegateTurns_sure (sure : Bool) (turns : List (Nat × SentFrame)) :
    ∀ state, Delegation.delegateTurns (.delegates sure) turns state =
      Delegation.delegateTurns (.delegates true) turns state := by
  induction turns with
  | nil => exact fun _ => rfl
  | cons turn rest ih =>
    intro state
    have here : state.delegateFrame (.delegates sure) turn.1 turn.2 =
        state.delegateFrame (.delegates true) turn.1 turn.2 := rfl
    simp only [Delegation.delegateTurns, here]
    split
    · rfl
    · exact ih _

theorem delegated_sure (source : Source) (uc : Unicast) (sure : Bool) :
    source.delegated uc (.delegates sure) = source.delegated uc (.delegates true) := by
  rw [Source.delegated, delegateTurns_sure]
  rfl

/-- A call that gets to no frame with bytes is quiet: an error ends its loop at the first such frame, if any. -/
theorem delegated_quiet {source : Source} (sure : Bool) (listens : uc.listens = true)
    (closed : ∀ streamId stream, uc.streams.get streamId = some stream → stream.send.Closed)
    (unreached : source.reaches uc = false) :
    (uc.Quiet (source.delegated uc (.delegates sure)).uc ∧
        (source.delegated uc (.delegates sure)).mcAck = source.mcAck) ∧
      ((Delegation.delegateTurns (.delegates true)
          (lostFrames (.delegates true) (Source.recvPn uc) source.packets)
          (source.startLoop uc (.delegates true)).state).1 = .ok () →
        ∀ turn ∈ lostFrames (.delegates true) (Source.recvPn uc) source.packets, uc.bears turn.2 = false) := by
  rw [delegated_sure]
  unfold Source.delegated
  simp only [Source.reaches] at unreached
  generalize lostFrames (.delegates true) (Source.recvPn uc) source.packets = turns at unreached ⊢
  have start : uc.Quiet (source.startLoop uc (.delegates true)).state.uc ∧
      (source.startLoop uc (.delegates true)).state.mcAck = source.mcAck := ⟨Unicast.Quiet.refl closed, rfl⟩
  generalize (source.startLoop uc (.delegates true)).state = state at unreached start ⊢
  have silent : ∀ turn ∈ turns.takeWhile fun turn => !uc.bears turn.2, uc.bears turn.2 = false :=
    fun turn member => by simpa using List.all_eq_true.mp List.all_takeWhile turn member
  have front := @delegateTurns_quiet _ true _ _ _ start silent
  have whole :=
    (List.takeWhile_append_dropWhile (p := fun turn : Nat × SentFrame => !uc.bears turn.2) (l := turns)).symm
  generalize turns.takeWhile (fun turn => !uc.bears turn.2) = quiet at unreached silent front whole
  cases rest : turns.dropWhile fun turn => !uc.bears turn.2 with
  | nil =>
    rw [rest, List.append_nil] at whole
    subst whole
    exact ⟨front, fun _ => silent⟩
  | cons turn later =>
    have brings : uc.bears turn.2 = true := by
      have first := List.head_dropWhile_not (p := fun turn : Nat × SentFrame => !uc.bears turn.2) (l := turns)
        (by simp [rest])
      simpa [rest] using first
    obtain ⟨pn, frame⟩ := turn
    cases frame with
    | other => cases brings
    | streamHeader streamId off len fin =>
      rw [rest] at unreached whole
      rw [whole, Delegation.delegateTurns_append]
      simp only at unreached
      generalize Delegation.delegateTurns (.delegates true) quiet state = ran at unreached front ⊢
      obtain ⟨error | done, after⟩ := ran
      · exact ⟨front, fun well => by cases well⟩
      · simp only [Delegation.delegateTurns] at unreached ⊢
        have open_ : after.uc.skips streamId = false := by
          rw [front.1.skips]
          simp only [Unicast.bears, Bool.and_eq_true, Bool.not_eq_true'] at brings
          exact brings.1
        -- The frame is not reached, as one of the ends lacks its stream.
        obtain ⟨error, fails⟩ := @delegateFrame_fails streamId fin (.delegates true) pn off len after open_
          fun streamFc found => by simpa [found, listens] using unreached
        rw [fails]
        exact ⟨front, fun well => by cases well⟩

theorem delegateStreams_uc (source : Source) (uc : Unicast) (kind : FcUnicastRetransmission) :
    (source.delegateStreams uc kind).uc.streams = (source.delegated uc kind).uc.streams ∧
      (source.delegateStreams uc kind).uc.server.map RFcUcPath.mcAck =
        (source.delegated uc kind).uc.server.map RFcUcPath.mcAck := by
  -- At its end the call only forgets packets that the receiver has.
  obtain ⟨-, state⟩ := delegatePackets_turns kind (Source.recvPn uc) source.packets (source.startLoop uc kind)
  rw [Source.delegated, ← state]
  unfold Source.delegateStreams
  dsimp only
  split
  · exact ⟨rfl, rfl⟩
  · split
    · exact ⟨rfl, rfl⟩
    · split
      · exact ⟨rfl, rfl⟩
      · rename_i rfc present
        rw [present]
        exact ⟨rfl, rfl⟩

/-- A direct call that gets to no frame with bytes leaves the receiver, and what the source counts, as they are. -/
theorem rfcDelegateStreams_quiet {source : Source} (sure : Bool)
    (closed : ∀ streamId stream, uc.streams.get streamId = some stream → stream.send.Closed)
    (unreached : source.reaches uc = false) :
    uc.Quiet (source.rfcDelegateStreams uc (.delegates sure)).uc ∧
      (source.rfcDelegateStreams uc (.delegates sure)).source.mcAck = source.mcAck := by
  unfold Source.rfcDelegateStreams
  split
  · rename_i listens
    obtain ⟨⟨quiet, same⟩, -⟩ := delegated_quiet sure listens closed unreached
    obtain ⟨streams, counted⟩ := delegateStreams_uc source uc (.delegates sure)
    refine ⟨quiet.congr streams counted, ?_⟩
    rw [(Source.delegateStreams_source source uc (.delegates sure)).1]
    exact same
  · exact ⟨Unicast.Quiet.refl closed, rfl⟩

end Quiet

section Direct

variable {before : Nat → Unicast} {kind : FcUnicastRetransmission} {state : Delegation}

/-- A round that gets to no frame with bytes is quiet, and counts nothing. -/
theorem directRound_quiet (ids : List Nat) :
    ∀ {source : Source} {ucs : Nat → Unicast}, roundReaches ids source ucs = false →
      (∀ id, (before id).Quiet (ucs id)) →
      (directRound ids source ucs).2.1.mcAck = source.mcAck ∧
        ∀ id, (before id).Quiet ((directRound ids source ucs).2.2 id) := by
  -- Induction on the receivers: each call starts from what the calls before it have left.
  induction ids with
  | nil => exact fun _ quiet => ⟨rfl, quiet⟩
  | cons id rest ih =>
    intro source ucs unreached quiet
    simp only [roundReaches, Bool.or_eq_false_iff] at unreached
    have called := fun sure => rfcDelegateStreams_quiet sure (quiet id).closed unreached.1
    have updated : ∀ sure other, (before other).Quiet
        (Function.update ucs id (source.rfcDelegateStreams (ucs id) (.delegates sure)).uc other) := by
      intro sure other
      by_cases this : other = id
      · subst this
        rw [Function.update_self]
        exact (quiet other).trans (called sure).1
      · rw [Function.update_of_ne this]
        exact quiet other
    cases rest with
    | nil => exact ⟨(called true).2, updated true⟩
    | cons second rest =>
      rw [directRound]
      split
      · rename_i ended
        obtain ⟨same, later⟩ := ih (by simpa [ended] using unreached.2) (updated false)
        exact ⟨same.trans (called false).2, later⟩
      · exact ⟨(called false).2, updated false⟩

/-- The source counts the pieces that a call delegates. -/
theorem rfcDelegateStreams_pieces (source : Source) (uc : Unicast) (sure : Bool) :
    (source.rfcDelegateStreams uc (.delegates sure)).source.mcAck =
      Runs.run McAck.delegatePiece source.mcAck
        ((source.rfcDelegateStreams uc (.delegates sure)).pieces.map FcDelegatedStream.call) := by
  unfold Source.rfcDelegateStreams
  split
  · obtain ⟨after, pieces⟩ := Source.delegateStreams_source source uc (.delegates sure)
    rw [after, pieces]
    refine @Delegation.delegateTurns_keeps (.delegates sure) (fun state =>
      state.mcAck = Runs.run McAck.delegatePiece source.mcAck (state.pieces.map FcDelegatedStream.call)) _
      (source.startLoop uc (.delegates sure)).state rfl ?_
    rintro ⟨pn, frame⟩ - state counted
    cases frame with
    | other => exact counted
    | streamHeader streamId off len fin =>
      rcases Delegation.delegateFrame_cases (.delegates sure) pn streamId off len fin state with ⟨result, ran, -⟩ |
        ⟨streamFc, streamUc, payload, handed⟩
      · rw [ran]
        exact counted
      · -- The piece that is handed over is counted once more.
        rw [handed.mcAck, handed.pieces, List.map_append, Runs.run_append, ← counted]
        simp only [FcUnicastRetransmission.isDelegates, if_true, List.map_cons, List.map_nil, Runs.run_cons,
          FcDelegatedStream.call, handed.length]
        rfl
  · rfl

theorem directRound_pieces (ids : List Nat) :
    ∀ (source : Source) (ucs : Nat → Unicast), (directRound ids source ucs).2.1.mcAck =
      Runs.run McAck.delegatePiece source.mcAck ((directPieces ids source ucs).map FcDelegatedStream.call) := by
  induction ids with
  | nil => exact fun _ _ => rfl
  | cons id rest ih =>
    intro source ucs
    cases rest with
    | nil => exact rfcDelegateStreams_pieces source (ucs id) true
    | cons second rest =>
      rw [directRound, directPieces, List.map_append, Runs.run_append, ← rfcDelegateStreams_pieces]
      split
      · exact ih _ _
      · rfl

theorem delegateFrame_pieces {streamId : Nat} (pn off len : Nat) (fin : Bool) {streamFc : Stream}
    (found : state.streams.get streamId = some streamFc)
    (opens : (state.ucStream streamId streamFc.isLocal).isOk = true) :
    ∃ payload, payload.length = len ∧
      (state.delegateFrame kind pn (.streamHeader streamId off len fin)).2.pieces =
        state.pieces ++ [⟨streamId, off, payload, pn, fin⟩] := by
  obtain ⟨payload, fetched, length⟩ := fetch_length streamFc.send off len
  refine ⟨payload, length, ?_⟩
  simp only [Delegation.delegateFrame, found]
  cases made : Delegation.ucStream { state with nbLostMcStreamFrames := state.nbLostMcStreamFrames + 1 } streamId
      streamFc.isLocal with
  | error error =>
    have same : state.ucStream streamId streamFc.isLocal = .error error := made
    rw [same] at opens
    cases opens
  | ok pair =>
    obtain ⟨streamUc, ucStreams⟩ := pair
    simp only [fetched]
    rw [(Delegation.writePiece_spec _ _ _ _).2.2.1, Delegation.countSource_pieces]

theorem delegateFrame_pieces_subset {piece : FcDelegatedStream} (pn : Nat) (frame : SentFrame)
    (member : piece ∈ state.pieces) : piece ∈ (state.delegateFrame kind pn frame).2.pieces := by
  cases frame with
  | other => exact member
  | streamHeader streamId off len fin =>
    rcases Delegation.delegateFrame_cases kind pn streamId off len fin state with ⟨result, ran, -⟩ |
      ⟨streamFc, streamUc, payload, handed⟩
    · rw [ran]
      exact member
    · rw [handed.pieces]
      exact List.mem_append_left _ member

/-- A frame that is reached is delegated, with its bytes. -/
theorem reaches_pieces {source : Source} {uc : Unicast} (sure : Bool) (reached : source.reaches uc = true) :
    ∃ piece ∈ (source.rfcDelegateStreams uc (.delegates sure)).pieces, piece.payload ≠ [] := by
  simp only [Source.reaches] at reached
  have whole := (List.takeWhile_append_dropWhile (p := fun turn : Nat × SentFrame => !uc.bears turn.2)
    (l := lostFrames (.delegates true) (Source.recvPn uc) source.packets)).symm
  split at reached
  case h_2 => cases reached
  case h_1 pn streamId off len fin later rest =>
    have brings : uc.bears (.streamHeader streamId off len fin) = true := by
      have first := List.head_dropWhile_not (p := fun turn : Nat × SentFrame => !uc.bears turn.2)
        (l := lostFrames (.delegates true) (Source.recvPn uc) source.packets) (by simp [rest])
      simpa [rest] using first
    simp only [Unicast.bears, Bool.and_eq_true, decide_eq_true_eq] at brings
    split at reached
    · cases reached
    · rename_i done state ended
      split at reached
      · cases reached
      · rename_i streamFc found
        simp only [Bool.and_eq_true] at reached
        -- The turn of the frame puts its piece on record, and the turns after it keep the record.
        obtain ⟨payload, length, pieces⟩ := delegateFrame_pieces pn off len fin found reached.2
        rw [rest] at whole
        rw [Source.rfcDelegateStreams, if_pos reached.1, (Source.delegateStreams_source source uc _).2, delegated_sure,
          Source.delegated, whole, Delegation.delegateTurns_append, ended]
        refine ⟨⟨streamId, off, payload, pn, fin⟩, ?_, fun none_ => ?_⟩
        · have kept := @Delegation.delegateTurns_keeps (.delegates true)
            (fun state => ⟨streamId, off, payload, pn, fin⟩ ∈ state.pieces) later
            (state.delegateFrame (.delegates true) pn (.streamHeader streamId off len fin)).2
            (by rw [pieces]; exact List.mem_append_right _ List.mem_cons_self)
            fun turn _ state member => delegateFrame_pieces_subset turn.1 turn.2 member
          simp only [Delegation.delegateTurns]
          split
          · rename_i ran
            rw [ran] at pieces
            simp only
            rw [pieces]
            exact List.mem_append_right _ List.mem_cons_self
          · rename_i ran
            rw [ran] at kept
            exact kept
        · subst none_
          simp only [List.length_nil] at length
          omega

theorem roundReaches_pieces (ids : List Nat) :
    ∀ {source : Source} {ucs : Nat → Unicast}, roundReaches ids source ucs = true →
      ∃ piece ∈ directPieces ids source ucs, piece.payload ≠ [] := by
  induction ids with
  | nil => exact fun reached => by cases reached
  | cons id rest ih =>
    intro source ucs reached
    simp only [roundReaches, Bool.or_eq_true, Bool.and_eq_true] at reached
    cases rest with
    | nil =>
      rcases reached with here | later
      · exact reaches_pieces true here
      · cases later.2
    | cons second rest =>
      rw [directPieces]
      rcases reached with here | ⟨ended, later⟩
      · obtain ⟨piece, member, bytes⟩ := reaches_pieces false here
        exact ⟨piece, List.mem_append_left _ member, bytes⟩
      · obtain ⟨piece, member, bytes⟩ := ih later
        rw [if_pos ended]
        exact ⟨piece, List.mem_append_right _ member, bytes⟩

/-- A round without an error that gets to no frame with bytes has none to deliver to those who listen. -/
theorem directRound_silent {packets : List Sent} (ids : List Nat) :
    ∀ {source : Source} {ucs : Nat → Unicast}, ids.Nodup → source.packets = packets →
      (∀ id ∈ ids, ucs id = before id) → (∀ id ∈ ids, (before id).listens = true) →
      (∀ id ∈ ids, ∀ streamId stream, (before id).streams.get streamId = some stream → stream.send.Closed) →
      (directRound ids source ucs).1 = true → roundReaches ids source ucs = false →
      ∀ id ∈ ids, ∀ turn ∈ lostFrames (.delegates true) (Source.recvPn (before id)) packets,
        (before id).bears turn.2 = false := by
  -- Induction on the receivers: each finds the packets, and its own state, as they were before the round.
  induction ids with
  | nil => exact fun _ _ _ _ _ _ _ id member => absurd member List.not_mem_nil
  | cons id rest ih =>
    intro source ucs once same fresh listens closed well unreached
    obtain ⟨apart, once'⟩ := List.nodup_cons.mp once
    have here := fresh id List.mem_cons_self
    simp only [roundReaches, Bool.or_eq_false_iff, here] at unreached
    have silent : ∀ sure, (source.rfcDelegateStreams (before id) (.delegates sure)).result.isOk = true →
        ∀ turn ∈ lostFrames (.delegates true) (Source.recvPn (before id)) packets,
          (before id).bears turn.2 = false := by
      intro sure ended
      rw [← same]
      refine (delegated_quiet sure (listens id List.mem_cons_self) (closed id List.mem_cons_self) unreached.1).2 ?_
      rw [Source.rfcDelegateStreams, if_pos (listens id List.mem_cons_self)] at ended
      cases result : (source.delegateStreams (before id) (.delegates sure)).result with
      | error error =>
        rw [result] at ended
        cases ended
      | ok value =>
        have loop := (Source.delegateStreams_ok result).1
        rw [delegateTurns_sure] at loop
        exact loop
    have behind : ∀ other ∈ rest, other ≠ id := fun other member this => apart (this ▸ member)
    cases rest with
    | nil =>
      intro other member
      obtain rfl := List.mem_singleton.mp member
      rw [directRound, here] at well
      exact silent true well
    | cons second rest =>
      rw [directRound, here] at well
      split at well
      · rename_i ended
        rw [List.forall_mem_cons]
        refine ⟨silent false ended, ih once' ?_ (fun other member => ?_)
          (fun other member => listens other (List.mem_cons_of_mem _ member))
          (fun other member => closed other (List.mem_cons_of_mem _ member)) well
          (by simpa [ended, here] using unreached.2)⟩
        · exact (source.rfcDelegateStreams_unsure (before id)).trans same
        · rw [Function.update_of_ne (behind other member)]
          exact fresh other (List.mem_cons_of_mem _ member)
      · cases well

end Direct

section Dispatched

variable {fcId : Nat} {pieces : List FcDelegatedStream}

variable {lost : List (Nat × SentFrame)} {bears : Nat → SentFrame → Bool} {kind : FcUnicastRetransmission} {pn : Nat}
  {streams₀ : StreamMap}

/-- The messages of a dispatch that sends no bytes, and no aggregator changes. -/
theorem delegateTo_posts (among : ∀ piece ∈ pieces,
      (piece.pn, .streamHeader piece.streamId piece.off piece.payload.length piece.fin) ∈ lost) (clients : List Nat) :
    ∀ {ctl after : FcController} {posts : List Post},
      FcController.delegateTo fcId pieces clients ctl = some (after, posts) →
      after.mcAcks = ctl.mcAcks ∧
        (FcController.dispatches fcId lost bears clients ctl = false → ∀ id flow given,
          .client id (.delegateStreams flow given) ∈ posts → ∀ piece ∈ given,
            bears id (.streamHeader piece.streamId piece.off piece.payload.length piece.fin) = false) := by
  induction clients with
  | nil =>
    intro ctl after posts ran
    cases ran
    exact ⟨rfl, fun _ id flow given member => absurd member List.not_mem_nil⟩
  | cons id rest ih =>
    intro ctl after posts ran
    unfold FcController.delegateTo at ran
    split at ran
    · obtain ⟨⟨final, later⟩, others, same⟩ := Option.map_eq_some_iff.mp ran
      cases same
      obtain ⟨counted, told⟩ := ih others
      have released : (ctl.releaseAcks fcId id).mcAcks = ctl.mcAcks := by
        unfold FcController.releaseAcks
        split <;> rfl
      refine ⟨counted.trans released, fun silent other flow given member piece inside => ?_⟩
      simp only [FcController.dispatches, Bool.or_eq_false_iff, List.any_eq_false] at silent
      rcases List.mem_cons.mp member with here | there
      · -- The first receiver gets the pieces of the packets that it is not known to have.
        cases here
        obtain ⟨collects, unacked⟩ := List.mem_filter.mp inside
        have none_ := silent.1 _ (among piece collects)
        simpa only [unacked, Bool.and_true, Bool.not_eq_true] using none_
      · exact told silent.2 other flow given there piece inside
    · cases ran

/-- The controller sends a frame with bytes to someone who was not known to have it. -/
theorem dispatches_some (clients : List Nat) :
    ∀ {ctl : FcController}, clients.Nodup → FcController.dispatches fcId lost bears clients ctl = true →
      ∃ id ∈ clients, ∃ turn ∈ lost, bears id turn.2 = true ∧ (ctl.recvAck id).flatten.contains turn.1 = false := by
  induction clients with
  | nil => exact fun _ sends => by cases sends
  | cons id rest ih =>
    intro ctl once sends
    obtain ⟨apart, once'⟩ := List.nodup_cons.mp once
    simp only [FcController.dispatches, Bool.or_eq_true, List.any_eq_true, Bool.and_eq_true, Bool.not_eq_true'] at sends
    rcases sends with ⟨turn, member, brings, unacked⟩ | later
    · exact ⟨id, List.mem_cons_self, turn, member, brings, unacked⟩
    · obtain ⟨other, among, turn, member, brings, unacked⟩ := ih once' later
      have kept : (ctl.releaseAcks fcId id).recvAck other = ctl.recvAck other := by
        have different : other ≠ id := fun this => apart (this ▸ among)
        unfold FcController.releaseAcks
        split
        · exact Function.update_of_ne different _ _
        · rfl
      rw [kept] at unacked
      exact ⟨other, List.mem_cons_of_mem _ among, turn, member, brings, unacked⟩

/-- The receivers handle messages quietly whose pieces have no bytes, or are passed over. -/
theorem deliver_quiet {before : Nat → Unicast} (posts : List Post) : ∀ {receivers : Nat → UnicastServer},
    (∀ id, (before id).Quiet (receivers id).uc) →
    (∀ id flow given, .client id (.delegateStreams flow given) ∈ posts → ∀ piece ∈ given,
      (before id).skips piece.streamId = false → piece.payload = []) →
    ∀ id, (before id).Quiet (posts.foldl MultiThread.deliver receivers id).uc := by
  -- Induction on the messages: each goes to one receiver.
  induction posts with
  | nil => exact fun quiet _ => quiet
  | cons post rest ih =>
    intro receivers quiet empty
    refine ih (fun other => ?_) fun id flow given member => empty id flow given (List.mem_cons_of_mem _ member)
    unfold MultiThread.deliver
    split
    · rename_i id flow given
      by_cases this : other = id
      · subst this
        rw [Function.update_self]
        exact fcDelegatedStreams_quiet (quiet other) flow (empty other flow given List.mem_cons_self)
      · rw [Function.update_of_ne this]
        exact quiet other
    · exact quiet other

theorem mem_lostFrames_iff {recvPn : RangeSet} {packets : List Sent} {frame : SentFrame} :
    (pn, frame) ∈ lostFrames kind recvPn packets ↔
      (pn, frame) ∈ lostFrames kind RangeSet.default packets ∧ received recvPn pn = false := by
  simp only [lostFrames, List.mem_flatMap, List.mem_filter, List.mem_map, Prod.mk.injEq, Source.received_default,
    Bool.not_false, Bool.and_true, Bool.and_eq_true, Bool.not_eq_true']
  -- The frames are those of the same packets, only fewer of them.
  constructor
  · rintro ⟨packet, ⟨taken, picked, absent⟩, inner, inside, rfl, rfl⟩
    exact ⟨⟨packet, ⟨taken, picked⟩, inner, inside, rfl, rfl⟩, absent⟩
  · rintro ⟨⟨packet, ⟨taken, picked⟩, inner, inside, rfl, rfl⟩, absent⟩
    exact ⟨packet, ⟨taken, picked, absent⟩, inner, inside, rfl, rfl⟩

/-- Every collected piece is one of a frame of a lost packet. -/
theorem fcGetDelegatedStream_pieces {source after : Source}
    (collected : source.fcGetDelegatedStream kind = (.ok pieces, after)) : ∀ piece ∈ pieces,
      (piece.pn, .streamHeader piece.streamId piece.off piece.payload.length piece.fin) ∈
        lostFrames kind RangeSet.default source.packets := by
  have kept := @Source.gatherPackets_keeps kind (fun _ pieces => ∀ piece ∈ pieces,
      (piece.pn, .streamHeader piece.streamId piece.off piece.payload.length piece.fin) ∈
        lostFrames kind RangeSet.default source.packets) source.packets source.streams []
    (fun piece member => absurd member List.not_mem_nil) ?_
  · unfold Source.fcGetDelegatedStream at collected
    split at collected
    · cases collected
    · rename_i gathered
      rw [gathered] at kept
      cases collected
      exact kept
  · intro pn streamId off len fin lost streams pieces streamFc payload held _ fetched
    rw [List.forall_mem_append, List.forall_mem_singleton]
    refine ⟨held, ?_⟩
    -- A piece is as long as its frame says.
    obtain ⟨same, found, length⟩ := fetch_length streamFc.send off len
    rw [fetched] at found
    cases found
    rw [length]
    exact lost

/-- Collecting pieces without an error finds the streams of all of them. -/
theorem gatherFrames_has (frames : List SentFrame) :
    ∀ {streams : StreamMap} {pieces : List FcDelegatedStream},
      (∀ streamId, (streams.get streamId).isSome = (streams₀.get streamId).isSome) →
      (∀ streamId, ((Source.gatherFrames pn frames streams pieces).2.1.get streamId).isSome =
          (streams₀.get streamId).isSome) ∧
        ((Source.gatherFrames pn frames streams pieces).1 = .ok () → ∀ frame ∈ frames, streams₀.has frame = true) := by
  induction frames with
  | nil => exact fun same => ⟨same, fun _ frame member => absurd member List.not_mem_nil⟩
  | cons frame rest ih =>
    intro streams pieces same
    cases frame with
    | other =>
      obtain ⟨kept, found⟩ := ih same
      exact ⟨kept, fun ended => List.forall_mem_cons.mpr ⟨rfl, found ended⟩⟩
    | streamHeader streamId off len fin =>
      simp only [Source.gatherFrames]
      cases there : streams.get streamId with
      | none => exact ⟨same, fun ended => by cases ended⟩
      | some streamFc =>
        obtain ⟨payload, fetched, -⟩ := fetch_length streamFc.send off len
        simp only [fetched]
        -- Reading a piece back leaves the stream there.
        have still : ∀ probe, ((streams.set streamId { streamFc with send := (fetch streamFc.send off len).2 }).get
            probe).isSome = (streams₀.get probe).isSome := by
          intro probe
          rw [StreamMap.get_set, ← same]
          split
          · rename_i this
            rw [this, there]
            rfl
          · rfl
        obtain ⟨kept, found⟩ := @ih _ (pieces ++ [⟨streamId, off, payload, pn, fin⟩]) still
        refine ⟨kept, fun ended => List.forall_mem_cons.mpr ⟨?_, found ended⟩⟩
        rw [StreamMap.has, ← same, there]
        rfl

theorem gatherPackets_has (packets : List Sent) :
    ∀ {streams : StreamMap} {pieces : List FcDelegatedStream},
      (∀ streamId, (streams.get streamId).isSome = (streams₀.get streamId).isSome) →
      (Source.gatherPackets kind packets streams pieces).1 = .ok () →
        ∀ turn ∈ lostFrames kind RangeSet.default packets, streams₀.has turn.2 = true := by
  induction packets with
  | nil => exact fun _ _ turn member => absurd member List.not_mem_nil
  | cons packet rest ih =>
    intro streams pieces same ended
    simp only [Source.gatherPackets] at ended
    cases goes : kind.goesOn packet with
    | false => simp [lostFrames, goes]
    | true =>
      rw [Source.lostFrames_cons goes]
      cases picked : kind.picks packet with
      | false =>
        simp only [goes, picked, Bool.not_true, Bool.not_false, Bool.false_eq_true, if_false, if_true] at ended
        simpa using ih same ended
      | true =>
        simp only [goes, picked, Bool.not_true, Bool.false_eq_true, if_false] at ended
        obtain ⟨kept, found⟩ := @gatherFrames_has packet.pktNum _ packet.frames _ pieces same
        split at ended
        · cases ended
        · rename_i gathered
          rw [gathered] at kept found
          rw [if_pos rfl, List.forall_mem_append]
          exact ⟨List.forall_mem_map.mpr (found rfl), ih kept ended⟩

end Dispatched

namespace MultiThread

variable {threads after : MultiThread} {order : HashOrder} {fcId : Nat} {posts : List Post}

/-- The messages of a round in which nothing is missed bring no bytes, and no round changes an aggregator. -/
theorem round_posts (ran : threads.round order fcId = some (after, posts)) :
    after.ctl.mcAcks = threads.ctl.mcAcks ∧ after.receivers = posts.foldl deliver threads.receivers ∧
      (threads.NothingMissed order fcId → ∀ id flow given, .client id (.delegateStreams flow given) ∈ posts →
        ∀ piece ∈ given, (threads.receivers id).uc.skips piece.streamId = false → piece.payload = []) := by
  unfold round at ran
  split at ran
  · -- The source failed, and sent nothing.
    cases ran
    exact ⟨rfl, rfl, fun _ _ _ _ member => absurd member List.not_mem_nil⟩
  · rename_i pieces source collected
    obtain ⟨⟨ctl, sent⟩, handled, same⟩ := Option.map_eq_some_iff.mp ran
    cases same
    have dispatched : ∃ later, FcController.delegateTo fcId pieces (threads.visited order fcId) threads.ctl =
        some (later, posts) ∧ ctl.mcAcks = later.mcAcks := by
      unfold FcController.handleFcMsg at handled
      split at handled
      · obtain ⟨⟨later, told⟩, visits, same⟩ := Option.map_eq_some_iff.mp handled
        cases same
        exact ⟨later, visits, rfl⟩
      · cases handled
    obtain ⟨later, visits, kept⟩ := dispatched
    obtain ⟨counted, told⟩ := delegateTo_posts (fcGetDelegatedStream_pieces collected) _ visits
    refine ⟨kept.trans counted, rfl, fun nothing id flow given member piece inside open_ => ?_⟩
    -- The source collected its pieces, so it has their streams.
    have has : (threads.lost.all fun turn => threads.source.streams.has turn.2) = true := by
      unfold Source.fcGetDelegatedStream at collected
      split at collected
      · cases collected
      · rename_i gathered
        exact List.all_eq_true.mpr (gatherPackets_has threads.source.packets (fun _ => rfl) (by rw [gathered]))
    have none_ := told (nothing.dispatched has) id flow given member piece inside
    simp only [Unicast.bears, open_, Bool.not_false, Bool.true_and, decide_eq_false_iff_not] at none_
    exact List.length_eq_zero_iff.mp (by omega)

theorem mem_sentTo {id : Nat} {piece : FcDelegatedStream} (member : piece ∈ sentTo id posts) :
    ∃ flow pieces, .client id (.delegateStreams flow pieces) ∈ posts ∧ piece ∈ pieces := by
  obtain ⟨post, there, inside⟩ := List.mem_flatMap.mp member
  -- Messages of other kinds, and to other receivers, bring nothing.
  split at inside
  · rename_i other flow pieces
    split at inside
    · rename_i same
      subst same
      exact ⟨flow, pieces, there, inside⟩
    · exact absurd inside List.not_mem_nil
  · exact absurd inside List.not_mem_nil

/-- A round in which nothing is missed refines the direct one. -/
theorem refines_of_nothingMissed (agrees : threads.Agrees order fcId) (nothing : threads.NothingMissed order fcId)
    (ran : threads.round order fcId = some (after, posts)) :
    threads.Refines order fcId after posts
      (directRound (threads.visited order fcId) threads.source fun id => (threads.receivers id).uc).2.1
      (directRound (threads.visited order fcId) threads.source fun id => (threads.receivers id).uc).2.2 := by
  obtain ⟨counted, delivered, told⟩ := round_posts ran
  have start : ∀ id, (threads.receivers id).uc.Quiet (threads.receivers id).uc := fun id =>
    Unicast.Quiet.refl fun streamId stream found => (agrees.formed id streamId stream found).closed
  have empty := told nothing
  -- Both paths leave the receivers as they were.
  obtain ⟨same, direct⟩ := directRound_quiet (threads.visited order fcId) nothing.direct start
  have actors := deliver_quiet posts start empty
  rw [← delivered] at actors
  refine ⟨fun id streamId x byte => ?_, fun streamId x => ?_, fun id streamId x => ?_, fun piece targeted _ _ x => ?_⟩
  · rw [(actors id).bytes, (direct id).bytes]
  · rw [counted, agrees.aggregator, same]
  · rw [(actors id).counter, (direct id).counter]
  · -- No byte was sent to anyone who has to acknowledge it.
    obtain ⟨id, member⟩ := List.exists_mem_of_ne_nil _ targeted
    obtain ⟨-, sent⟩ := List.mem_filter.mp member
    simp only [Bool.and_eq_true, decide_eq_true_eq, Bool.not_eq_true'] at sent
    obtain ⟨flow, pieces, message, inside⟩ := mem_sentTo sent.1
    have none_ := empty id flow pieces message piece inside sent.2
    intro low high
    rw [none_, List.length_nil] at high
    omega

/-- Calls that count their pieces cleanly are not refined once one of them gets to a frame with bytes. -/
theorem Refines.unreached {ucs : Nat → Unicast} (agrees : threads.Agrees order fcId)
    (ran : threads.round order fcId = some (after, posts))
    (disjoint : ∀ piece ∈ directPieces (threads.visited order fcId) threads.source fun id => (threads.receivers id).uc,
      piece.payload ≠ [] → Segments.Disjoint (threads.source.mcAck.streamOf piece.streamId))
    (clean : Runs.Along McAck.delegatePiece McAck.CleanCall threads.source.mcAck
      ((directPieces (threads.visited order fcId) threads.source fun id => (threads.receivers id).uc).map
        FcDelegatedStream.call))
    (refines : threads.Refines order fcId after posts
      (directRound (threads.visited order fcId) threads.source fun id => (threads.receivers id).uc).2.1 ucs) :
    roundReaches (threads.visited order fcId) threads.source (fun id => (threads.receivers id).uc) = false := by
  cases reached : roundReaches (threads.visited order fcId) threads.source fun id => (threads.receivers id).uc with
  | false => rfl
  | true =>
    obtain ⟨piece, member, bytes⟩ := roundReaches_pieces _ reached
    -- The actors count nothing, so the direct calls cover no byte.
    have handled : ∀ call ∈ (directPieces (threads.visited order fcId) threads.source
        fun id => (threads.receivers id).uc).map FcDelegatedStream.call,
        0 < call.2.2 → Segments.Disjoint (threads.source.mcAck.streamOf call.1) := by
      intro call among some_
      obtain ⟨other, inside, rfl⟩ := List.mem_map.mp among
      exact disjoint other inside (List.length_pos_iff.mp some_)
    have added := (McAck.counter_delegatePieces _ threads.source.mcAck handled clean piece.streamId).2 piece.off
    have same := refines.aggregator piece.streamId piece.off
    rw [(round_posts ran).1, agrees.aggregator, directRound_pieces, added] at same
    have covers : McAck.coveringOf ((directPieces (threads.visited order fcId) threads.source
        fun id => (threads.receivers id).uc).map FcDelegatedStream.call) piece.streamId piece.off = 0 := by
      omega
    rw [McAck.coveringOf, List.countP_eq_zero] at covers
    have outside := covers piece.call (List.mem_map_of_mem member)
    have some_ := List.length_pos_iff.mpr bytes
    simp only [FcDelegatedStream.call, decide_eq_true_eq, true_and] at outside
    omega

/-- A flow that lost the packet with four bytes of its stream, and one receiver with what it has acknowledged. -/
def oneReceiver (acked : RangeSet) : MultiThread where
  source := Source.oneLoss
  ctl := { FcController.new 1 1 none none with
    txClients := 1
    activeClients := fun _ => {0}
    recvAck := fun _ => acked }
  receivers := fun _ => ⟨some ⟨.serverUnicast (), some none, some 0, true⟩,
    { Source.freshUnicast 100 with server := some ⟨acked, McAck.new⟩ }⟩

/-- The receiver has acknowledged the lost packet. -/
def firstAcked : RangeSet := RangeSet.default.insert 0 1

theorem agrees_oneReceiver (acked : RangeSet)
    (same : received acked 0 = acked.flatten.contains 0) : (oneReceiver acked).Agrees HashOrder.ascending 0 where
  aggregator := by
    show McAck.new = Source.oneLoss.mcAck
    decide
  acked := by
    have first : ∀ packet ∈ Source.oneLoss.packets, packet.pktNum = 0 := by decide
    intro id _ packet member
    rw [first packet member]
    exact same
  formed := fun id streamId stream found => by
    simp [oneReceiver, Source.freshUnicast, StreamMap.get, StreamMap.new] at found

-- A source that no longer has the stream of its lost packet delegates nothing on either way.
example : MultiThread.NothingMissed
    { oneReceiver RangeSet.default with source := { Source.oneLoss with streams := StreamMap.new 8 8 100 } }
    HashOrder.ascending 0 :=
  ⟨by decide, fun has => absurd has (by decide)⟩

end MultiThread

end Flexicast
