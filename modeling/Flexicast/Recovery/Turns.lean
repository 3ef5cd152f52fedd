import Flexicast.Ack.DelegateLaws
import Flexicast.Recovery.Delegation
import Flexicast.Stream.StreamsLaws

/-! The loops of delegation as one loop over the lost frames, and what one turn of it does. -/

namespace Flexicast

namespace SendBuf

/-- The loop of `emit` copies no more than its output has room for. -/
theorem emitLoop_length (fuel : Nat) :
    ∀ emission, (emitLoop fuel emission).out.length + (emitLoop fuel emission).outLen ≤
      emission.out.length + emission.outLen := by
  -- Every turn takes from the room what it adds to the output.
  induction fuel with
  | zero => exact fun emission => Nat.le_refl _
  | succ fuel ih =>
    intro emission
    simp only [emitLoop]
    split
    · exact Nat.le_refl _
    · split
      · exact Nat.le_refl _
      · split
        · exact Nat.le_refl _
        · rename_i buf _
          split
          · exact ih _
          · have taken : (emission.out ++ buf.bytes.take (min buf.curLen emission.outLen)).length +
                (emission.outLen - min buf.curLen emission.outLen) ≤
                emission.out.length + emission.outLen := by
              rw [List.length_append, List.length_take]
              omega
            split
            · exact taken
            · exact Nat.le_trans (ih _) taken

theorem length_emit_le (send : SendBuf) (outLen : Nat) : (send.emit outLen).1.1.length ≤ outLen := by
  -- The loop starts with nothing in the output, so the bound is the room alone.
  have bound := emitLoop_length (send.data.length - send.pos)
    { send := send, outLen := outLen, nextOff := send.offFront, out := [] }
  simp only [List.length_nil, Nat.zero_add] at bound
  exact Nat.le_trans (Nat.le_add_right _ _) bound

end SendBuf

theorem RotSendBuf.emit_cases (send : RotSendBuf) (outLen : Nat) :
    (send.emit outLen).1 = .error .fcStreamRotation ∨
      ∃ out fin, (send.emit outLen).1 = .ok (out, fin) ∧ out.length ≤ outLen := by
  -- The main buffer or the rotation buffer is sent from, each within the room that it is given.
  unfold RotSendBuf.emit
  simp only
  have fits := SendBuf.length_emit_le send.main outLen
  split
  · split
    · exact Or.inr ⟨_, _, rfl, fits⟩
    · exact Or.inl rfl
    · rename_i inner _
      exact Or.inr ⟨_, _, rfl, SendBuf.length_emit_le inner outLen⟩
  · exact Or.inr ⟨_, _, rfl, fits⟩

/-- A piece that is read back always has its full length. -/
theorem fetch_length (send : RotSendBuf) (off len : Nat) :
    ∃ payload, (fetch send off len).1 = some payload ∧ payload.length = len := by
  -- A failed read leaves the zeroed buffer, and a short one its zeroed rest: both have the full length.
  unfold fetch
  rcases emitted : (send.retransmit off len).emit len with ⟨result, after⟩
  rcases RotSendBuf.emit_cases (send.retransmit off len) len with failed | ⟨out, fin, sent, fits⟩
  · rw [emitted] at failed
    simp only at failed
    subst failed
    exact ⟨_, rfl, List.length_replicate⟩
  · rw [emitted] at sent
    simp only at sent
    subst sent
    refine ⟨_, rfl, ?_⟩
    rw [List.length_append, List.length_replicate]
    omega

/-- The unicast connection passes a stream over: it collected it. -/
def Unicast.skips (uc : Unicast) (streamId : Nat) : Bool :=
  (uc.streams.get streamId).isNone && uc.streams.isCollected streamId

/-- The send buffer of a stream of the unicast connection, or the one that it would create. -/
def Unicast.sendOf (uc : Unicast) (streamId : Nat) (isLocal : Bool) : RotSendBuf :=
  match uc.streams.get streamId with
  | some stream => stream.send
  | none =>
    RotSendBuf.new (StreamMap.initialLimits uc.localParams uc.peerParams isLocal (isBidiId streamId)).2

/-- The unicast connection is handed a frame: it is a STREAM frame of a stream that it does not pass over. -/
def Unicast.wants (uc : Unicast) : SentFrame → Bool
  | .streamHeader streamId _ _ _ => !uc.skips streamId
  | .other => false

/-- The delegations that lost frames lead to. -/
def Unicast.calls (uc : Unicast) (turns : List (Nat × SentFrame)) : List (Nat × Nat × Nat) :=
  turns.filterMap fun turn =>
    match turn.2 with
    | .streamHeader streamId off len _ => if uc.skips streamId then none else some (streamId, off, len)
    | .other => none

namespace Delegation

section Fields

variable (kind : FcUnicastRetransmission) (streamId off len : Nat) (state : Delegation)

@[simp] theorem countSource_streams : (state.countSource kind streamId off len).streams = state.streams := by
  unfold countSource
  split <;> rfl

@[simp] theorem countSource_uc : (state.countSource kind streamId off len).uc = state.uc := by
  unfold countSource
  split <;> rfl

@[simp] theorem countSource_pieces : (state.countSource kind streamId off len).pieces = state.pieces := by
  unfold countSource
  split <;> rfl

@[simp] theorem countSource_mcAck :
    (state.countSource kind streamId off len).mcAck =
      if kind.isDelegates then state.mcAck.delegate streamId off len else state.mcAck := by
  unfold countSource
  split <;> rfl

@[simp] theorem countUnicast_streams : (state.countUnicast kind streamId off len).streams = state.streams := by
  unfold countUnicast
  split <;> rfl

@[simp] theorem countUnicast_mcAck : (state.countUnicast kind streamId off len).mcAck = state.mcAck := by
  unfold countUnicast
  split <;> rfl

@[simp] theorem countUnicast_pieces : (state.countUnicast kind streamId off len).pieces = state.pieces := by
  unfold countUnicast
  split <;> rfl

@[simp] theorem countUnicast_uc_streams :
    (state.countUnicast kind streamId off len).uc.streams = state.uc.streams := by
  unfold countUnicast
  split <;> rfl

@[simp] theorem countUnicast_uc_localParams :
    (state.countUnicast kind streamId off len).uc.localParams = state.uc.localParams := by
  unfold countUnicast
  split <;> rfl

@[simp] theorem countUnicast_uc_peerParams :
    (state.countUnicast kind streamId off len).uc.peerParams = state.uc.peerParams := by
  unfold countUnicast
  split <;> rfl

@[simp] theorem countUnicast_uc_isServer :
    (state.countUnicast kind streamId off len).uc.isServer = state.uc.isServer := by
  unfold countUnicast
  split <;> rfl

@[simp] theorem countUnicast_uc_server :
    (state.countUnicast kind streamId off len).uc.server =
      if kind.isDelegates then
        state.uc.server.map fun rfc => { rfc with mcAck := rfc.mcAck.delegate streamId off len }
      else state.uc.server := by
  unfold countUnicast
  split <;> rfl

end Fields

/-- What becomes of a piece, by the outcome of writing it to the stream of the unicast connection. -/
def Settled (kind : FcUnicastRetransmission) (piece : FcDelegatedStream) (stream : Stream)
    (before after : Option RFcUcPath) (result : Except StreamError Unit) : Prop :=
  match (stream.send.writeAtOffset piece.payload piece.off piece.fin).1 with
  -- A piece that was taken is counted.
  | .ok _ => result = .ok () ∧ after =
      if kind.isDelegates then
        before.map fun rfc =>
          { rfc with mcAck := rfc.mcAck.delegate piece.streamId piece.off piece.payload.length }
      else before
  -- A piece that comes too late is passed over, and any other failure ends the loop.
  | .error .finalSize => result = .ok () ∧ after = before
  | .error error => result = .error error ∧ after = before

theorem writePiece_spec (kind : FcUnicastRetransmission) (piece : FcDelegatedStream) (stream : Stream)
    (state : Delegation) :
    (state.writePiece kind piece stream).2.streams = state.streams ∧
      (state.writePiece kind piece stream).2.mcAck = state.mcAck ∧
      (state.writePiece kind piece stream).2.pieces = state.pieces ++ [piece] ∧
      (state.writePiece kind piece stream).2.uc.streams = state.uc.streams.set piece.streamId
        { stream with send := (stream.send.writeAtOffset piece.payload piece.off piece.fin).2 } ∧
      (state.writePiece kind piece stream).2.uc.localParams = state.uc.localParams ∧
      (state.writePiece kind piece stream).2.uc.peerParams = state.uc.peerParams ∧
      (state.writePiece kind piece stream).2.uc.isServer = state.uc.isServer ∧
      Settled kind piece stream state.uc.server (state.writePiece kind piece stream).2.uc.server
        (state.writePiece kind piece stream).1 := by
  -- Only the outcome of the write decides whether the piece is counted.
  unfold writePiece Settled
  rcases stream.send.writeAtOffset piece.payload piece.off piece.fin with ⟨outcome, send⟩
  cases outcome with
  | ok count => simp
  | error error => cases error <;> simp

/-- What a turn does that reads a piece back and hands it to the unicast connection. -/
structure Handed (kind : FcUnicastRetransmission) (pn streamId off len : Nat) (fin : Bool)
    (state after : Delegation) (result : Except StreamError Unit) (streamFc streamUc : Stream)
    (payload : Bytes) : Prop where
  found : state.streams.get streamId = some streamFc
  /-- The unicast connection has the stream, or creates it. -/
  opened : ∃ ucStreams, StreamMap.Opened state.uc.streams streamId streamFc.isLocal
      (StreamMap.initialLimits state.uc.localParams state.uc.peerParams streamFc.isLocal
        (isBidiId streamId)).2 streamUc ucStreams ∧
    after.uc.streams = ucStreams.set streamId
      { streamUc with send := (streamUc.send.writeAtOffset payload off fin).2 }
  /-- The limits for new streams stay, and the role of the unicast connection. -/
  params : after.uc.localParams = state.uc.localParams ∧ after.uc.peerParams = state.uc.peerParams ∧
    after.uc.isServer = state.uc.isServer
  /-- The piece is read back from the stream of the source. -/
  fetched : (fetch streamFc.send off len).1 = some payload
  length : payload.length = len
  /-- The stream of the source changes as it is read back. -/
  streams : after.streams = state.streams.set streamId
    { streamFc with send := (fetch streamFc.send off len).2 }
  mcAck : after.mcAck = if kind.isDelegates then state.mcAck.delegate streamId off len else state.mcAck
  pieces : after.pieces = state.pieces ++ [⟨streamId, off, payload, pn, fin⟩]
  /-- The unicast connection counts a piece that it took. -/
  settled : Settled kind ⟨streamId, off, payload, pn, fin⟩ streamUc state.uc.server after.uc.server result

/-- A turn for a STREAM frame changes nothing but a counter, or hands a piece over. -/
theorem delegateFrame_cases (kind : FcUnicastRetransmission) (pn streamId off len : Nat) (fin : Bool)
    (state : Delegation) :
    (∃ result, state.delegateFrame kind pn (.streamHeader streamId off len fin) =
        (result, { state with nbLostMcStreamFrames := state.nbLostMcStreamFrames + 1 }) ∧
      (result = .ok () → state.uc.skips streamId = true)) ∨
    ∃ streamFc streamUc payload, Handed kind pn streamId off len fin state
      (state.delegateFrame kind pn (.streamHeader streamId off len fin)).2
      (state.delegateFrame kind pn (.streamHeader streamId off len fin)).1 streamFc streamUc payload := by
  -- The turn follows the source: look the stream up, open it at the connection, read back, hand over.
  simp only [delegateFrame]
  cases found : state.streams.get streamId with
  | none => exact Or.inl ⟨_, rfl, fun failed => by simp at failed⟩
  | some streamFc =>
    simp only
    cases made : ucStream { state with nbLostMcStreamFrames := state.nbLostMcStreamFrames + 1 }
        streamId streamFc.isLocal with
    | error error =>
      -- The stream cannot be opened; it is passed over if it was collected, and the call fails otherwise.
      obtain ⟨absent, -⟩ := StreamMap.getOrCreate_error made
      refine Or.inl ?_
      simp only
      split
      · rename_i both
        have missing : state.uc.streams.get streamId = none := absent
        exact ⟨_, rfl, fun _ => by simp [Unicast.skips, missing, both.2]⟩
      · exact ⟨_, rfl, fun failed => by simp at failed⟩
    | ok pair =>
      rcases pair with ⟨streamUc, ucStreams⟩
      -- The piece is read back, counted at the source and written to the stream of the connection.
      obtain ⟨payload, fetched, length⟩ := fetch_length streamFc.send off len
      refine Or.inr ⟨streamFc, streamUc, payload, ?_⟩
      simp only [fetched]
      obtain ⟨streams, mcAck, pieces, ucSet, localParams, peerParams, isServer, settled⟩ := writePiece_spec kind
        ⟨streamId, off, payload, pn, fin⟩ streamUc
        (countSource kind streamId off len
          { state with
            nbLostMcStreamFrames := state.nbLostMcStreamFrames + 1
            streams := state.streams.set streamId { streamFc with send := (fetch streamFc.send off len).2 }
            uc := { state.uc with streams := ucStreams } })
      simp only [countSource_streams, countSource_mcAck, countSource_pieces] at streams mcAck pieces
      simp only [countSource_uc] at ucSet localParams peerParams isServer settled
      have opened := StreamMap.getOrCreate_ok made
      exact ⟨found, ⟨ucStreams, opened, ucSet⟩, ⟨localParams, peerParams, isServer⟩, fetched, length, streams,
        mcAck, pieces, settled⟩

variable {kind : FcUnicastRetransmission} {pn streamId off len : Nat} {fin : Bool} {state : Delegation}

variable {after : Delegation} {result : Except StreamError Unit} {streamFc streamUc : Stream} {payload : Bytes}

/-- A stream that is handed a piece was not passed over, and no turn changes what is passed over. -/
theorem Handed.skips (handed : Handed kind pn streamId off len fin state after result streamFc streamUc payload) :
    state.uc.skips streamId = false ∧ ∀ probe, after.uc.skips probe = state.uc.skips probe := by
  -- The stream is open, so it is there and cannot be among the collected ones that are passed over.
  obtain ⟨ucStreams, opened, set⟩ := handed.opened
  have open_ : state.uc.skips streamId = false := by
    rcases opened.origin with present | ⟨-, fresh, -⟩
    · simp [Unicast.skips, present]
    · simp [Unicast.skips, fresh]
  refine ⟨open_, fun probe => ?_⟩
  by_cases same : probe = streamId
  · rw [same, open_]
    simp [Unicast.skips, set]
  · simp [Unicast.skips, set, same, opened.get, opened.collected]

/-- The stream that is handed a piece is the one that the unicast connection has or would create. -/
theorem Handed.send (handed : Handed kind pn streamId off len fin state after result streamFc streamUc payload) :
    streamUc.send = state.uc.sendOf streamId streamFc.isLocal := by
  -- Either the stream was there, or it was made with the limits for new streams.
  obtain ⟨ucStreams, opened, -⟩ := handed.opened
  unfold Unicast.sendOf
  rcases opened.origin with present | ⟨absent, -, maxRxData, maxWindow, new⟩
  · rw [present]
  · rw [absent, new]
    rfl

section Handed

variable {kind : FcUnicastRetransmission} {pn streamId off len : Nat} {fin : Bool} {state after : Delegation}
  {result : Except StreamError Unit} {streamFc streamUc : Stream} {payload : Bytes}

/-- The streams of the unicast connection after it was handed a piece. -/
theorem Handed.get (handed : Handed kind pn streamId off len fin state after result streamFc streamUc payload)
    (probe : Nat) :
    after.uc.streams.get probe =
      if probe = streamId then some { streamUc with send := (streamUc.send.writeAtOffset payload off fin).2 }
      else state.uc.streams.get probe := by
  -- Opening and handing over both touch the entry of this stream alone.
  obtain ⟨ucStreams, opened, set⟩ := handed.opened
  rw [set, StreamMap.get_set]
  by_cases same : probe = streamId
  · rw [if_pos same, if_pos same]
  · rw [if_neg same, if_neg same, opened.get, if_neg same]

/-- A stream that was there is the one that the piece is handed to. -/
theorem Handed.present (handed : Handed kind pn streamId off len fin state after result streamFc streamUc payload)
    {stream : Stream} (found : state.uc.streams.get streamId = some stream) : stream = streamUc := by
  obtain ⟨ucStreams, opened, -⟩ := handed.opened
  rcases opened.origin with present | ⟨absent, -⟩
  · rw [found] at present
    exact Option.some.inj present
  · rw [found] at absent
    cases absent

theorem Handed.sendOf_other
    (handed : Handed kind pn streamId off len fin state after result streamFc streamUc payload) {probe : Nat}
    (different : probe ≠ streamId) (isLocal : Bool) :
    after.uc.sendOf probe isLocal = state.uc.sendOf probe isLocal := by
  rw [Unicast.sendOf, Unicast.sendOf, handed.get, if_neg different, handed.params.1, handed.params.2.1]

end Handed

theorem delegateFrame_skips (kind : FcUnicastRetransmission) (pn : Nat) (state : Delegation)
    (frame : SentFrame) (probe : Nat) :
    (state.delegateFrame kind pn frame).2.uc.skips probe = state.uc.skips probe := by
  -- A turn that hands nothing over leaves the connection as it is.
  cases frame with
  | other => rfl
  | streamHeader streamId off len fin =>
    rcases delegateFrame_cases kind pn streamId off len fin state with ⟨result, ran, -⟩ |
      ⟨streamFc, streamUc, payload, handed⟩
    · rw [ran]
    · exact handed.skips.2 probe

/-- The loop over lost frames, each with the number of its packet, which an error ends. -/
def delegateTurns (kind : FcUnicastRetransmission) :
    List (Nat × SentFrame) → Delegation → Except StreamError Unit × Delegation
  | [], state => (.ok (), state)
  | (pn, frame) :: rest, state =>
    match state.delegateFrame kind pn frame with
    | (.error error, state) => (.error error, state)
    | (.ok _, state) => delegateTurns kind rest state

theorem delegateFrames_eq (kind : FcUnicastRetransmission) (pn : Nat) (frames : List SentFrame) :
    ∀ state, delegateFrames kind pn frames state =
      delegateTurns kind (frames.map fun frame => (pn, frame)) state := by
  -- Both loops stop at the first error, with the state of the turn that met it.
  induction frames with
  | nil => exact fun state => rfl
  | cons frame rest ih =>
    intro state
    simp only [delegateFrames, List.map_cons, delegateTurns]
    rcases state.delegateFrame kind pn frame with ⟨result, after⟩
    cases result with
    | error error => rfl
    | ok _ => exact ih after

/-- Two loops, one after the other, are one loop. -/
theorem delegateTurns_append (kind : FcUnicastRetransmission) (front back : List (Nat × SentFrame)) :
    ∀ state, delegateTurns kind (front ++ back) state =
      match delegateTurns kind front state with
      | (.error error, state) => (.error error, state)
      | (.ok _, state) => delegateTurns kind back state := by
  -- An error in the front ends the loop before the back is reached.
  induction front with
  | nil => exact fun state => rfl
  | cons turn rest ih =>
    intro state
    simp only [List.cons_append, delegateTurns]
    split
    · rfl
    · exact ih _

/-- What every turn keeps is kept by the loop. -/
theorem delegateTurns_keeps {inv : Delegation → Prop} (turns : List (Nat × SentFrame)) :
    ∀ {state : Delegation}, inv state →
      (∀ turn ∈ turns, ∀ state, inv state → inv (state.delegateFrame kind turn.1 turn.2).2) →
      inv (delegateTurns kind turns state).2 := by
  -- Induction on the turns; the turn that ends the loop keeps the property like any other.
  induction turns with
  | nil => exact fun held _ => held
  | cons turn rest ih =>
    intro state held step
    have here := step turn List.mem_cons_self state held
    rcases turn with ⟨pn, frame⟩
    simp only [delegateTurns]
    split
    · rename_i ran
      rw [ran] at here
      exact here
    · rename_i ran
      rw [ran] at here
      exact ih here fun other member => step other (List.mem_cons_of_mem _ member)

/-- The state after one turn. -/
def turn (kind : FcUnicastRetransmission) (state : Delegation) (lost : Nat × SentFrame) : Delegation :=
  (state.delegateFrame kind lost.1 lost.2).2

/-- A loop that ends well is a run of turns that end well. -/
theorem delegateTurns_ok (turns : List (Nat × SentFrame)) :
    ∀ {state : Delegation}, (delegateTurns kind turns state).1 = .ok () →
      (delegateTurns kind turns state).2 = Runs.run (turn kind) state turns ∧
      Runs.Along (turn kind) (fun state lost => (state.delegateFrame kind lost.1 lost.2).1 = .ok ())
        state turns := by
  -- A loop that ends well met no error, so it took every turn.
  induction turns with
  | nil => exact fun _ => ⟨rfl, trivial⟩
  | cons lost rest ih =>
    intro state ended
    rcases lost with ⟨pn, frame⟩
    simp only [delegateTurns] at ended ⊢
    split at ended
    · simp at ended
    · rename_i ran
      obtain ⟨final, along⟩ := ih ended
      have here : turn kind state (pn, frame) = (state.delegateFrame kind pn frame).2 := rfl
      rw [ran] at here
      refine ⟨?_, congrArg Prod.fst ran, ?_⟩
      · rw [Runs.run_cons, here]
        exact final
      · rw [here]
        exact along

theorem turn_ok (ended : (state.delegateFrame kind pn (.streamHeader streamId off len fin)).1 = .ok ()) :
    (state.uc.skips streamId = true ∧ turn kind state (pn, .streamHeader streamId off len fin) =
        { state with nbLostMcStreamFrames := state.nbLostMcStreamFrames + 1 }) ∨
    ∃ streamFc streamUc payload, state.uc.skips streamId = false ∧
      Handed kind pn streamId off len fin state (turn kind state (pn, .streamHeader streamId off len fin))
        (.ok ()) streamFc streamUc payload := by
  -- Of the turns that hand nothing over, only the one that passes its stream over ends well.
  rcases delegateFrame_cases kind pn streamId off len fin state with ⟨result, ran, passed⟩ |
    ⟨streamFc, streamUc, payload, handed⟩
  · rw [ran] at ended
    refine Or.inl ⟨passed ended, ?_⟩
    rw [turn, ran]
  · rw [ended] at handed
    exact Or.inr ⟨streamFc, streamUc, payload, handed.skips.1, handed⟩

/-- The source counts the pieces that are handed over, up to the one that ends the loop. -/
theorem delegateTurns_mcAck (delegates : kind.isDelegates = true) {uc : Unicast} (turns : List (Nat × SentFrame)) :
    ∀ {state : Delegation}, (∀ streamId, state.uc.skips streamId = uc.skips streamId) →
      ∃ done, done <+: uc.calls turns ∧
        (delegateTurns kind turns state).2.mcAck = Runs.run McAck.delegatePiece state.mcAck done ∧
        ((delegateTurns kind turns state).1 = .ok () → done = uc.calls turns) := by
  -- Induction on the turns; the streams that are passed over stay the same throughout.
  induction turns with
  | nil => exact fun _ => ⟨[], List.nil_prefix, rfl, fun _ => rfl⟩
  | cons lost rest ih =>
    intro state skips
    rcases lost with ⟨pn, frame⟩
    have still := fun streamId => (delegateFrame_skips kind pn state frame streamId).trans (skips streamId)
    cases frame with
    | other => exact ih skips
    | streamHeader streamId off len fin =>
      simp only [delegateTurns]
      rcases delegateFrame_cases kind pn streamId off len fin state with ⟨result, ran, passed⟩ |
        ⟨streamFc, streamUc, payload, handed⟩
      · rw [ran] at still
        rw [ran]
        cases result with
        | error error => exact ⟨[], List.nil_prefix, rfl, fun failed => by simp at failed⟩
        | ok _ =>
          -- The stream is passed over, and so the frame leads to no call.
          have none_ : uc.calls ((pn, .streamHeader streamId off len fin) :: rest) = uc.calls rest := by
            simp [Unicast.calls, ← skips, passed rfl]
          rw [none_]
          exact ih still
      · -- The piece is counted before it is written, so it counts even when the write ends the loop.
        have one : uc.calls ((pn, .streamHeader streamId off len fin) :: rest) =
            (streamId, off, len) :: uc.calls rest := by
          simp [Unicast.calls, ← skips, handed.skips.1]
        have counted := handed.mcAck
        rw [if_pos delegates] at counted
        rw [one]
        rcases ran : state.delegateFrame kind pn (.streamHeader streamId off len fin) with ⟨result, after⟩
        rw [ran] at still counted
        cases result with
        | error error =>
          refine ⟨[(streamId, off, len)], List.cons_prefix_cons.mpr ⟨rfl, List.nil_prefix⟩, ?_,
            fun failed => by simp at failed⟩
          exact counted
        | ok _ =>
          obtain ⟨done, first, counts, all⟩ := ih still
          refine ⟨(streamId, off, len) :: done, List.cons_prefix_cons.mpr ⟨rfl, first⟩, ?_,
            fun ended => by rw [all ended]⟩
          rw [Runs.run_cons, McAck.delegatePiece, ← counted]
          exact counts

end Delegation

/-- The frames that `delegate_streams` handles, each with the number of its packet. -/
def lostFrames (kind : FcUnicastRetransmission) (recvPn : RangeSet) (packets : List Sent) :
    List (Nat × SentFrame) :=
  ((packets.takeWhile kind.goesOn).filter fun packet =>
    kind.picks packet && !received recvPn packet.pktNum).flatMap fun packet =>
      packet.frames.map fun frame => (packet.pktNum, frame)

section Packets

variable {kind : FcUnicastRetransmission} {recvPn : RangeSet}

/-- The loop over the packets is the loop over their lost frames. -/
theorem delegatePackets_turns (kind : FcUnicastRetransmission) (recvPn : RangeSet) (packets : List Sent) :
    ∀ loop : PacketLoop,
      (delegatePackets kind recvPn packets loop).1 =
        (Delegation.delegateTurns kind (lostFrames kind recvPn packets) loop.state).1 ∧
      (delegatePackets kind recvPn packets loop).2.2.state =
        (Delegation.delegateTurns kind (lostFrames kind recvPn packets) loop.state).2 := by
  -- Packets that are passed over have no lost frames, and the others add theirs in front.
  induction packets with
  | nil => exact fun loop => ⟨rfl, rfl⟩
  | cons packet rest ih =>
    intro loop
    simp only [delegatePackets, lostFrames]
    cases goes : kind.goesOn packet with
    | false => simp [goes, Delegation.delegateTurns]
    | true =>
      rw [List.takeWhile_cons_of_pos goes]
      cases picked : kind.picks packet with
      | false =>
        obtain ⟨result, state⟩ := ih loop
        simpa [picked] using ⟨result, state⟩
      | true =>
        cases has : received recvPn packet.pktNum with
        | true =>
          obtain ⟨result, state⟩ := ih ⟨loop.state, loop.lostPn, some packet.pktNum⟩
          simpa [picked, has] using ⟨result, state⟩
        | false =>
          rw [List.filter_cons_of_pos (by simp [picked, has]), List.flatMap_cons,
            Delegation.delegateTurns_append, ← Delegation.delegateFrames_eq]
          simp only [Bool.not_true, Bool.false_eq_true, if_false]
          rcases Delegation.delegateFrames kind packet.pktNum packet.frames loop.state with
            ⟨result, state⟩
          cases result with
          | error error => exact ⟨rfl, rfl⟩
          | ok _ => exact ih ⟨state, loop.lostPn.insert packet.pktNum (packet.pktNum + 1), some packet.pktNum⟩

/-- No packet has a frame that none had before. -/
def FramesKept (before after : List Sent) : Prop :=
  ∀ packet ∈ after, ∀ frame ∈ packet.frames, ∃ earlier ∈ before, frame ∈ earlier.frames

theorem FramesKept.refl (packets : List Sent) : FramesKept packets packets :=
  fun packet member _ inside => ⟨packet, member, inside⟩

theorem FramesKept.cons {first first' : Sent} {before after : List Sent}
    (here : ∀ frame ∈ first'.frames, frame ∈ first.frames) (later : FramesKept before after) :
    FramesKept (first :: before) (first' :: after) := by
  intro packet member frame inside
  rcases List.mem_cons.mp member with same | member
  · rw [same] at inside
    exact ⟨first, List.mem_cons_self, here frame inside⟩
  · obtain ⟨earlier, among, contained⟩ := later packet member frame inside
    exact ⟨earlier, List.mem_cons_of_mem _ among, contained⟩

@[simp] theorem Sent.frames_mark (packet : Sent) (kind : FcUnicastRetransmission) :
    (packet.mark kind).frames = packet.frames := by
  unfold Sent.mark
  split <;> rfl

theorem Sent.frames_drain (packet : Sent) (kind : FcUnicastRetransmission) :
    ∀ frame ∈ (packet.drain kind).frames, frame ∈ packet.frames := by
  intro frame member
  unfold Sent.drain at member
  split at member
  · simp at member
  · exact member

/-- Delegation never adds a frame to a packet. -/
theorem delegatePackets_frames (packets : List Sent) :
    ∀ loop : PacketLoop, FramesKept packets (delegatePackets kind recvPn packets loop).2.1 := by
  -- Each way through the loop keeps the frames of the packet or empties it.
  induction packets with
  | nil => exact fun loop => FramesKept.refl []
  | cons first rest ih =>
    intro loop
    simp only [delegatePackets]
    split
    · exact FramesKept.refl _
    · split
      · exact (ih loop).cons fun _ inside => inside
      · split
        · exact (FramesKept.refl rest).cons fun frame inside => by simpa using inside
        · refine (ih _).cons fun frame inside => ?_
          have own := Sent.frames_drain _ kind frame inside
          simpa using own

/-- The packets after all of them were handled: the picked ones are marked and emptied. -/
def markPackets (kind : FcUnicastRetransmission) : List Sent → List Sent
  | [] => []
  | packet :: rest =>
    if !kind.goesOn packet then packet :: rest
    else (if kind.picks packet then (packet.mark kind).drain kind else packet) :: markPackets kind rest

/-- A loop over the packets that ends well marks every packet it picks. -/
theorem delegatePackets_marks (packets : List Sent) :
    ∀ loop : PacketLoop, (delegatePackets kind recvPn packets loop).1 = .ok () →
      (delegatePackets kind recvPn packets loop).2.1 = markPackets kind packets := by
  -- Without an error every picked packet is marked and drained before the next one is looked at.
  induction packets with
  | nil => exact fun loop _ => rfl
  | cons packet rest ih =>
    intro loop ended
    simp only [delegatePackets, markPackets] at ended ⊢
    cases goes : kind.goesOn packet with
    | false => simp
    | true =>
      rw [goes] at ended
      cases picked : kind.picks packet with
      | false =>
        rw [picked] at ended
        have same := ih loop (by simpa using ended)
        simpa using same
      | true =>
        rw [picked] at ended
        simp only [Bool.not_true, Bool.false_eq_true, if_false, if_true] at ended ⊢
        split at ended
        · simp at ended
        · simp only
          rw [ih _ ended]

/-- Packets that are not delegated for sure are left as they are. -/
theorem delegatePackets_unsure (unsure : kind.isSure = false) (packets : List Sent) :
    ∀ loop : PacketLoop, (delegatePackets kind recvPn packets loop).2.1 = packets := by
  have marks : ∀ packet : Sent, packet.mark kind = packet := fun packet => by simp [Sent.mark, unsure]
  have drains : ∀ packet : Sent, packet.drain kind = packet := fun packet => by simp [Sent.drain, unsure]
  induction packets with
  | nil => exact fun loop => rfl
  | cons packet rest ih =>
    intro loop
    simp only [delegatePackets]
    split
    · rfl
    · split
      · rw [ih]
      · split
        · rw [marks]
        · rw [ih, marks, drains]

end Packets

namespace Source

/-- The state of a call of `delegate_streams` after its loop. -/
def delegated (source : Source) (uc : Unicast) (kind : FcUnicastRetransmission) : Delegation :=
  (Delegation.delegateTurns kind (lostFrames kind (recvPn uc) source.packets) (source.startLoop uc kind).state).2

theorem delegateStreams_source (source : Source) (uc : Unicast) (kind : FcUnicastRetransmission) :
    (source.delegateStreams uc kind).source =
        ⟨(delegatePackets kind (recvPn uc) source.packets (source.startLoop uc kind)).2.1,
          (source.delegated uc kind).streams, (source.delegated uc kind).mcAck⟩ ∧
      (source.delegateStreams uc kind).pieces = (source.delegated uc kind).pieces := by
  -- Whatever the call returns, source and pieces are those the loop left.
  have state := (delegatePackets_turns kind (recvPn uc) source.packets (source.startLoop uc kind)).2
  rw [delegated, ← state]
  unfold delegateStreams
  simp only
  split
  · exact ⟨rfl, rfl⟩
  · split
    · exact ⟨rfl, rfl⟩
    · split
      · exact ⟨rfl, rfl⟩
      · exact ⟨rfl, rfl⟩

variable {kind : FcUnicastRetransmission}

/-- A call of `delegate_streams` that ends well, in terms of its loop. -/
theorem delegateStreams_ok {source : Source} {uc : Unicast} {value : Nat × RangeSet × RangeSet}
    (ended : (source.delegateStreams uc kind).result = .ok value) :
    (Delegation.delegateTurns kind (lostFrames kind (recvPn uc) source.packets)
        (source.startLoop uc kind).state).1 = .ok () ∧
      (source.delegateStreams uc kind).source.packets = markPackets kind source.packets ∧
      (source.delegateStreams uc kind).uc.streams = (source.delegated uc kind).uc.streams ∧
      (source.delegateStreams uc kind).uc.server.map RFcUcPath.mcAck =
        (source.delegated uc kind).uc.server.map RFcUcPath.mcAck := by
  -- The call ends well only if its loop did.
  obtain ⟨result, state⟩ := delegatePackets_turns kind (recvPn uc) source.packets (source.startLoop uc kind)
  have well : (delegatePackets kind (recvPn uc) source.packets (source.startLoop uc kind)).1 = .ok () := by
    unfold delegateStreams at ended
    simp only at ended
    split at ended
    · simp at ended
    · rename_i ran
      exact ran
  refine ⟨by rw [← result]; exact well, ?_, ?_⟩
  · rw [(delegateStreams_source source uc kind).1]
    exact delegatePackets_marks source.packets _ well
  · -- The expected packet number of the receiver changes at the end, its aggregator does not.
    rw [delegated, ← state]
    unfold delegateStreams at ended ⊢
    simp only [well] at ended ⊢
    split
    · exact ⟨rfl, rfl⟩
    · split
      · rename_i lastPn handled _ missing
        simp only [handled, missing] at ended
        cases ended
      · rename_i rfc present
        rw [present]
        exact ⟨rfl, rfl⟩

variable {inv : StreamMap → List FcDelegatedStream → Prop}

/-- What every piece keeps that is collected for a controller is kept by the loop over a packet. -/
theorem gatherFrames_keeps {pn : Nat} (frames : List SentFrame) :
    ∀ {streams : StreamMap} {pieces : List FcDelegatedStream}, inv streams pieces →
      (∀ streamId off len fin, .streamHeader streamId off len fin ∈ frames →
        ∀ streams pieces streamFc payload, inv streams pieces → streams.get streamId = some streamFc →
        (fetch streamFc.send off len).1 = some payload →
        inv (streams.set streamId { streamFc with send := (fetch streamFc.send off len).2 })
          (pieces ++ [⟨streamId, off, payload, pn, fin⟩])) →
      inv (gatherFrames pn frames streams pieces).2.1 (gatherFrames pn frames streams pieces).2.2 := by
  -- Each stream frame reads one piece back; a stream that is missing ends the loop.
  induction frames with
  | nil => exact fun held _ => held
  | cons frame rest ih =>
    intro streams pieces held step
    cases frame with
    | other =>
      exact ih held fun streamId off len fin member =>
        step streamId off len fin (List.mem_cons_of_mem _ member)
    | streamHeader streamId off len fin =>
      simp only [gatherFrames]
      cases found : streams.get streamId with
      | none => exact held
      | some streamFc =>
        obtain ⟨payload, fetched, -⟩ := fetch_length streamFc.send off len
        simp only [fetched]
        exact ih (step streamId off len fin List.mem_cons_self streams pieces streamFc payload held found fetched)
          fun streamId off len fin member => step streamId off len fin (List.mem_cons_of_mem _ member)

theorem received_default (pn : Nat) : received RangeSet.default pn = false := rfl

theorem lostFrames_cons {packet : Sent} (goes : kind.goesOn packet = true) (rest : List Sent) :
    lostFrames kind RangeSet.default (packet :: rest) =
      (if kind.picks packet then packet.frames.map fun frame => (packet.pktNum, frame) else []) ++
        lostFrames kind RangeSet.default rest := by
  -- An empty set of received packets filters nothing out.
  unfold lostFrames
  rw [List.takeWhile_cons_of_pos goes]
  cases picked : kind.picks packet with
  | false => simp [picked]
  | true => simp [picked, received_default]

/-- What every piece keeps that is collected for a controller is kept by the loop over the packets. -/
theorem gatherPackets_keeps (packets : List Sent) :
    ∀ {streams : StreamMap} {pieces : List FcDelegatedStream}, inv streams pieces →
      (∀ pn streamId off len fin,
        (pn, .streamHeader streamId off len fin) ∈ lostFrames kind RangeSet.default packets →
        ∀ streams pieces streamFc payload, inv streams pieces → streams.get streamId = some streamFc →
        (fetch streamFc.send off len).1 = some payload →
        inv (streams.set streamId { streamFc with send := (fetch streamFc.send off len).2 })
          (pieces ++ [⟨streamId, off, payload, pn, fin⟩])) →
      inv (gatherPackets kind packets streams pieces).2.2.1
        (gatherPackets kind packets streams pieces).2.2.2 := by
  -- The packets that are passed over have no lost frames, so only picked ones have to keep the property.
  induction packets with
  | nil => exact fun held _ => held
  | cons packet rest ih =>
    intro streams pieces held step
    simp only [gatherPackets]
    cases goes : kind.goesOn packet with
    | false => simpa using held
    | true =>
      cases picked : kind.picks packet with
      | false =>
        rw [lostFrames_cons goes, picked] at step
        simpa using ih held step
      | true =>
        rw [lostFrames_cons goes, picked, if_pos rfl] at step
        have here := gatherFrames_keeps packet.frames held fun streamId off len fin member =>
          step packet.pktNum streamId off len fin
            (List.mem_append_left _ (List.mem_map_of_mem member))
        simp only [Bool.not_true, Bool.false_eq_true, if_false]
        rcases gathered : gatherFrames packet.pktNum packet.frames streams pieces with
          ⟨result, streams', pieces'⟩
        rw [gathered] at here
        cases result with
        | error error => exact here
        | ok _ =>
          exact ih here fun pn streamId off len fin member =>
            step pn streamId off len fin (List.mem_append_right _ member)

/-- Collecting for a controller never adds a frame to a packet. -/
theorem gatherPackets_frames (packets : List Sent) :
    ∀ streams pieces, FramesKept packets (gatherPackets kind packets streams pieces).2.1 := by
  -- The same argument as for delegation, with another loop over the frames.
  induction packets with
  | nil => exact fun _ _ => FramesKept.refl []
  | cons first rest ih =>
    intro streams pieces
    simp only [gatherPackets]
    split
    · exact FramesKept.refl _
    · split
      · exact (ih streams pieces).cons fun _ inside => inside
      · split
        · exact (FramesKept.refl rest).cons fun frame inside => by simpa using inside
        · refine (ih _ _).cons fun frame inside => ?_
          have own := Sent.frames_drain _ kind frame inside
          simpa using own

end Source

end Flexicast
