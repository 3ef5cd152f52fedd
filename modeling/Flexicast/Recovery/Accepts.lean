import Flexicast.Recovery.Turns
import Flexicast.Stream.SendBufLaws

/-! When a unicast connection takes every lost frame without an error. -/

namespace Flexicast

/-- Writing at an offset is refused, if at all, because the offset comes too late. -/
def SendBuf.Accepts (send : SendBuf) (off : Nat) : Prop := send.error = none ∧ off ≤ send.maxData

/-- Writing at an offset is refused by neither buffer, unless the offset comes too late. -/
def RotSendBuf.Accepts (send : RotSendBuf) (off : Nat) : Prop :=
  send.main.Accepts off ∧
    match send.fcSendBuf with
    | none => True
    | some ⟨none⟩ => False
    | some ⟨some inner⟩ => inner.Accepts off

instance (send : SendBuf) (off : Nat) : Decidable (send.Accepts off) :=
  inferInstanceAs (Decidable (_ ∧ _))

instance : (send : RotSendBuf) → (off : Nat) → Decidable (send.Accepts off)
  | ⟨_, none⟩, _ => inferInstanceAs (Decidable (_ ∧ True))
  | ⟨_, some ⟨none⟩⟩, _ => inferInstanceAs (Decidable (_ ∧ False))
  | ⟨_, some ⟨some _⟩⟩, _ => inferInstanceAs (Decidable (_ ∧ _))

/-- A write at an offset succeeds, or comes too late. -/
def Late (result : Except StreamError Nat) : Prop := (∃ count, result = .ok count) ∨ result = .error .finalSize

/-- A buffer that accepts an offset takes the write or finds it too late, and keeps its limits. -/
theorem SendBuf.Accepts.writeAtOffset {send : SendBuf} {off : Nat} (accepts : send.Accepts off) (data : Bytes)
    (fin : Bool) :
    Late (send.writeAtOffset data off fin).1 ∧ (send.writeAtOffset data off fin).2.error = send.error ∧
      (send.writeAtOffset data off fin).2.maxData = send.maxData := by
  unfold SendBuf.writeAtOffset
  by_cases late : off < send.off
  · rw [if_pos late]
    exact ⟨Or.inr rfl, rfl, rfl⟩
  · rw [if_neg late]
    -- The buffer that is written to ends at the offset.
    have moved : ∃ acked emitOff, (if send.off = off then send else send.resetAt off) =
        { send with acked := acked, off := off, emitOff := emitOff } := by
      by_cases here : send.off = off
      · exact ⟨send.acked, send.emitOff, by rw [if_pos here, ← here]⟩
      · exact ⟨_, _, by rw [if_neg here]; rfl⟩
    obtain ⟨acked, emitOff, moved⟩ := moved
    simp only [moved]
    cases ran : SendBuf.write { send with acked := acked, off := off, emitOff := emitOff } data fin with
    | ok result =>
      rcases result with ⟨count, after⟩
      obtain ⟨bufs, end_, len, finOff, frame⟩ := SendBuf.write_frame ran
      obtain ⟨bufs', pos, len', marked⟩ := SendBuf.retransmit_frame after off count
      simp only [marked]
      rw [frame]
      exact ⟨Or.inl ⟨count, rfl⟩, rfl, rfl⟩
    | error error =>
      -- There is room at the offset, so only a final size can be in the way.
      have final := @SendBuf.write_error { send with acked := acked, off := off, emitOff := emitOff } data fin
        error accepts.1 accepts.2 ran
      rw [final]
      exact ⟨Or.inr rfl, rfl, rfl⟩

theorem SendBuf.Accepts.congr {send after : SendBuf} (error : after.error = send.error)
    (maxData : after.maxData = send.maxData) {off : Nat} (accepts : send.Accepts off) : after.Accepts off :=
  ⟨by rw [error]; exact accepts.1, by rw [maxData]; exact accepts.2⟩

theorem RotSendBuf.Accepts.writeAtOffset {send : RotSendBuf} {off : Nat} (accepts : send.Accepts off)
    (data : Bytes) (fin : Bool) :
    Late (send.writeAtOffset data off fin).1 ∧
      ∀ later, send.Accepts later → (send.writeAtOffset data off fin).2.Accepts later := by
  rcases send with ⟨main, fcSendBuf⟩
  unfold RotSendBuf.writeAtOffset
  simp only
  -- An offset before the end belongs to the rotation buffer.
  by_cases behind : off < main.off
  · rw [if_pos behind]
    match fcSendBuf, accepts with
    | none, _ => exact ⟨Or.inr rfl, fun _ other => other⟩
    | some ⟨some inner⟩, accepts =>
      obtain ⟨late, error, maxData⟩ := SendBuf.Accepts.writeAtOffset accepts.2 data fin
      exact ⟨late, fun later both => ⟨both.1, SendBuf.Accepts.congr error maxData both.2⟩⟩
  · rw [if_neg behind]
    obtain ⟨late, error, maxData⟩ := SendBuf.Accepts.writeAtOffset accepts.1 data fin
    exact ⟨late, fun later both => ⟨SendBuf.Accepts.congr error maxData both.1, both.2⟩⟩

/--
The unicast connection takes a piece of a stream without an error:
it passes the stream over, or has the stream or room for it, and may write to it.
-/
def Unicast.Takes (uc : Unicast) (streamId off : Nat) (isLocal : Bool) : Prop :=
  uc.skips streamId = true ∨
    (((uc.streams.get streamId).isSome = true ∨
        (isLocal = isLocalId streamId uc.isServer ∧ uc.streams.HasRoom streamId uc.isServer)) ∧
      (uc.sendOf streamId isLocal).Accepts off)

instance (uc : Unicast) (streamId off : Nat) (isLocal : Bool) : Decidable (uc.Takes streamId off isLocal) :=
  inferInstanceAs (Decidable (_ ∨ ((_ ∨ (_ ∧ _)) ∧ _)))

/-- The unicast connection takes a frame of a stream of the source without an error. -/
def Unicast.Accepts (uc : Unicast) (streams : StreamMap) : SentFrame → Prop
  | .other => True
  | .streamHeader streamId off _ _ =>
    ∃ streamFc, streams.get streamId = some streamFc ∧ uc.Takes streamId off streamFc.isLocal

instance (uc : Unicast) (streams : StreamMap) : (frame : SentFrame) → Decidable (uc.Accepts streams frame)
  | .other => isTrue trivial
  | .streamHeader streamId off len fin =>
    match found : streams.get streamId with
    | none => isFalse fun ⟨_, present, _⟩ => by rw [found] at present; cases present
    | some streamFc =>
      decidable_of_iff (uc.Takes streamId off streamFc.isLocal)
        ⟨fun takes => ⟨streamFc, found, takes⟩,
          fun ⟨_, present, takes⟩ => by rw [found] at present; cases present; exact takes⟩

section Turns

variable {kind : FcUnicastRetransmission} {pn streamId off len : Nat} {fin : Bool} {state : Delegation}

variable {streamFc streamUc : Stream} {after : Delegation} {result : Except StreamError Unit} {payload : Bytes}
  {frame : SentFrame}

theorem Delegation.delegateFrame_skipped (found : state.streams.get streamId = some streamFc)
    (skips : state.uc.skips streamId = true) :
    (state.delegateFrame kind pn (.streamHeader streamId off len fin)).1 = .ok () := by
  -- The lookup of a collected stream is done, which the loop takes as a reason to go on.
  simp only [Unicast.skips, Bool.and_eq_true, Option.isNone_iff_eq_none] at skips
  have made : Delegation.ucStream
      { state with nbLostMcStreamFrames := state.nbLostMcStreamFrames + 1 } streamId streamFc.isLocal =
        .error .done := by
    simp [Delegation.ucStream, StreamMap.getOrCreate, skips.1, skips.2]
  simp only [Delegation.delegateFrame, found, made]
  simp [skips.2]

/-- A piece that is accepted does not end the loop. -/
theorem Delegation.Handed.accepted
    (handed : Delegation.Handed kind pn streamId off len fin state after result streamFc streamUc payload)
    (accepts : (state.uc.sendOf streamId streamFc.isLocal).Accepts off) : result = .ok () := by
  -- The write is taken or comes too late, and neither ends the loop.
  rw [← handed.send] at accepts
  have settled := handed.settled
  unfold Delegation.Settled at settled
  rcases (accepts.writeAtOffset payload fin).1 with ⟨count, taken⟩ | late
  · rw [taken] at settled
    exact settled.1
  · rw [late] at settled
    exact settled.1

/-- A frame that is accepted is handled without an error. -/
theorem Delegation.delegateFrame_accepted (accepts : state.uc.Accepts state.streams frame) :
    (state.delegateFrame kind pn frame).1 = .ok () := by
  cases frame with
  | other => rfl
  | streamHeader streamId off len fin =>
    obtain ⟨streamFc, found, takes⟩ := accepts
    cases skips : state.uc.skips streamId with
    | true => exact delegateFrame_skipped found skips
    | false =>
      obtain ⟨there, open_⟩ := takes.resolve_left (by simp [skips])
      -- The stream is there or can be made, so the piece is handed over.
      have made : ∃ stream opened, Delegation.ucStream
          { state with nbLostMcStreamFrames := state.nbLostMcStreamFrames + 1 } streamId
            streamFc.isLocal = .ok (stream, opened) := by
        refine StreamMap.getOrCreate_succeeds _ _ ?_
        cases present : state.uc.streams.get streamId with
        | some stream => exact Or.inl rfl
        | none =>
          rw [present] at there
          refine Or.inr ⟨?_, there.resolve_left (by simp)⟩
          simpa [Unicast.skips, present] using skips
      obtain ⟨stream, opened, made⟩ := made
      rcases delegateFrame_cases kind pn streamId off len fin state with ⟨result, ran, -⟩ |
        ⟨streamFc', streamUc, payload, handed⟩
      · have changed := congrArg (fun outcome => outcome.2.pieces.length) ran
        simp only [delegateFrame, found, made] at changed
        obtain ⟨payload, fetched, -⟩ := fetch_length streamFc.send off len
        simp [fetched, writePiece_spec] at changed
      · have same := handed.found
        rw [found, Option.some.injEq] at same
        subst same
        exact handed.accepted open_

theorem Delegation.Handed.streams_local
    (handed : Delegation.Handed kind pn streamId off len fin state after result streamFc streamUc payload)
    (probe : Nat) : (after.streams.get probe).map Stream.isLocal = (state.streams.get probe).map Stream.isLocal := by
  -- Reading back replaces the stream by one that differs in its send buffer.
  rw [handed.streams, StreamMap.get_set]
  by_cases same : probe = streamId
  · rw [if_pos same, same, handed.found]
    rfl
  · rw [if_neg same]

theorem Unicast.Accepts.congr {uc : Unicast} {streams streams' : StreamMap}
    (same : ∀ probe, (streams'.get probe).map Stream.isLocal = (streams.get probe).map Stream.isLocal)
    (accepts : uc.Accepts streams frame) : uc.Accepts streams' frame := by
  -- The stream is there before and after, on the same side.
  cases frame with
  | other => trivial
  | streamHeader streamId off len fin =>
    obtain ⟨streamFc, found, takes⟩ := accepts
    have side := same streamId
    rw [found, Option.map_some] at side
    obtain ⟨streamFc', found', equal⟩ := Option.map_eq_some_iff.mp side
    exact ⟨streamFc', found', by rw [equal]; exact takes⟩

/-- A unicast connection that took a piece still takes what it took before. -/
theorem Delegation.Handed.takes
    (handed : Delegation.Handed kind pn streamId off len fin state after result streamFc streamUc payload)
    (accepts : (state.uc.sendOf streamId streamFc.isLocal).Accepts off) {probe off' : Nat} {isLocal : Bool}
    (side : probe = streamId → isLocal = streamFc.isLocal) (takes : state.uc.Takes probe off' isLocal) :
    after.uc.Takes probe off' isLocal := by
  rcases takes with skips | ⟨there, open_⟩
  · exact Or.inl (by rw [handed.skips.2]; exact skips)
  · refine Or.inr ?_
    by_cases same : probe = streamId
    · have present := handed.get probe
      rw [if_pos same] at present
      refine ⟨Or.inl (by rw [present]; rfl), ?_⟩
      -- The stream was written to, which keeps what it accepts.
      rw [side same, same, ← handed.send] at open_
      rw [← handed.send] at accepts
      rw [Unicast.sendOf, present]
      exact (accepts.writeAtOffset payload fin).2 off' open_
    · refine ⟨?_, by rw [handed.sendOf_other same]; exact open_⟩
      obtain ⟨ucStreams, opened, set⟩ := handed.opened
      rw [handed.get, if_neg same, handed.params.2.2, set]
      exact there.imp_right fun both => ⟨both.1, opened.room _ _ both.2⟩

/-- A turn for an accepted frame leaves every frame accepted that was. -/
theorem Delegation.turn_accepts (accepts : state.uc.Accepts state.streams frame) {later : SentFrame}
    (also : state.uc.Accepts state.streams later) :
    (Delegation.turn kind state (pn, frame)).uc.Accepts (Delegation.turn kind state (pn, frame)).streams later := by
  -- The turn writes to one stream of the connection, which goes on accepting what it accepted.
  cases frame with
  | other => exact also
  | streamHeader streamId off len fin =>
    rcases turn_ok (delegateFrame_accepted accepts) with ⟨-, same⟩ |
      ⟨streamFc, streamUc, payload, open_, handed⟩
    · rw [same]
      exact also
    · obtain ⟨streamFc', found, takes⟩ := accepts
      rw [handed.found, Option.some.injEq] at found
      subst found
      have here := (takes.resolve_left (by simp [open_])).2
      refine Unicast.Accepts.congr handed.streams_local ?_
      cases later with
      | other => trivial
      | streamHeader probe off' len' fin' =>
        obtain ⟨streamFc', found, takes'⟩ := also
        refine ⟨streamFc', found, handed.takes here (fun same => ?_) takes'⟩
        rw [same, handed.found, Option.some.injEq] at found
        rw [found]

/-- The loop over lost frames that are all accepted ends well. -/
theorem Delegation.delegateTurns_accepted (turns : List (Nat × SentFrame)) :
    ∀ {state : Delegation}, (∀ lost ∈ turns, state.uc.Accepts state.streams lost.2) →
      (Delegation.delegateTurns kind turns state).1 = .ok () := by
  -- Every turn ends well, and leaves the frames behind it accepted.
  induction turns with
  | nil => exact fun _ => rfl
  | cons lost rest ih =>
    intro state accepts
    rcases lost with ⟨pn, frame⟩
    have here := accepts _ List.mem_cons_self
    have ended := @delegateFrame_accepted kind pn state frame here
    simp only [delegateTurns]
    rcases ran : state.delegateFrame kind pn frame with ⟨result, after⟩
    rw [ran] at ended
    simp only at ended
    subst ended
    refine ih fun next member => ?_
    have kept := @turn_accepts kind pn state frame here _ (accepts next (List.mem_cons_of_mem _ member))
    rw [turn, ran] at kept
    exact kept

end Turns

end Flexicast
