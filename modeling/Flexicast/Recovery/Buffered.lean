import Flexicast.Ack.DelegateExact
import Flexicast.Recovery.Source
import Flexicast.Recovery.Turns
import Flexicast.Stream.WriteAt

/-! What a unicast connection has buffered and counted after pieces were delegated to it. -/

namespace Flexicast

/-- The pieces of one stream among lost frames. -/
def piecesOf (streamId : Nat) (turns : List (Nat × SentFrame)) : List (Nat × Nat × Bool) :=
  turns.filterMap fun turn =>
    match turn.2 with
    | .streamHeader id off len fin => if id = streamId then some (off, len, fin) else none
    | .other => none

/-- A piece waits in the send buffers of its stream. -/
def FcDelegatedStream.QueuedIn (uc : Unicast) (piece : FcDelegatedStream) : Prop :=
  ∃ stream, uc.streams.get piece.streamId = some stream ∧
    ∀ i byte, piece.payload[i]? = some byte → stream.send.Queues (piece.off + i) byte

/-- A call hands bytes of a stream over: a lost frame has some, and the stream is not passed over. -/
def Unicast.Handles (uc : Unicast) (turns : List (Nat × SentFrame)) (streamId : Nat) : Prop :=
  ∃ pn off len fin, (pn, .streamHeader streamId off len fin) ∈ turns ∧ 0 < len ∧ uc.skips streamId = false

namespace Delegation

/-- The write of a piece, at the moment of its turn, stores all of its bytes. -/
def Stores (state : Delegation) (streamId off len : Nat) (fin : Bool) : Prop :=
  ∃ streamFc payload, state.streams.get streamId = some streamFc ∧
    (fetch streamFc.send off len).1 = some payload ∧
    ((state.uc.sendOf streamId streamFc.isLocal).writeAtOffset payload off fin).1 = .ok len

/-- A piece with bytes is stored as a whole in its turn, and each end counts it once. -/
def Delivers (kind : FcUnicastRetransmission) (state : Delegation) (lost : Nat × SentFrame) : Prop :=
  match lost.2 with
  | .streamHeader streamId off len fin =>
    0 < len → state.uc.skips streamId = false →
      state.Stores streamId off len fin ∧
      McAck.CountsOnce state.mcAck (turn kind state lost).mcAck (streamId, off, len) ∧
      ∀ rfc, state.uc.server = some rfc → ∃ rfc', (turn kind state lost).uc.server = some rfc' ∧
        McAck.CountsOnce rfc.mcAck rfc'.mcAck (streamId, off, len)
  | .other => True

/-- What the turns to come need to find: room for their pieces, one after the other, and clean counters. -/
structure Fitting (uc : Unicast) (state : Delegation) (turns : List (Nat × SentFrame)) : Prop where
  /-- The pieces of each stream fit its send buffers, one after the other. -/
  fits : ∀ streamId streamFc, state.streams.get streamId = some streamFc → uc.skips streamId = false →
    Fits (state.uc.sendOf streamId streamFc.isLocal).cursors (piecesOf streamId turns)
  sourceCounts : Runs.Along McAck.delegatePiece McAck.CleanCall state.mcAck (uc.calls turns)
  /-- The unicast connection counts the pieces cleanly. -/
  unicastCounts : ∀ rfc, state.uc.server = some rfc →
    Runs.Along McAck.delegatePiece McAck.CleanCall rfc.mcAck (uc.calls turns)

end Delegation

/-- What holds of the streams that bytes are handed over for, before and between the turns. -/
structure Progress (uc : Unicast) (handled : Nat → Prop) (state : Delegation) : Prop where
  /-- The same streams are passed over as at the start. -/
  skips : ∀ streamId, state.uc.skips streamId = uc.skips streamId
  formed : ∀ streamId, handled streamId → ∀ stream, state.uc.streams.get streamId = some stream → stream.send.Formed
  sourceSegments : ∀ streamId, handled streamId → Segments.Disjoint (state.mcAck.streamOf streamId)
  /-- The segments that the unicast connection counts are disjoint. -/
  unicastSegments : ∀ rfc, state.uc.server = some rfc → ∀ streamId, handled streamId →
    Segments.Disjoint (rfc.mcAck.streamOf streamId)
  queued : ∀ piece ∈ state.pieces, handled piece.streamId → piece.QueuedIn state.uc

theorem Progress.sendOf {uc : Unicast} {handled : Nat → Prop} {state : Delegation}
    (progress : Progress uc handled state) {streamId : Nat} (among : handled streamId) (isLocal : Bool) :
    (state.uc.sendOf streamId isLocal).Formed := by
  unfold Unicast.sendOf
  split
  · rename_i stream found
    exact progress.formed streamId among stream found
  · exact RotSendBuf.formed_new _

section Handed

variable {kind : FcUnicastRetransmission} {uc : Unicast} {handled : Nat → Prop} {pn streamId off len : Nat}
  {fin : Bool} {state after : Delegation} {streamFc streamUc : Stream} {payload : Bytes}

/-- A turn that ends well met no error, except that a piece came too late. -/
theorem Delegation.Handed.refused
    (handed : Delegation.Handed kind pn streamId off len fin state after (.ok ()) streamFc streamUc payload)
    (error : StreamError) (failed : (streamUc.send.writeAtOffset payload off fin).1 = .error error) :
    error = .finalSize := by
  have settled := handed.settled
  unfold Delegation.Settled at settled
  rw [failed] at settled
  cases error with
  | finalSize => rfl
  | _ => cases settled.1

/-- The unicast connection counts a piece that was taken, and no other. -/
theorem Delegation.Handed.counts
    (handed : Delegation.Handed kind pn streamId off len fin state after (.ok ()) streamFc streamUc payload)
    (delegates : kind.isDelegates = true) :
    (∀ count, (streamUc.send.writeAtOffset payload off fin).1 = .ok count → after.uc.server =
        state.uc.server.map fun rfc => { rfc with mcAck := rfc.mcAck.delegatePiece (streamId, off, len) }) ∧
      (∀ error, (streamUc.send.writeAtOffset payload off fin).1 = .error error →
        after.uc.server = state.uc.server) := by
  have settled := handed.settled
  unfold Delegation.Settled at settled
  constructor
  · intro count took
    rw [took, if_pos delegates] at settled
    simp only [handed.length] at settled
    exact settled.2
  · intro error failed
    rw [failed] at settled
    cases error <;> exact settled.2

theorem Delegation.Handed.stores_iff
    (handed : Delegation.Handed kind pn streamId off len fin state after (.ok ()) streamFc streamUc payload) :
    state.Stores streamId off len fin ↔
      (streamUc.send.writeAtOffset payload off fin).1 = .ok len := by
  rw [handed.send]
  refine ⟨?_, fun whole => ⟨streamFc, payload, handed.found, handed.fetched, whole⟩⟩
  rintro ⟨other, bytes, found, fetched, whole⟩
  rw [handed.found] at found
  cases found
  rw [handed.fetched] at fetched
  cases fetched
  exact whole

/-- A piece is stored and counted in its turn exactly when there is room for it and the counters are clean. -/
theorem Progress.delivers_handed (progress : Progress uc handled state) (delegates : kind.isDelegates = true)
    (handed : Delegation.Handed kind pn streamId off len fin state
      (Delegation.turn kind state (pn, .streamHeader streamId off len fin)) (.ok ()) streamFc streamUc payload)
    (among : 0 < len → handled streamId) :
    state.Delivers kind (pn, .streamHeader streamId off len fin) ↔
      Admits (state.uc.sendOf streamId streamFc.isLocal).cursors (off, len, fin) ∧
        McAck.CleanCall state.mcAck (streamId, off, len) ∧
        ∀ rfc, state.uc.server = some rfc → McAck.CleanCall rfc.mcAck (streamId, off, len) := by
  rcases Nat.eq_zero_or_pos len with none_ | some_
  · -- Nothing is asked of a piece without bytes.
    exact ⟨fun _ => ⟨Or.inl none_, Or.inl none_, fun _ _ => Or.inl none_⟩,
      fun _ positive => absurd positive (by omega)⟩
  · have inside := among some_
    obtain ⟨open_, -⟩ := handed.skips
    have formed : streamUc.send.Formed := by
      rw [handed.send]
      exact progress.sendOf inside _
    have stores : state.Stores streamId off len fin ↔
        Admits (state.uc.sendOf streamId streamFc.isLocal).cursors (off, len, fin) := by
      rw [handed.stores_iff, ← handed.send, ← handed.length]
      exact formed.stores_iff (by rw [handed.length]; exact some_)
    have source := handed.mcAck
    rw [if_pos delegates] at source
    have sourceOnce : McAck.CountsOnce state.mcAck
        (Delegation.turn kind state (pn, .streamHeader streamId off len fin)).mcAck (streamId, off, len) ↔
        McAck.CleanCall state.mcAck (streamId, off, len) := by
      rw [source]
      exact @McAck.countsOnce_iff state.mcAck (streamId, off, len) fun _ => progress.sourceSegments streamId inside
    have unicastOnce : ∀ rfc, state.uc.server = some rfc →
        (McAck.CountsOnce rfc.mcAck (rfc.mcAck.delegatePiece (streamId, off, len)) (streamId, off, len) ↔
          McAck.CleanCall rfc.mcAck (streamId, off, len)) := fun rfc present =>
      McAck.countsOnce_iff fun _ => progress.unicastSegments rfc present streamId inside
    constructor
    · intro delivers
      obtain ⟨stored, once, all⟩ := delivers some_ open_
      refine ⟨stores.mp stored, sourceOnce.mp once, fun rfc present => (unicastOnce rfc present).mp ?_⟩
      obtain ⟨rfc', there, once'⟩ := all rfc present
      rw [(handed.counts delegates).1 len (handed.stores_iff.mp stored), present] at there
      cases there
      exact once'
    · rintro ⟨admits, clean, cleanUnicast⟩ - -
      have stored := stores.mpr admits
      refine ⟨stored, sourceOnce.mpr clean, fun rfc present => ?_⟩
      rw [(handed.counts delegates).1 len (handed.stores_iff.mp stored), present]
      exact ⟨_, rfl, (unicastOnce rfc present).mpr (cleanUnicast rfc present)⟩

/-- The piece that is handed over leaves the cursors of its stream behind it. -/
theorem Progress.cursors_handed (progress : Progress uc handled state)
    (handed : Delegation.Handed kind pn streamId off len fin state after (.ok ()) streamFc streamUc payload)
    (inside : handled streamId)
    (admits : Admits (state.uc.sendOf streamId streamFc.isLocal).cursors (off, len, fin)) :
    RotSendBuf.Takes streamUc.send (streamUc.send.writeAtOffset payload off fin).2 payload off fin ∧
      (after.uc.sendOf streamId streamFc.isLocal).cursors =
        stepCursors (state.uc.sendOf streamId streamFc.isLocal).cursors (off, len, fin) := by
  have formed : streamUc.send.Formed := by
    rw [handed.send]
    exact progress.sendOf inside _
  rw [← handed.send, ← handed.length] at admits
  have takes := formed.writeAtOffset admits handed.refused
  refine ⟨takes, ?_⟩
  rw [Unicast.sendOf, handed.get, if_pos rfl, ← handed.send, ← handed.length]
  exact takes.cursors

/-- A turn for a piece that fits and is counted cleanly keeps what holds of the streams. -/
theorem Progress.handed (progress : Progress uc handled state) (delegates : kind.isDelegates = true)
    (handed : Delegation.Handed kind pn streamId off len fin state after (.ok ()) streamFc streamUc payload)
    (among : 0 < len → handled streamId)
    (admits : Admits (state.uc.sendOf streamId streamFc.isLocal).cursors (off, len, fin))
    (clean : McAck.CleanCall state.mcAck (streamId, off, len))
    (cleanUnicast : ∀ rfc, state.uc.server = some rfc → McAck.CleanCall rfc.mcAck (streamId, off, len)) :
    Progress uc handled after := by
  have source := handed.mcAck
  rw [if_pos delegates] at source
  have get := handed.get
  refine ⟨fun probe => (handed.skips.2 probe).trans (progress.skips probe), ?_, ?_, ?_, ?_⟩
  · intro probe inside stream found
    rw [get] at found
    split at found
    · rename_i same
      subst same
      cases found
      exact (progress.cursors_handed handed inside admits).1.formed
    · exact progress.formed probe inside stream found
  · intro probe inside
    rw [source]
    exact (@McAck.delegatePiece_clean state.mcAck (streamId, off, len)
      (fun some_ => progress.sourceSegments streamId (among some_)) clean).1 probe
      (progress.sourceSegments probe inside)
  · -- A piece that came too late is not counted by the unicast connection, and changes nothing there.
    intro rfc present probe inside
    rcases outcome : (streamUc.send.writeAtOffset payload off fin).1 with error | count
    · rw [(handed.counts delegates).2 error outcome] at present
      exact progress.unicastSegments rfc present probe inside
    · rw [(handed.counts delegates).1 count outcome, Option.map_eq_some_iff] at present
      obtain ⟨before, there, rfl⟩ := present
      exact (@McAck.delegatePiece_clean before.mcAck (streamId, off, len)
        (fun some_ => progress.unicastSegments before there streamId (among some_)) (cleanUnicast before there)).1
        probe (progress.unicastSegments before there probe inside)
  · rw [handed.pieces]
    intro piece member inside
    -- A piece handed over before still waits, since the write only adds to the buffer.
    rcases List.mem_append.mp member with old | new
    · obtain ⟨stream, found, waits⟩ := progress.queued piece old inside
      by_cases same : piece.streamId = streamId
      · rw [same] at found inside
        have this := handed.present found
        subst this
        refine ⟨_, by rw [get, if_pos same], fun i byte there => ?_⟩
        exact (progress.cursors_handed handed inside admits).1.keeps _ byte (waits i byte there)
      · exact ⟨stream, by rw [get, if_neg same]; exact found, waits⟩
    · rw [List.mem_singleton] at new
      subst new
      exact ⟨_, by rw [get, if_pos rfl], (progress.cursors_handed handed inside admits).1.queues⟩

/-- The unicast connection counts a piece that fits, if it has bytes. -/
theorem Progress.server_handed (progress : Progress uc handled state) (delegates : kind.isDelegates = true)
    (handed : Delegation.Handed kind pn streamId off len fin state after (.ok ()) streamFc streamUc payload)
    (among : 0 < len → handled streamId)
    (admits : Admits (state.uc.sendOf streamId streamFc.isLocal).cursors (off, len, fin)) :
    after.uc.server.map RFcUcPath.mcAck =
      state.uc.server.map fun rfc => rfc.mcAck.delegatePiece (streamId, off, len) := by
  rcases outcome : (streamUc.send.writeAtOffset payload off fin).1 with error | count
  · -- A piece that came too late has no bytes.
    have none_ : len = 0 := Nat.eq_zero_of_not_pos fun some_ => by
      rw [← handed.send, ← handed.length] at admits
      have formed : streamUc.send.Formed := by
        rw [handed.send]
        exact progress.sendOf (among some_) _
      rw [(formed.stores_iff (by rw [handed.length]; exact some_)).mpr admits] at outcome
      cases outcome
    rw [(handed.counts delegates).2 error outcome]
    have nothing : ∀ mcAck : McAck, mcAck.delegatePiece (streamId, off, len) = mcAck := fun mcAck =>
      (@McAck.delegatePiece_nothing mcAck (streamId, off, len) none_).1
    simp only [nothing]
  · rw [(handed.counts delegates).1 count outcome, Option.map_map]
    rfl

variable {rest : List (Nat × SentFrame)}

theorem piecesOf_cons_self :
    piecesOf streamId ((pn, .streamHeader streamId off len fin) :: rest) =
      (off, len, fin) :: piecesOf streamId rest := by
  simp [piecesOf]

theorem piecesOf_cons_other {probe : Nat} (different : probe ≠ streamId) :
    piecesOf probe ((pn, .streamHeader streamId off len fin) :: rest) = piecesOf probe rest := by
  simp [piecesOf, Ne.symm different]

theorem Unicast.calls_cons (open_ : uc.skips streamId = false) :
    uc.calls ((pn, .streamHeader streamId off len fin) :: rest) = (streamId, off, len) :: uc.calls rest := by
  simp [Unicast.calls, open_]

/-- The first piece that is handed over fits, and is counted cleanly. -/
theorem Delegation.Fitting.first
    (fitting : Delegation.Fitting uc state ((pn, .streamHeader streamId off len fin) :: rest))
    (found : state.streams.get streamId = some streamFc) (open_ : uc.skips streamId = false) :
    Admits (state.uc.sendOf streamId streamFc.isLocal).cursors (off, len, fin) ∧
      McAck.CleanCall state.mcAck (streamId, off, len) ∧
      ∀ rfc, state.uc.server = some rfc → McAck.CleanCall rfc.mcAck (streamId, off, len) := by
  obtain ⟨fits, source, unicast⟩ := fitting
  have here := fits streamId streamFc found open_
  rw [piecesOf_cons_self] at here
  rw [Unicast.calls_cons open_] at source unicast
  exact ⟨here.1, source.1, fun rfc present => (unicast rfc present).1⟩

/-- Behind a piece that fits and is counted cleanly, the turns to come need what they needed before. -/
theorem Progress.fitting_handed (progress : Progress uc handled state) (delegates : kind.isDelegates = true)
    (handed : Delegation.Handed kind pn streamId off len fin state after (.ok ()) streamFc streamUc payload)
    (among : 0 < len → handled streamId)
    (later : ¬ handled streamId → ∀ piece ∈ piecesOf streamId rest, piece.2.1 = 0)
    (admits : Admits (state.uc.sendOf streamId streamFc.isLocal).cursors (off, len, fin))
    (clean : McAck.CleanCall state.mcAck (streamId, off, len))
    (cleanUnicast : ∀ rfc, state.uc.server = some rfc → McAck.CleanCall rfc.mcAck (streamId, off, len)) :
    Delegation.Fitting uc state ((pn, .streamHeader streamId off len fin) :: rest) ↔
      Delegation.Fitting uc after rest := by
  have open_ : uc.skips streamId = false := by rw [← progress.skips]; exact handed.skips.1
  have source := handed.mcAck
  rw [if_pos delegates] at source
  have server := progress.server_handed delegates handed among admits
  -- The pieces of a stream that no bytes are handed over for always fit.
  have fits : Fits (state.uc.sendOf streamId streamFc.isLocal).cursors ((off, len, fin) :: piecesOf streamId rest) ↔
      Fits (after.uc.sendOf streamId streamFc.isLocal).cursors (piecesOf streamId rest) := by
    by_cases inside : handled streamId
    · rw [(progress.cursors_handed handed inside admits).2]
      exact and_iff_right admits
    · have none_ : len = 0 := Nat.eq_zero_of_not_pos fun some_ => inside (among some_)
      refine iff_of_true (fits_of_empty (fun piece member => ?_) _) (fits_of_empty (later inside) _)
      rcases List.mem_cons.mp member with same | other
      · rw [same]
        exact none_
      · exact later inside piece other
  constructor
  · rintro ⟨all, counts, unicast⟩
    rw [Unicast.calls_cons open_] at counts unicast
    refine ⟨fun probe streamFc' found open' => ?_, ?_, fun rfc present => ?_⟩
    · rw [handed.streams, StreamMap.get_set] at found
      by_cases same : probe = streamId
      · rw [if_pos same] at found
        cases found
        rw [same]
        have here := all streamId streamFc handed.found open_
        rw [piecesOf_cons_self] at here
        exact fits.mp here
      · rw [if_neg same] at found
        rw [handed.sendOf_other same, ← piecesOf_cons_other same]
        exact all probe streamFc' found open'
    · rw [source]
      exact counts.2
    · have there : after.uc.server.map RFcUcPath.mcAck = some rfc.mcAck := by rw [present]; rfl
      rw [server, Option.map_eq_some_iff] at there
      obtain ⟨before, known, same⟩ := there
      rw [← same]
      exact (unicast before known).2
  · rintro ⟨all, counts, unicast⟩
    rw [source] at counts
    refine ⟨fun probe streamFc' found open' => ?_, ?_, fun rfc present => ?_⟩
    · by_cases same : probe = streamId
      · subst same
        rw [handed.found] at found
        cases found
        rw [piecesOf_cons_self]
        refine fits.mpr (all probe { streamFc with send := (fetch streamFc.send off len).2 } ?_ open_)
        rw [handed.streams, StreamMap.get_set, if_pos rfl]
      · rw [piecesOf_cons_other same, ← handed.sendOf_other same]
        refine all probe streamFc' ?_ open'
        rw [handed.streams, StreamMap.get_set, if_neg same]
        exact found
    · rw [Unicast.calls_cons open_]
      exact ⟨clean, counts⟩
    · rw [Unicast.calls_cons open_]
      refine ⟨cleanUnicast rfc present, ?_⟩
      rw [present] at server
      obtain ⟨rfc', known, same⟩ := Option.map_eq_some_iff.mp server
      have counted : rfc'.mcAck = rfc.mcAck.delegatePiece (streamId, off, len) := same
      rw [← counted]
      exact unicast rfc' known

end Handed

section Turns

variable {kind : FcUnicastRetransmission} {uc : Unicast} {handled : Nat → Prop}

/-- A turn that passes its stream over leaves the rest with what it needs. -/
theorem Progress.fitting_passed {pn streamId off len : Nat} {fin : Bool} {state : Delegation}
    {rest : List (Nat × SentFrame)} (passed : uc.skips streamId = true) :
    Delegation.Fitting uc state ((pn, .streamHeader streamId off len fin) :: rest) ↔
      Delegation.Fitting uc { state with nbLostMcStreamFrames := state.nbLostMcStreamFrames + 1 } rest := by
  have calls : uc.calls ((pn, .streamHeader streamId off len fin) :: rest) = uc.calls rest := by
    simp [Unicast.calls, passed]
  have pieces : ∀ probe, uc.skips probe = false →
      piecesOf probe ((pn, .streamHeader streamId off len fin) :: rest) = piecesOf probe rest :=
    fun probe open_ => piecesOf_cons_other (by rintro rfl; rw [passed] at open_; cases open_)
  constructor
  · rintro ⟨fits, source, unicast⟩
    rw [calls] at source unicast
    exact ⟨fun probe streamFc found open_ => by rw [← pieces probe open_]; exact fits probe streamFc found open_,
      source, unicast⟩
  · rintro ⟨fits, source, unicast⟩
    exact ⟨fun probe streamFc found open_ => by rw [pieces probe open_]; exact fits probe streamFc found open_,
      by rw [calls]; exact source, by rw [calls]; exact unicast⟩

/--
Turns that end well store and count every piece exactly when the pieces fit and the counters are clean.

What holds of the streams that bytes are handed over for is kept by them.
-/
theorem Progress.delivers_iff (delegates : kind.isDelegates = true) (turns : List (Nat × SentFrame)) :
    ∀ {state : Delegation}, Progress uc handled state → (∀ streamId, uc.Handles turns streamId → handled streamId) →
      Runs.Along (Delegation.turn kind)
        (fun state lost => (state.delegateFrame kind lost.1 lost.2).1 = .ok ()) state turns →
      (Runs.Along (Delegation.turn kind) (fun state lost => state.Delivers kind lost) state turns ↔
        Delegation.Fitting uc state turns) ∧
      (Delegation.Fitting uc state turns → Progress uc handled (Runs.run (Delegation.turn kind) state turns) ∧
        (Runs.run (Delegation.turn kind) state turns).uc.server.map RFcUcPath.mcAck =
          state.uc.server.map fun rfc => Runs.run McAck.delegatePiece rfc.mcAck (uc.calls turns)) := by
  -- Induction on the turns; each either passes its stream over or hands a piece over.
  induction turns with
  | nil =>
    exact fun progress _ _ => ⟨iff_of_true trivial ⟨fun _ _ _ _ => trivial, trivial, fun _ _ => trivial⟩,
      fun _ => ⟨progress, rfl⟩⟩
  | cons lost rest ih =>
    intro state progress covers along
    rcases lost with ⟨pn, frame⟩
    have others : ∀ streamId, uc.Handles rest streamId → handled streamId := by
      rintro streamId ⟨pn, off, len, fin, member, some_, open_⟩
      exact covers streamId ⟨pn, off, len, fin, List.mem_cons_of_mem _ member, some_, open_⟩
    cases frame with
    | other =>
      obtain ⟨same, kept⟩ := ih progress others along.2
      have shorter : Delegation.Fitting uc state ((pn, .other) :: rest) ↔ Delegation.Fitting uc state rest :=
        ⟨fun ⟨fits, source, unicast⟩ => ⟨fits, source, unicast⟩, fun ⟨fits, source, unicast⟩ => ⟨fits, source, unicast⟩⟩
      exact ⟨(and_iff_right trivial).trans (same.trans shorter.symm), fun fitting => kept (shorter.mp fitting)⟩
    | streamHeader streamId off len fin =>
      rcases Delegation.turn_ok along.1 with ⟨passed, turned⟩ | ⟨streamFc, streamUc, payload, open_, handed⟩
      · have kept : Progress uc handled (Delegation.turn kind state (pn, .streamHeader streamId off len fin)) := by
          rw [turned]
          exact ⟨progress.skips, progress.formed, progress.sourceSegments, progress.unicastSegments, progress.queued⟩
        obtain ⟨same, final⟩ := ih kept others along.2
        have nothing : state.Delivers kind (pn, .streamHeader streamId off len fin) := fun _ open_ => by
          rw [passed] at open_
          cases open_
        have shorter := @Progress.fitting_passed uc pn streamId off len fin state rest
          (by rw [← progress.skips]; exact passed)
        rw [← turned] at shorter
        refine ⟨(and_iff_right nothing).trans (same.trans shorter.symm), fun fitting => ?_⟩
        obtain ⟨done, server⟩ := final (shorter.mp fitting)
        refine ⟨done, ?_⟩
        rw [Runs.run_cons, server, turned]
        simp [Unicast.calls, ← progress.skips, passed]
      · have unskipped : uc.skips streamId = false := by rw [← progress.skips]; exact open_
        have among : 0 < len → handled streamId := fun some_ =>
          covers streamId ⟨pn, off, len, fin, List.mem_cons_self, some_, unskipped⟩
        have later : ¬ handled streamId → ∀ piece ∈ piecesOf streamId rest, piece.2.1 = 0 := by
          intro outside piece member
          refine Nat.eq_zero_of_not_pos fun some_ => outside (others streamId ?_)
          obtain ⟨⟨pn', frame⟩, there, gives⟩ := List.mem_filterMap.mp member
          cases frame with
          | other => cases gives
          | streamHeader id off' len' fin' =>
            by_cases same : id = streamId
            · simp only [if_pos same, Option.some.injEq] at gives
              subst gives
              subst same
              exact ⟨pn', off', len', fin', there, some_, unskipped⟩
            · simp [if_neg same] at gives
        have first := progress.delivers_handed delegates handed among
        have next : Delegation.Fitting uc state ((pn, .streamHeader streamId off len fin) :: rest) →
            Progress uc handled (Delegation.turn kind state (pn, .streamHeader streamId off len fin)) ∧
              Delegation.Fitting uc (Delegation.turn kind state (pn, .streamHeader streamId off len fin)) rest := by
          intro fitting
          obtain ⟨admits, clean, cleanUnicast⟩ := fitting.first handed.found unskipped
          exact ⟨progress.handed delegates handed among admits clean cleanUnicast,
            (progress.fitting_handed delegates handed among later admits clean cleanUnicast).mp fitting⟩
        refine ⟨⟨fun delivers => ?_, fun fitting => ?_⟩, fun fitting => ?_⟩
        · obtain ⟨admits, clean, cleanUnicast⟩ := first.mp delivers.1
          have kept := progress.handed delegates handed among admits clean cleanUnicast
          exact (progress.fitting_handed delegates handed among later admits clean cleanUnicast).mpr
            ((ih kept others along.2).1.mp delivers.2)
        · obtain ⟨kept, rest_⟩ := next fitting
          exact ⟨first.mpr (fitting.first handed.found unskipped), (ih kept others along.2).1.mpr rest_⟩
        · obtain ⟨kept, rest_⟩ := next fitting
          obtain ⟨done, server⟩ := (ih kept others along.2).2 rest_
          have here := progress.server_handed delegates handed among (fitting.first handed.found unskipped).1
          refine ⟨done, ?_⟩
          rw [Runs.run_cons, server, Unicast.calls_cons unskipped]
          have counted := congrArg (Option.map fun mcAck => Runs.run McAck.delegatePiece mcAck (uc.calls rest)) here
          rw [Option.map_map, Option.map_map] at counted
          exact counted

end Turns

/-- No turn forgets a piece. -/
theorem Delegation.turn_pieces (kind : FcUnicastRetransmission) (state : Delegation) (lost : Nat × SentFrame) :
    ∀ piece ∈ state.pieces, piece ∈ (Delegation.turn kind state lost).pieces := by
  rcases lost with ⟨pn, frame⟩
  cases frame with
  | other => exact fun piece member => member
  | streamHeader streamId off len fin =>
    intro piece member
    unfold Delegation.turn
    rcases Delegation.delegateFrame_cases kind pn streamId off len fin state with ⟨result, ran, -⟩ |
      ⟨streamFc, streamUc, payload, handed⟩
    · rw [ran]
      exact member
    · rw [handed.pieces]
      exact List.mem_append_left _ member

/-- Turns that end well hand a piece over for every frame that is not passed over. -/
theorem Delegation.run_pieces {kind : FcUnicastRetransmission} {uc : Unicast} (turns : List (Nat × SentFrame)) :
    ∀ {state : Delegation}, (∀ streamId, state.uc.skips streamId = uc.skips streamId) →
      Runs.Along (turn kind) (fun state lost => (state.delegateFrame kind lost.1 lost.2).1 = .ok ())
        state turns →
      (∀ piece ∈ state.pieces, piece ∈ (Runs.run (turn kind) state turns).pieces) ∧
        ∀ pn streamId off len fin, (pn, .streamHeader streamId off len fin) ∈ turns →
          uc.skips streamId = false →
          ∃ payload, payload.length = len ∧
            ⟨streamId, off, payload, pn, fin⟩ ∈ (Runs.run (turn kind) state turns).pieces := by
  -- The streams that are passed over stay the same, so each frame can be judged by the start.
  induction turns with
  | nil =>
    exact fun _ _ => ⟨fun piece member => member, fun _ _ _ _ _ member => by simp at member⟩
  | cons lost rest ih =>
    intro state skips along
    obtain ⟨kept, found⟩ := @ih (turn kind state lost)
      (fun streamId => (delegateFrame_skips kind lost.1 state lost.2 streamId).trans (skips streamId)) along.2
    refine ⟨fun piece member => kept piece (turn_pieces kind state lost piece member), ?_⟩
    intro pn streamId off len fin member open_
    rcases List.mem_cons.mp member with same | later
    · -- The first turn hands its piece over, and no later one forgets it.
      subst same
      rcases turn_ok along.1 with ⟨passed, -⟩ | ⟨streamFc, streamUc, payload, -, handed⟩
      · rw [skips, open_] at passed
        cases passed
      · refine ⟨payload, handed.length, kept _ ?_⟩
        rw [handed.pieces]
        exact List.mem_append_right _ List.mem_cons_self
    · exact found pn streamId off len fin later open_

/-- The lost frames that a call of `delegate_streams` handles. -/
abbrev Source.lostFor (source : Source) (uc : Unicast) (kind : FcUnicastRetransmission) : List (Nat × SentFrame) :=
  lostFrames kind (Source.recvPn uc) source.packets

/-- What a call of `delegate_streams` needs to find for its pieces to be buffered and counted. -/
structure Delegable (source : Source) (uc : Unicast) (kind : FcUnicastRetransmission) : Prop where
  /-- The pieces of each stream fit its send buffers, one after the other. -/
  fits : ∀ streamId streamFc, source.streams.get streamId = some streamFc → uc.skips streamId = false →
    Fits (uc.sendOf streamId streamFc.isLocal).cursors (piecesOf streamId (source.lostFor uc kind))
  sourceCounts : Runs.Along McAck.delegatePiece McAck.CleanCall source.mcAck (uc.calls (source.lostFor uc kind))
  /-- The unicast connection counts the pieces cleanly. -/
  unicastCounts : ∀ rfc, uc.server = some rfc →
    Runs.Along McAck.delegatePiece McAck.CleanCall rfc.mcAck (uc.calls (source.lostFor uc kind))

/-- What holds of the streams that bytes are handed over for: their send buffers are well formed, and the aggregators at
both ends hold disjoint segments for them. -/
structure BothFormed (source : Source) (uc : Unicast) (handled : Nat → Prop) : Prop where
  /-- The send buffers of the unicast connection are well formed. -/
  sends : ∀ streamId, handled streamId → ∀ stream, uc.streams.get streamId = some stream → stream.send.Formed
  sourceSegments : ∀ streamId, handled streamId → Segments.Disjoint (source.mcAck.streamOf streamId)
  /-- The segments that the unicast connection counts are disjoint. -/
  unicastSegments : ∀ rfc, uc.server = some rfc → ∀ streamId, handled streamId →
    Segments.Disjoint (rfc.mcAck.streamOf streamId)

/-- Only pieces with bytes are counted, and those are of streams that bytes are handed over for. -/
theorem Unicast.handles_of_calls {uc : Unicast} {turns : List (Nat × SentFrame)} {call : Nat × Nat × Nat}
    (among : call ∈ uc.calls turns) (some_ : 0 < call.2.2) : uc.Handles turns call.1 := by
  obtain ⟨⟨pn, frame⟩, member, gives⟩ := List.mem_filterMap.mp among
  cases frame with
  | other => cases gives
  | streamHeader streamId off len fin =>
    cases open_ : uc.skips streamId with
    | true => simp [open_] at gives
    | false =>
      simp only [open_, Bool.false_eq_true, if_false, Option.some.injEq] at gives
      subst gives
      exact ⟨pn, off, len, fin, member, some_, open_⟩

namespace Source

/--
In a call that delegates lost frames and returns without an error, every piece with bytes is stored as a whole in its
turn and counted once at both ends, exactly when the pieces fit the send buffers and the counters are clean.

The pieces are then buffered at their offsets after the call, and both ends counted each of them once.
-/
theorem delegated_pieces_buffered (source : Source) (uc : Unicast) (sure : Bool)
    (formed : BothFormed source uc (uc.Handles (source.lostFor uc (.delegates sure))))
    (ended : (source.delegateStreams uc (.delegates sure)).result.isOk = true) :
    let lost := source.lostFor uc (.delegates sure)
    let after := source.delegateStreams uc (.delegates sure)
    (Runs.Along (Delegation.turn (.delegates sure)) (fun state turn => state.Delivers (.delegates sure) turn)
        (source.startLoop uc (.delegates sure)).state lost ↔ Delegable source uc (.delegates sure)) ∧
    (Delegable source uc (.delegates sure) →
      (∀ pn streamId off len fin, (pn, .streamHeader streamId off len fin) ∈ lost → 0 < len →
        uc.skips streamId = false →
        ∃ payload stream, payload.length = len ∧ ⟨streamId, off, payload, pn, fin⟩ ∈ after.pieces ∧
          after.uc.streams.get streamId = some stream ∧
          ∀ i byte, payload[i]? = some byte → stream.send.Queues (off + i) byte) ∧
      (∀ streamId x, after.source.mcAck.counter streamId x =
        source.mcAck.counter streamId x + McAck.coveringOf (uc.calls lost) streamId x) ∧
      ∀ rfc, uc.server = some rfc → ∃ rfc', after.uc.server = some rfc' ∧ ∀ streamId x,
        rfc'.mcAck.counter streamId x =
          rfc.mcAck.counter streamId x + McAck.coveringOf (uc.calls lost) streamId x) := by
  intro lost after
  -- The call ended well, so its loop is a run of turns, of which progress and counters are known.
  obtain ⟨value, well⟩ : ∃ value, after.result = .ok value := by
    cases result : after.result with
    | error error => simp [after, result, Except.isOk, Except.toBool] at ended
    | ok value => exact ⟨value, rfl⟩
  obtain ⟨looped, -, streams, server⟩ := delegateStreams_ok well
  obtain ⟨left, pieces⟩ := delegateStreams_source source uc (.delegates sure)
  obtain ⟨final, along⟩ := Delegation.delegateTurns_ok _ looped
  have started : Progress uc (uc.Handles lost) (source.startLoop uc (.delegates sure)).state :=
    ⟨fun _ => rfl, formed.sends, formed.sourceSegments, formed.unicastSegments,
      fun piece member => by simp [startLoop] at member⟩
  obtain ⟨exactly, whole⟩ := started.delivers_iff rfl _ (fun _ handles => handles) along
  have same : Delegation.Fitting uc (source.startLoop uc (.delegates sure)).state lost ↔
      Delegable source uc (.delegates sure) :=
    ⟨fun ⟨fits, counts, unicast⟩ => ⟨fits, counts, unicast⟩, fun ⟨fits, counts, unicast⟩ => ⟨fits, counts, unicast⟩⟩
  refine ⟨exactly.trans same, fun delegable => ?_⟩
  obtain ⟨progress, counted⟩ := whole (same.mpr delegable)
  obtain ⟨done, -, sourceCounts, all⟩ := @Delegation.delegateTurns_mcAck (.delegates sure) rfl uc lost _ started.skips
  rw [all looped] at sourceCounts
  have handed := (Delegation.run_pieces _ started.skips along).2
  rw [← final, ← delegated] at progress counted handed
  rw [← delegated] at sourceCounts
  refine ⟨?_, ?_, ?_⟩
  · intro pn streamId off len fin member some_ open_
    obtain ⟨payload, length, among⟩ := handed pn streamId off len fin member open_
    obtain ⟨stream, found, waits⟩ := progress.queued _ among ⟨pn, off, len, fin, member, some_, open_⟩
    exact ⟨payload, stream, length, by rw [pieces]; exact among, by rw [streams]; exact found, waits⟩
  · intro streamId x
    rw [left]
    show McAck.counter (source.delegated uc (.delegates sure)).mcAck streamId x = _
    rw [sourceCounts]
    exact (McAck.counter_delegatePieces _ source.mcAck
      (fun call among some_ => formed.sourceSegments _ (Unicast.handles_of_calls among some_))
      delegable.sourceCounts streamId).2 x
  · intro rfc present
    have unicastCounts : after.uc.server.map RFcUcPath.mcAck =
        some (Runs.run McAck.delegatePiece rfc.mcAck (uc.calls lost)) := by
      rw [server, counted]
      show uc.server.map _ = _
      rw [present]
      rfl
    obtain ⟨rfc', found, equal⟩ := Option.map_eq_some_iff.mp unicastCounts
    refine ⟨rfc', found, fun streamId x => ?_⟩
    rw [equal]
    exact (McAck.counter_delegatePieces _ rfc.mcAck
      (fun call among some_ => formed.unicastSegments rfc present _ (Unicast.handles_of_calls among some_))
      (delegable.unicastCounts rfc present) streamId).2 x

/-- A source that wrote eight bytes on a stream, sent the first four in a packet, and lost it. -/
def oneLoss : Source :=
  (Runs.run SourceRun.next (SourceRun.start 8 8 100 8 8)
    [.create 3 ⟨100, 100, 100⟩ ⟨100, 100, 100⟩ true true,
      .write 3 [97, 98, 99, 100, 101, 102, 103, 104] false, .send 0 [(3, 4)], .lose 0]).source

/-- A unicast connection of a server without streams, whose peer allows some bytes on each of them. -/
def freshUnicast (limit : Nat) : Unicast where
  streams := { StreamMap.new 8 8 100 with peerMaxStreamsBidi := 8, peerMaxStreamsUni := 8 }
  localParams := ⟨100, 100, 100⟩
  peerParams := ⟨limit, limit, limit⟩
  isServer := true
  listens := true
  server := some ⟨RangeSet.default, McAck.new⟩

theorem bothFormed_fresh (limit : Nat) (handled : Nat → Prop) : BothFormed oneLoss (freshUnicast limit) handled :=
  ⟨fun streamId _ stream found => by simp [freshUnicast, StreamMap.get, StreamMap.new] at found,
    fun _ _ => Segments.disjoint_empty,
    fun rfc present streamId _ => by cases present; exact Segments.disjoint_empty⟩

theorem delegable_oneLoss : Delegable oneLoss (freshUnicast 100) (.delegates true) := by
  -- The one stream of the source is checked, and there is no other.
  refine ⟨fun streamId streamFc found open_ => ?_, by decide, fun rfc present => ?_⟩
  · have all : ∀ entry ∈ oneLoss.streams.streams.entries, (freshUnicast 100).skips entry.1 = false →
        Fits ((freshUnicast 100).sendOf entry.1 entry.2.isLocal).cursors
          (piecesOf entry.1 (oneLoss.lostFor (freshUnicast 100) (.delegates true))) := by
      decide
    exact all (streamId, streamFc) (OrdMap.find?_eq_some_iff.mp found) open_
  · cases present
    decide

/-- The one lost piece is buffered and counted. -/
theorem delegated_pieces_buffered_oneLoss :
    (∃ payload stream, payload.length = 4 ∧
      ⟨3, 0, payload, 0, false⟩ ∈ (oneLoss.delegateStreams (freshUnicast 100) (.delegates true)).pieces ∧
      (oneLoss.delegateStreams (freshUnicast 100) (.delegates true)).uc.streams.get 3 = some stream ∧
      ∀ i byte, payload[i]? = some byte → stream.send.Queues (0 + i) byte) ∧
    (oneLoss.delegateStreams (freshUnicast 100) (.delegates true)).source.mcAck.counter 3 2 = 1 := by
  obtain ⟨-, delivered⟩ := delegated_pieces_buffered oneLoss (freshUnicast 100) true
    (bothFormed_fresh 100 _) (by decide)
  obtain ⟨buffered, counted, -⟩ := delivered delegable_oneLoss
  refine ⟨buffered 0 3 0 4 false (by decide) (by decide) (by decide), ?_⟩
  rw [counted]
  decide

/-- A piece that goes beyond the limit of the peer is buffered in part only, and counted as a whole. -/
theorem limited_piece_counted :
    (oneLoss.delegateStreams (freshUnicast 2) (.delegates true)).result.isOk = true ∧
      (0, .streamHeader 3 0 4 false) ∈
        lostFrames (.delegates true) (recvPn (freshUnicast 2)) oneLoss.packets ∧
      (freshUnicast 2).streams.isCollected 3 = false ∧
      (∃ stream, (oneLoss.delegateStreams (freshUnicast 2) (.delegates true)).uc.streams.get 3 = some stream ∧
        ¬ ∃ byte, stream.send.Queues 2 byte) ∧
      (oneLoss.delegateStreams (freshUnicast 2) (.delegates true)).source.mcAck.counter 3 2 = 1 ∧
      (oneLoss.delegateStreams (freshUnicast 2) (.delegates true)).uc.server.map
        (fun rfc => rfc.mcAck.counter 3 2) = some 1 := by
  refine ⟨by decide, by decide, by decide, ?_, by decide, by decide⟩
  -- The one chunk in the buffer ends before the offset, and there is no rotation buffer.
  have short : ∀ stream ∈ (oneLoss.delegateStreams (freshUnicast 2) (.delegates true)).uc.streams.get 3,
      (∀ buf ∈ stream.send.main.data, ¬ 2 < buf.off + buf.len) ∧ stream.send.rotation = none := by
    decide
  have there : ((oneLoss.delegateStreams (freshUnicast 2) (.delegates true)).uc.streams.get 3).isSome = true := by
    decide
  obtain ⟨stream, found⟩ := Option.isSome_iff_exists.mp there
  obtain ⟨ends, none_⟩ := short stream found
  refine ⟨stream, found, ?_⟩
  intro either
  rcases either with ⟨byte, ⟨buf, member, -, high, -⟩ | ⟨inner, present, -⟩⟩
  · exact ends buf (List.mem_of_mem_drop member) high
  · rw [none_] at present
    cases present

end Source

end Flexicast
