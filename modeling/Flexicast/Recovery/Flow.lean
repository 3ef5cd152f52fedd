import Flexicast.Recovery.Source

/-! The flow as a whole: the source, its rounds of delegation, and what the receivers report back. -/

namespace Flexicast

/-- The ranges of each stream, each with its offset and length. -/
def streamPieces (ranges : List (Nat × RangeSet)) : List (Nat × Nat × Nat) :=
  ranges.flatMap fun entry => entry.2.iter.map fun range => (entry.1, range.1, range.2 - range.1)

/-- The aggregator after a receiver acknowledged some pieces. -/
def McAck.ackPieces : List (Nat × Nat × Nat) → McAck → Option McAck
  | [], mcAck => some mcAck
  | piece :: rest, mcAck =>
    match mcAck.onStreamAckReceived piece.1 piece.2.1 piece.2.2 with
    | none => none
    | some mcAck => ackPieces rest mcAck

namespace SourceRun

/--
One round of delegation over the unicast connections.

Only the last call is for sure, and the first error ends the round.
-/
def sourceDelegatesStreamsDirect : List Unicast → SourceRun → SourceRun
  | [], run => run
  | [uc], run => run.next (.delegate uc (.delegates true))
  | uc :: second :: rest, run =>
    if (run.source.rfcDelegateStreams uc (.delegates false)).result.isOk then
      sourceDelegatesStreamsDirect (second :: rest) (run.next (.delegate uc (.delegates false)))
    else run.next (.delegate uc (.delegates false))

/-- The source learns that all receivers have a piece. -/
def releasePiece (run : SourceRun) (piece : Nat × Nat × Nat) : SourceRun :=
  run.next (.streamAck piece.1 piece.2.1 piece.2.2)

/-- The part of `uc_to_fc_control` for the pieces of streams that a receiver acknowledged. -/
def ucToMcControl (run : SourceRun) (acked : List (Nat × RangeSet)) : SourceRun :=
  match run.source.mcAck.ackPieces (streamPieces acked) with
  | none => run
  | some mcAck =>
    let (released, mcAck) := mcAck.ackedStreamOff
    -- What no receiver is missing any more is given to the source.
    (streamPieces (released.getD [])).foldl releasePiece
      { run with source := { run.source with mcAck := mcAck } }

end SourceRun

/-- The STREAM frames that lost packets had before they were marked as delegated. -/
def newlyMarked (before after : List Sent) : List SentFrame :=
  (before.zip after).flatMap fun pair =>
    if pair.1.isLost && !pair.1.isFcDelegated && pair.2.isFcDelegated then pair.1.frames else []

/-- What happens to a flow. -/
inductive FlowEvent where
  /-- The source takes a step other than a delegation. -/
  | source (event : SourceEvent)
  /-- The source delegates its lost packets to all unicast connections. -/
  | round (ucs : List Unicast)
  /-- A receiver acknowledged pieces that were delegated to its unicast connection. -/
  | feedback (acked : List (Nat × RangeSet))

/-- A flow, with the frames that packets had when they were marked as delegated. -/
structure Flow where
  run : SourceRun
  marked : List SentFrame

namespace Flow

/-- A flow before its first stream. -/
def start (maxStreamsBidi maxStreamsUni maxStreamWindow peerMaxBidi peerMaxUni : Nat) : Flow :=
  ⟨SourceRun.start maxStreamsBidi maxStreamsUni maxStreamWindow peerMaxBidi peerMaxUni, []⟩

/-- One step of the flow. -/
def next (flow : Flow) : FlowEvent → Flow
  | .source event => { flow with run := flow.run.next event }
  | .round ucs =>
    let run := flow.run.sourceDelegatesStreamsDirect ucs
    ⟨run, flow.marked ++ newlyMarked flow.run.source.packets run.source.packets⟩
  | .feedback acked => { flow with run := flow.run.ucToMcControl acked }

end Flow

/-- A step that counts pieces at the source or marks packets, which only rounds do. -/
def SourceEvent.delegates : SourceEvent → Bool
  | .delegate _ kind => kind.isDelegates
  | .gather kind => kind.isSure
  | _ => false

/-- Steps of the source are those that the receivers allow, and delegations come in rounds. -/
def Flow.Allowed (flow : Flow) : FlowEvent → Prop
  | .source event => flow.run.Allowed event ∧ event.delegates = false
  | _ => True

instance (flow : Flow) : (event : FlowEvent) → Decidable (flow.Allowed event)
  | .source event => inferInstanceAs (Decidable (flow.run.Allowed event ∧ event.delegates = false))
  | .round _ => isTrue trivial
  | .feedback _ => isTrue trivial

end Flexicast
