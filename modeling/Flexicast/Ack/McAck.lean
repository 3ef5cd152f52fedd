import Flexicast.Lib.Segments
import Flexicast.Lib.WorkQueue
import Flexicast.Ranges.RangeSet
import Mathlib.Algebra.Ring.Nat

/-! The acknowledgment aggregator `McAck` of `flexicast/ack.rs`. -/

namespace Flexicast

/--
Offsets of one stream that receivers must still acknowledge.

A segment maps its offset to its length and to the number of receivers that must acknowledge it.
-/
abbrev McStream := Segments

/-- Aggregates the acknowledgments of several receivers. -/
structure McAck where
  nbRecv : Nat
  /-- For each packet number, how many receivers acknowledged it. -/
  acked : OrdMap Nat
  /-- Fully acknowledged packets not yet handed to the source. -/
  ackedFull : Option RangeSet
  streamMap : OrdMap McStream
  /-- Fully acknowledged offsets of each stream. -/
  streamFull : OrdMap RangeSet
  /-- Lowest packet number potentially in the acked ranges. -/
  largestPn : Option Nat
  deriving DecidableEq

namespace McAck

/-- A new, empty structure. -/
def new : McAck where
  nbRecv := 0
  acked := OrdMap.empty
  ackedFull := none
  streamMap := OrdMap.empty
  streamFull := OrdMap.empty
  largestPn := none

/-- Returns the fully acknowledged packets and forgets them. -/
def fullAck (mcAck : McAck) : Option RangeSet × McAck :=
  (mcAck.ackedFull, { mcAck with ackedFull := none })

/--
Drops the counters below a packet number, or all of them.

No result means that the subtraction underflows, at packet number zero.
-/
def drainPackets (mcAck : McAck) : Option Nat → Option McAck
  | some 0 => none
  | some (largestPn + 1) =>
    some { mcAck with
      acked := mcAck.acked.splitOff (largestPn + 1), largestPn := some largestPn }
  | none =>
    -- The value of the last entry is kept here, and that value is a counter.
    some { mcAck with
      largestPn := mcAck.acked.entries.getLast?.map Prod.snd, acked := OrdMap.empty }

/-- The loop of `new_recv`, which stops at the first packet number that the receiver must see. -/
def creditBelow (firstPn : Nat) : List (Nat × Nat) → List (Nat × Nat)
  | [] => []
  | (pn, nb) :: rest =>
    if firstPn ≤ pn then (pn, nb) :: rest else (pn, nb + 1) :: creditBelow firstPn rest

/-- Crediting changes no packet number. -/
theorem creditBelow_keys (firstPn : Nat) (list : List (Nat × Nat)) :
    (creditBelow firstPn list).map Prod.fst = list.map Prod.fst := by
  -- The loop rewrites values up to the bound and leaves the rest.
  induction list with
  | nil => rfl
  | cons head rest ih =>
    rcases head with ⟨pn, nb⟩
    simp only [creditBelow]
    split
    · rfl
    · simp [ih]

/-- Adds a receiver, as if it had acknowledged every packet before `firstPn`. -/
def newRecv (mcAck : McAck) (firstPn : Nat) : McAck :=
  { mcAck with
    acked := ⟨creditBelow firstPn mcAck.acked.entries, by
      -- The order of the entries depends on their keys alone.
      have sorted := mcAck.acked.keys_sorted
      rw [OrdMap.keys, ← creditBelow_keys firstPn] at sorted
      exact List.pairwise_map.mp sorted⟩
    nbRecv := mcAck.nbRecv + 1 }

/-- Removes a receiver; no result means that the counter underflows. -/
def removeRecv (mcAck : McAck) : Option McAck :=
  if mcAck.nbRecv = 0 then none else some { mcAck with nbRecv := mcAck.nbRecv - 1 }

/-- One packet number of an acknowledgment: the inner loop body of `on_ack_received`. -/
def ackPacket (state : McAck × RangeSet) (recvPn : Nat) : McAck × RangeSet :=
  let newNb :=
    match state.1.acked.find? recvPn with
    | some nbRecv => nbRecv + 1
    | none => 1
  let acked := state.1.acked.insert recvPn newNb
  if newNb = state.1.nbRecv then
    ({ state.1 with acked := acked.erase recvPn }, state.2.insert recvPn (recvPn + 1))
  else ({ state.1 with acked := acked }, state.2)

/-- Adds an acknowledgment from a receiver, which may complete some packets. -/
def onAckReceived (mcAck : McAck) (ranges : RangeSet) : McAck :=
  let start := ({ mcAck with ackedFull := none }, mcAck.ackedFull.getD RangeSet.default)
  let (mcAck, fullyRange) := ranges.flatten.foldl ackPacket start
  if 0 < fullyRange.len then { mcAck with ackedFull := some fullyRange } else mcAck

/-- The body of the delegation loop for an existing segment that meets the new range. -/
def delegateOverlap (newOff newLen offset len nb : Nat) (stream : McStream) : McStream :=
  let startOverlap := max offset newOff
  let endOverlap := min (offset + len) (newOff + newLen)
  let stream := stream.erase offset
  -- The left part belongs to the existing segment, or to the new range.
  let stream :=
    if offset < newOff then stream.insert offset (newOff - offset, nb)
    else if newOff < offset then stream.insert newOff (offset - newOff, nb)
    else stream
  -- The right part is kept only for the existing segment.
  let stream :=
    if newOff + newLen < offset + len then
      stream.insert (newOff + newLen) (offset + len - (newOff + newLen), nb)
    else stream
  stream.insert startOverlap (endOverlap - startOverlap, nb + 1)

/-- What of a range lies behind a segment and is queued to be checked with later segments. -/
def remainder (off len offset segLen : Nat) : List (Nat × Nat) :=
  if offset + segLen < off + len then [(offset + segLen, off + len - (offset + segLen))] else []

/-- The `for` loop of `delegate` over a snapshot of the offsets. -/
def delegateOffsets (newOff newLen : Nat) : List Nat → McStream → Turn McStream (Nat × Nat)
  | [], stream => .next stream []
  | offset :: rest, stream =>
    if newOff + newLen ≤ offset then .next stream []
    else
      match stream.find? offset with
      | none => .panic
      | some (len, nb) =>
        if offset + len ≤ newOff then delegateOffsets newOff newLen rest stream
        else
          (delegateOffsets newOff newLen rest
            (delegateOverlap newOff newLen offset len nb stream)).queueFirst
              (remainder newOff newLen offset len)

/-- The closing of one turn of `delegate`: a range that met no segment is counted once. -/
def delegateFresh (newOff newLen : Nat) (stream : McStream) : McStream :=
  if newOff ≠ newLen ∧ stream.contains newOff = false then stream.insert newOff (newLen, 1)
  else stream

/-- One turn of the `while` loop of `delegate`. -/
def delegateTurn (range : Nat × Nat) (stream : McStream) : Turn McStream (Nat × Nat) :=
  (delegateOffsets range.1 range.2 stream.keys stream).finish (delegateFresh range.1 range.2)

/--
A bound on the turns of the two `while` loops.

Every queued range ends where the first one does and starts at a later offset,
and each turn queues at most one range for each offset below that end.
-/
def turns (off len : Nat) : Nat := (off + len + 1) ^ len

/-- Delegates a range of one stream, with the segments of the stream at hand. -/
def delegateStream (off len : Nat) (stream : McStream) : McStream :=
  (WorkQueue.drain delegateTurn (turns off len) [(off, len)] stream).getD stream

/-- The delegated segments of a stream. -/
def streamOf (mcAck : McAck) (streamId : Nat) : McStream :=
  (mcAck.streamMap.find? streamId).getD OrdMap.empty

/-- The fully acknowledged offsets of a stream. -/
def fullOf (mcAck : McAck) (streamId : Nat) : RangeSet :=
  (mcAck.streamFull.find? streamId).getD RangeSet.default

/-- Delegates a new portion of stream to a receiver. -/
def delegate (mcAck : McAck) (streamId off len : Nat) : McAck :=
  if len = 0 then mcAck
  else
    { mcAck with
      streamMap := mcAck.streamMap.insert streamId (delegateStream off len (mcAck.streamOf streamId)) }

/-- Marks a range of a stream as fully acknowledged. -/
def releaseRange (streamFull : OrdMap RangeSet) (streamId start stop : Nat) : OrdMap RangeSet :=
  streamFull.insert streamId
    (((streamFull.find? streamId).getD RangeSet.default).insert start stop)

/-- The body of the acknowledgment loop for a segment that meets the acknowledged range. -/
def ackOverlap (streamId ackOff ackLen offset len nb : Nat)
    (state : McStream × OrdMap RangeSet) : McStream × OrdMap RangeSet :=
  let startOverlap := max offset ackOff
  let endOverlap := min (offset + len) (ackOff + ackLen)
  let stream := state.1.erase offset
  let stream := if offset < ackOff then stream.insert offset (ackOff - offset, nb) else stream
  let stream :=
    if ackOff + ackLen < offset + len then
      stream.insert (ackOff + ackLen) (offset + len - (ackOff + ackLen), nb)
    else stream
  -- The middle part loses one receiver, and is released with its last one.
  if 0 < nb - 1 then (stream.insert startOverlap (endOverlap - startOverlap, nb - 1), state.2)
  else (stream.erase startOverlap, releaseRange state.2 streamId startOverlap endOverlap)

/-- The `for` loop of `on_stream_ack_received`, which may return from the whole function. -/
def ackOffsets (streamId ackOff ackLen : Nat) :
    List Nat → McStream × OrdMap RangeSet → Turn (McStream × OrdMap RangeSet) (Nat × Nat)
  | [], state => .next state []
  | offset :: rest, state =>
    if ackOff + ackLen ≤ offset then .halt state
    else
      match state.1.find? offset with
      | none => .panic
      | some (len, nb) =>
        if offset + len ≤ ackOff then ackOffsets streamId ackOff ackLen rest state
        else
          (ackOffsets streamId ackOff ackLen rest
            (ackOverlap streamId ackOff ackLen offset len nb state)).queueFirst
              (remainder ackOff ackLen offset len)

/-- One turn of the `while` loop of `on_stream_ack_received`. -/
def ackTurn (streamId : Nat) (range : Nat × Nat) (state : McStream × OrdMap RangeSet) :
    Turn (McStream × OrdMap RangeSet) (Nat × Nat) :=
  ackOffsets streamId range.1 range.2 state.1.keys state

/--
Processes the acknowledgment of a delegated range.

No result means that the loop looked up an offset that it had itself removed.
-/
def onStreamAckReceived (mcAck : McAck) (streamId off len : Nat) : Option McAck :=
  if len = 0 then some mcAck
  else
    match mcAck.streamMap.find? streamId with
    | none => some mcAck
    | some stream =>
      match WorkQueue.drain (ackTurn streamId) (turns off len) [(off, len)]
          (stream, mcAck.streamFull) with
      | none => none
      | some (stream, streamFull) =>
        -- A loop that returns early has just met a segment, so the stream is not empty then.
        some { mcAck with
          streamFull := streamFull
          streamMap :=
            if stream.isEmpty then mcAck.streamMap.erase streamId
            else mcAck.streamMap.insert streamId stream }

/-- Returns the fully acknowledged stream offsets and forgets them. -/
def ackedStreamOff (mcAck : McAck) : Option (List (Nat × RangeSet)) × McAck :=
  if mcAck.streamFull.isEmpty then (none, mcAck)
  else (some mcAck.streamFull.entries, { mcAck with streamFull := OrdMap.empty })

end McAck

end Flexicast
