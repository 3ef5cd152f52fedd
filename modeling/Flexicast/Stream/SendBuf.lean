import Flexicast.Ranges.RangeSet
import Flexicast.Stream.RangeBuf

/-! The send-side stream buffer of `stream/send_buf.rs`, without and with its rotation buffer. -/

namespace Flexicast

/-- The size of the chunks that written data is cut into. -/
def sendBufferSize : Nat := 4096

/-- Send-side stream buffer, without the buffer for rotated retransmissions. -/
structure SendBuf where
  /-- Chunks of data to be sent, ordered by offset. -/
  data : List RangeBuf
  /-- The index of the chunk that is sent next. -/
  pos : Nat
  /-- The maximum offset of data buffered in the stream. -/
  off : Nat
  /-- The maximum offset of data sent to the peer, regardless of retransmissions. -/
  emitOff : Nat
  /-- The amount of data currently buffered. -/
  len : Nat
  /-- The maximum offset that may be sent to the peer. -/
  maxData : Nat
  /-- The final stream offset, once it was written. -/
  finOff : Option Nat
  /-- Whether the send side was shut down. -/
  shutdown : Bool
  /-- Offsets that the peer acknowledged. -/
  acked : RangeSet
  /-- The error code received with a request to stop sending. -/
  error : Option Nat
  /-- The offset after which a unicast source counts the stream as complete. -/
  fcMaxOffset : Option Nat
  /-- Whether the stream starts again after it completed. -/
  fcStreamRotate : Bool
  deriving DecidableEq

namespace SendBuf

/-- A new send buffer. -/
def new (maxData : Nat) : SendBuf where
  data := []
  pos := 0
  off := 0
  emitOff := 0
  len := 0
  maxData := maxData
  finOff := none
  shutdown := false
  acked := RangeSet.default
  error := none
  fcMaxOffset := none
  fcStreamRotate := false

/-- The highest contiguously acknowledged offset. -/
def ackOff (send : SendBuf) : Nat :=
  -- Only a first range that covers the start of the stream counts.
  match send.acked.iter.head? with
  | some (0, stop) => stop
  | _ => 0

/-- The outgoing flow control capacity. -/
def cap (send : SendBuf) : Except StreamError Nat :=
  match send.error with
  | some code => .error (.streamStopped code)
  | none => if send.maxData < send.off then .error .overflow else .ok (send.maxData - send.off)

/-- Whether there is no data. -/
def isEmpty (send : SendBuf) : Bool := send.data.isEmpty

/-- The lowest offset of data that is still to be sent. -/
def offFront (send : SendBuf) : Nat :=
  -- Empty chunks at the front of the queue are skipped.
  match (send.data.drop send.pos).find? (fun buf => !buf.isEmpty) with
  | some buf => buf.curOff
  | none => send.off

/-- The largest offset of data buffered. -/
def offBack (send : SendBuf) : Nat := send.off

/-- Whether the final size is known and all data up to it was written. -/
def isFin (send : SendBuf) : Bool := send.finOff == some send.off

/-- Appends data at the end of the buffer, cut into chunks. -/
def pushChunks (fin : Bool) : Nat → Bytes → SendBuf → SendBuf
  | 0, _, send => send
  | fuel + 1, data, send =>
    if data.isEmpty then send
    else
      let chunk := data.take sendBufferSize
      let rest := data.drop sendBufferSize
      -- Only the last chunk carries the final flag.
      pushChunks fin fuel rest
        { send with
          data := send.data ++ [RangeBuf.fromSlice chunk send.off (rest.isEmpty && fin)]
          off := send.off + chunk.length
          len := send.len + chunk.length }

/-- Whether writing up to an offset breaks the known final size. -/
def finConflict (send : SendBuf) (maxOff : Nat) (fin : Bool) : Bool :=
  match send.finOff with
  | some finOff => decide (finOff < maxOff) || (maxOff == finOff && !fin)
  | none => false

/-- Writes data at the end of the stream and returns how many bytes were stored. -/
def write (send : SendBuf) (data : Bytes) (fin : Bool) : Except StreamError (Nat × SendBuf) :=
  -- The end of the write is computed before the data is cut down to the capacity.
  let maxOff := send.off + data.length
  match send.cap with
  | .error error => .error error
  | .ok capacity =>
    let fin := if capacity < data.length then false else fin
    let data := if capacity < data.length then data.take capacity else data
    if send.finConflict maxOff fin then .error .finalSize
    else
      let send := if fin then { send with finOff := some maxOff } else send
      -- Data that was already acknowledged is not queued, and neither is an empty chunk.
      if maxOff ≤ send.ackOff then .ok (data.length, send)
      else if data.isEmpty then .ok (data.length, send)
      else .ok (data.length, pushChunks fin data.length data send)

/-- What the loop of `emit` carries along. -/
structure Emission where
  send : SendBuf
  outLen : Nat
  /-- The stream offset that must come next. -/
  nextOff : Nat
  out : Bytes
  deriving DecidableEq

/-- The loop of `emit`; each turn that goes on moves to the next chunk. -/
def emitLoop : Nat → Emission → Emission
  | 0, emission => emission
  | fuel + 1, emission =>
    let send := emission.send
    if emission.outLen = 0 then emission
    else
      let offFront := send.offFront
      if send.isEmpty || decide (send.off ≤ offFront) || offFront != emission.nextOff ||
          decide (send.maxData ≤ offFront) then emission
      else
        match send.data[send.pos]? with
        | none => emission
        | some buf =>
          if buf.isEmpty then emitLoop fuel { emission with send := { send with pos := send.pos + 1 } }
          else
            let bufLen := min buf.curLen emission.outLen
            let isPartial := decide (bufLen < buf.curLen)
            let emission :=
              { send :=
                  { send with
                    len := send.len - bufLen
                    data := send.data.set send.pos (buf.consume bufLen) }
                outLen := emission.outLen - bufLen
                nextOff := buf.curOff + bufLen
                out := emission.out ++ buf.bytes.take bufLen }
            -- A chunk that did not fit ends the output.
            if isPartial then emission
            else
              emitLoop fuel
                { emission with send := { emission.send with pos := emission.send.pos + 1 } }

/-- Writes data into an output of some size; returns the bytes and the final flag. -/
def emit (send : SendBuf) (outLen : Nat) : (Bytes × Bool) × SendBuf :=
  let outOff := send.offFront
  let emission := emitLoop (send.data.length - send.pos)
    { send := send, outLen := outLen, nextOff := outOff, out := [] }
  let fin := send.finOff == some emission.nextOff
  ((emission.out, fin),
    { emission.send with emitOff := max emission.send.emitOff emission.nextOff })

/-- Raises the limit of flow control. -/
def updateMaxData (send : SendBuf) (maxData : Nat) : SendBuf :=
  { send with maxData := max send.maxData maxData }

/-- Marks a range as acknowledged. -/
def ack (send : SendBuf) (off len : Nat) : SendBuf :=
  { send with acked := send.acked.insert off (off + len) }

/-- Drops the chunks at the front that are acknowledged as a whole. -/
def dropAcked (send : SendBuf) : SendBuf :=
  let drop := (send.data.takeWhile fun buf =>
    decide (buf.off < send.ackOff) && decide (buf.maxOff ≤ send.ackOff)).length
  -- A chunk marked for retransmission may be dropped, so the index is kept from going below zero.
  { send with data := send.data.drop drop, pos := send.pos - drop }

/-- Processes the acknowledgment of a range. -/
def ackAndDrop (send : SendBuf) (off len : Nat) : SendBuf :=
  if send.fcStreamRotate && decide (send.off < off + len) then send
  else
    let send := send.ack off len
    if send.data.isEmpty then send
    else if send.ackOff < off then send
    else send.dropAcked

/-- The chunk of `retransmit` that meets the range, rewound to the start of the range. -/
def rewind (off : Nat) (buf : RangeBuf) : RangeBuf :=
  { buf with
    pos :=
      if buf.off < off ∧ off ≤ buf.maxOff then min buf.pos (buf.start + (off - buf.off))
      else buf.start }

/-- The loop of `retransmit` over the chunks, with the index, position and length it updates. -/
def retransmitLoop (off maxOff : Nat) :
    Nat → List RangeBuf → Nat × Nat → List RangeBuf × Nat × Nat
  | _, [], counters => ([], counters)
  | index, buf :: rest, (pos, len) =>
    if maxOff ≤ buf.off then (buf :: rest, pos, len)
    else if buf.maxOff < off then
      let (rest, counters) := retransmitLoop off maxOff (index + 1) rest (pos, len)
      (buf :: rest, counters)
    else if maxOff < buf.maxOff then
      -- The range ends inside the chunk. The second half is visited next, and ends the loop there.
      let (buf, newBuf) := buf.splitOff (maxOff - buf.off)
      (rewind off buf :: newBuf :: rest, min pos index, len + (buf.pos - (rewind off buf).pos))
    else
      let (rest, counters) := retransmitLoop off maxOff (index + 1) rest
        (min pos index, len + (buf.pos - (rewind off buf).pos))
      (rewind off buf :: rest, counters)

/-- Marks a range to be sent again. -/
def retransmit (send : SendBuf) (off len : Nat) : SendBuf :=
  let maxOff := off + len
  if send.data.isEmpty then send
  else if maxOff ≤ send.ackOff then send
  else
    let (data, pos, len) := retransmitLoop off maxOff 0 send.data (send.pos, send.len)
    { send with data := data, pos := pos, len := len }

/-- Resets the stream at the current offset and clears all buffered data. -/
def reset (send : SendBuf) : (Nat × Nat) × SendBuf :=
  let unsentOff := max send.offFront send.emitOff
  let unsentLen := send.offBack - unsentOff
  -- Everything up to the final offset counts as acknowledged.
  ((send.emitOff, unsentLen),
    { send with
      finOff := some unsentOff
      data := []
      off := unsentOff
      acked := send.acked.insert 0 unsentOff
      pos := 0
      len := 0 })

/-- Resets the stream and records the received error code. -/
def stop (send : SendBuf) (errorCode : Nat) : Except StreamError ((Nat × Nat) × SendBuf) :=
  if send.error.isSome then .error .done
  else
    let (result, send) := send.reset
    .ok (result, { send with error := some errorCode })

/-- Shuts down sending data. -/
def shutDown (send : SendBuf) : Except StreamError ((Nat × Nat) × SendBuf) :=
  if send.shutdown then .error .done
  else .ok { send with shutdown := true }.reset

/-- Whether all data up to the final offset, or to the close offset, was acknowledged. -/
def isComplete (send : SendBuf) : Bool :=
  (match send.finOff with
    | some finOff => send.acked.eqRange 0 finOff
    | none => false) ||
  match send.fcMaxOffset with
  | some fcFinOff =>
    -- The range was received when adding it does not change the acknowledged ones.
    decide (send.acked = send.acked.insert 0 fcFinOff)
  | none => false

/-- Starts the buffer from an offset that is not below the data already buffered. -/
def resetAt (send : SendBuf) (off : Nat) : SendBuf :=
  -- The skipped offsets count as acknowledged and sent.
  { send.ack send.off (off - send.off) with off := off, emitOff := off }

/-- Writes data at an offset not below the data already buffered, and marks it to be sent. -/
def writeAtOffset (send : SendBuf) (data : Bytes) (offset : Nat) (fin : Bool) :
    Except StreamError Nat × SendBuf :=
  if offset < send.off then (.error .finalSize, send)
  else
    -- The buffer stays moved to the offset even when the write is refused.
    let send := if send.off = offset then send else send.resetAt offset
    match send.write data fin with
    | .error error => (.error error, send)
    | .ok (written, send) => (.ok written, send.retransmit offset written)

/-- Declares that the stream gets no more data on this connection. -/
def fcSetCloseOffset (send : SendBuf) : SendBuf := { send with fcMaxOffset := some send.off }

end SendBuf

/-- The buffer for data below the offset of the main one. -/
structure FcSendBuf where
  /-- The inner buffer, which never has a rotation buffer of its own. -/
  inner : Option SendBuf
  deriving DecidableEq

/-- Send-side stream buffer with its rotation buffer. -/
structure RotSendBuf where
  main : SendBuf
  /-- The buffer for rotated retransmissions, when that extension is used. -/
  fcSendBuf : Option FcSendBuf
  deriving DecidableEq

namespace RotSendBuf

/-- A new send buffer. -/
def new (maxData : Nat) : RotSendBuf := ⟨SendBuf.new maxData, none⟩

/-- Allows retransmissions below the offset of the main buffer. -/
def fcMarkRotateRetransmission (send : RotSendBuf) : RotSendBuf :=
  match send.fcSendBuf with
  | some _ => send
  | none => { send with fcSendBuf := some ⟨some (SendBuf.new send.main.maxData)⟩ }

/-- Writes data at the end of the main buffer. -/
def write (send : RotSendBuf) (data : Bytes) (fin : Bool) : Except StreamError (Nat × RotSendBuf) :=
  match send.main.write data fin with
  | .error error => .error error
  | .ok (written, main) => .ok (written, { send with main := main })

/-- Marks a range of the main buffer to be sent again. -/
def retransmit (send : RotSendBuf) (off len : Nat) : RotSendBuf :=
  { send with main := send.main.retransmit off len }

/-- Writes data at an offset; lower offsets go to the rotation buffer. -/
def writeAtOffset (send : RotSendBuf) (data : Bytes) (offset : Nat) (fin : Bool) :
    Except StreamError Nat × RotSendBuf :=
  if offset < send.main.off then
    match send.fcSendBuf with
    | none => (.error .finalSize, send)
    | some ⟨none⟩ => (.error .fcStreamRotation, send)
    | some ⟨some inner⟩ =>
      let (result, inner) := inner.writeAtOffset data offset fin
      (result, { send with fcSendBuf := some ⟨some inner⟩ })
  else
    let (result, main) := send.main.writeAtOffset data offset fin
    (result, { send with main := main })

/-- Writes data into an output; the rotation buffer is used once the main one has nothing left. -/
def emit (send : RotSendBuf) (outLen : Nat) : Except StreamError (Bytes × Bool) × RotSendBuf :=
  let ((out, fin), main) := send.main.emit outLen
  let send := { send with main := main }
  if out.isEmpty && fin then
    match send.fcSendBuf with
    | none => (.ok (out, fin), send)
    | some ⟨none⟩ => (.error .fcStreamRotation, send)
    | some ⟨some inner⟩ =>
      let (result, inner) := inner.emit outLen
      (.ok result, { send with fcSendBuf := some ⟨some inner⟩ })
  else (.ok (out, fin), send)

/-- Processes the acknowledgment of a range; the rotation buffer may become the main one. -/
def ackAndDrop (send : RotSendBuf) (off len : Nat) : RotSendBuf :=
  if send.main.fcStreamRotate && decide (send.main.off < off + len) then send
  else
    -- An acknowledgment below the contiguous offset is fed to the rotation buffer as well.
    let fcSendBuf :=
      if off < send.main.ackOff then
        send.fcSendBuf.map fun fc => ⟨fc.inner.map fun inner => inner.ackAndDrop off len⟩
      else send.fcSendBuf
    let main := send.main.ack off len
    if main.data.isEmpty then ⟨main, fcSendBuf⟩
    else if main.ackOff < off then ⟨main, fcSendBuf⟩
    else
      let main := main.dropAcked
      match main.data, fcSendBuf with
      | [], some ⟨some inner⟩ =>
        if inner.data.isEmpty then ⟨main, fcSendBuf⟩
        else ⟨inner, some ⟨some (SendBuf.new inner.maxData)⟩⟩
      | _, _ => ⟨main, fcSendBuf⟩

/-- Whether the main buffer is complete and the rotation buffer has nothing left. -/
def isComplete (send : RotSendBuf) : Bool :=
  send.main.isComplete &&
    match send.fcSendBuf with
    | some ⟨some inner⟩ => inner.isComplete || inner.data.isEmpty
    | _ => true

end RotSendBuf

end Flexicast
