import Flexicast.Lib.OrdMap
import Flexicast.Lib.WorkQueue
import Flexicast.Stream.RangeBuf

/-! The receive-side stream buffer of `stream/recv_buf.rs`, without its flexicast extension. -/

namespace Flexicast

/-- The default size of the receiver window of a stream. -/
def defaultStreamWindow : Nat := 32 * 1024

/-- The flow controller of `flowcontrol.rs`, without the time of its last update. -/
structure FlowControl where
  consumed : Nat
  maxData : Nat
  /-- The receive window, used to update the limit. -/
  window : Nat
  maxWindow : Nat
  deriving DecidableEq

namespace FlowControl

/-- A flow controller before anything was consumed. -/
def new (maxData window maxWindow : Nat) : FlowControl := ⟨0, maxData, window, maxWindow⟩

/-- Counts consumed bytes. -/
def addConsumed (flow : FlowControl) (consumed : Nat) : FlowControl :=
  { flow with consumed := flow.consumed + consumed }

end FlowControl

/-- Receive-side stream buffer. -/
structure RecvBuf where
  /-- Chunks that were not read yet, keyed by the offset behind their last byte. -/
  data : OrdMap RangeBuf
  /-- The lowest offset that has yet to be read. -/
  off : Nat
  len : Nat
  flowControl : FlowControl
  /-- The final stream offset, once it was received. -/
  finOff : Option Nat
  /-- The error code received with a reset. -/
  error : Option Nat
  /-- Whether incoming data is validated but not buffered. -/
  drain : Bool
  deriving DecidableEq

namespace RecvBuf

/-- A new receive buffer. -/
def new (maxData maxWindow : Nat) : RecvBuf where
  data := OrdMap.empty
  off := 0
  len := 0
  flowControl := FlowControl.new maxData (min maxData defaultStreamWindow) maxWindow
  finOff := none
  error := none
  drain := false

/-- The flow control limit. -/
def maxData (recv : RecvBuf) : Nat := recv.flowControl.maxData

/-- The lowest offset that has yet to be read. -/
def offFront (recv : RecvBuf) : Nat := recv.off

/-- The largest offset received. -/
def maxOff (recv : RecvBuf) : Nat := recv.len

/-- Whether the final size is known and everything up to it was read. -/
def isFin (recv : RecvBuf) : Bool := recv.finOff == some recv.off

/-- Whether there is data to be read. -/
def ready (recv : RecvBuf) : Bool :=
  match recv.data.entries.head? with
  | some (_, buf) => buf.curOff == recv.off
  | none => false

/-- The loop over the chunks that a new one may overlap; says what of it is new and what is left for later. -/
def overlapLoop : List RangeBuf → RangeBuf → List RangeBuf → Option (Option RangeBuf × List RangeBuf)
  | [], buf, pushed => some (some buf, pushed)
  | held :: rest, buf, pushed =>
    let off := buf.curOff
    if buf.maxOff < held.curOff then some (some buf, pushed)
    -- The new chunk is contained in the one that is held.
    else if held.curOff ≤ off ∧ buf.maxOff ≤ held.maxOff then some (none, pushed)
    -- The start of the new chunk overlaps, and only the end of it goes on.
    else if held.curOff ≤ off ∧ off < held.maxOff then
      if buf.len < held.maxOff - off then none
      else overlapLoop rest (buf.splitOff (held.maxOff - off)).2 pushed
    -- The end of the new chunk overlaps, and is left for later.
    else if off < held.curOff ∧ held.curOff < buf.maxOff then
      if buf.len < held.curOff - off then none
      else
        overlapLoop rest (buf.splitOff (held.curOff - off)).1
          (pushed ++ [(buf.splitOff (held.curOff - off)).2])
    else overlapLoop rest buf pushed

/-- The part of a chunk that was not read yet, or nothing when the split is out of bounds. -/
def discardRead (recv : RecvBuf) (buf : RangeBuf) : Option RangeBuf :=
  if buf.curOff < recv.offFront then
    if buf.len < recv.offFront - buf.curOff then none
    else some (buf.splitOff (recv.offFront - buf.curOff)).2
  else some buf

/-- Stores a chunk that overlaps nothing. -/
def storeChunk (recv : RecvBuf) (buf : RangeBuf) : RecvBuf :=
  { recv with
    len := max recv.len buf.maxOff
    data := if recv.drain then recv.data else recv.data.insert buf.maxOff buf }

/-- One turn of the loop of `write` over the parts of the new chunk. -/
def writeTurn (buf : RangeBuf) (recv : RecvBuf) : Turn RecvBuf RangeBuf :=
  match recv.discardRead buf with
  | none => .panic
  | some buf =>
    -- Data above everything received overlaps nothing, unless it is an empty final chunk.
    let result :=
      if decide (buf.curOff < recv.maxOff) || buf.isEmpty then
        overlapLoop ((recv.data.entries.filter fun entry => decide (buf.curOff ≤ entry.1)).map Prod.snd)
          buf []
      else some (some buf, [])
    match result with
    | none => .panic
    | some (none, pushed) => .next recv pushed
    | some (some buf, pushed) => .next (recv.storeChunk buf) pushed

/-- Whether a chunk breaks the final size, or the data already received breaks the one it brings. -/
def finConflict (recv : RecvBuf) (buf : RangeBuf) : Bool :=
  (match recv.finOff with
    | some finOff => decide (finOff < buf.maxOff) || (buf.fin && finOff != buf.maxOff)
    | none => false) ||
  (buf.fin && decide (buf.maxOff < recv.len))

/-- Inserts a chunk of data. -/
def write (recv : RecvBuf) (buf : RangeBuf) : Except StreamError RecvBuf :=
  if recv.maxData < buf.maxOff then .error .flowControl
  else if recv.finConflict buf then .error .finalSize
  -- The final offset was saved, so an empty chunk brings nothing.
  else if recv.finOff.isSome && buf.isEmpty then .ok recv
  else
    let recv := if buf.fin then { recv with finOff := some buf.maxOff } else recv
    if !buf.fin && buf.isEmpty then .ok recv
    -- A chunk that was read as a whole is dropped, unless it is an empty final one.
    else if decide (buf.maxOff ≤ recv.off) && !buf.isEmpty then .ok recv
    else
      match WorkQueue.drain writeTurn (buf.curLen + 1) [buf] recv with
      | some recv => .ok recv
      | none => .error .overflow

/-- The loop of `emit`; each turn that goes on removes a chunk. -/
def emitLoop : Nat → Nat → RecvBuf → Bytes × RecvBuf
  | 0, _, recv => ([], recv)
  | fuel + 1, capacity, recv =>
    if capacity = 0 ∨ recv.ready = false then ([], recv)
    else
      match recv.data.entries.head? with
      | none => ([], recv)
      | some (key, buf) =>
        let bufLen := min buf.curLen capacity
        if bufLen < buf.curLen then
          -- The output is full, and the rest of the chunk stays.
          (buf.bytes.take bufLen,
            { recv with off := recv.off + bufLen, data := recv.data.insert key (buf.consume bufLen) })
        else
          let (out, recv) := emitLoop fuel (capacity - bufLen)
            { recv with off := recv.off + bufLen, data := recv.data.erase key }
          (buf.bytes.take bufLen ++ out, recv)

/-- Reads contiguous data into an output of some size; returns the bytes and the final flag. -/
def emit (recv : RecvBuf) (outLen : Nat) : Except StreamError (Bytes × Bool) × RecvBuf :=
  if recv.ready = false then (.error .done, recv)
  else
    match recv.error with
    | some code => (.error (.streamReset code), { recv with data := OrdMap.empty })
    | none =>
      let (out, recv) := emitLoop recv.data.entries.length outLen recv
      let recv := { recv with flowControl := recv.flowControl.addConsumed out.length }
      (.ok (out, recv.isFin), recv)

/-- Resets the stream at its final size; returns how much of it was not received. -/
def reset (recv : RecvBuf) (errorCode finalSize : Nat) : Except StreamError Nat × RecvBuf :=
  if recv.finOff.any (· != finalSize) then (.error .finalSize, recv)
  else if finalSize < recv.len then (.error .finalSize, recv)
  else if recv.error.isSome then (.ok (finalSize - recv.len), recv)
  else
    let cleared := { recv with error := some errorCode, off := finalSize, data := OrdMap.empty }
    -- An empty chunk at the final size lets the application learn of the reset.
    match cleared.write (RangeBuf.fromSlice [] finalSize true) with
    | .error error => (.error error, cleared)
    | .ok after => (.ok (finalSize - recv.len), after)

/-- Shuts down receiving data. -/
def shutDown (recv : RecvBuf) : Except StreamError RecvBuf :=
  if recv.drain then .error .done
  else .ok { recv with drain := true, data := OrdMap.empty, off := recv.maxOff }

end RecvBuf

end Flexicast
