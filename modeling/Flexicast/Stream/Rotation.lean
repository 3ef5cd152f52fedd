import Flexicast.Stream.RecvBuf

/-! The receive-side stream buffer with stream rotation: reading starts at an offset and loops back to the beginning. -/

namespace Flexicast

/-- Flexicast receiving buffer extension, without the permission to read it out of order. -/
structure FcRecvBuf where
  /-- The offset at which the stream is created. -/
  fcInitOff : Nat
  fcLooped : Bool
  /-- The real start of the stream, read once the read looped. -/
  fcRecvBuf : Option RecvBuf
  /-- The final offset from before the loop. -/
  fcFinOff : Option Nat
  deriving DecidableEq

namespace FcRecvBuf

/-- An extension that starts at an offset, with an empty buffer for what lies below it. -/
def new (offset maxData maxWindow : Nat) : FcRecvBuf :=
  ⟨offset, false, some (RecvBuf.new maxData maxWindow), none⟩

/-- Inserts a chunk below the offset; after the loop there is no buffer for it, and it is dropped. -/
def write (fc : FcRecvBuf) (buf : RangeBuf) : Except StreamError Unit × FcRecvBuf :=
  match fc.fcRecvBuf with
  | none => (.ok (), fc)
  | some recv =>
    match recv.write buf with
    | .error error => (.error error, fc)
    | .ok after => (.ok (), { fc with fcRecvBuf := some after })

end FcRecvBuf

/-- A receive buffer together with its flexicast extension. -/
structure RotatingRecvBuf where
  recv : RecvBuf
  /-- The extension, for a stream that is rotated. -/
  fcData : Option FcRecvBuf
  deriving DecidableEq

namespace RotatingRecvBuf

/-- A new receive buffer. -/
def new (maxData maxWindow : Nat) : RotatingRecvBuf := ⟨RecvBuf.new maxData maxWindow, none⟩

/-- Starts receiving at an offset; what lies below it counts as received. -/
def fcSetOffsetAt (rot : RotatingRecvBuf) (offset : Nat) : RotatingRecvBuf where
  recv := { rot.recv with data := OrdMap.empty, finOff := none, off := offset }
  fcData := some (FcRecvBuf.new offset rot.recv.maxData defaultStreamWindow)

/-- Takes over the state of another buffer, which ends at an offset. -/
def fcCopy (rot : RotatingRecvBuf) (other : RecvBuf) (finOff : Nat) : RotatingRecvBuf :=
  { rot with recv := { other with finOff := some finOff } }

/-- Loops the receiving buffer to the beginning, once. -/
def fcLoopRecv (rot : RotatingRecvBuf) : Except StreamError Unit × RotatingRecvBuf :=
  match rot.fcData with
  | none => (.error .fcStreamRotation, rot)
  | some fc =>
    if fc.fcLooped then (.ok (), rot)
    else
      -- The final offset is kept, so that later duplicates can be told from data that is too long.
      let looped := { fc with fcLooped := true, fcFinOff := rot.recv.finOff, fcRecvBuf := none }
      match fc.fcRecvBuf with
      | none => (.error .fcStreamRotation, { rot with fcData := some looped })
      | some inner => (.ok (), fcCopy { rot with fcData := some looped } inner fc.fcInitOff)

/-- The extension of a stream that looped, and the final offset its data must not pass. -/
def pastFin (rot : RotatingRecvBuf) (buf : RangeBuf) : Option (FcRecvBuf × Nat) :=
  match rot.fcData, rot.recv.finOff with
  | some fc, some finOff => if fc.fcLooped && decide (finOff < buf.maxOff) then some (fc, finOff) else none
  | _, _ => none

/-- Keeps of a duplicate from before the loop what lies below the final offset, which then is where that ends. -/
def strip (rot : RotatingRecvBuf) (buf : RangeBuf) : Except StreamError (RangeBuf × RotatingRecvBuf) :=
  match rot.pastFin buf with
  | none => .ok (buf, rot)
  | some (fc, finOff) =>
    if fc.fcFinOff.any fun off => decide (buf.maxOff ≤ off) then
      if buf.len < finOff - buf.off then .error .overflow
      else
        let kept := (buf.splitOff (finOff - buf.off)).1
        .ok (kept, { rot with recv := { rot.recv with finOff := some kept.maxOff } })
    else .error .finalSize

/-- Hands a chunk that lies below what is read next to the extension, and loops when it is the whole end. -/
def writeBelow (rot : RotatingRecvBuf) (buf : RangeBuf) : Except StreamError Unit × RotatingRecvBuf :=
  match rot.fcData with
  | none => (.ok (), rot)
  | some fc =>
    match fc.write buf with
    | (.error error, fc) => (.error error, { rot with fcData := some fc })
    | (.ok _, fc) =>
      let rot := { rot with fcData := some fc }
      if buf.fin then
        if buf.maxOff < fc.fcInitOff then (.error .finalSize, rot)
        -- The stream starts at its very end, so nothing is left to be read before the loop.
        else if fc.fcInitOff = buf.maxOff then rot.fcLoopRecv
        else (.ok (), rot)
      else (.ok (), rot)

/-- Hands the part of a chunk that lies below what is read next to the extension. -/
def keepBelow (rot : RotatingRecvBuf) (buf : RangeBuf) : Except StreamError Unit × RotatingRecvBuf :=
  match rot.fcData with
  | none => (.ok (), rot)
  | some fc =>
    if buf.curOff < rot.recv.offFront then
      match fc.write (buf.splitOff (rot.recv.offFront - buf.curOff)).1 with
      | (result, fc) => (result, { rot with fcData := some fc })
    else (.ok (), rot)

/-- One turn of the loop of `write`: the extension gets what was read, and the buffer stores the rest. -/
def writeTurn (buf : RangeBuf) (state : Except StreamError Unit × RotatingRecvBuf) :
    Turn (Except StreamError Unit × RotatingRecvBuf) RangeBuf :=
  -- The split that sets apart what was read comes first, and may be out of bounds.
  if (state.2.recv.discardRead buf).isNone then .panic
  else
    match state.2.keepBelow buf with
    | (.error error, rot) => .halt (.error error, rot)
    | (.ok _, rot) => (RecvBuf.writeTurn buf rot.recv).map fun recv => (.ok (), { rot with recv := recv })

/-- The buffer once the final offset that a chunk brings is recorded. -/
def record (rot : RotatingRecvBuf) (buf : RangeBuf) : RotatingRecvBuf :=
  if buf.fin then { rot with recv := { rot.recv with finOff := some buf.maxOff } } else rot

/-- Inserts a chunk that does not pass the final offset because of the loop. -/
def writeKept (rot : RotatingRecvBuf) (buf : RangeBuf) : Except StreamError Unit × RotatingRecvBuf :=
  if rot.recv.finConflict buf then (.error .finalSize, rot)
  -- The final offset was saved, so an empty chunk brings nothing.
  else if rot.recv.finOff.isSome && buf.isEmpty then (.ok (), rot)
  else if !buf.fin && buf.isEmpty then (.ok (), rot)
  -- A chunk that was read as a whole goes to the extension, unless it is an empty final one.
  else if decide (buf.maxOff ≤ rot.recv.off) && !buf.isEmpty then (rot.record buf).writeBelow buf
  else
    match WorkQueue.drain writeTurn (buf.curLen + 1) [buf] (.ok (), rot.record buf) with
    | some result => result
    | none => (.error .overflow, rot.record buf)

/-- Inserts a chunk of data. -/
def write (rot : RotatingRecvBuf) (buf : RangeBuf) : Except StreamError Unit × RotatingRecvBuf :=
  if rot.recv.maxData < buf.maxOff then (.error .flowControl, rot)
  else
    match rot.strip buf with
    | .error error => (.error error, rot)
    | .ok (buf, rot) => rot.writeKept buf

/-- The offset at which reading stops once the stream looped. -/
def bound (rot : RotatingRecvBuf) : Option Nat :=
  match rot.fcData with
  | some fc => if fc.fcLooped then some fc.fcInitOff else none
  | none => none

/-- How much of a chunk is read at once. -/
def readLen (bound : Option Nat) (off capacity : Nat) (buf : RangeBuf) : Nat :=
  match bound with
  | some initOff => min (min buf.curLen capacity) (initOff - off)
  | none => min buf.curLen capacity

/-- The loop of `emit`, which does not read beyond the bound; each turn that goes on removes a chunk. -/
def emitLoop (bound : Option Nat) : Nat → Nat → RecvBuf → Bytes × RecvBuf
  | 0, _, recv => ([], recv)
  | fuel + 1, capacity, recv =>
    if capacity = 0 ∨ recv.ready = false then ([], recv)
    else
      match recv.data.entries.head? with
      | none => ([], recv)
      | some (key, buf) =>
        let bufLen := readLen bound recv.off capacity buf
        if bufLen < buf.curLen then
          -- The output is full or the bound is reached, and the rest of the chunk stays.
          (buf.bytes.take bufLen,
            { recv with off := recv.off + bufLen, data := recv.data.insert key (buf.consume bufLen) })
        else
          let (out, recv) := emitLoop bound fuel (capacity - bufLen)
            { recv with off := recv.off + bufLen, data := recv.data.erase key }
          (buf.bytes.take bufLen ++ out, recv)

/-- What `emit` returns once it has read some bytes; at the end of the stream it loops back. -/
def report (rot : RotatingRecvBuf) (out : Bytes) : Except StreamError (Bytes × Bool) × RotatingRecvBuf :=
  if rot.recv.isFin && rot.fcData.isSome then
    match rot.fcLoopRecv with
    | (.error error, rot) => (.error error, rot)
    | (.ok _, rot) => (.ok (out, rot.recv.isFin), rot)
  -- A stream that looped ends where it started.
  else if rot.bound.any fun initOff => decide (initOff ≤ rot.recv.off) then (.ok (out, true), rot)
  else (.ok (out, rot.recv.isFin), rot)

/-- The buffer after the loop of `emit`, with the bytes read counted as consumed. -/
def afterRead (rot : RotatingRecvBuf) (outLen : Nat) : Bytes × RotatingRecvBuf :=
  match emitLoop rot.bound rot.recv.data.entries.length outLen rot.recv with
  | (out, recv) => (out, { rot with recv := { recv with flowControl := recv.flowControl.addConsumed out.length } })

/-- Reads contiguous data into an output of some size; returns the bytes and the final flag. -/
def emit (rot : RotatingRecvBuf) (outLen : Nat) : Except StreamError (Bytes × Bool) × RotatingRecvBuf :=
  if rot.recv.ready = false then (.error .done, rot)
  else
    match rot.recv.error with
    | some code => (.error (.streamReset code), { rot with recv := { rot.recv with data := OrdMap.empty } })
    | none => (rot.afterRead outLen).2.report (rot.afterRead outLen).1

end RotatingRecvBuf

end Flexicast
