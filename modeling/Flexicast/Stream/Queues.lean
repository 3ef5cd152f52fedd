import Flexicast.Packet.Octets
import Flexicast.Stream.Counting

/-! The queues of streams of `stream/mod.rs`, and what `lib.rs` does to them. -/

namespace Flexicast

/-- The urgency of a new stream. -/
def defaultUrgency : Nat := 127

/-- The key that a stream is queued under. -/
structure StreamPriorityKey where
  /-- Which of the keys ever made this is; a queue holds the key itself, not a copy. -/
  serial : Nat
  /-- The urgency; a lower one comes first. -/
  urgency : Nat
  /-- Whether the stream takes turns with others of its urgency. -/
  incremental : Bool
  id : Nat
  deriving DecidableEq

namespace StreamPriorityKey

/-- Whether a key is sorted before another one. -/
def before (key other : StreamPriorityKey) : Bool :=
  if key.id = other.id then false
  else if key.urgency ≠ other.urgency then decide (key.urgency < other.urgency)
  else if !key.incremental && !other.incremental then decide (key.id < other.id)
  -- Of two incremental streams, the one that is compared comes last.
  else !key.incremental && other.incremental

/-- A queue with one more key, at its place. -/
def link (key : StreamPriorityKey) : List StreamPriorityKey → List StreamPriorityKey
  | [] => [key]
  | head :: rest => if key.before head then key :: head :: rest else head :: link key rest

end StreamPriorityKey

namespace RotSendBuf

/-- Whether the stream has data to send and may send some of it. -/
def isFlushable (send : RotSendBuf) : Bool :=
  !send.main.isEmpty && decide (send.main.offFront < send.main.offBack) &&
    decide (send.main.offFront < send.main.maxData)

/-- Resets the stream and records the received error code. -/
def stop (send : RotSendBuf) (errorCode : Nat) : Except StreamError ((Nat × Nat) × RotSendBuf) :=
  match send.main.stop errorCode with
  | .error error => .error error
  | .ok (result, main) => .ok (result, { send with main := main })

/-- Shuts down sending data. -/
def shutDown (send : RotSendBuf) : Except StreamError ((Nat × Nat) × RotSendBuf) :=
  match send.main.shutDown with
  | .error error => .error error
  | .ok (result, main) => .ok (result, { send with main := main })

end RotSendBuf

/-- What ranks a stream in the queues. -/
structure Ranking where
  /-- The capacity from which on the stream counts as writable. -/
  sendLowat : Nat
  urgency : Nat
  /-- Whether the stream takes turns with others of its urgency. -/
  incremental : Bool
  /-- The key that the stream is queued under. -/
  priorityKey : StreamPriorityKey
  deriving DecidableEq

/-- Whether there is room to write, and the stream is not finished. -/
def Stream.isWritable (stream : Stream) (sendLowat : Nat) : Bool :=
  !stream.send.main.shutdown && !stream.send.main.isFin &&
    decide (stream.send.main.offBack + sendLowat < stream.send.main.maxData)

/-- The queues of streams. -/
inductive Queue where
  /-- Streams with data to be sent. -/
  | flushable
  /-- Streams with data to be read. -/
  | readable
  /-- Streams with room to write. -/
  | writable
  deriving DecidableEq

/-- The side of a stream that is shut down. -/
inductive Shutdown where
  /-- The receive side. -/
  | read
  /-- The send side. -/
  | write
  deriving DecidableEq

/-- What an endpoint needs to open a stream. -/
structure Endpoint where
  isServer : Bool
  localParams : StreamParams
  peerParams : StreamParams

/-- The streams of a connection with their queues. -/
structure QueuedStreams where
  map : StreamMap
  rankings : OrdMap Ranking
  /-- The queue of streams with data to be sent. -/
  flushable : List StreamPriorityKey
  /-- The queue of streams with data to be read. -/
  readable : List StreamPriorityKey
  /-- The queue of streams with room to write. -/
  writable : List StreamPriorityKey
  serial : Nat

namespace QueuedStreams

/-- No streams. -/
def new (maxStreamsBidi maxStreamsUni maxStreamWindow : Nat) : QueuedStreams :=
  ⟨.new maxStreamsBidi maxStreamsUni maxStreamWindow, OrdMap.empty, [], [], [], 0⟩

/-- One of the queues. -/
def queue (conn : QueuedStreams) : Queue → List StreamPriorityKey
  | .flushable => conn.flushable
  | .readable => conn.readable
  | .writable => conn.writable

/-- The streams after one of the queues was changed. -/
def withQueue (conn : QueuedStreams) (queue : Queue) (keys : List StreamPriorityKey) : QueuedStreams :=
  match queue with
  | .flushable => { conn with flushable := keys }
  | .readable => { conn with readable := keys }
  | .writable => { conn with writable := keys }

/-- Puts a key into a queue, unless it is linked there. -/
def insertQueue (conn : QueuedStreams) (queue : Queue) (key : StreamPriorityKey) : QueuedStreams :=
  if key ∈ conn.queue queue then conn else conn.withQueue queue (key.link (conn.queue queue))

/-- Takes a key out of a queue, if it is linked there. -/
def removeQueue (conn : QueuedStreams) (queue : Queue) (key : StreamPriorityKey) : QueuedStreams :=
  if key ∈ conn.queue queue then conn.withQueue queue ((conn.queue queue).erase key) else conn

/-- Adds a stream to those with data to be read. -/
def insertReadable (conn : QueuedStreams) (key : StreamPriorityKey) : QueuedStreams :=
  conn.insertQueue .readable key

/-- Removes a stream from those with data to be read. -/
def removeReadable (conn : QueuedStreams) (key : StreamPriorityKey) : QueuedStreams :=
  conn.removeQueue .readable key

/-- Adds a stream to those with room to write. -/
def insertWritable (conn : QueuedStreams) (key : StreamPriorityKey) : QueuedStreams :=
  conn.insertQueue .writable key

/-- Removes a stream from those with room to write. -/
def removeWritable (conn : QueuedStreams) (key : StreamPriorityKey) : QueuedStreams :=
  conn.removeQueue .writable key

/-- Adds a stream to those with data to be sent. -/
def insertFlushable (conn : QueuedStreams) (key : StreamPriorityKey) : QueuedStreams :=
  conn.insertQueue .flushable key

/-- Removes a stream from those with data to be sent. -/
def removeFlushable (conn : QueuedStreams) (key : StreamPriorityKey) : QueuedStreams :=
  conn.removeQueue .flushable key

/-- Replaces a key of a stream in one queue, if it is linked there. -/
def relink (conn : QueuedStreams) (old new : StreamPriorityKey) (queue : Queue) : QueuedStreams :=
  if old ∈ conn.queue queue then
    let conn := conn.removeQueue queue old
    conn.withQueue queue (new.link (conn.queue queue))
  else conn

/-- Replaces a key of a stream in the queues. -/
def updatePriority (conn : QueuedStreams) (old new : StreamPriorityKey) : QueuedStreams :=
  ((conn.relink old new .readable).relink old new .writable).relink old new .flushable

/-- A stream with its ranking. -/
def find (conn : QueuedStreams) (id : Nat) : Option (Stream × Ranking) :=
  match conn.map.get id, conn.rankings.find? id with
  | some stream, some ranking => some (stream, ranking)
  | _, _ => none

/-- The streams after one was changed. -/
def set (conn : QueuedStreams) (id : Nat) (stream : Stream) : QueuedStreams :=
  { conn with map := conn.map.set id stream }

/-- The streams after the ranking of one was changed. -/
def rank (conn : QueuedStreams) (id : Nat) (ranking : Ranking) : QueuedStreams :=
  { conn with rankings := conn.rankings.insert id ranking }

/-- A stream that exists, or a new one, which is queued as writable if it is. -/
def getOrCreate (conn : QueuedStreams) (endpoint : Endpoint) (id : Nat) (isLocal : Bool) :
    Except StreamError (Stream × Ranking × QueuedStreams) :=
  match conn.find id with
  | some (stream, ranking) => .ok (stream, ranking, conn)
  | none =>
    match conn.map.getOrCreate id endpoint.localParams endpoint.peerParams isLocal endpoint.isServer with
    | .error error => .error error
    | .ok (stream, map) =>
      let key : StreamPriorityKey := ⟨conn.serial, defaultUrgency, true, id⟩
      let ranking : Ranking := ⟨1, key.urgency, key.incremental, key⟩
      let conn :=
        { conn with map := map, rankings := conn.rankings.insert id ranking, serial := conn.serial + 1 }
      .ok (stream, ranking,
        if stream.isWritable ranking.sendLowat then conn.withQueue .writable (key.link conn.writable) else conn)

/-- Drops a completed stream. -/
def collect (conn : QueuedStreams) (id : Nat) (isLocal : Bool) : QueuedStreams :=
  match conn.rankings.find? id with
  -- The source aborts here, and whoever collects a stream has just found it.
  | none => conn
  | some ranking =>
    ((({ conn with map := conn.map.collect id isLocal, rankings := conn.rankings.erase id }).removeReadable
      ranking.priorityKey).removeWritable ranking.priorityKey).removeFlushable ranking.priorityKey

/-- Reads from a stream into an output of some size. -/
def streamRecv (conn : QueuedStreams) (endpoint : Endpoint) (id outLen : Nat) :
    Except StreamError (Bytes × Bool) × QueuedStreams :=
  if !isBidiId id && isLocalId id endpoint.isServer then (.error (.invalidStreamState id), conn)
  else
    match conn.find id with
    | none => (.error (.invalidStreamState id), conn)
    | some (stream, ranking) =>
      if !stream.isReadable then (.error .done, conn)
      else
        let key := ranking.priorityKey
        match stream.recv.emit outLen with
        | (.error error, recv) =>
          let stream := { stream with recv := recv }
          let conn := conn.set id stream
          -- A reset that is propagated may complete the stream.
          let conn := if stream.isComplete then conn.collect id stream.isLocal else conn
          (.error error, conn.removeReadable key)
        | (.ok (out, fin), recv) =>
          let stream := { stream with recv := recv }
          let conn := conn.set id stream
          let conn := if !stream.isReadable then conn.removeReadable key else conn
          let conn := if stream.isComplete then conn.collect id stream.isLocal else conn
          -- An incremental stream moves to the back of the queue.
          let conn :=
            if key.incremental && stream.isReadable then (conn.removeReadable key).insertReadable key else conn
          (.ok (out, fin), conn)

/-- Writes to a stream, as far as the capacity of the connection goes. -/
def streamSend (conn : QueuedStreams) (endpoint : Endpoint) (id : Nat) (buf : Bytes) (fin : Bool) (cap : Nat) :
    Except StreamError Nat × QueuedStreams :=
  if !isBidiId id && !isLocalId id endpoint.isServer then (.error (.invalidStreamState id), conn)
  else
    match conn.getOrCreate endpoint id true with
    | .error error => (.error error, conn)
    | .ok (stream, ranking, conn) =>
      let wasWritable := stream.isWritable ranking.sendLowat
      let wasFlushable := stream.send.isFlushable
      let key := ranking.priorityKey
      if cap = 0 ∧ buf.isEmpty = false then
        -- The mark as writable may have been taken away without anything being written.
        (.error .done, if wasWritable then conn.insertWritable key else conn)
      else
        let blockedByCap := decide (cap < buf.length)
        let data := if blockedByCap then buf.take cap else buf
        let fin := if blockedByCap then false else fin
        match stream.send.write data fin with
        | .error error => (.error error, conn.removeWritable key)
        | .ok (sent, send) =>
          let stream := { stream with send := send }
          let writable := stream.isWritable ranking.sendLowat
          let conn := conn.set id stream
          -- An empty final frame is to be sent as well.
          let conn :=
            if (send.isFlushable || (data.isEmpty && fin)) && !wasFlushable then conn.insertFlushable key
            else conn
          let conn :=
            if !writable then conn.removeWritable key
            else if wasWritable && blockedByCap then conn.insertWritable key
            else conn
          if sent = 0 ∧ data.isEmpty = false then (.error .done, conn)
          else
            (.ok sent,
              if ranking.incremental && writable then (conn.removeWritable key).insertWritable key else conn)

/-- Sets the priority of a stream. -/
def streamPriority (conn : QueuedStreams) (endpoint : Endpoint) (id urgency : Nat) (incremental : Bool) :
    Except StreamError Unit × QueuedStreams :=
  match conn.getOrCreate endpoint id true with
  | .error .done => (.ok (), conn)
  | .error error => (.error error, conn)
  | .ok (_, ranking, conn) =>
    if ranking.urgency = urgency ∧ ranking.incremental = incremental then (.ok (), conn)
    else
      let key : StreamPriorityKey := ⟨conn.serial, urgency, incremental, id⟩
      let conn :=
        { conn.rank id { ranking with urgency := urgency, incremental := incremental, priorityKey := key } with
          serial := conn.serial + 1 }
      (.ok (), conn.updatePriority ranking.priorityKey key)

/-- Shuts down one side of a stream. -/
def streamShutdown (conn : QueuedStreams) (endpoint : Endpoint) (id : Nat) (direction : Shutdown) :
    Except StreamError Unit × QueuedStreams :=
  let mine := isLocalId id endpoint.isServer
  if decide (direction = .read) && mine && !isBidiId id then (.error (.invalidStreamState id), conn)
  else if decide (direction = .write) && !mine && !isBidiId id then (.error (.invalidStreamState id), conn)
  else
    match conn.find id with
    | none => (.error .done, conn)
    | some (stream, ranking) =>
      match direction with
      | .read =>
        match stream.recv.shutDown with
        | .error error => (.error error, conn)
        | .ok recv => (.ok (), (conn.set id { stream with recv := recv }).removeReadable ranking.priorityKey)
      | .write =>
        match stream.send.shutDown with
        | .error error => (.error error, conn)
        | .ok (_, send) => (.ok (), (conn.set id { stream with send := send }).removeWritable ranking.priorityKey)

/-- The next stream with data to be read, which leaves the queue. -/
def streamReadableNext (conn : QueuedStreams) : Option Nat × QueuedStreams :=
  match conn.readable with
  | [] => (none, conn)
  | key :: _ => (some key.id, conn.removeReadable key)

/-- The loop of `streamWritableNext` over the queue. -/
def writableNextLoop (conn : QueuedStreams) (txCap : Nat) :
    List StreamPriorityKey → Option Nat × QueuedStreams
  | [] => (none, conn)
  | key :: rest =>
    match conn.find key.id with
    | none => writableNextLoop conn txCap rest
    | some (stream, ranking) =>
      match stream.send.main.cap with
      -- A stopped stream is returned at once.
      | .error _ => (some key.id, conn.removeWritable key)
      | .ok cap =>
        if ranking.sendLowat ≤ min txCap cap then (some key.id, conn.removeWritable key)
        else writableNextLoop conn txCap rest

/-- The next stream with room to write, which leaves the queue. -/
def streamWritableNext (conn : QueuedStreams) (txCap : Nat) : Option Nat × QueuedStreams :=
  if txCap = 0 then (none, conn) else conn.writableNextLoop txCap conn.writable

/-- Whether a stream has room for some bytes; if it has not, it counts as writable only once it has. -/
def streamWritable (conn : QueuedStreams) (id len txCap : Nat) : Except StreamError Bool × QueuedStreams :=
  match conn.find id with
  | none => (.error (.invalidStreamState id), conn)
  | some (stream, ranking) =>
    match stream.send.main.cap with
    | .error error => (.error error, conn)
    | .ok cap =>
      if len ≤ min txCap cap then (.ok true, conn)
      else
        let ranking := { ranking with sendLowat := max 1 len }
        let conn := conn.rank id ranking
        (.ok false,
          if ¬ cap < len ∧ stream.isWritable ranking.sendLowat = true then
            conn.insertWritable ranking.priorityKey
          else conn)

/-- Processes a STREAM frame, with what the flow control of the connection has left. -/
def onStream (conn : QueuedStreams) (endpoint : Endpoint) (id : Nat) (data : RangeBuf) (maxRxDataLeft : Nat) :
    Except StreamError Unit × QueuedStreams :=
  if !isBidiId id && isLocalId id endpoint.isServer then (.error (.invalidStreamState id), conn)
  else
    match conn.getOrCreate endpoint id false with
    -- A frame of a collected stream is ignored.
    | .error .done => (.ok (), conn)
    | .error error => (.error error, conn)
    | .ok (stream, ranking, conn) =>
      if maxRxDataLeft < data.maxOff - stream.recv.maxOff then (.error .flowControl, conn)
      else
        match stream.recv.write data with
        | .error error => (.error error, conn)
        | .ok recv =>
          let conn := conn.set id { stream with recv := recv }
          (.ok (),
            if !stream.isReadable && recv.ready then conn.insertReadable ranking.priorityKey else conn)

/-- Processes a RESET_STREAM frame, with what the flow control of the connection has left. -/
def onResetStream (conn : QueuedStreams) (endpoint : Endpoint) (id errorCode finalSize maxRxDataLeft : Nat) :
    Except StreamError Unit × QueuedStreams :=
  if !isBidiId id && isLocalId id endpoint.isServer then (.error (.invalidStreamState id), conn)
  else
    match conn.getOrCreate endpoint id false with
    | .error .done => (.ok (), conn)
    | .error error => (.error error, conn)
    | .ok (stream, ranking, conn) =>
      match stream.recv.reset errorCode finalSize with
      | (.error error, recv) => (.error error, conn.set id { stream with recv := recv })
      | (.ok maxOffDelta, recv) =>
        let conn := conn.set id { stream with recv := recv }
        if maxRxDataLeft < maxOffDelta then (.error .flowControl, conn)
        else
          (.ok (),
            if !stream.isReadable && recv.ready then conn.insertReadable ranking.priorityKey else conn)

/-- Processes a STOP_SENDING frame. -/
def onStopSending (conn : QueuedStreams) (endpoint : Endpoint) (id errorCode : Nat) :
    Except StreamError Unit × QueuedStreams :=
  if !isLocalId id endpoint.isServer && !isBidiId id then (.error (.invalidStreamState id), conn)
  else
    match conn.getOrCreate endpoint id false with
    | .error .done => (.ok (), conn)
    | .error error => (.error error, conn)
    | .ok (stream, ranking, conn) =>
      match stream.send.stop errorCode with
      | .error _ => (.ok (), conn)
      | .ok (_, send) =>
        let conn := conn.set id { stream with send := send }
        (.ok (),
          if !stream.isWritable ranking.sendLowat then conn.insertWritable ranking.priorityKey else conn)

/-- Processes a MAX_STREAM_DATA frame. -/
def onMaxStreamData (conn : QueuedStreams) (endpoint : Endpoint) (id max : Nat) :
    Except StreamError Unit × QueuedStreams :=
  if !isBidiId id && !isLocalId id endpoint.isServer then (.error (.invalidStreamState id), conn)
  else
    match conn.getOrCreate endpoint id false with
    | .error .done => (.ok (), conn)
    | .error error => (.error error, conn)
    | .ok (stream, ranking, conn) =>
      let stream' := { stream with send := { stream.send with main := stream.send.main.updateMaxData max } }
      let conn := conn.set id stream'
      let conn :=
        if stream'.send.isFlushable && !stream.send.isFlushable then conn.insertFlushable ranking.priorityKey
        else conn
      (.ok (), if stream'.isWritable ranking.sendLowat then conn.insertWritable ranking.priorityKey else conn)

/-- Collects a stream that is complete and not readable; a readable one is left to `streamRecv`. -/
def collectComplete (conn : QueuedStreams) (id : Nat) (stream : Stream) : QueuedStreams :=
  if stream.isComplete && !stream.isReadable then conn.collect id stream.isLocal else conn

/-- Processes the acknowledgment of a STREAM frame. -/
def onStreamAcked (conn : QueuedStreams) (id off len : Nat) : QueuedStreams :=
  match conn.find id with
  | none => conn
  | some (stream, _) =>
    let stream := { stream with send := stream.send.ackAndDrop off len }
    (conn.set id stream).collectComplete id stream

/-- Processes the acknowledgment of a RESET_STREAM frame. -/
def onResetAcked (conn : QueuedStreams) (id : Nat) : QueuedStreams :=
  match conn.find id with
  | none => conn
  | some (stream, _) => conn.collectComplete id stream

/-- Marks a lost STREAM frame to be sent again. -/
def onStreamLost (conn : QueuedStreams) (id off len : Nat) (fin : Bool) : QueuedStreams :=
  match conn.find id with
  | none => conn
  | some (stream, ranking) =>
    let send := stream.send.retransmit off len
    let conn := conn.set id { stream with send := send }
    let emptyFin := decide (len = 0) && fin
    if (send.isFlushable || emptyFin) && !stream.send.isFlushable then conn.insertFlushable ranking.priorityKey
    else conn

/-- The length of the header of a STREAM frame. -/
def streamHeaderLen (id off : Nat) : Except WireError Nat := do
  let idLen ← Octets.varintLen id
  let offLen ← Octets.varintLen off
  return 1 + idLen + offLen + 2

/-- The loop that writes a STREAM frame into the room left in a packet; each turn that goes on unqueues a stream. -/
def flushLoop (left : Nat) : Nat → QueuedStreams → QueuedStreams
  | 0, conn => conn
  | fuel + 1, conn =>
    match conn.flushable with
    | [] => conn
    | key :: _ =>
      match conn.find key.id with
      | none => flushLoop left fuel (conn.removeFlushable key)
      | some (stream, ranking) =>
        -- A stream that was stopped sends nothing.
        if stream.send.main.error.isSome then flushLoop left fuel (conn.removeFlushable key)
        else
          match streamHeaderLen key.id stream.send.main.offFront with
          | .error _ => conn
          | .ok hdrLen =>
            if left < hdrLen then flushLoop left fuel (conn.removeFlushable ranking.priorityKey)
            else
              match stream.send.emit (left - hdrLen) with
              | (.error _, send) => conn.set key.id { stream with send := send }
              | (.ok _, send) =>
                let conn := conn.set key.id { stream with send := send }
                if !send.isFlushable then conn.removeFlushable ranking.priorityKey
                else if ranking.incremental then
                  (conn.removeFlushable ranking.priorityKey).insertFlushable ranking.priorityKey
                else conn

/-- Writes a STREAM frame into the room left in a packet. -/
def flush (conn : QueuedStreams) (left : Nat) : QueuedStreams := flushLoop left conn.flushable.length conn

/-- What happens to the streams of a connection; the state of the connection itself comes with the event. -/
inductive QueueEvent where
  /-- The application reads. -/
  | streamRecv (id outLen : Nat)
  /-- The application writes. -/
  | streamSend (id : Nat) (buf : Bytes) (fin : Bool) (cap : Nat)
  | streamPriority (id urgency : Nat) (incremental : Bool)
  /-- The application shuts one side down. -/
  | streamShutdown (id : Nat) (direction : Shutdown)
  /-- The application asks for a stream to read. -/
  | streamReadableNext
  /-- The application asks for a stream to write. -/
  | streamWritableNext (txCap : Nat)
  /-- The application asks for room. -/
  | streamWritable (id len txCap : Nat)
  | stream (id : Nat) (data : Bytes) (off : Nat) (fin : Bool) (maxRxDataLeft : Nat)
  | resetStream (id errorCode finalSize maxRxDataLeft : Nat)
  | stopSending (id errorCode : Nat)
  | maxStreamData (id max : Nat)
  | maxStreams (bidi : Bool) (max : Nat)
  | streamAcked (id off len : Nat)
  /-- A RESET_STREAM frame is acknowledged. -/
  | resetAcked (id : Nat)
  | streamLost (id off len : Nat) (fin : Bool)
  /-- A STREAM frame is sent. -/
  | flush (left : Nat)
  | sentMaxStreams (bidi : Bool)
  /-- The flow control of the receive side of a stream moves on. -/
  | recvFlow (id : Nat) (flowControl : FlowControl)

/-- One step of the streams of a connection. -/
def next (endpoint : Endpoint) (conn : QueuedStreams) : QueueEvent → QueuedStreams
  | .streamRecv id outLen => (conn.streamRecv endpoint id outLen).2
  | .streamSend id buf fin cap => (conn.streamSend endpoint id buf fin cap).2
  | .streamPriority id urgency incremental => (conn.streamPriority endpoint id urgency incremental).2
  | .streamShutdown id direction => (conn.streamShutdown endpoint id direction).2
  | .streamReadableNext => conn.streamReadableNext.2
  | .streamWritableNext txCap => (conn.streamWritableNext txCap).2
  | .streamWritable id len txCap => (conn.streamWritable id len txCap).2
  | .stream id data off fin left => (conn.onStream endpoint id (RangeBuf.fromSlice data off fin) left).2
  | .resetStream id errorCode finalSize left => (conn.onResetStream endpoint id errorCode finalSize left).2
  | .stopSending id errorCode => (conn.onStopSending endpoint id errorCode).2
  | .maxStreamData id max => (conn.onMaxStreamData endpoint id max).2
  | .maxStreams bidi max =>
    { conn with
      map := if bidi then conn.map.updatePeerMaxStreamsBidi max else conn.map.updatePeerMaxStreamsUni max }
  | .streamAcked id off len => conn.onStreamAcked id off len
  | .resetAcked id => conn.onResetAcked id
  | .streamLost id off len fin => conn.onStreamLost id off len fin
  | .flush left => conn.flush left
  | .sentMaxStreams bidi =>
    { conn with map := if bidi then conn.map.updateMaxStreamsBidi else conn.map.updateMaxStreamsUni }
  | .recvFlow id flowControl =>
    match conn.find id with
    | none => conn
    | some (stream, _) => conn.set id { stream with recv := { stream.recv with flowControl := flowControl } }

end QueuedStreams

end Flexicast
