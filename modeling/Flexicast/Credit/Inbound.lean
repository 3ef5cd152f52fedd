import Flexicast.Credit.FlowControl
import Flexicast.Lib.Runs
import Flexicast.Stream.Streams

/-! The receive side of a connection: its streams, the data they are charged for, and the limits it advertises. -/

namespace Flexicast

/-- The size that the receive window of a connection starts with at most. -/
def defaultConnectionWindow : Nat := 48 * 1024

/-- Whether every value of a result meets a condition can be decided. -/
@[reducible] def decidableOk {α : Type} (p : α → Prop) [DecidablePred p] :
    (result : Except StreamError α) → Decidable (∀ value, result = .ok value → p value)
  | .ok value => decidable_of_iff (p value) ⟨fun met _ same => Except.ok.inj same ▸ met, fun all => all value rfl⟩
  | .error _ => isTrue fun _ same => nomatch same

/-- Whether the value of an option meets a condition can be decided. -/
@[reducible] def decidableSome {α : Type} (p : α → Prop) [DecidablePred p] :
    (option : Option α) → Decidable (∀ value, option = some value → p value)
  | some value => decidable_of_iff (p value) ⟨fun met _ same => Option.some.inj same ▸ met, fun all => all value rfl⟩
  | none => isTrue fun _ same => nomatch same

/-- A stream on its receive side, with the history of its accounts. -/
structure InStream where
  recv : RotatingRecvBuf
  sendComplete : Bool
  /-- Whether the stream is among those that need a new limit. -/
  almostFull : Bool
  /-- Whether the stream was completed and collected. -/
  collected : Bool
  limitSent : Bool
  /-- The largest offset received, which is the final size once the stream was reset. -/
  largest : Nat
  /-- What the connection counted as received on this stream. -/
  charged : Nat
  /-- What the connection counted as consumed on this stream. -/
  credited : Nat
  deriving DecidableEq

namespace InStream

/-- A stream before its first frame. -/
def new (maxRxData maxWindow : Nat) : InStream where
  recv := RotatingRecvBuf.new maxRxData maxWindow
  sendComplete := false
  almostFull := false
  collected := false
  limitSent := false
  largest := 0
  charged := 0
  credited := 0

/-- Whether the stream is complete. -/
def isComplete (stream : InStream) (id : Nat) (isServer : Bool) : Bool :=
  match isBidiId id, isLocalId id isServer with
  | true, _ => stream.recv.recv.isFin && stream.sendComplete
  | false, true => stream.sendComplete
  | false, false => stream.recv.recv.isFin

/-- The stream is collected when it is complete. -/
def collectComplete (stream : InStream) (id : Nat) (isServer : Bool) : InStream :=
  if stream.isComplete id isServer then { stream with collected := true } else stream

end InStream

/-- What happens on the receive side of a connection. -/
inductive InboundEvent where
  /-- A stream is opened without receiving anything. -/
  | opened (id : Nat)
  /-- A STREAM frame arrives; a new stream may be one too many. -/
  | stream (id : Nat) (refused : Bool) (data : Bytes) (off : Nat) (fin : Bool)
  /-- A RESET_STREAM frame arrives; a new stream may be one too many. -/
  | resetStream (id : Nat) (refused : Bool) (errorCode finalSize : Nat)
  /-- The application reads into an output of some size. -/
  | streamRecv (id outLen : Nat)
  /-- The application shuts the stream down for reading. -/
  | streamShutdown (id : Nat)
  /-- The stream is rotated to start at an offset. -/
  | fcSetOffsetAt (id offset : Nat)
  /-- The send side of a stream is complete. -/
  | sendDone (id : Nat)
  /-- A packet is filled with a MAX_STREAM_DATA frame, which may not fit. -/
  | sendMaxStreamData (id : Nat) (recent fits : Bool) (minWindow : Nat)
  /-- A packet is filled with a MAX_DATA frame, which may not fit. -/
  | sendMaxData (recent fits : Bool)
  | maxStreamDataLost (id : Nat)
  | maxDataLost

/-- What is configured for the receive side of a connection. -/
structure InboundConfig where
  isServer : Bool
  initialMaxData : Nat
  params : StreamParams
  maxStreamWindow : Nat
  maxConnectionWindow : Nat
  deriving DecidableEq

/-- A server whose limits are a hundred bytes at first. -/
def smallServer : InboundConfig := ⟨true, 100, ⟨100, 100, 100⟩, 1000, 1000⟩

/-- The receive side of a connection. -/
structure Inbound where
  config : InboundConfig
  /-- The streams, which are kept here after they were collected. -/
  streams : OrdMap InStream
  rxData : Nat
  flowControl : FlowControl
  /-- Whether the connection needs a new limit. -/
  almostFull : Bool
  closed : Option StreamError
  deriving DecidableEq

namespace Inbound

/-- A connection before its first frame. -/
def new (config : InboundConfig) : Inbound where
  config := config
  streams := OrdMap.empty
  rxData := 0
  flowControl := FlowControl.new config.initialMaxData (min (config.initialMaxData / 2 * 3) defaultConnectionWindow)
    config.maxConnectionWindow
  almostFull := false
  closed := none

/-- The limit of the connection. -/
def maxRxData (self : Inbound) : Nat := self.flowControl.maxData

/-- The stream with an identifier, unless it was collected. -/
def get (self : Inbound) (id : Nat) : Option InStream :=
  (self.streams.find? id).filter fun stream => !stream.collected

/-- The connection after the stream with an identifier was changed. -/
def set (self : Inbound) (id : Nat) (stream : InStream) : Inbound :=
  { self with streams := self.streams.insert id stream }

/-- Whether a stream is a unidirectional one of this endpoint, on which nothing is received. -/
def sendOnly (self : Inbound) (id : Nat) : Bool := !isBidiId id && isLocalId id self.config.isServer

/-- The first limit of a stream, which the parameters of the peer do not matter for. -/
def initialMaxStreamData (self : Inbound) (id : Nat) : Nat :=
  (StreamMap.initialLimits self.config.params self.config.params (isLocalId id self.config.isServer) (isBidiId id)).1

/-- A new stream with an identifier. -/
def newStream (self : Inbound) (id : Nat) : InStream :=
  InStream.new (self.initialMaxStreamData id) self.config.maxStreamWindow

/-- The stream with an identifier, or a new one that the peer opens; a collected one is done. -/
def getOrCreateStream (self : Inbound) (id : Nat) (refused : Bool) : Except StreamError InStream :=
  match self.streams.find? id with
  | some stream => if stream.collected then .error .done else .ok stream
  | none =>
    if isLocalId id self.config.isServer then .error (.invalidStreamState id)
    else if refused then .error .streamLimit
    else .ok (self.newStream id)

/-- Counts consumed data, which may make a new limit necessary. -/
def consume (self : Inbound) (count : Nat) : Except StreamError Inbound :=
  match (self.flowControl.addConsumed count).shouldUpdateMaxData with
  | none => .error .overflow
  | some due =>
    .ok { self with flowControl := self.flowControl.addConsumed count, almostFull := self.almostFull || due }

/-- Opens a stream without receiving anything. -/
def openStream (self : Inbound) (id : Nat) : Inbound :=
  match self.streams.find? id with
  | some _ => self
  | none => self.set id (self.newStream id)

/-- The stream after a chunk was written to it, for which the connection was charged. -/
def written (stream : InStream) (rot : RotatingRecvBuf) (maxOff delta : Nat) : InStream :=
  { stream with
    recv := rot
    largest := max stream.largest maxOff
    charged := stream.charged + delta
    credited := stream.credited + if stream.recv.recv.drain then delta else 0 }

/-- Handles a STREAM frame. -/
def onStream (self : Inbound) (id : Nat) (refused : Bool) (buf : RangeBuf) :
    Except StreamError Inbound :=
  -- The peer cannot send on a unidirectional stream of this endpoint.
  if self.sendOnly id then .error (.invalidStreamState id)
  else if self.maxRxData < self.rxData then .error .overflow
  else
    match self.getOrCreateStream id refused with
    -- Frames of a collected stream are ignored.
    | .error .done => .ok self
    | .error error => .error error
    | .ok stream =>
      let delta := buf.maxOff - stream.recv.recv.maxOff
      if self.maxRxData - self.rxData < delta then .error .flowControl
      else
        match stream.recv.write buf with
        | (.error error, _) => .error error
        | (.ok _, rot) =>
          let after := { self.set id (written stream rot buf.maxOff delta) with rxData := self.rxData + delta }
          -- Data of a stream that is drained is not read by anyone, so it counts as consumed.
          if stream.recv.recv.drain then after.consume delta else .ok after

/-- The stream after it was reset, for which the connection was charged. -/
def wasReset (stream : InStream) (rot : RotatingRecvBuf) (finalSize delta : Nat) : InStream :=
  { stream with recv := rot, largest := finalSize, charged := stream.charged + delta }

/-- Handles a RESET_STREAM frame. -/
def onResetStream (self : Inbound) (id : Nat) (refused : Bool) (errorCode finalSize : Nat) :
    Except StreamError Inbound :=
  if self.sendOnly id then .error (.invalidStreamState id)
  else if self.maxRxData < self.rxData then .error .overflow
  else
    match self.getOrCreateStream id refused with
    | .error .done => .ok self
    | .error error => .error error
    | .ok stream =>
      match stream.recv.reset errorCode finalSize with
      | (.error error, _) => .error error
      | (.ok delta, rot) =>
        if self.maxRxData - self.rxData < delta then .error .flowControl
        else .ok { self.set id (wasReset stream rot finalSize delta) with rxData := self.rxData + delta }

/-- The stream after some of it was read. -/
def wasRead (stream : InStream) (rot : RotatingRecvBuf) (read : Nat) (full : Bool) : InStream :=
  { stream with recv := rot, credited := stream.credited + read, almostFull := stream.almostFull || full }

/-- Reads from a stream; an error that the application gets does not close the connection. -/
def streamRecv (self : Inbound) (id outLen : Nat) : Except StreamError Inbound :=
  if self.sendOnly id then .ok self
  else
    match self.get id with
    | none => .ok self
    | some stream =>
      if stream.recv.recv.ready = false then .ok self
      else
        match stream.recv.emit outLen with
        | (.error _, rot) => .ok (self.set id ({ stream with recv := rot }.collectComplete id self.config.isServer))
        | (.ok (out, _), rot) =>
          match rot.almostFull with
          | none => .error .overflow
          | some full =>
            (self.set id ((wasRead stream rot out.length full).collectComplete id self.config.isServer)).consume
              out.length

/-- Shuts a stream down for reading; an error that the application gets does not close the connection. -/
def streamShutdown (self : Inbound) (id : Nat) : Inbound :=
  if self.sendOnly id then self
  else
    match self.get id with
    | none => self
    | some stream =>
      match stream.recv.shutDown with
      | .error _ => self
      | .ok rot => self.set id { stream with recv := rot }

/-- Rotates a stream to start at an offset. -/
def fcSetOffsetAt (self : Inbound) (id offset : Nat) : Inbound :=
  match self.get id with
  | none => self
  | some stream => self.set id { stream with recv := stream.recv.fcSetOffsetAt offset }

/-- The send side of a stream is complete; unless it is still readable, the stream may be collected. -/
def sendDone (self : Inbound) (id : Nat) : Inbound :=
  match self.get id with
  | none => self
  | some stream =>
    let stream := { stream with sendComplete := true }
    self.set id (if stream.recv.recv.ready then stream else stream.collectComplete id self.config.isServer)

/-- The stream after its new limit was put into a packet, which may not have room for it. -/
def limited (stream : InStream) (recent fits : Bool) : InStream :=
  let tuned := stream.recv.withFlow (·.autotuneWindow recent)
  if fits then { stream with recv := tuned.withFlow (·.updateMaxData), almostFull := false, limitSent := true }
  else { stream with recv := tuned }

/-- Fills a packet with the new limit of a stream; the window of the connection gets a lower bound. -/
def sendMaxStreamData (self : Inbound) (id : Nat) (recent fits : Bool) (minWindow : Nat) : Inbound :=
  match self.streams.find? id with
  | none => self
  | some stream =>
    if !stream.almostFull then self
    -- The stream does not exist any more, so it needs no limit.
    else if stream.collected then self.set id { stream with almostFull := false }
    else
      let after := self.set id (limited stream recent fits)
      if fits then
        { after with flowControl := self.flowControl.ensureWindowLowerBound minWindow, almostFull := true }
      else after

/-- Fills a packet with the new limit of the connection. -/
def sendMaxData (self : Inbound) (recent fits : Bool) : Inbound :=
  if self.almostFull && decide (self.maxRxData < self.flowControl.maxDataNext) then
    let tuned := self.flowControl.autotuneWindow recent
    if fits then { self with flowControl := tuned.updateMaxData, almostFull := false }
    else { self with flowControl := tuned }
  else self

/-- The limit of a stream was lost, and is sent again when the stream still exists. -/
def maxStreamDataLost (self : Inbound) (id : Nat) : Inbound :=
  match self.get id with
  | none => self
  | some stream => if stream.limitSent then self.set id { stream with almostFull := true } else self

/-- One step of a connection that is open. -/
def step (self : Inbound) : InboundEvent → Except StreamError Inbound
  | .opened id => .ok (self.openStream id)
  | .stream id refused data off fin => self.onStream id refused (RangeBuf.fromSlice data off fin)
  | .resetStream id refused errorCode finalSize => self.onResetStream id refused errorCode finalSize
  | .streamRecv id outLen => self.streamRecv id outLen
  | .streamShutdown id => .ok (self.streamShutdown id)
  | .fcSetOffsetAt id offset => .ok (self.fcSetOffsetAt id offset)
  | .sendDone id => .ok (self.sendDone id)
  | .sendMaxStreamData id recent fits minWindow => .ok (self.sendMaxStreamData id recent fits minWindow)
  | .sendMaxData recent fits => .ok (self.sendMaxData recent fits)
  | .maxStreamDataLost id => .ok (self.maxStreamDataLost id)
  | .maxDataLost => .ok { self with almostFull := true }

/-- One step; an error closes the connection, which then stays as it is. -/
def next (self : Inbound) (event : InboundEvent) : Inbound :=
  if self.closed.isSome then self
  else
    match self.step event with
    | .ok after => after
    | .error error => { self with closed := some error }

/-- A step returns no error. -/
def Accepted (self : Inbound) (event : InboundEvent) : Prop := (self.next event).closed = none

instance (self : Inbound) (event : InboundEvent) : Decidable (self.Accepted event) :=
  inferInstanceAs (Decidable (_ = none))

/-- The connection after a run. -/
def run (self : Inbound) (events : List InboundEvent) : Inbound := Runs.run next self events

end Inbound

end Flexicast
