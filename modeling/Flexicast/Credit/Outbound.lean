import Flexicast.Lib.Runs
import Flexicast.Stream.Sender
import Flexicast.Stream.Streams

/-! The send side of a connection: its streams, and the data that they may still send. -/

namespace Flexicast

/-- A stream on its send side. -/
structure OutStream where
  send : SendBuf
  /-- Whether the stream was completed and collected. -/
  collected : Bool
  deriving DecidableEq

/-- What is configured for the send side of a connection. -/
structure OutboundConfig where
  isServer : Bool
  initialMaxData : Nat
  /-- The first limits of the streams, which the peer set. -/
  params : StreamParams
  deriving DecidableEq

/-- What happens on the send side of a connection. -/
inductive OutboundEvent where
  /-- A stream is opened without sending anything. -/
  | opened (id : Nat)
  /-- The application writes; a new stream may be one too many. -/
  | streamSend (id : Nat) (refused : Bool) (data : Bytes) (fin : Bool)
  /-- A packet is filled with a STREAM frame. -/
  | emit (id outLen : Nat)
  | lost (index : Nat)
  /-- The frame of some index is acknowledged. -/
  | acked (index : Nat)
  /-- A STOP_SENDING frame arrives; a new stream may be one too many. -/
  | stopSending (id : Nat) (refused : Bool) (errorCode : Nat)
  /-- The application shuts the stream down for writing. -/
  | streamShutdown (id cwinAvailable : Nat)
  | maxData (max : Nat)
  /-- A MAX_STREAM_DATA frame arrives; a new stream may be one too many. -/
  | maxStreamData (id : Nat) (refused : Bool) (max : Nat)
  /-- A stream is complete on its receive side, if it has one. -/
  | recvDone (id : Nat)
  /-- A packet was received, or a path changed. -/
  | updateTxCap (cwinAvailable : Nat)
  /-- There is nothing left that may be sent now. -/
  | sendDone
  /-- The rate of delivery is measured, when a packet is sent or an acknowledgment arrives. -/
  | checkAppLimited (dgramBytes cwinAvailable : Nat)

/-- The send side of a connection. -/
structure Outbound where
  config : OutboundConfig
  /-- The streams, which are kept here after they were collected. -/
  streams : OrdMap OutStream
  txData : Nat
  maxTxData : Nat
  /-- How much the application may write. -/
  txCap : Nat
  /-- The data that was written and not acknowledged. -/
  txBuffered : Nat
  /-- The data that had been written when there was nothing left that could be sent. -/
  lastTxData : Nat
  /-- The STREAM frames that were sent, each with its stream. -/
  sent : List (Nat × Frame)
  /-- Whether more was ever taken back than had been written. -/
  saturated : Bool
  /-- Whether less had been written than before when the rate of delivery was measured. -/
  lastSaturated : Bool
  deriving DecidableEq

namespace Outbound

/-- A connection before its first write. -/
def new (config : OutboundConfig) : Outbound where
  config := config
  streams := OrdMap.empty
  txData := 0
  maxTxData := config.initialMaxData
  txCap := 0
  txBuffered := 0
  lastTxData := 0
  sent := []
  saturated := false
  lastSaturated := false

variable (self : Outbound)

/-- The stream with an identifier, unless it was collected. -/
def get (id : Nat) : Option OutStream := (self.streams.find? id).filter fun stream => !stream.collected

/-- The connection after the stream with an identifier was changed. -/
def set (id : Nat) (stream : OutStream) : Outbound := { self with streams := self.streams.insert id stream }

/-- The connection after the send buffer of a stream was changed. -/
def setSend (id : Nat) (stream : OutStream) (send : SendBuf) : Outbound := self.set id { stream with send := send }

/-- Whether a stream is a unidirectional one of the peer, on which nothing is sent. -/
def recvOnly (id : Nat) : Bool := !isBidiId id && !isLocalId id self.config.isServer

/-- A new stream with an identifier, for which the parameters of this endpoint do not matter. -/
def newStream (id : Nat) : OutStream :=
  ⟨SendBuf.new (StreamMap.initialLimits self.config.params self.config.params
    (isLocalId id self.config.isServer) (isBidiId id)).2, false⟩

/-- The stream with an identifier, or a new one; a collected one is done. -/
def getOrCreateStream (id : Nat) (isLocal refused : Bool) : Except StreamError OutStream :=
  match self.streams.find? id with
  | some stream => if stream.collected then .error .done else .ok stream
  | none =>
    if isLocal != isLocalId id self.config.isServer then .error (.invalidStreamState id)
    else if refused then .error .streamLimit
    else .ok (self.newStream id)

/-- Opens a stream without sending anything. -/
def openStream (id : Nat) : Outbound :=
  match self.streams.find? id with
  | some _ => self
  | none => self.set id (self.newStream id)

/-- Updates how much the application may write. -/
def updateTxCap (cwinAvailable : Nat) : Except StreamError Unit × Outbound :=
  if self.maxTxData < self.txData then (.error .overflow, self)
  else (.ok (), { self with txCap := min cwinAvailable (self.maxTxData - self.txData) })

/-- Takes data back that was written and not sent. -/
def clawBack (unsent : Nat) : Outbound :=
  { self with
    txData := self.txData - unsent
    txBuffered := self.txBuffered - unsent
    saturated := self.saturated || decide (self.txData < unsent) }

/-- The application writes. -/
def streamSend (id : Nat) (refused : Bool) (data : Bytes) (fin : Bool) : Except StreamError Unit × Outbound :=
  if self.recvOnly id then (.error (.invalidStreamState id), self)
  -- Whether the limit blocks the write is computed first.
  else if self.maxTxData < self.txData then (.error .overflow, self)
  else
    match self.getOrCreateStream id true refused with
    | .error error => (.error error, self)
    | .ok stream =>
      if self.txCap = 0 ∧ data ≠ [] then (.error .done, self.set id stream)
      else
        let fin := if self.txCap < data.length then false else fin
        let data := data.take self.txCap
        match stream.send.write data fin with
        | .error error => (.error error, self.set id stream)
        | .ok (sent, send) =>
          (if sent = 0 ∧ data ≠ [] then .error .done else .ok (),
            { self.setSend id stream send with
              txCap := self.txCap - sent
              txData := self.txData + sent
              txBuffered := self.txBuffered + sent })

/-- Fills a packet with a STREAM frame, unless the stream was stopped. -/
def emit (id outLen : Nat) : Outbound :=
  match self.get id with
  | none => self
  | some stream =>
    if stream.send.error.isSome then self
    else
      let frame : Frame :=
        ⟨stream.send.offFront, (stream.send.emit outLen).1.1.length, (stream.send.emit outLen).1.2⟩
      { self.setSend id stream (stream.send.emit outLen).2 with sent := self.sent ++ [(id, frame)] }

/-- A frame is lost; it is sent again when the stream still exists. -/
def lost (index : Nat) : Outbound :=
  match self.sent[index]? with
  | none => self
  | some (id, frame) =>
    match self.get id with
    | none => self
    | some stream => self.setSend id stream (stream.send.retransmit frame.off frame.len)

/-- A frame is acknowledged. -/
def acked (index : Nat) : Outbound :=
  match self.sent[index]? with
  | none => self
  | some (id, frame) =>
    match self.get id with
    | none => self
    | some stream =>
      { self.setSend id stream (stream.send.ackAndDrop frame.off frame.len) with
        txBuffered := self.txBuffered - frame.len }

/-- Handles a STOP_SENDING frame. -/
def stopSending (id : Nat) (refused : Bool) (errorCode : Nat) : Except StreamError Unit × Outbound :=
  if self.recvOnly id then (.error (.invalidStreamState id), self)
  else
    match self.getOrCreateStream id false refused with
    -- Frames of a collected stream are ignored.
    | .error .done => (.ok (), self)
    | .error error => (.error error, self)
    | .ok stream =>
      match stream.send.stop errorCode with
      | .error _ => (.ok (), self.set id stream)
      | .ok ((_, unsent), send) => (.ok (), (self.setSend id stream send).clawBack unsent)

/-- Shuts a stream down for writing. -/
def streamShutdown (id cwinAvailable : Nat) : Except StreamError Unit × Outbound :=
  if self.recvOnly id then (.error (.invalidStreamState id), self)
  else
    match self.get id with
    | none => (.error .done, self)
    | some stream =>
      match stream.send.shutDown with
      | .error error => (.error error, self)
      | .ok ((_, unsent), send) => ((self.setSend id stream send).clawBack unsent).updateTxCap cwinAvailable

/-- Handles a MAX_STREAM_DATA frame. -/
def onMaxStreamData (id : Nat) (refused : Bool) (max : Nat) : Except StreamError Unit × Outbound :=
  if self.recvOnly id then (.error (.invalidStreamState id), self)
  else
    match self.getOrCreateStream id false refused with
    | .error .done => (.ok (), self)
    | .error error => (.error error, self)
    | .ok stream => (.ok (), self.setSend id stream (stream.send.updateMaxData max))

/-- Collects a stream whose receive side is complete, if it has one, when its send side is as well. -/
def recvDone (id : Nat) : Outbound :=
  match self.get id with
  | none => self
  | some stream =>
    if self.recvOnly id || stream.send.isComplete then self.set id { stream with collected := true } else self

/-- Measures whether less is written than could be sent. -/
def checkAppLimited (dgramBytes cwinAvailable : Nat) : Bool × Outbound :=
  if self.txBuffered + dgramBytes < cwinAvailable then
    (decide (self.txData - self.lastTxData < cwinAvailable) && decide (0 < cwinAvailable),
      { self with lastSaturated := self.lastSaturated || decide (self.txData < self.lastTxData) })
  else (false, self)

/-- One step. -/
def step : OutboundEvent → Except StreamError Unit × Outbound
  | .opened id => (.ok (), self.openStream id)
  | .streamSend id refused data fin => self.streamSend id refused data fin
  | .emit id outLen => (.ok (), self.emit id outLen)
  | .lost index => (.ok (), self.lost index)
  | .acked index => (.ok (), self.acked index)
  | .stopSending id refused errorCode => self.stopSending id refused errorCode
  | .streamShutdown id cwinAvailable => self.streamShutdown id cwinAvailable
  | .maxData max => (.ok (), { self with maxTxData := Nat.max self.maxTxData max })
  | .maxStreamData id refused max => self.onMaxStreamData id refused max
  | .recvDone id => (.ok (), self.recvDone id)
  | .updateTxCap cwinAvailable => self.updateTxCap cwinAvailable
  | .sendDone => (.ok (), { self with lastTxData := self.txData })
  | .checkAppLimited dgramBytes cwinAvailable => (.ok (), (self.checkAppLimited dgramBytes cwinAvailable).2)

/-- One step, with what it leaves when it fails. -/
def next (event : OutboundEvent) : Outbound := (self.step event).2

end Outbound

end Flexicast
