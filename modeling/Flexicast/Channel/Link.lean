import Flexicast.Channel.Duplicates
import Flexicast.Channel.KeyDelivery

/-! A client and its server over a link that loses nothing, and when the two agree on what was joined. -/

namespace Flexicast

namespace Channel

/-- A frame of the server. -/
inductive Down where
  | announce (announced : McAnnounceData)
  | key (frame : McKey)
  deriving DecidableEq

/-- A client and its server, with the frames between them. -/
structure Link where
  /-- The client, once a channel was announced to it. -/
  client : Option Party
  server : Party
  clientKeys : PartyKeys
  serverKeys : PartyKeys
  /-- The `MC_STATE` frames on their way, in the order they were sent. -/
  up : List McState
  /-- The `MC_STATE` frames that were processed, and whose acknowledgments are on their way. -/
  upDone : List McState
  down : List Down
  downDone : List Down
  deriving DecidableEq

/-- What may happen; a frame is delivered once and in order, and then acknowledged at any time. -/
inductive LinkEvent where
  /-- The server has a further channel to announce. -/
  | announce (announced : McAnnounceData)
  | configure (secret : Bytes) (fcPathId : Nat) (algo : Algorithm) (mcAnnounceId : Option Nat)
  | fcSetFirstPn (pn : Option Nat)
  | announceSent
  | keySent
  /-- The client asks for a channel; while it leaves one, it may already ask for another. -/
  | join (fcChanId : Option Bytes)
  | leave
  | pathCreated (pathId : Nat)
  /-- The client sends an `MC_STATE` frame, if it has one to send. -/
  | stateSent
  | upDelivered (createMcPath : Except FcError Nat)
  | downDelivered
  | upAcked (position : Nat)
  | downAcked (position : Nat)

namespace Link

/-- A server with the channels that it announces, and their keys. -/
def new (first : McAnnounceData × ChannelKey) (rest : List (McAnnounceData × ChannelKey)) : Link where
  client := none
  server := ⟨⟨.serverUnicast .unaware, { first.1 with isProcessed := false } :: rest.map Prod.fst, false, false, false,
    none, none⟩, false⟩
  clientKeys := ⟨[], none, none, []⟩
  serverKeys := ⟨(first :: rest).map Prod.snd, none, none, []⟩
  up := []
  upDone := []
  down := []
  downDone := []

/-- The server's attributes with the keys. -/
def keyed (self : Link) : KeyedAttributes := self.serverKeys.keyed self.server.flexicast

/-- Changes the client, if there is one. -/
def onClient (self : Link) (change : Party → Party) : Link := { self with client := self.client.map change }

/-- The announcement that a server sends next, which is to an unaware client. -/
def nextAnnounce (server : Party) : Option McAnnounceData :=
  if server.closed || server.flexicast.mcRole ≠ .serverUnicast .unaware then none
  else server.flexicast.mcAnnounceData.find? fun announce => !announce.isProcessed

/-- The server sends an announcement, if it has one to send. -/
def sendAnnounce (self : Link) : Link :=
  match nextAnnounce self.server with
  | some announced => { self with
      server := self.server.call fun flexicast => .ok flexicast.sendAnnounce
      down := self.down ++ [.announce announced] }
  | none => self

/-- The server sends the key of the channel, if it has to. -/
def sendKey (self : Link) : Link :=
  match self.server.closed, self.keyed.mcKeyFrame with
  | false, .ok (some frame) => { self with
      server := { self.server with flexicast := (self.keyed.setMcKeyRead true).flexicast }
      down := self.down ++ [.key frame] }
  | _, _ => self

/-- The client processes a key; a failure closes the connection. -/
def receiveKey (fromSecret : Algorithm → Bytes → Bool) (self : Link) (frame : McKey) : Link :=
  match self.client with
  | none => self
  | some client =>
    if client.closed then self
    else
      match (self.clientKeys.keyed client.flexicast).processMcKey fromSecret frame with
      | .ok keyed => { self with
          client := some { client with flexicast := keyed.flexicast }
          clientKeys := keyed.keys }
      | .error _ => { self with client := some { client with closed := true } }

/-- The client processes a frame of the server. -/
def receiveDown (fromSecret : Algorithm → Bytes → Bool) (self : Link) : Down → Link
  | .announce announced => { self with
      client := some (System.learn self.client announced)
      clientKeys := if KeySystem.learns self.client then self.clientKeys.further else self.clientKeys }
  | .key frame => self.receiveKey fromSecret frame

/-- A frame of the server was acknowledged. -/
def ackDown (server : Party) : Down → Party
  | .announce announced => server.handle (Endpoint.onMcAnnounceAcked announced.channelId)
  | .key _ => server.handle fun flexicast =>
      { flexicast with mcKeyUpToDate := true }.updateClientState .decryptionKey none

/-- One event. -/
def next (fromSecret : Algorithm → Bytes → Bool) (self : Link) : LinkEvent → Link
  | .announce announced =>
    if self.server.closed then self
    else { self with
      server := self.server.call fun flexicast =>
        .ok { flexicast with mcAnnounceData := flexicast.mcAnnounceData ++ [announced] }
      serverKeys := self.serverKeys.further }
  | .configure secret fcPathId algo mcAnnounceId =>
    match self.server.closed, self.keyed.mcSetFlexicastReceiver secret fcPathId algo mcAnnounceId with
    | false, .ok keyed => { self with
        server := { self.server with flexicast := keyed.flexicast }
        serverKeys := keyed.keys }
    | _, _ => self
  | .fcSetFirstPn pn => { self with serverKeys := { self.serverKeys with fcFirstPn := pn } }
  | .announceSent => self.sendAnnounce
  | .keySent => self.sendKey
  | .join fcChanId => self.onClient fun party => party.call (·.mcJoinChannel fcChanId)
  | .leave => self.onClient fun party => party.call (·.mcLeaveChannel)
  | .pathCreated pathId => self.onClient fun party => party.call fun flexicast =>
      .ok { flexicast with fcPathId := some pathId }
  | .stateSent =>
    match self.client.bind Party.send? with
    | some (frame, party) => { self with client := some party, up := self.up ++ [frame] }
    | none => self
  | .upDelivered createMcPath =>
    match self.up with
    | frame :: rest => { self with
        server := self.server.receive frame createMcPath
        up := rest
        upDone := self.upDone ++ [frame] }
    | [] => self
  | .downDelivered =>
    match self.down with
    | frame :: rest => { self.receiveDown fromSecret frame with down := rest, downDone := self.downDone ++ [frame] }
    | [] => self
  | .upAcked position =>
    match self.upDone[position]? with
    | some frame => { self with
        client := self.client.map fun party => party.handle (·.onMcStateAcked frame)
        upDone := self.upDone.eraseIdx position }
    | none => self
  | .downAcked position =>
    match self.downDone[position]? with
    | some frame => { self with
        server := ackDown self.server frame
        downDone := self.downDone.eraseIdx position }
    | none => self

end Link

section Agreement

/-- The statuses of a member of a channel. -/
def McClientStatus.member : McClientStatus → Bool
  | .joinedNoKey => true
  | .joinedAndKey => true
  | .listenMcPath _ => true
  | .changing => true
  | _ => false

/-- Whether a party takes the client to be a member of a channel. -/
def FlexicastAttributes.member (self : FlexicastAttributes) : Bool :=
  match self.mcRole with
  | .client status => status.member
  | .serverUnicast status => status.member
  | _ => false

/-- Whether a party takes the client to be outside every channel, but aware of one or about to be. -/
def FlexicastAttributes.outside (self : FlexicastAttributes) : Bool :=
  self.mcRole = .client .awareUnjoined || self.mcRole = .serverUnicast .awareUnjoined ||
    self.mcRole = .serverUnicast .unaware

/-- Both parties name a channel, and the same one. -/
def SameChannel (client server : FlexicastAttributes) : Prop :=
  client.fcChanId.isSome = true ∧ client.fcChanId.map Prod.fst = server.fcChanId.map Prod.fst

/-- The client and its server agree on whether the client is a member of a channel, and of which one. -/
def Link.Agreed (self : Link) : Prop :=
  match self.client with
  | none => self.server.flexicast.outside = true
  | some client =>
    (client.flexicast.outside = true ∧ self.server.flexicast.outside = true) ∨
      (client.flexicast.member = true ∧ self.server.flexicast.member = true ∧
        SameChannel client.flexicast self.server.flexicast)

/-- A frame of the server that brings a key. -/
def Down.isKey : Down → Bool
  | .announce _ => false
  | .key _ => true

/-- Neither party is closed, no frame but announcements is on its way, and neither party has one to send. -/
structure Link.Quiescent (link : Link) : Prop where
  running : link.server.closed = false ∧ ∀ client ∈ link.client, client.closed = false
  up : link.up = [] ∧ link.upDone = []
  down : (∀ frame ∈ link.down, frame.isKey = false) ∧ ∀ frame ∈ link.downDone, frame.isKey = false
  client : ∀ client ∈ link.client, client.flexicast.shouldSendFcState = false
  server : link.server.flexicast.shouldSendFcState = false ∧ link.keyed.shouldSendFcKey = false

end Agreement

end Channel

end Flexicast
