import Flexicast.Channel.Keys
import Mathlib.Logic.Basic

/-! Keys that are sent again, and which late copies of them a client accepts. -/

namespace Flexicast

namespace Channel

/-- What a party knows of the keys of its channels. -/
structure PartyKeys where
  channelKeys : List ChannelKey
  fcFirstPn : Option Nat
  mcCrypto : Option (Algorithm × Bytes)
  recvPktNeedAck : List (Nat × Nat)
  deriving DecidableEq

/-- A further channel has no key yet. -/
def PartyKeys.further (self : PartyKeys) : PartyKeys := { self with channelKeys := self.channelKeys ++ [⟨none, none⟩] }

/-- The attributes of a party with its keys. -/
def PartyKeys.keyed (self : PartyKeys) (flexicast : FlexicastAttributes) : KeyedAttributes :=
  ⟨flexicast, self.channelKeys, self.fcFirstPn, self.mcCrypto, self.recvPktNeedAck⟩

/-- The keys of a party. -/
def KeyedAttributes.keys (self : KeyedAttributes) : PartyKeys :=
  ⟨self.channelKeys, self.fcFirstPn, self.mcCrypto, self.recvPktNeedAck⟩

/-- A client and its server with their keys, and the `MC_KEY` frames that were sent so far. -/
structure KeySystem where
  system : System
  serverKeys : PartyKeys
  clientKeys : PartyKeys
  keysSent : List McKey
  deriving DecidableEq

/-- What may happen; the network delivers any frame at any time, late and several times. -/
inductive KeyEvent where
  /-- Anything but the sending and the receiving of a key. -/
  | around (event : Event)
  | configure (secret : Bytes) (fcPathId : Nat) (algo : Algorithm) (mcAnnounceId : Option Nat)
  | fcSetFirstPn (pn : Option Nat)
  /-- A packet is built, and the key fits into it or not. -/
  | keySent (fits : Bool)
  | keyDelivered (sent : Nat)

namespace KeySystem

/-- A server with the channels that it announces, and their keys. -/
def new (first : McAnnounceData × ChannelKey) (rest : List (McAnnounceData × ChannelKey)) : KeySystem where
  system := System.new first.1 (rest.map Prod.fst)
  serverKeys := ⟨(first :: rest).map Prod.snd, none, none, []⟩
  clientKeys := ⟨[], none, none, []⟩
  keysSent := []

/-- The server's attributes with the keys. -/
def server (self : KeySystem) : KeyedAttributes := self.serverKeys.keyed self.system.server.flexicast

/-- Whether a client learns of a channel. -/
def learns (client : Option Party) : Bool := !(client.any Party.closed)

/-- An event of the system around the keys. -/
def nextAround (self : KeySystem) : Event → KeySystem
  | .keySent => self
  | .keyReceived => self
  | .announce announced =>
    let system := self.system.next (.announce announced)
    if self.system.server.closed then { self with system := system }
    else { self with system := system, serverKeys := self.serverKeys.further }
  | .announceReceived announced =>
    let system := self.system.next (.announceReceived announced)
    if announced < self.system.server.flexicast.mcAnnounceData.length && learns self.system.client then
      { self with system := system, clientKeys := self.clientKeys.further }
    else { self with system := system }
  | event => { self with system := self.system.next event }

/-- The server builds a packet. -/
def sendKey (self : KeySystem) (fits : Bool) : KeySystem :=
  match self.system.server.closed, self.server.mcKeyFrame with
  | false, .ok (some frame) =>
    if fits then { self with
      system := { self.system with
        server := { self.system.server with flexicast := (self.server.setMcKeyRead true).flexicast } }
      keysSent := self.keysSent ++ [frame] }
    else self
  | _, _ => self

/-- The client processes a key; a failure closes the connection. -/
def deliverKey (fromSecret : Algorithm → Bytes → Bool) (self : KeySystem) (frame : McKey) : KeySystem :=
  match self.system.client with
  | none => self
  | some client =>
    if client.closed then self
    else
      match (self.clientKeys.keyed client.flexicast).processMcKey fromSecret frame with
      | .ok keyed => { self with
          system := { self.system with client := some { client with flexicast := keyed.flexicast } }
          clientKeys := keyed.keys }
      | .error _ => { self with system := { self.system with client := some { client with closed := true } } }

/-- One event. -/
def next (fromSecret : Algorithm → Bytes → Bool) (self : KeySystem) : KeyEvent → KeySystem
  | .around event => self.nextAround event
  | .configure secret fcPathId algo mcAnnounceId =>
    if self.system.server.closed then self
    else
      match self.server.mcSetFlexicastReceiver secret fcPathId algo mcAnnounceId with
      | .ok keyed => { self with
          system := { self.system with server := { self.system.server with flexicast := keyed.flexicast } }
          serverKeys := keyed.keys }
      | .error _ => self
  | .fcSetFirstPn pn => { self with serverKeys := { self.serverKeys with fcFirstPn := pn } }
  | .keySent fits => self.sendKey fits
  | .keyDelivered position =>
    match self.keysSent[position]? with
    | some frame => self.deliverKey fromSecret frame
    | none => self

/-- The key that a client that is not closed has to process, and the client. -/
def processing (self : KeySystem) : KeyEvent → Option (KeyedAttributes × McKey)
  | .keyDelivered position =>
    match self.system.client, self.keysSent[position]? with
    | some client, some frame =>
      if client.closed then none else some (self.clientKeys.keyed client.flexicast, frame)
    | _, _ => none
  | _ => none

/-- Processing a key does not fail. -/
def Processed (fromSecret : Algorithm → Bytes → Bool) (self : KeySystem) (event : KeyEvent) : Prop :=
  ∀ pair ∈ self.processing event, ∃ keyed, pair.1.processMcKey fromSecret pair.2 = .ok keyed

/-- A key comes in time: the client waits for it, and it can be installed. -/
def InTime (fromSecret : Algorithm → Bytes → Bool) (self : KeySystem) (event : KeyEvent) : Prop :=
  ∀ pair ∈ self.processing event,
    (pair.1.flexicast.mcRole = .client .joinedNoKey ∨ pair.1.flexicast.mcRole = .client .waitingToJoin ∨
      pair.1.flexicast.mcRole = .client .changing) ∧
    fromSecret pair.2.algo pair.2.key = true

end KeySystem

section Client

open FlexicastAttributes

variable {self moved : FlexicastAttributes} {status : McClientStatus} {action : FcClientAction}
  {actionData : Option Nat}

/-- A client stays a client. -/
theorem updateClientState_client (role : self.mcRole = .client status)
    (done : self.updateClientState action actionData = .ok moved) : ∃ status', moved.mcRole = .client status' := by
  simp only [updateClientState, role] at done
  -- A transition moves the status, and the side it is on stays.
  cases stepped : self.transition false status action actionData with
  | error error =>
    rw [stepped] at done
    cases done
  | ok result =>
    rw [stepped] at done
    cases done
    exact ⟨result.2, rfl⟩

theorem updateClientState_takes (role : self.mcRole = .client status)
    (waits : status = .joinedNoKey ∨ status = .waitingToJoin ∨ status = .changing) :
    ∃ moved, self.updateClientState .decryptionKey none = .ok moved ∧
      (moved.mcRole = .client .joinedAndKey ∨ moved.mcRole = .client (.listenMcPath true)) := by
  rcases waits with rfl | rfl | rfl
  · exact ⟨_, by simp only [updateClientState, role]; rfl, .inl rfl⟩
  · exact ⟨_, by simp only [updateClientState, role]; rfl, .inl rfl⟩
  · exact ⟨_, by simp only [updateClientState, role]; rfl, .inr rfl⟩

/-- A change that keeps a client one, and knows its channels. -/
structure FlexicastAttributes.Follows (before moved : FlexicastAttributes) : Prop where
  role : ∃ status, moved.mcRole = .client status
  channels : moved.mcAnnounceData.length = before.mcAnnounceData.length
  joined : ∀ chan, moved.fcChanId = some chan → chan.2 < before.mcAnnounceData.length
  outside : moved.fcChanId = none → before.fcChanId = none ∧ moved.mcRole = before.mcRole

/-- A client whose joined channel is an announced one, with an entry for its key. -/
structure Ready (client : Party) (keys : PartyKeys) (sent : List McState) : Prop where
  role : ∃ status, client.flexicast.mcRole = .client status
  keys : keys.channelKeys.length = client.flexicast.mcAnnounceData.length
  joined : ∀ chan, client.flexicast.fcChanId = some chan → chan.2 < client.flexicast.mcAnnounceData.length
  /-- A client without a channel is outside, and has sent nothing. -/
  outside : client.closed = false → client.flexicast.fcChanId = none →
    client.flexicast.mcRole = .client .awareUnjoined ∧ sent = []

variable {client : Party} {keys : PartyKeys} {sent : List McState}
  {operation : FlexicastAttributes → Except FcError FlexicastAttributes}

/-- A change that follows the channels keeps the client ready. -/
theorem Ready.follows (ready : Ready client keys sent) {closed : Bool} (follows : client.flexicast.Follows moved)
    (running : closed = false → client.closed = false) : Ready ⟨moved, closed⟩ keys sent where
  role := follows.role
  keys := ready.keys.trans follows.channels.symm
  joined := by
    intro chan joined
    rw [show Party.flexicast ⟨moved, closed⟩ = moved from rfl, follows.channels]
    exact follows.joined chan joined
  outside := by
    intro opened nowhere
    -- A client outside all channels was outside before, and has sent nothing.
    obtain ⟨before, same⟩ := follows.outside nowhere
    obtain ⟨role, silent⟩ := ready.outside (running opened) before
    exact ⟨same.trans role, silent⟩

/-- A change that touches neither the role nor the channels follows them. -/
theorem Ready.same (ready : Ready client keys sent) (role : moved.mcRole = client.flexicast.mcRole)
    (channels : moved.mcAnnounceData = client.flexicast.mcAnnounceData)
    (joined : moved.fcChanId = client.flexicast.fcChanId) : client.flexicast.Follows moved where
  role := role ▸ ready.role
  channels := by rw [channels]
  joined := by
    rw [joined]
    exact ready.joined
  outside := fun nowhere => ⟨joined ▸ nowhere, role⟩

/-- Moving a client that has joined a channel follows its channels. -/
theorem Ready.moves (ready : Ready client keys sent) (joined : client.flexicast.fcChanId.isSome = true)
    (done : client.flexicast.updateClientState action actionData = .ok moved) : client.flexicast.Follows moved := by
  obtain ⟨status, role⟩ := ready.role
  obtain ⟨announced, same⟩ := updateClientState_channels done
  -- The joined channel stays, so the client is not outside.
  refine ⟨updateClientState_client role done, by rw [announced], ?_, fun nowhere => ?_⟩
  · rw [same]
    exact ready.joined
  · rw [← same, nowhere] at joined
    cases joined

/-- What a client calls keeps it ready when it follows the channels. -/
theorem Ready.calls (ready : Ready client keys sent)
    (follows : client.closed = false → ∀ moved, operation client.flexicast = .ok moved →
      client.flexicast.Follows moved) : Ready (client.call operation) keys sent := by
  -- A closed party, and a call that fails, change nothing.
  unfold Party.call
  split
  case isTrue => exact ready
  case isFalse opened =>
    split
    case h_1 moved done => exact ready.follows (follows (by simpa using opened) moved done) id
    case h_2 => exact ready

/-- What a client handles keeps it ready when it follows the channels. -/
theorem Ready.handles (ready : Ready client keys sent)
    (follows : client.closed = false → ∀ moved, operation client.flexicast = .ok moved →
      client.flexicast.Follows moved) : Ready (client.handle operation) keys sent := by
  -- A failed operation closes the client, and a closed one has nothing to keep.
  unfold Party.handle
  split
  case isTrue => exact ready
  case isFalse opened =>
    split
    case h_1 moved done => exact ready.follows (follows (by simpa using opened) moved done) id
    case h_2 => exact ready.follows (ready.same rfl rfl rfl) fun running => absurd running (by simp)

theorem Ready.isSome (ready : Ready client keys sent) (opened : client.closed = false)
    (inside : client.flexicast.mcRole ≠ .client .awareUnjoined) : client.flexicast.fcChanId.isSome = true := by
  cases joined : client.flexicast.fcChanId with
  | none => exact absurd (ready.outside opened joined).1 inside
  | some chan => rfl

theorem follows_recorded {before recorded : FlexicastAttributes} {chan : Bytes × Nat}
    (done : recorded.updateClientState action actionData = .ok moved)
    (same : recorded.mcRole = before.mcRole ∧ recorded.mcAnnounceData = before.mcAnnounceData ∧
      recorded.fcChanId = some chan)
    (role : ∃ status, before.mcRole = .client status) (inside : chan.2 < before.mcAnnounceData.length) :
    before.Follows moved := by
  obtain ⟨status, role⟩ := role
  obtain ⟨announced, joined⟩ := updateClientState_channels done
  -- The channel that is joined afterwards is the recorded one.
  refine ⟨updateClientState_client (same.1.trans role) done, by rw [announced, same.2.1], ?_, fun nowhere => ?_⟩
  · intro chan' joined'
    have eq := joined'.symm.trans (joined.trans same.2.2)
    cases eq
    exact inside
  · rw [joined, same.2.2] at nowhere
    cases nowhere

/-- Joining follows the channel that is joined. -/
theorem Ready.mcJoinChannel (ready : Ready client keys sent) {fcChanId : Option Bytes}
    (done : client.flexicast.mcJoinChannel fcChanId = .ok moved) : client.flexicast.Follows moved := by
  simp only [FlexicastAttributes.mcJoinChannel] at done
  obtain ⟨-, done⟩ | ⟨-, done⟩ := ite_eq_iff.mp done
  · split at done
    · split at done
      case h_1 idx found =>
        exact follows_recorded done ⟨rfl, rfl, rfl⟩ ready.role (getMcAnnounceDataIndex_lt found)
      case h_2 => cases done
    · split at done
      case h_1 announce first =>
        -- Without a name, the first channel is joined.
        have some_ : (0 : Nat) < client.flexicast.mcAnnounceData.length := by
          cases listed : client.flexicast.mcAnnounceData with
          | nil =>
            rw [listed] at first
            cases first
          | cons announce rest => exact Nat.succ_pos _
        exact follows_recorded done ⟨rfl, rfl, rfl⟩ ready.role some_
      case h_2 => cases done
  · cases done

theorem Ready.mcLeaveChannel (ready : Ready client keys sent) (opened : client.closed = false)
    (done : client.flexicast.mcLeaveChannel = .ok moved) : client.flexicast.Follows moved := by
  unfold FlexicastAttributes.mcLeaveChannel at done
  split at done
  case h_1 role => exact ready.moves (ready.isSome opened (by simp [role])) done
  case h_2 role => exact ready.moves (ready.isSome opened (by simp [role])) done
  case h_3 => cases done

/-- Changing the channel follows the new one. -/
theorem Ready.fcChangeChannel (ready : Ready client keys sent) {fcChanId : Bytes}
    (done : client.flexicast.fcChangeChannel fcChanId = .ok moved) : client.flexicast.Follows moved := by
  unfold FlexicastAttributes.fcChangeChannel at done
  split at done
  · split at done
    case h_1 => cases done
    case h_2 => cases done
    -- Both channels are announced, so the new index is one of theirs.
    case h_3 found =>
      split at done
      · split at done
        · cases done
        · split at done
          · cases done
          · exact follows_recorded done ⟨rfl, rfl, rfl⟩ ready.role (getMcAnnounceDataIndex_lt found)
      · cases done
  · cases done

/-- Only a client with a channel has sent something that is acknowledged. -/
theorem Ready.ackedAt (ready : Ready client keys sent) (opened : client.closed = false) {position : Nat}
    (done : System.ackedAt sent position client.flexicast = .ok moved) : client.flexicast.Follows moved := by
  unfold System.ackedAt at done
  split at done
  case h_2 =>
    cases done
    exact ready.same rfl rfl rfl
  case h_1 frame listed =>
    -- A client without a channel has sent nothing that could be acknowledged.
    cases joined : client.flexicast.fcChanId with
    | none =>
      rw [(ready.outside opened joined).2] at listed
      cases listed
    | some chan =>
      unfold onMcStateAcked at done
      simp only at done
      split at done
      · cases done
        exact ready.same rfl rfl rfl
      · split at done
        · exact follows_recorded done ⟨rfl, rfl, joined⟩ ready.role (ready.joined chan joined)
        · cases done

theorem send_active {party after : Party} {frame : McState} (sends : party.send? = some (frame, after)) :
    party.flexicast.fcChanId.isSome = true ∧
      after = { party with flexicast := { party.flexicast with mcStateInFlight := true } } := by
  unfold Party.send? at sends
  split at sends
  · cases sends
  · split at sends
    case h_1 sentFrame done =>
      cases sends
      refine ⟨?_, rfl⟩
      unfold stateFrame at done
      split at done
      case h_1 active =>
        -- The active channel is the one that was joined.
        obtain ⟨chan, joined, -⟩ := Option.bind_eq_some_iff.mp active
        rw [joined]
        rfl
      · cases done
      · cases done
    case h_2 => cases sends

/-- A frame that a client receives keeps it ready. -/
theorem Ready.receives (ready : Ready client keys sent) (frame : McState) (createMcPath : Except FcError Nat) :
    Ready (client.receive frame createMcPath) keys sent := by
  unfold Party.receive
  split
  case isTrue => exact ready
  case isFalse opened =>
    have opened : client.closed = false := by simpa using opened
    obtain ⟨announced, joined, recorded⟩ := processMcState_channels client.flexicast frame createMcPath
    have role : ∃ status, (client.flexicast.processMcState frame createMcPath).1.mcRole = .client status := by
      obtain ⟨status, role⟩ := ready.role
      unfold processMcState
      split
      · exact ⟨status, role⟩
      · split
        · exact ⟨status, role⟩
        case h_2 moved stepped =>
          rw [(recordChannel_keeps moved ..).1]
          exact updateClientState_client role stepped
    -- A failure closes the connection, so only success has to name a channel.
    have landed (flexicast : FlexicastAttributes) (closed : Bool) (outcome : Except FcError Unit)
        (result : client.flexicast.processMcState frame createMcPath = (flexicast, outcome))
        (failed : closed = false → outcome = .ok ()) : Ready ⟨flexicast, closed⟩ keys sent := by
      rw [result] at role announced joined recorded
      constructor
      · exact role
      · rw [show Party.flexicast ⟨flexicast, closed⟩ = flexicast from rfl, announced]
        exact ready.keys
      · intro chan now
        rw [show Party.flexicast ⟨flexicast, closed⟩ = flexicast from rfl, announced]
        rcases joined with same | ⟨idx, inside, found⟩
        · exact ready.joined chan (same.symm.trans now)
        · have now : some (frame.channelId, idx) = some chan := found.symm.trans now
          cases now
          exact inside
      · intro running nowhere
        have named := recorded (failed running)
        rw [show flexicast.fcChanId = none from nowhere] at named
        cases named
    split
    case h_1 flexicast result => exact landed flexicast _ _ result fun _ => rfl
    case h_2 flexicast error result => exact landed flexicast true _ result fun running => absurd running (by decide)

end Client

namespace KeySystem

open FlexicastAttributes

variable {self : KeySystem} {fromSecret : Algorithm → Bytes → Bool}

/-- What every event keeps: the client, once there is one, knows its channels. -/
structure Sound (state : KeySystem) : Prop where
  ready : ∀ client, state.system.client = some client → Ready client state.clientKeys state.system.sent
  silent : state.system.client = none → state.clientKeys.channelKeys = [] ∧ state.system.sent = []

theorem Sound.congr (sound : self.Sound) {after : KeySystem} (client : after.system.client = self.system.client)
    (sent : after.system.sent = self.system.sent) (keys : after.clientKeys = self.clientKeys) : after.Sound where
  ready := by
    rw [client, sent, keys]
    exact sound.ready
  silent := by
    rw [client, sent, keys]
    exact sound.silent

theorem Sound.onClient (sound : self.Sound) {change : Party → Party}
    (ready : ∀ client, Ready client self.clientKeys self.system.sent →
      Ready (change client) self.clientKeys self.system.sent) :
    Sound { self with system := self.system.onClient change } where
  ready := by
    intro client some_
    -- The client afterwards is the one before, changed.
    obtain ⟨before, there, rfl⟩ := Option.map_eq_some_iff.mp some_
    exact ready before (sound.ready before there)
  silent := fun none_ => sound.silent (Option.map_eq_none_iff.mp none_)

/-- A client that learns of a channel is ready. -/
theorem learn_ready (sound : self.Sound) (opened : learns self.system.client = true) (announced : McAnnounceData) :
    Ready (System.learn self.system.client announced) self.clientKeys.further self.system.sent := by
  cases there : self.system.client with
  | none =>
    -- The first announcement makes the client.
    obtain ⟨keyless, silent⟩ := sound.silent there
    rw [silent]
    refine ⟨⟨_, rfl⟩, by simp [PartyKeys.further, keyless, System.learn], ?_, fun _ _ => ⟨rfl, rfl⟩⟩
    intro chan joined
    cases joined
  | some client =>
    have ready := sound.ready client there
    rw [there] at opened
    have running : client.closed = false := by simpa [learns] using opened
    simp only [System.learn, running]
    refine ⟨ready.role, by simp [PartyKeys.further, ready.keys], ?_, ?_⟩
    · intro chan joined
      exact Nat.lt_of_lt_of_le (ready.joined chan joined) (by simp)
    · exact fun _ nowhere => ready.outside running nowhere

/-- A closed client learns of nothing. -/
theorem learn_closed (closed : learns self.system.client = false) (announced : McAnnounceData) :
    some (System.learn self.system.client announced) = self.system.client := by
  -- Only an open client, or none yet, learns.
  cases there : self.system.client with
  | none =>
    rw [there] at closed
    cases closed
  | some client =>
    rw [there] at closed
    have closed : client.closed = true := by simpa [learns] using closed
    simp [System.learn, closed]

/-- What happens around the keys keeps the client sound. -/
theorem Sound.nextAround (sound : self.Sound) (event : Event) : (self.nextAround event).Sound := by
  cases event with
  | announce announced =>
    simp only [KeySystem.nextAround]
    split
    · exact sound.congr rfl rfl rfl
    · exact sound.congr rfl rfl rfl
  | announceReceived announced =>
    simp only [KeySystem.nextAround, System.next]
    split
    case isTrue learns =>
      simp only [Bool.and_eq_true, decide_eq_true_eq] at learns
      rw [List.getElem?_eq_getElem learns.1]
      constructor
      · intro client some_
        cases some_
        exact learn_ready sound learns.2 _
      · intro none_
        cases none_
    case isFalse kept =>
      split
      case h_1 listed =>
        -- The channel is known, so it is the client that is closed.
        have inside := (List.getElem?_eq_some_iff.mp listed).1
        have closed : learns self.system.client = false := by simpa [inside] using kept
        exact sound.congr (learn_closed closed _) rfl rfl
      case h_2 => exact sound
  | join fcChanId => exact sound.onClient fun client ready => ready.calls fun _ moved done => ready.mcJoinChannel done
  | leave =>
    exact sound.onClient fun client ready => ready.calls fun opened moved done => ready.mcLeaveChannel opened done
  | change fcChanId =>
    exact sound.onClient fun client ready => ready.calls fun _ moved done => ready.fcChangeChannel done
  | pathCreated pathId =>
    refine sound.onClient fun client ready => ready.calls fun _ moved done => ?_
    cases done
    exact ready.same rfl rfl rfl
  | send =>
    simp only [KeySystem.nextAround, System.next]
    split
    case h_1 frame after sends =>
      obtain ⟨client, there, sends⟩ := Option.bind_eq_some_iff.mp sends
      have ready := sound.ready client there
      obtain ⟨active, rfl⟩ := send_active sends
      constructor
      · intro client' some_
        cases some_
        refine ⟨ready.role, ready.keys, ready.joined, fun _ nowhere => ?_⟩
        rw [show client.flexicast.fcChanId = none from nowhere] at active
        cases active
      · intro none_
        cases none_
    case h_2 => exact sound
  | acked position =>
    exact sound.onClient fun client ready => ready.handles fun opened moved done => ready.ackedAt opened done
  | lost =>
    refine sound.onClient fun client ready => ready.handles fun _ moved done => ?_
    cases done
    exact ready.same rfl rfl rfl
  | serverDeliver position =>
    simp only [KeySystem.nextAround, System.next]
    split
    · exact sound.onClient fun client ready => ready.receives _ _
    · exact sound
  | deliver position createMcPath =>
    simp only [KeySystem.nextAround, System.next]
    split <;> exact sound.congr rfl rfl rfl
  | serverSend =>
    simp only [KeySystem.nextAround, System.next]
    split <;> exact sound.congr rfl rfl rfl
  | _ => exact sound.congr rfl rfl rfl

/-- A client that is ready takes a key just when it comes in time. -/
theorem processMcKey_iff {client : Party} {keys : PartyKeys} {sent : List McState} (ready : Ready client keys sent)
    (opened : client.closed = false) (frame : McKey) :
    (∃ keyed, (keys.keyed client.flexicast).processMcKey fromSecret frame = .ok keyed) ↔
      (client.flexicast.mcRole = .client .joinedNoKey ∨ client.flexicast.mcRole = .client .waitingToJoin ∨
        client.flexicast.mcRole = .client .changing) ∧ fromSecret frame.algo frame.key = true := by
  obtain ⟨status, role⟩ := ready.role
  by_cases waits : status = .joinedNoKey ∨ status = .waitingToJoin ∨ status = .changing
  · -- A client that waits has joined a channel, whose key it can install.
    have inside : client.flexicast.mcRole ≠ .client .awareUnjoined := by
      rw [role]
      rcases waits with rfl | rfl | rfl <;> decide
    obtain ⟨chan, joined⟩ := Option.isSome_iff_exists.mp (ready.isSome opened inside)
    have known : chan.2 < keys.channelKeys.length := by
      rw [ready.keys]
      exact ready.joined chan joined
    have installs : (keys.keyed client.flexicast).setDecryptionKeySecret fromSecret frame.key frame.algo =
        if fromSecret frame.algo frame.key then .ok { keys.keyed client.flexicast with
          channelKeys := keys.channelKeys.set chan.2 ⟨some frame.key, some frame.algo⟩
          mcCrypto := some (frame.algo, frame.key) }
        else .error .cryptoFail := by
      unfold KeyedAttributes.setDecryptionKeySecret
      simp only [PartyKeys.keyed, KeyedAttributes.fcChanIdx, joined, Option.map_some, role]
      rcases waits with rfl | rfl | rfl <;> cases fromSecret frame.algo frame.key <;> simp [known]
    obtain ⟨moved, done, -⟩ := updateClientState_takes role waits
    unfold KeyedAttributes.processMcKey
    rw [installs]
    simp only [role, RoleOf.client.injEq, waits, true_and]
    cases fromSecret frame.algo frame.key with
    | false => simp
    | true =>
      simp only [if_true]
      have same : (keys.keyed client.flexicast).flexicast = client.flexicast := rfl
      exact iff_of_true ⟨_, by rw [same, done]⟩ trivial
  · refine iff_of_false ?_ ?_
    · rintro ⟨keyed, done⟩
      have refused : (keys.keyed client.flexicast).setDecryptionKeySecret fromSecret frame.key frame.algo =
          .error .mcInvalidRole := by
        simp only [KeyedAttributes.setDecryptionKeySecret, PartyKeys.keyed, role]
        cases status <;> simp_all
      unfold KeyedAttributes.processMcKey at done
      rw [refused] at done
      cases done
    · rw [role]
      rintro ⟨waits', -⟩
      exact waits (by simpa using waits')

/-- A key that is installed changes neither the state of the client nor the number of its channels. -/
theorem setDecryptionKeySecret_keeps {attributes keyed : KeyedAttributes} {key : Bytes} {algo : Algorithm}
    (done : attributes.setDecryptionKeySecret fromSecret key algo = .ok keyed) :
    keyed.flexicast = attributes.flexicast ∧ keyed.channelKeys.length = attributes.channelKeys.length := by
  -- The three statuses that take a key do the same with it.
  unfold KeyedAttributes.setDecryptionKeySecret at done
  simp only at done
  cases accepted : fromSecret algo key with
  | false =>
    rw [accepted] at done
    split at done <;> cases done
  | true =>
    rw [accepted] at done
    cases joined : attributes.fcChanIdx with
    | none =>
      rw [joined] at done
      split at done <;> cases done
    | some idx =>
      rw [joined] at done
      by_cases inside : idx < attributes.channelKeys.length
      · simp only [inside, if_true, Bool.not_true, Bool.false_eq_true, if_false] at done
        split at done
        case h_4 => cases done
        all_goals
          cases done
          exact ⟨rfl, by simp⟩
      · simp only [inside, if_false, Bool.not_true, Bool.false_eq_true] at done
        split at done <;> cases done

theorem processMcKey_keeps {attributes keyed : KeyedAttributes} {frame : McKey}
    (done : attributes.processMcKey fromSecret frame = .ok keyed) :
    attributes.flexicast.updateClientState .decryptionKey none = .ok keyed.flexicast ∧
      keyed.channelKeys.length = attributes.channelKeys.length := by
  unfold KeyedAttributes.processMcKey at done
  -- The key is installed first, and then the client moves on.
  split at done
  · cases done
  case h_2 installed ok =>
    obtain ⟨same, channels⟩ := setDecryptionKeySecret_keeps ok
    split at done
    · cases done
    case h_2 moved stepped =>
      cases done
      exact ⟨same ▸ stepped, channels⟩

/-- Every event keeps the client sound. -/
theorem Sound.next (sound : self.Sound) (event : KeyEvent) : (self.next fromSecret event).Sound := by
  cases event with
  | around event => exact sound.nextAround event
  | configure secret fcPathId algo mcAnnounceId =>
    simp only [KeySystem.next]
    split
    · exact sound
    · split
      · exact sound.congr rfl rfl rfl
      · exact sound
  | fcSetFirstPn pn => exact sound.congr rfl rfl rfl
  | keySent fits =>
    simp only [KeySystem.next, sendKey]
    split
    · split
      · exact sound.congr rfl rfl rfl
      · exact sound
    · exact sound
  | keyDelivered position =>
    simp only [KeySystem.next]
    split
    case h_2 => exact sound
    case h_1 frame listed =>
      unfold deliverKey
      split
      case h_1 => exact sound
      case h_2 client there =>
        have ready := sound.ready client there
        split
        case isTrue => exact sound
        case isFalse running =>
          have opened : client.closed = false := by simpa using running
          split
          case h_1 keyed done =>
            -- A client that took the key had joined a channel, and still has.
            have inTime := ((processMcKey_iff ready opened frame).mp ⟨keyed, done⟩).1
            have inside : client.flexicast.mcRole ≠ .client .awareUnjoined := by
              rcases inTime with role | role | role <;> rw [role] <;> decide
            obtain ⟨stepped, channels⟩ := processMcKey_keeps done
            have moved : Ready ⟨keyed.flexicast, client.closed⟩ self.clientKeys self.system.sent :=
              ready.follows (ready.moves (ready.isSome opened inside) stepped) id
            constructor
            · intro client' some_
              cases some_
              exact ⟨moved.role, channels.trans moved.keys, moved.joined, moved.outside⟩
            · intro none_
              cases none_
          case h_2 error failed =>
            constructor
            · intro client' some_
              cases some_
              exact ⟨ready.role, ready.keys, ready.joined, fun running => absurd running (by simp)⟩
            · intro none_
              cases none_

/-- A key is processed without a failure just when it comes in time. -/
theorem processed_iff_inTime (sound : self.Sound) (event : KeyEvent) :
    Processed fromSecret self event ↔ InTime fromSecret self event := by
  unfold Processed InTime
  refine forall₂_congr fun pair member => ?_
  -- Only a delivery to a client that is not closed is processed.
  cases event with
  | keyDelivered position =>
    simp only [processing] at member
    split at member
    case h_1 client frame there listed =>
      split at member
      · cases member
      case isFalse running =>
        cases member
        exact processMcKey_iff (sound.ready client there) (by simpa using running) frame
    case h_2 => cases member
  | _ => cases member

theorem new_sound (first : McAnnounceData × ChannelKey) (rest : List (McAnnounceData × ChannelKey)) :
    (new first rest).Sound where
  ready := by
    intro client there
    cases there
  silent := fun _ => ⟨rfl, rfl⟩

/-- No key makes the client fail in a run just when every key that it processes comes in time. -/
theorem keys_processed_iff (first : McAnnounceData × ChannelKey) (rest : List (McAnnounceData × ChannelKey))
    (events : List KeyEvent) :
    Runs.Along (next fromSecret) (Processed fromSecret) (new first rest) events ↔
      Runs.Along (next fromSecret) (InTime fromSecret) (new first rest) events :=
  Runs.along_congr (fun _ event sound => sound.next event) (fun _ event sound => processed_iff_inTime sound event)
    events (new_sound first rest)

/-- A client joins a channel and takes its key, which was sent twice because it was taken to be lost. -/
def keyTaken : List KeyEvent :=
  [.around .announceSent, .around (.announceReceived 0), .around .announceAcked, .around (.join none), .around .send,
    .around (.deliver 0 (.ok 1)), .keySent true, .around .keyLost, .keySent true, .keyDelivered 0]

/-- The second key makes the client fail. -/
theorem second_key_fails :
    ¬ ∀ (first : McAnnounceData × ChannelKey) (rest : List (McAnnounceData × ChannelKey)) (events : List KeyEvent),
      Runs.Along (next fun _ _ => true) (Processed fun _ _ => true) (new first rest) events := by
  intro always
  have along := always (⟨[1], false, false⟩, ⟨some [7], some .aes128Gcm⟩) [] (keyTaken ++ [.keyDelivered 1])
  obtain ⟨-, processed, -⟩ := Runs.along_append.mp along
  obtain ⟨keyed, done⟩ := processed _ (Option.mem_def.mpr rfl)
  cases done

end KeySystem

end Channel

end Flexicast
