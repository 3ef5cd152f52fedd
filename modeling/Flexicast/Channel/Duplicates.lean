import Flexicast.Channel.Announce
import Mathlib.Logic.Basic

/-! Announcements that reach a client, and which of them grow its channels by one that it knew. -/

namespace Flexicast

namespace Channel

/-- The channels that a connection knows, in the order it learned of them. -/
def Endpoint.channels (self : Endpoint) : List Bytes :=
  match self.flexicast with
  | some flexicast => flexicast.mcAnnounceData.map McAnnounceData.channelId
  | none => []

/-- A server and its client, with the announcements that were sent so far. -/
structure Announcing where
  server : Endpoint
  client : Endpoint
  /-- The `FC_ANNOUNCE` frames, in the order they were sent. -/
  announced : List McAnnounce
  deriving DecidableEq

/-- What may happen; the network delivers any frame at any time, late, several times or never. -/
inductive AnnouncingEvent where
  | server (event : EndpointEvent)
  | client (event : Around)
  | deliver (sent : Nat)

namespace Announcing

/-- A server that supports flexicast and its client, before any channel is announced. -/
def new (clientSupport : Bool) : Announcing := ⟨.new true true, .new false clientSupport, []⟩

/-- The announcement that a server sends in an event. -/
def sends (server : Endpoint) : EndpointEvent → Option McAnnounce
  | .announceSent => if server.closed then none else server.sendMcAnnounce?.map Prod.fst
  | _ => none

/-- One event. -/
def next (self : Announcing) : AnnouncingEvent → Announcing
  | .server event => { self with
      server := self.server.next event
      announced := self.announced ++ (sends self.server event).toList }
  | .client event => { self with client := self.client.next (.around event) }
  | .deliver position =>
    match self.announced[position]? with
    | some frame => { self with client := self.client.next (.announceReceived frame) }
    | none => self

/-- The announcement that a client that is not closed processes. -/
def processed (self : Announcing) : AnnouncingEvent → Option McAnnounce
  | .deliver position => if self.client.closed then none else self.announced[position]?
  | _ => none

end Announcing

section Single

/-- Every channel has a single entry, and the joined one is found at its index. -/
structure Endpoint.SingleEntries (conn : Endpoint) : Prop where
  distinct : conn.channels.Nodup
  joined : ∀ flexicast ∈ conn.flexicast, ∀ chan ∈ flexicast.fcChanId,
    ∀ idx, conn.channels[idx]? = some chan.1 ↔ idx = chan.2

/-- An announcement of a known channel changes none of the channels. -/
def Idempotent (self : Announcing) (event : AnnouncingEvent) : Prop :=
  ∀ frame ∈ self.processed event, frame.channelId ∈ self.client.channels →
    (self.next event).client.channels = self.client.channels

/-- An announcement is of a channel that the client does not know. -/
def OfNewChannel (self : Announcing) (event : AnnouncingEvent) : Prop :=
  ∀ frame ∈ self.processed event, frame.channelId ∉ self.client.channels

end Single

section Clients

open FlexicastAttributes

variable {self moved : FlexicastAttributes} {action : FcClientAction} {actionData : Option Nat}

/-- The joined channel stands at its index, if there is one. -/
def FlexicastAttributes.Indexed (self : FlexicastAttributes) : Prop :=
  ∀ chan ∈ self.fcChanId, (self.mcAnnounceData[chan.2]?).map McAnnounceData.channelId = some chan.1

/-- What a connection does around the announcements: its channels stay, and the joined one stands at its index. -/
structure Refers (before after : FlexicastAttributes) : Prop where
  channels : after.mcAnnounceData = before.mcAnnounceData
  indexed : after.Indexed

/-- Whatever keeps the channels and the joined one refers to them as before. -/
theorem Refers.same (indexed : self.Indexed) (channels : moved.mcAnnounceData = self.mcAnnounceData)
    (joined : moved.fcChanId = self.fcChanId) : Refers self moved := by
  refine ⟨channels, ?_⟩
  unfold Indexed
  rw [joined, channels]
  exact indexed

/-- Moving a client refers to the channels as before. -/
theorem Refers.moves (indexed : self.Indexed) (done : self.updateClientState action actionData = .ok moved) :
    Refers self moved := by
  obtain ⟨channels, joined⟩ := updateClientState_channels done
  exact .same indexed channels joined

theorem indexed_found {channelId : Bytes} {idx : Nat} (found : self.getMcAnnounceDataIndex channelId = some idx) :
    (self.mcAnnounceData[idx]?).map McAnnounceData.channelId = some channelId := by
  obtain ⟨inside, named, -⟩ := List.findIdx?_eq_some_iff_getElem.mp found
  rw [List.getElem?_eq_getElem inside]
  simpa using named

/-- Joining a channel that is found, and moving the client. -/
theorem Refers.joins {recorded : FlexicastAttributes} {chan : Bytes × Nat}
    (done : recorded.updateClientState action actionData = .ok moved)
    (channels : recorded.mcAnnounceData = self.mcAnnounceData) (joined : recorded.fcChanId = some chan)
    (stands : (self.mcAnnounceData[chan.2]?).map McAnnounceData.channelId = some chan.1) : Refers self moved := by
  -- The recorded channel stands at its index, and moving the client leaves both.
  have indexed : recorded.Indexed := by
    intro other same
    rw [joined] at same
    cases same
    rw [channels]
    exact stands
  have refers := Refers.moves indexed done
  exact ⟨refers.channels.trans channels, refers.indexed⟩

/-- A call refers to the channels when it does wherever it succeeds. -/
theorem Refers.calls (indexed : self.Indexed) (closed : Bool)
    {operation : FlexicastAttributes → Except FcError FlexicastAttributes}
    (succeeds : ∀ moved, operation self = .ok moved → Refers self moved) :
    Refers self (Party.call ⟨self, closed⟩ operation).flexicast := by
  -- A closed party, and a call that fails, change nothing.
  unfold Party.call
  split
  · exact .same indexed rfl rfl
  · split
    case h_1 moved done => exact succeeds moved done
    case h_2 => exact .same indexed rfl rfl

/-- A frame that is processed records a channel at its index. -/
theorem processMcState_refers (indexed : self.Indexed) (frame : McState) (createMcPath : Except FcError Nat) :
    Refers self (self.processMcState frame createMcPath).1 := by
  unfold processMcState
  cases FcClientAction.tryFrom frame.action with
  | none => exact .same indexed rfl rfl
  | some action =>
    simp only
    cases stepped : self.updateClientState action (some frame.actionData) with
    | error error => exact .same indexed rfl rfl
    | ok moved =>
      have moves := Refers.moves indexed stepped
      refine ⟨(recordChannel_keeps moved frame.channelId action createMcPath).2.trans moves.channels, ?_⟩
      intro chan same
      rw [(recordChannel_keeps moved frame.channelId action createMcPath).2]
      -- The recorded channel is the one of the frame, or the one that was joined before.
      have recorded : (moved.recordChannel frame.channelId action createMcPath).1.fcChanId =
          ((moved.getMcAnnounceDataIndex frame.channelId).map fun idx => (frame.channelId, idx)).or moved.fcChanId :=
        congrArg Prod.fst (recordChannel_view moved frame.channelId action createMcPath)
      simp only [recorded] at same
      cases found : moved.getMcAnnounceDataIndex frame.channelId with
      | none =>
        rw [found] at same
        exact moves.indexed chan same
      | some idx =>
        rw [found] at same
        cases same
        exact indexed_found found

/-- Joining refers to the channel that is joined. -/
theorem mcJoinChannel_refers {fcChanId : Option Bytes} (done : self.mcJoinChannel fcChanId = .ok moved) :
    Refers self moved := by
  simp only [mcJoinChannel] at done
  obtain ⟨-, done⟩ | ⟨-, done⟩ := ite_eq_iff.mp done
  · split at done
    · split at done
      case h_1 idx found => exact .joins done rfl rfl (indexed_found found)
      case h_2 => cases done
    · split at done
      case h_1 announce first =>
        -- Without a name, the first channel is joined.
        rw [List.head?_eq_getElem?] at first
        exact .joins done rfl rfl (by simp [first])
      case h_2 => cases done
  · cases done

/-- Changing refers to the new channel. -/
theorem fcChangeChannel_refers {fcChanId : Bytes} (done : self.fcChangeChannel fcChanId = .ok moved) :
    Refers self moved := by
  unfold fcChangeChannel at done
  split at done
  case isFalse => cases done
  case isTrue =>
    split at done
    -- Both channels were found, and the index recorded is the one that was found.
    case h_3 oldName oldIdx newIdx joined found =>
      repeat' split at done
      all_goals first
        | cases done
        | exact .joins done rfl rfl (indexed_found found)
    all_goals cases done

/-- Whatever happens around the announcements, a connection refers to the channels that it knows. -/
theorem around_refers (indexed : self.Indexed) (closed : Bool) (event : Around) :
    Refers self (Party.around ⟨self, closed⟩ event).flexicast := by
  cases event with
  | join fcChanId => exact .calls indexed closed fun moved done => mcJoinChannel_refers done
  | leave =>
    refine .calls indexed closed fun moved done => ?_
    unfold mcLeaveChannel at done
    split at done
    case h_1 => exact .moves indexed done
    case h_2 => exact .moves indexed done
    case h_3 => cases done
  | change fcChanId => exact .calls indexed closed fun moved done => fcChangeChannel_refers done
  | pathCreated pathId =>
    refine .calls indexed closed fun moved done => ?_
    cases done
    exact .same indexed rfl rfl
  | stateSent =>
    simp only [Party.around]
    cases sends : Party.send? ⟨self, closed⟩ with
    | none => exact .same indexed rfl rfl
    | some sent =>
      -- Only the mark of the frame in flight is set.
      simp only [Party.send?] at sends
      obtain ⟨-, none⟩ | ⟨-, sends⟩ := ite_eq_iff.mp sends
      · cases none
      · split at sends
        · cases sends
          exact .same indexed rfl rfl
        · cases sends
  | stateReceived frame createMcPath =>
    have refers := processMcState_refers indexed frame createMcPath
    simp only [Party.around, Party.receive]
    split
    · exact .same indexed rfl rfl
    · split
      case h_1 moved done =>
        rw [done] at refers
        exact refers
      case h_2 moved error done =>
        rw [done] at refers
        exact refers
  | stateAcked frame =>
    rw [Party.around, Party.handle_flexicast]
    refine .calls indexed closed fun moved done => ?_
    simp only [onMcStateAcked] at done
    -- The frame is no longer in flight, and may move the client.
    obtain ⟨-, done⟩ | ⟨-, done⟩ := ite_eq_iff.mp done
    · cases done
      exact .same indexed rfl rfl
    · split at done
      case h_1 action known =>
        have moves : Refers { self with mcStateInFlight := false } moved := .moves indexed done
        exact ⟨moves.channels, moves.indexed⟩
      case h_2 => cases done
  | stateLost =>
    rw [Party.around, Party.handle_flexicast]
    refine .calls indexed closed fun moved done => ?_
    cases done
    exact .same indexed rfl rfl
  | keySent =>
    refine .calls indexed closed fun moved done => ?_
    cases done
    unfold sendKey
    split <;> exact .same indexed rfl rfl
  | keyReceived =>
    rw [Party.around, Party.handle_flexicast]
    refine .calls indexed closed fun moved done => ?_
    unfold receiveKey at done
    split at done
    case h_4 => cases done
    all_goals exact .moves indexed done
  | keyAcked =>
    rw [Party.around, Party.handle_flexicast]
    refine .calls indexed closed fun moved done => ?_
    have moves : Refers { self with mcKeyUpToDate := true } moved := .moves indexed done
    exact ⟨moves.channels, moves.indexed⟩
  | keyLost =>
    rw [Party.around, Party.handle_flexicast]
    refine .calls indexed closed fun moved done => ?_
    cases done
    exact .same indexed rfl rfl

end Clients

section Learning

open FlexicastAttributes

variable {conn : Endpoint} {self : Announcing}

/-- A client whose joined channel stands at its index. -/
structure Endpoint.Learner (conn : Endpoint) : Prop where
  client : conn.isServer = false
  indexed : ∀ flexicast ∈ conn.flexicast, flexicast.Indexed

/-- A client has single entries just if its channels differ. -/
theorem Endpoint.Learner.single_iff (learner : conn.Learner) : conn.SingleEntries ↔ conn.channels.Nodup := by
  constructor
  · exact fun single => single.distinct
  · intro distinct
    refine ⟨distinct, fun flexicast known chan joined idx => ?_⟩
    -- The joined channel stands at its index; distinct channels stand at one index only.
    have stands : conn.channels[chan.2]? = some chan.1 := by
      rw [← learner.indexed flexicast known chan joined, Endpoint.channels, Option.mem_def.mp known, List.getElem?_map]
    have inside : chan.2 < conn.channels.length := (List.getElem?_eq_some_iff.mp stands).1
    constructor
    · intro same
      have eq : conn.channels[chan.2]? = conn.channels[idx]? := stands.trans same.symm
      exact ((List.getElem?_inj inside distinct).mp eq).symm
    · rintro rfl
      exact stands

theorem Endpoint.Learner.around (learner : conn.Learner) (event : Around) :
    (conn.next (.around event)).Learner ∧ (conn.next (.around event)).channels = conn.channels := by
  simp only [Endpoint.next]
  split
  · exact ⟨⟨learner.client, learner.indexed⟩, rfl⟩
  · cases known : conn.flexicast with
    | none =>
      simp only [Endpoint.onParty, known, and_true]
      exact learner
    | some flexicast =>
      -- What happens around the announcements keeps the channels and what the client refers to.
      have refers := around_refers (learner.indexed flexicast known) conn.closed event
      simp only [Endpoint.onParty, known, Endpoint.channels, refers.channels, and_true]
      refine ⟨learner.client, fun moved same => ?_⟩
      cases same
      exact refers.indexed

/-- What a client learns comes behind the channels that it knew. -/
theorem FlexicastAttributes.Indexed.further {client : FlexicastAttributes} (indexed : client.Indexed)
    (announced : McAnnounceData) :
    Indexed { client with mcAnnounceData := client.mcAnnounceData ++ [announced] } := by
  intro chan joined
  have stands := indexed chan joined
  -- The index recorded is one of a channel known before.
  obtain ⟨announce, listed, -⟩ := Option.map_eq_some_iff.mp stands
  have inside : chan.2 < client.mcAnnounceData.length := (List.getElem?_eq_some_iff.mp listed).1
  simp only
  rw [List.getElem?_append_left inside]
  exact stands

theorem Endpoint.Learner.learns (learner : conn.Learner) (frame : McAnnounce) :
    (conn.next (.announceReceived frame)).Learner ∧
      (conn.next (.announceReceived frame)).channels =
        conn.channels ++ if conn.closed then [] else [frame.channelId] := by
  simp only [Endpoint.next]
  cases conn.closed with
  | true => simpa using learner
  | false =>
    simp only [Bool.false_eq_true, if_false, Endpoint.processMcAnnounce, Endpoint.fcSetAnnounceData, learner.client,
      Bool.false_and]
    cases known : conn.flexicast with
    | none =>
      refine ⟨⟨rfl, fun moved same => ?_⟩, by simp [Endpoint.channels, known]⟩
      cases same
      exact fun chan joined => by cases joined
    | some flexicast =>
      refine ⟨⟨rfl, fun moved same => ?_⟩, by simp [Endpoint.channels, known]⟩
      cases same
      -- The further channel comes last, so the joined one stays where it is.
      exact (learner.indexed flexicast known).further _

theorem learner_next (learner : self.client.Learner) (event : AnnouncingEvent) :
    (self.next event).client.Learner ∧
      (self.next event).client.channels =
        self.client.channels ++ ((self.processed event).map McAnnounce.channelId).toList := by
  -- The server has its own state; a delivered announcement is one that was sent before.
  cases event with
  | server event => exact ⟨learner, by simp [Announcing.next, Announcing.processed]⟩
  | client event =>
    obtain ⟨kept, channels⟩ := learner.around event
    exact ⟨kept, by simpa [Announcing.next, Announcing.processed] using channels⟩
  | deliver position =>
    simp only [Announcing.next, Announcing.processed]
    cases sent : self.announced[position]? with
    | none => simpa using learner
    | some frame =>
      obtain ⟨kept, channels⟩ := learner.learns frame
      refine ⟨kept, channels.trans ?_⟩
      cases self.client.closed <;> simp

theorem single_next (learner : self.client.Learner) (single : self.client.SingleEntries) (event : AnnouncingEvent) :
    (self.next event).client.SingleEntries ↔ OfNewChannel self event := by
  obtain ⟨kept, channels⟩ := learner_next learner event
  rw [kept.single_iff, channels, OfNewChannel]
  cases self.processed event with
  | none => simpa using single.distinct
  | some frame =>
    -- The channel is appended, whatever it is.
    simp only [Option.map_some, Option.toList_some, Option.mem_some, forall_eq', List.nodup_append,
      single.distinct, List.nodup_cons, List.not_mem_nil, not_false_eq_true, List.nodup_nil, and_self,
      List.mem_singleton, true_and]
    constructor
    · exact fun apart listed => apart _ listed _ rfl rfl
    · rintro unknown channel listed _ rfl rfl
      exact unknown listed

end Learning

/-- Announcements stay without effect on what is known just if none that is processed is of a known channel. -/
theorem single_entries_iff_new (clientSupport : Bool) (events : List AnnouncingEvent) :
    ((∀ done, done <+: events → (Runs.run Announcing.next (.new clientSupport) done).client.SingleEntries) ∧
        Runs.Along Announcing.next Idempotent (.new clientSupport) events) ↔
      Runs.Along Announcing.next OfNewChannel (.new clientSupport) events := by
  -- A step decides whether the entries stay single; whether it is idempotent follows.
  have keeps (self : Announcing) (event : AnnouncingEvent) (learner : self.client.Learner) (_ : True) :
      (self.next event).client.Learner := (learner_next learner event).1
  have step (self : Announcing) (event : AnnouncingEvent) (learner : self.client.Learner)
      (single : self.client.SingleEntries) (_ : True) :
      (self.next event).client.SingleEntries ↔ OfNewChannel self event := single_next learner single event
  have start : (Announcing.new clientSupport).client.Learner := ⟨rfl, by simp [Announcing.new, Endpoint.new]⟩
  have empty : (Announcing.new clientSupport).client.SingleEntries :=
    start.single_iff.mpr (by simp [Announcing.new, Endpoint.new, Endpoint.channels])
  have always := Runs.always_iff_along keeps step events start empty (Runs.along_true _ _ events)
  constructor
  · exact fun both => always.mp both.1
  · intro along
    refine ⟨always.mpr along, along.imp fun self event unknown frame processed listed => ?_⟩
    exact absurd listed (unknown frame processed)

/-- An announcement is declared lost, sent again, and reaches the client twice. -/
def spuriouslyLost : List AnnouncingEvent :=
  [.server (.setAnnounceData ⟨[1], false, false⟩), .server .announceSent, .server (.announceLost [1]),
    .server .announceSent, .deliver 0, .deliver 1]

/-- The client has two entries of one channel. -/
theorem announced_twice_listed_twice :
    (Runs.run Announcing.next (.new true) spuriouslyLost).client.channels = [[1], [1]] ∧
      ¬ (Runs.run Announcing.next (.new true) spuriouslyLost).client.SingleEntries := by
  have twice : (Runs.run Announcing.next (.new true) spuriouslyLost).client.channels = [[1], [1]] := by
    decide
  refine ⟨twice, fun single => ?_⟩
  have distinct := single.distinct
  rw [twice] at distinct
  exact absurd distinct (by decide)

end Channel

end Flexicast
