import Flexicast.Channel.Link

/-! A client and its server agree whenever their link is quiet. -/

namespace Flexicast

namespace Channel

open FlexicastAttributes

section Places

/-- How far a server has got with its client. -/
inductive Place where
  | outside
  | joining
  | listening
  deriving DecidableEq

/-- The place that a status belongs to. -/
def McClientStatus.place : McClientStatus → Option Place
  | .unaware => some .outside
  | .awareUnjoined => some .outside
  | .joinedNoKey => some .joining
  | .joinedAndKey => some .joining
  | .listenMcPath true => some .listening
  | _ => none

/-- The server has its client in a place. -/
def FlexicastAttributes.At (server : FlexicastAttributes) (place : Place) : Prop :=
  ∃ status, server.mcRole = .serverUnicast status ∧ status.place = some place

/-- Where an action finds the server that does what it asks. -/
def FcClientAction.before : FcClientAction → Option Place
  | .join => some .outside
  | .mcPath => some .joining
  | .leave => some .listening
  | _ => none

/-- Where an action leaves the server that does what it asks. -/
def FcClientAction.after : FcClientAction → Option Place
  | .join => some .joining
  | .mcPath => some .listening
  | .leave => some .outside
  | _ => none

/-- Where the server is while the client has nothing on its way. -/
def McClientStatus.resting : McClientStatus → Option Place
  | .awareUnjoined => some .outside
  | .waitingToJoin => some .outside
  | .joinedNoKey => some .joining
  | .joinedAndKey => some .joining
  | .listenMcPath true => some .listening
  | .leaving false => some .listening
  | _ => none

/-- The actions that may be on their way in a status. -/
def McClientStatus.asks : McClientStatus → FcClientAction → Bool
  | .waitingToJoin, .join => true
  | .joinedAndKey, .join => true
  | .joinedAndKey, .mcPath => true
  | .leaving false, .leave => true
  | _, _ => false

/-- The statuses in which the client has settled for its channel, once what it asked for is processed. -/
def McClientStatus.settled : McClientStatus → Bool
  | .waitingToJoin => true
  | .joinedNoKey => true
  | .joinedAndKey => true
  | .listenMcPath true => true
  | _ => false

/-- The statuses in which a client takes a key. -/
def McClientStatus.takesKey : McClientStatus → Bool
  | .joinedNoKey => true
  | .waitingToJoin => true
  | .changing => true
  | _ => false

/-- How far a frame of the client is. -/
inductive Phase where
  | idle
  | sent (frame : McState)
  | done (frame : McState)

/-- The frames of the link are in a phase. -/
def Phase.Of (link : Link) (inFlight : Bool) : Phase → Prop
  | .idle => link.up = [] ∧ link.upDone = [] ∧ inFlight = false
  | .sent frame => link.up = [frame] ∧ link.upDone = [] ∧ inFlight = true
  | .done frame => link.up = [] ∧ link.upDone = [frame] ∧ inFlight = true

/-- A frame carries an action, a leave with the data of a client that leaves. -/
def McState.Carries (frame : McState) (action : FcClientAction) : Prop :=
  frame.action = action.toU64 ∧ (action = .leave → frame.actionData = leaveFromClient)

/-- The client and its server stand together in a phase. -/
def Together (client server : FlexicastAttributes) (status : McClientStatus) : Phase → Prop
  | .idle =>
    (∃ place, status.resting = some place ∧ server.At place) ∧
      (status.settled = true → status ≠ .waitingToJoin → SameChannel client server)
  | .sent frame =>
    (∃ action place, frame.Carries action ∧ status.asks action = true ∧ action.before = some place ∧ server.At place) ∧
      (status.settled = true → client.fcChanId.map Prod.fst = some frame.channelId)
  | .done frame =>
    (∃ action place, frame.Carries action ∧ status.asks action = true ∧ action.after = some place ∧ server.At place) ∧
      (status.settled = true → SameChannel client server)

/-- How many keys are on their way to the client. -/
def Link.keys (self : Link) : Nat := self.down.countP Down.isKey

/-- A key comes once in each stay of the client, after its server took it in and before it listens. -/
structure KeyInTurn (link : Link) (status : McClientStatus) : Prop where
  coming : 0 < link.keys → link.keys = 1 ∧ status.takesKey = true ∧ link.server.flexicast.At .joining ∧
    link.server.flexicast.mcKeyUpToDate = true
  got : status = .joinedAndKey → ¬ link.server.flexicast.At .outside ∧
    (link.server.flexicast.At .joining → link.server.flexicast.mcKeyUpToDate = true)

/-- A client that its server knows how to go on with. -/
structure Paired (link : Link) (client : FlexicastAttributes) : Prop where
  indexed : client.Indexed
  together : ∃ status phase, client.mcRole = .client status ∧ phase.Of link client.mcStateInFlight ∧
    Together client link.server.flexicast status phase ∧ KeyInTurn link status

/-- The first channel was announced, if any was. -/
structure FirstAnnounced (link : Link) : Prop where
  first : ∃ first, link.server.flexicast.mcAnnounceData.head? = some first ∧
    ((link.client.isSome = true ∨ ∃ frame ∈ link.down, frame.isKey = false) → first.isProcessed = true)

/-- Neither party is closed. -/
def Link.Running (self : Link) : Prop :=
  self.server.closed = false ∧ ∀ client ∈ self.client, client.closed = false

/-- What holds of a link whose parties are not closed. -/
structure InHand (link : Link) : Prop where
  announced : FirstAnnounced link
  server : ∃ status, link.server.flexicast.mcRole = .serverUnicast status
  nobody : link.client = none →
    link.up = [] ∧ link.upDone = [] ∧ link.server.flexicast.At .outside ∧ link.keys = 0
  somebody : ∀ client ∈ link.client, Paired link client.flexicast

end Places

section Servers

variable {self moved : FlexicastAttributes} {status : McClientStatus} {action : FcClientAction}
  {actionData : Option Nat} {place : Place}

/-- A server that is told of nothing keeps its client where it is. -/
structure Stays (before after : FlexicastAttributes) : Prop where
  place : ∀ place, before.At place → after.At place
  joined : after.fcChanId = before.fcChanId
  upToDate : before.mcKeyUpToDate = true → after.mcKeyUpToDate = true

/-- The step of the state machine for each action of a client that comes where the client is waited for. -/
theorem transition_asked (status : McClientStatus) (self : FlexicastAttributes) (action : FcClientAction)
    (asked : action.before = status.place) (known : action.before.isSome = true) {data : Nat}
    (announced : ∃ first, self.mcAnnounceData.head? = some first ∧ first.isProcessed = true)
    (leaves : action = .leave → data = leaveFromClient) :
    ∃ result, self.transition true status action (some data) = .ok result ∧ result.2.place = action.after := by
  obtain ⟨first, head, processed⟩ := announced
  cases action with
  | notify => cases known
  | decryptionKey => cases known
  | join =>
    -- A join finds the client outside, whether or not its server knows that it is aware.
    cases status with
    | unaware => exact ⟨_, by simp only [transition, head, if_true, processed]; rfl, rfl⟩
    | awareUnjoined => exact ⟨_, rfl, rfl⟩
    | listenMcPath up => cases up <;> cases asked
    | _ => cases asked
  | mcPath =>
    cases status with
    | joinedNoKey => exact ⟨_, rfl, rfl⟩
    | joinedAndKey => exact ⟨_, rfl, rfl⟩
    | listenMcPath up => cases up <;> cases asked
    | _ => cases asked
  | change => cases known
  | leave =>
    obtain rfl := leaves rfl
    cases status with
    | listenMcPath up =>
      cases up with
      | true => exact ⟨_, rfl, rfl⟩
      | false => cases asked
    | _ => cases asked

theorem At.of_role (role : self.mcRole = .serverUnicast status) : self.At place ↔ status.place = some place := by
  constructor
  · rintro ⟨other, same, at_⟩
    rw [role] at same
    cases same
    exact at_
  · exact fun at_ => ⟨status, role, at_⟩

/-- A server has its client in one place. -/
theorem At.unique {other : Place} (stands : self.At place) (there : self.At other) : place = other := by
  obtain ⟨status, role, at_⟩ := stands
  rw [At.of_role role, at_] at there
  exact Option.some.inj there

theorem At.isOutside (stands : self.At .outside) : self.outside = true := by
  obtain ⟨status, role, at_⟩ := stands
  simp only [FlexicastAttributes.outside, role]
  cases status with
  | unaware => rfl
  | awareUnjoined => rfl
  | listenMcPath up => cases up <;> cases at_
  | _ => cases at_

theorem At.isMember (stands : self.At place) (inside : place ≠ .outside) : self.member = true := by
  obtain ⟨status, role, at_⟩ := stands
  simp only [FlexicastAttributes.member, role]
  -- Outside are just the statuses before joining.
  cases status with
  | unaware => exact absurd (Option.some.inj at_).symm inside
  | awareUnjoined => exact absurd (Option.some.inj at_).symm inside
  | joinedNoKey => rfl
  | joinedAndKey => rfl
  | listenMcPath up => rfl
  | _ => cases at_

/-- Whatever keeps the role and the joined channel keeps the client where it is. -/
theorem Stays.same (role : moved.mcRole = self.mcRole) (joined : moved.fcChanId = self.fcChanId)
    (upToDate : self.mcKeyUpToDate = true → moved.mcKeyUpToDate = true) : Stays self moved :=
  ⟨fun place at_ => by unfold At at at_ ⊢; rwa [role], joined, upToDate⟩

/-- An announcement and a key lead from one status to another of the same place. -/
theorem transition_heard (heard : action = .notify ∨ action = .decryptionKey)
    {result : FlexicastAttributes × McClientStatus}
    (done : self.transition true status action actionData = .ok result) :
    result.1 = self ∧ ∀ place, status.place = some place → result.2.place = some place := by
  rcases heard with rfl | rfl
  · cases status <;> cases done <;> exact ⟨rfl, fun _ => id⟩
  · cases status with
    | waitingToJoin =>
      cases done
      exact ⟨rfl, fun _ at_ => by cases at_⟩
    | changing =>
      cases done
      exact ⟨rfl, fun _ at_ => by cases at_⟩
    | listenMcPath up => cases up <;> cases done <;> exact ⟨rfl, fun _ => id⟩
    | _ =>
      cases done
      exact ⟨rfl, fun _ => id⟩

/-- A server hears that its client got an announcement or a key, which keeps the client where it is. -/
theorem Stays.hears {before : FlexicastAttributes} (done : self.updateClientState action actionData = .ok moved)
    (role : before.mcRole = .serverUnicast status)
    (same : self.mcRole = before.mcRole ∧ self.fcChanId = before.fcChanId)
    (upToDate : before.mcKeyUpToDate = true → self.mcKeyUpToDate = true)
    (heard : action = .notify ∨ action = .decryptionKey) :
    Stays before moved ∧ moved.mcAnnounceData = self.mcAnnounceData ∧
      ∃ status', moved.mcRole = .serverUnicast status' := by
  obtain ⟨channels, joined⟩ := updateClientState_channels done
  rw [updateClientState_server (same.1.trans role)] at done
  cases stepped : self.transition true status action actionData with
  | error error =>
    rw [stepped] at done
    cases done
  | ok result =>
    rw [stepped] at done
    cases done
    refine ⟨⟨fun place at_ => ?_, joined.trans same.2, fun flag => ?_⟩, channels, result.2, rfl⟩
    · rw [At.of_role role] at at_
      exact ⟨result.2, rfl, (transition_heard heard stepped).2 place at_⟩
    · -- Only a leave puts the key out of date.
      have kept : result.1.mcKeyUpToDate = true := by
        rw [(transition_heard heard stepped).1]
        exact upToDate flag
      rcases heard with rfl | rfl <;> exact kept

theorem recordChannel_named {channelId : Bytes} {createMcPath : Except FcError Nat}
    (done : (self.recordChannel channelId action createMcPath).2 = .ok ()) :
    (self.recordChannel channelId action createMcPath).1.fcChanId.map Prod.fst = some channelId := by
  have recorded : (self.recordChannel channelId action createMcPath).1.fcChanId =
      ((self.getMcAnnounceDataIndex channelId).map fun idx => (channelId, idx)).or self.fcChanId :=
    congrArg Prod.fst (recordChannel_view self channelId action createMcPath)
  rw [recorded]
  cases found : self.getMcAnnounceDataIndex channelId with
  | none =>
    -- An unknown channel is refused.
    simp only [recordChannel, found] at done
    cases done
  | some idx => rfl

/-- A frame that comes where it is waited for takes the client on, and to the channel that it names. -/
theorem processMcState_asked {frame : McState} {createMcPath : Except FcError Nat} {after : Place}
    (carries : frame.Carries action) (waited : action.before = some place) (stands : self.At place)
    (announced : ∃ first, self.mcAnnounceData.head? = some first ∧ first.isProcessed = true)
    (leads : action.after = some after)
    (done : self.processMcState frame createMcPath = (moved, .ok ())) :
    moved.At after ∧ moved.fcChanId.map Prod.fst = some frame.channelId ∧
      moved.mcAnnounceData = self.mcAnnounceData ∧ ∃ status, moved.mcRole = .serverUnicast status := by
  obtain ⟨status, role, here⟩ := stands
  have known : FcClientAction.tryFrom frame.action = some action := by
    rw [carries.1]
    exact FcClientAction.tryFrom_toU64 action
  -- The state machine takes the client on.
  obtain ⟨result, stepped, placed⟩ := transition_asked status self action (waited.trans here.symm)
    (by rw [waited]; rfl) announced carries.2
  have channels := (processMcState_channels self frame createMcPath).1
  have recorded : (self.processMcState frame createMcPath).1.mcRole = .serverUnicast result.2 := by
    simp only [processMcState, known, updateClientState_server role, stepped, Except.map]
    exact (recordChannel_keeps _ _ _ _).1
  -- A frame that names an unknown channel would have failed.
  have named : (self.processMcState frame createMcPath).1.fcChanId.map Prod.fst = some frame.channelId := by
    simp only [processMcState, known, updateClientState_server role, stepped, Except.map] at done ⊢
    exact recordChannel_named (congrArg Prod.snd done)
  rw [done] at channels recorded named
  exact ⟨⟨result.2, recorded, placed.trans leads⟩, named, channels, result.2, recorded⟩

end Servers

section Clients

variable {self moved : FlexicastAttributes} {status : McClientStatus} {action : FcClientAction}
  {actionData : Option Nat}

theorem updateClientState_ofClient (role : self.mcRole = .client status) :
    self.updateClientState action actionData =
      (self.transition false status action actionData).map fun moved => moved.1.settle false status moved.2 action := by
  simp only [updateClientState, role]

variable {result : FlexicastAttributes × McClientStatus} {frame : McState}

theorem transition_inFlight {isServer : Bool} (done : self.transition isServer status action actionData = .ok result) :
    result.1.mcStateInFlight = self.mcStateInFlight := by
  unfold transition at done
  repeat' split at done
  all_goals cases done
  all_goals rfl

theorem updateClientState_moved (role : self.mcRole = .client status)
    (done : self.updateClientState action actionData = .ok moved) :
    ∃ result, self.transition false status action actionData = .ok result ∧ moved.mcRole = .client result.2 ∧
      moved.mcStateInFlight = self.mcStateInFlight ∧ moved.fcChanId = self.fcChanId ∧
      moved.mcAnnounceData = self.mcAnnounceData := by
  obtain ⟨channels, joined⟩ := updateClientState_channels done
  -- Moving a client is one transition of its status; the rest of its state stays.
  rw [updateClientState_ofClient role] at done
  cases stepped : self.transition false status action actionData with
  | error error =>
    rw [stepped] at done
    cases done
  | ok result =>
    rw [stepped] at done
    cases done
    exact ⟨result, rfl, rfl, transition_inFlight stepped, joined, channels⟩

/-- A client that moves on waits for a key still, and has none that it had not got. -/
structure KeepsKey (before after : McClientStatus) : Prop where
  takes : before.takesKey = true → after.takesKey = true
  got : after = .joinedAndKey → before = .joinedAndKey

/-- The acknowledgment of what a client asked for brings it where its server already is. -/
theorem transition_acked (asked : status.asks action = true) {data : Nat}
    (done : self.transition false status action (some data) = .ok result) :
    result.2.resting = action.after ∧ (result.2.settled = true → status.settled = true) ∧
      KeepsKey status result.2 := by
  -- One case for each status that asks, and each action that it asks for.
  cases status with
  | waitingToJoin =>
    cases action with
    | join =>
      cases done
      exact ⟨rfl, fun _ => rfl, fun _ => rfl, fun got => by cases got⟩
    | _ => cases asked
  | joinedAndKey =>
    cases action with
    | join =>
      cases done
      exact ⟨rfl, fun _ => rfl, id, id⟩
    | mcPath =>
      cases done
      exact ⟨rfl, fun _ => rfl, fun takes => (by cases takes), fun got => by cases got⟩
    | _ => cases asked
  | leaving notified =>
    cases notified with
    | true => cases action <;> cases asked
    | false =>
      cases action with
      | leave =>
        cases done
        exact ⟨rfl, fun settled => (by cases settled), fun takes => (by cases takes), fun got => by cases got⟩
      | _ => cases asked
  | _ => cases action <;> cases asked

/-- An acknowledged frame brings the client where its server already is, with nothing in flight. -/
theorem onMcStateAcked_asked (role : self.mcRole = .client status) (carries : frame.Carries action)
    (asked : status.asks action = true) (done : self.onMcStateAcked frame = .ok moved) :
    (∃ status', moved.mcRole = .client status' ∧ status'.resting = action.after ∧
      (status'.settled = true → status.settled = true) ∧ KeepsKey status status') ∧
      moved.mcStateInFlight = false ∧ moved.fcChanId = self.fcChanId ∧ moved.mcAnnounceData = self.mcAnnounceData := by
  have known : FcClientAction.tryFrom frame.action = some action := by
    rw [carries.1]
    exact FcClientAction.tryFrom_toU64 action
  simp only [onMcStateAcked, known] at done
  split at done
  case isTrue changed =>
    -- A client that listens has asked for nothing.
    simp only [Bool.and_eq_true, decide_eq_true_eq] at changed
    have listens := changed.1
    rw [role] at listens
    cases listens
    cases action <;> cases asked
  case isFalse =>
    have landed : FlexicastAttributes.mcRole { self with mcStateInFlight := false } = .client status := role
    obtain ⟨result, stepped, role', flight, joined, channels⟩ := updateClientState_moved landed done
    exact ⟨⟨result.2, role', transition_acked asked stepped⟩, flight, joined, channels⟩

/-- A call of the application brings a client to a status that asks for no more of its server than the other. -/
structure Relaxes (status status' : McClientStatus) : Prop where
  resting : status'.resting = status.resting
  asks : ∀ action, status.asks action = true → status'.asks action = true
  settled : status'.settled = true → status' = .waitingToJoin ∧ ∀ action, status.asks action = false
  key : KeepsKey status status'

variable {client server : FlexicastAttributes} {phase : Phase}

/-- A client that has relaxed stands together with its server still. -/
theorem Relaxes.together {status' : McClientStatus} (relaxes : Relaxes status status')
    (together : Together client server status phase) : Together moved server status' phase := by
  cases phase with
  | idle =>
    obtain ⟨⟨place, rests, at_⟩, -⟩ := together
    exact ⟨⟨place, relaxes.resting.trans rests, at_⟩,
      fun settled waits => absurd (relaxes.settled settled).1 waits⟩
  | sent frame =>
    obtain ⟨⟨action, place, carries, asked, before, at_⟩, -⟩ := together
    refine ⟨⟨action, place, carries, relaxes.asks action asked, before, at_⟩, fun settled => ?_⟩
    -- A status that has settled was reached from one that had asked for nothing.
    have silent := (relaxes.settled settled).2 action
    rw [asked] at silent
    cases silent
  | done frame =>
    obtain ⟨⟨action, place, carries, asked, after, at_⟩, -⟩ := together
    refine ⟨⟨action, place, carries, relaxes.asks action asked, after, at_⟩, fun settled => ?_⟩
    have silent := (relaxes.settled settled).2 action
    rw [asked] at silent
    cases silent

theorem resting_of_asks (asked : status.asks action = true) : status.resting.isSome = true := by
  cases status with
  | listenMcPath up => cases up <;> cases action <;> first | rfl | cases asked
  | leaving notified => cases notified <;> cases action <;> first | rfl | cases asked
  | _ => cases action <;> first | rfl | cases asked

/-- Who stands together with a server is in one of the statuses that the server waits in. -/
theorem Together.known (together : Together client server status phase) : status.resting.isSome = true := by
  -- In each phase the client rests, or asks for what it does from a resting status.
  cases phase with
  | idle =>
    obtain ⟨⟨place, rests, -⟩, -⟩ := together
    rw [rests]
    rfl
  | sent frame =>
    obtain ⟨⟨action, place, -, asked, -⟩, -⟩ := together
    exact resting_of_asks asked
  | done frame =>
    obtain ⟨⟨action, place, -, asked, -⟩, -⟩ := together
    exact resting_of_asks asked

/-- A server that waits for its client has it in a place. -/
theorem Together.stands (together : Together client server status phase) : ∃ place, server.At place := by
  cases phase with
  | idle =>
    obtain ⟨⟨place, -, at_⟩, -⟩ := together
    exact ⟨place, at_⟩
  | sent frame =>
    obtain ⟨⟨action, place, -, -, -, at_⟩, -⟩ := together
    exact ⟨place, at_⟩
  | done frame =>
    obtain ⟨⟨action, place, -, -, -, at_⟩, -⟩ := together
    exact ⟨place, at_⟩

/-- What a call of the application makes of a client that its server waits for. -/
structure Calls (before after : FlexicastAttributes) (status : McClientStatus) : Prop where
  relaxes : ∃ status', after.mcRole = .client status' ∧ Relaxes status status'
  inFlight : after.mcStateInFlight = before.mcStateInFlight

/-- Joining makes a client that is outside wait, and leaves one that is leaving alone. -/
theorem mcJoinChannel_calls {fcChanId : Option Bytes} (role : self.mcRole = .client status)
    (done : self.mcJoinChannel fcChanId = .ok moved) : Calls self moved status := by
  -- Whatever channel is recorded first, the state machine is told to join.
  have joins {recorded : FlexicastAttributes} (told : recorded.updateClientState .join none = .ok moved)
      (same : recorded.mcRole = .client status) (flight : recorded.mcStateInFlight = self.mcStateInFlight)
      (may : status = .awareUnjoined ∨ ∃ notified, status = .leaving notified) : Calls self moved status := by
    obtain ⟨result, stepped, role', kept, -, -⟩ := updateClientState_moved same told
    refine ⟨⟨result.2, role', ?_⟩, kept.trans flight⟩
    rcases may with rfl | ⟨notified, rfl⟩
    · cases stepped
      exact ⟨rfl, fun action asked => (by cases asked), fun _ => ⟨rfl, fun _ => rfl⟩,
        fun takes => (by cases takes), fun got => by cases got⟩
    · cases stepped
      exact ⟨rfl, fun _ asked => asked, fun settled => (by cases settled), id, id⟩
  simp only [mcJoinChannel] at done
  obtain ⟨allowed, done⟩ | ⟨-, done⟩ := ite_eq_iff.mp done
  · have may : status = .awareUnjoined ∨ ∃ notified, status = .leaving notified := by
      rw [role] at allowed
      cases status with
      | awareUnjoined => exact .inl rfl
      | leaving notified => exact .inr ⟨notified, rfl⟩
      | _ => cases allowed
    split at done
    · split at done
      case h_1 => exact joins done role rfl may
      case h_2 => cases done
    · split at done
      case h_1 => exact joins done role rfl may
      case h_2 => cases done
  · cases done

/-- Leaving makes a client that listens leave. -/
theorem mcLeaveChannel_calls (role : self.mcRole = .client status) (known : status.resting.isSome = true)
    (done : self.mcLeaveChannel = .ok moved) : Calls self moved status := by
  simp only [mcLeaveChannel, role] at done
  split at done
  case h_1 up listens =>
    cases listens
    obtain ⟨result, stepped, role', kept, -, -⟩ := updateClientState_moved role done
    -- A client without its key up to date is in no resting status.
    cases up with
    | false => cases known
    | true =>
      cases stepped
      refine ⟨⟨_, role', rfl, fun action asked => ?_, fun settled => (by cases settled), fun takes => (by cases takes),
        fun got => by cases got⟩, kept⟩
      cases action <;> cases asked
  case h_2 other => cases other
  case h_3 => cases done

theorem takesKey_iff :
    status.takesKey = true ↔ status = .joinedNoKey ∨ status = .waitingToJoin ∨ status = .changing := by
  cases status <;> simp [McClientStatus.takesKey]

/-- Where a key brings a client that takes it. -/
theorem updateClientState_key (role : self.mcRole = .client status) (takes : status.takesKey = true)
    (known : status.resting.isSome = true) (done : self.updateClientState .decryptionKey none = .ok moved) :
    moved.mcRole = .client .joinedAndKey ∧ moved.mcStateInFlight = self.mcStateInFlight ∧
      moved.fcChanId = self.fcChanId ∧ moved.mcAnnounceData = self.mcAnnounceData := by
  obtain ⟨result, stepped, role', rest⟩ := updateClientState_moved role done
  refine ⟨?_, rest⟩
  -- A client that its server waits for takes a key in two statuses.
  rcases takesKey_iff.mp takes with rfl | rfl | rfl
  · cases stepped
    exact role'
  · cases stepped
    exact role'
  · cases known

/-- The frame that a client sends is one that its status asks for, of the channel that it joined. -/
theorem stateFrame_asked (role : self.mcRole = .client status) (indexed : self.Indexed)
    (known : status.resting.isSome = true) (done : self.stateFrame = .ok frame) :
    (∃ action, frame.Carries action ∧ status.asks action = true ∧ action.before = status.resting) ∧
      self.fcChanId.map Prod.fst = some frame.channelId := by
  unfold stateFrame at done
  split at done
  case h_1 action data announce acts active =>
    cases done
    -- The frame names the channel that stands at the index of the joined one.
    have named : self.fcChanId.map Prod.fst = some announce.channelId := by
      obtain ⟨chan, joined, found⟩ := Option.bind_eq_some_iff.mp active
      have stands := indexed chan joined
      rw [found] at stands
      rw [joined, Option.map_some]
      exact stands.symm
    refine ⟨⟨action, ?_⟩, named⟩
    simp only [stateAction, role] at acts
    split at acts
    case h_6 => cases acts
    case h_4 other => cases other
    all_goals
      rename_i same
      cases same
      cases acts
    · exact ⟨⟨rfl, fun leave => by cases leave⟩, rfl, rfl⟩
    · exact ⟨⟨rfl, fun leave => by cases leave⟩, rfl, rfl⟩
    · exact ⟨⟨rfl, fun _ => rfl⟩, rfl, rfl⟩
    · cases known
  case h_2 => cases done
  case h_3 => cases done

end Clients

section Parties

variable {party : Party} {operation : FlexicastAttributes → Except FcError FlexicastAttributes}

theorem Party.call_cases (party : Party) (operation : FlexicastAttributes → Except FcError FlexicastAttributes) :
    party.call operation = party ∨ ∃ moved, party.closed = false ∧ operation party.flexicast = .ok moved ∧
      party.call operation = { party with flexicast := moved } := by
  -- A closed party, and a call that fails, change nothing.
  unfold Party.call
  cases closed : party.closed with
  | true => exact .inl (by simp)
  | false =>
    cases done : operation party.flexicast with
    | error error => exact .inl (by simp)
    | ok moved => exact .inr ⟨moved, rfl, rfl, by simp⟩

theorem Party.handle_running (running : (party.handle operation).closed = false) :
    party.closed = false ∧ ∃ moved, operation party.flexicast = .ok moved ∧
      party.handle operation = { party with flexicast := moved } := by
  -- A failed operation would have closed the party.
  unfold Party.handle at running ⊢
  cases closed : party.closed with
  | true =>
    rw [closed] at running
    simp [closed] at running
  | false =>
    rw [closed] at running
    cases done : operation party.flexicast with
    | error error =>
      rw [done] at running
      cases running
    | ok moved => exact ⟨rfl, moved, rfl, by simp⟩

/-- A party that is not closed afterwards has processed the frame. -/
theorem Party.receive_running {frame : McState} {createMcPath : Except FcError Nat}
    (running : (party.receive frame createMcPath).closed = false) :
    party.closed = false ∧ ∃ moved, party.flexicast.processMcState frame createMcPath = (moved, .ok ()) ∧
      party.receive frame createMcPath = { party with flexicast := moved } := by
  -- A frame that is refused would have closed the party.
  unfold Party.receive at running ⊢
  cases closed : party.closed with
  | true =>
    rw [closed] at running
    simp [closed] at running
  | false =>
    rw [closed] at running
    cases done : party.flexicast.processMcState frame createMcPath with
    | mk moved result =>
      cases result with
      | error error =>
        rw [done] at running
        cases running
      | ok done => exact ⟨rfl, moved, rfl, by simp⟩

theorem Party.send_cases {frame : McState} {after : Party} (sends : party.send? = some (frame, after)) :
    party.closed = false ∧ party.flexicast.mcStateInFlight = false ∧ party.flexicast.stateFrame = .ok frame ∧
      after = { party with flexicast := { party.flexicast with mcStateInFlight := true } } := by
  unfold Party.send? at sends
  split at sends
  case isTrue => cases sends
  case isFalse wants =>
    split at sends
    case h_1 sent done =>
      cases sends
      simp only [Bool.or_eq_true, Bool.not_eq_true', not_or, Bool.not_eq_true, Bool.not_eq_false] at wants
      refine ⟨wants.1, ?_, done, rfl⟩
      -- A frame in flight would have to be acknowledged first.
      cases flight : party.flexicast.mcStateInFlight with
      | false => rfl
      | true =>
        have none_ := wants.2
        simp [shouldSendFcState, flight] at none_
    case h_2 => cases sends

end Parties

section Links

variable {link after : Link} {status : McClientStatus}

theorem KeyInTurn.client (turn : KeyInTurn link status) {status' : McClientStatus} (keys : after.keys = link.keys)
    (server : after.server = link.server) (key : KeepsKey status status') : KeyInTurn after status' := by
  refine ⟨fun comes => ?_, fun got => ?_⟩
  · rw [keys] at comes ⊢
    rw [server]
    obtain ⟨one, takes, rest⟩ := turn.coming comes
    exact ⟨one, key.takes takes, rest⟩
  · rw [server]
    exact turn.got (key.got got)

variable {place : Place} {change : Party → Party} {phase : Phase}

/-- A key is in turn still for a server that keeps its client where it is. -/
theorem KeyInTurn.server (turn : KeyInTurn link status) (keys : after.keys = link.keys)
    (stays : Stays link.server.flexicast after.server.flexicast) (stands : link.server.flexicast.At place) :
    KeyInTurn after status := by
  refine ⟨fun comes => ?_, fun got => ⟨fun outside => ?_, fun joining => ?_⟩⟩
  · rw [keys] at comes ⊢
    obtain ⟨one, takes, joining, flag⟩ := turn.coming comes
    exact ⟨one, takes, stays.place _ joining, stays.upToDate flag⟩
  · -- There is only one place that the client can have been in before.
    rw [At.unique (stays.place _ stands) outside] at stands
    exact (turn.got got).1 stands
  · rw [At.unique (stays.place _ stands) joining] at stands
    exact stays.upToDate ((turn.got got).2 stands)

/-- What a client asks for is processed before a key is sent, or after it was taken. -/
theorem KeyInTurn.told (turn : KeyInTurn link status) {action : FcClientAction} {place' : Place}
    (keys : after.keys = link.keys) (asked : status.asks action = true) (before : action.before = some place)
    (stands : link.server.flexicast.At place) (leads : action.after = some place')
    (leftAt : after.server.flexicast.At place') : KeyInTurn after status := by
  have silent (none_ : link.keys = 0) (gets : status = .joinedAndKey → place' = .listening) :
      KeyInTurn after status := by
    rw [← keys] at none_
    refine ⟨fun comes => absurd comes (by omega), fun got => ?_⟩
    rw [gets got] at leftAt
    exact ⟨fun outside => (by cases At.unique leftAt outside), fun joining => by cases At.unique leftAt joining⟩
  have takes (deaf : status.takesKey = false) : link.keys = 0 := by
    refine Nat.eq_zero_of_not_pos fun comes => ?_
    have some_ := (turn.coming comes).2.1
    rw [deaf] at some_
    cases some_
  cases action with
  | join =>
    -- A server that has its client outside has sent it no key.
    cases before
    refine silent (Nat.eq_zero_of_not_pos fun comes => ?_) fun got => absurd stands (turn.got got).1
    cases At.unique stands (turn.coming comes).2.2.1
  | mcPath =>
    cases leads
    cases status with
    | joinedAndKey => exact silent (takes rfl) fun _ => rfl
    | leaving notified => cases notified <;> cases asked
    | _ => cases asked
  | leave =>
    cases status with
    | leaving notified => exact silent (takes rfl) fun got => by cases got
    | _ => cases asked
  | _ => cases before

theorem InHand.onClient (inHand : InHand link)
    (keeps : ∀ client ∈ link.client, Paired link client.flexicast → Paired link (change client).flexicast) :
    InHand (link.onClient change) where
  announced := by
    obtain ⟨first, head, processed⟩ := inHand.announced.first
    refine ⟨first, head, fun some_ => processed ?_⟩
    simpa [Link.onClient] using some_
  server := inHand.server
  nobody := by
    intro none_
    exact inHand.nobody (Option.map_eq_none_iff.mp none_)
  somebody := by
    intro after listed
    obtain ⟨client, here, rfl⟩ := Option.map_eq_some_iff.mp listed
    -- The server and the frames in flight are the same, so only the pairing is at stake.
    obtain ⟨indexed, status, phase, role, of, together, turn⟩ := keeps client here (inHand.somebody client here)
    exact ⟨indexed, status, phase, role, of, together, turn.client rfl rfl ⟨id, id⟩⟩

variable {client server : FlexicastAttributes} {fromSecret : Algorithm → Bytes → Bool} {event : LinkEvent}

/-- A call that relaxes the client keeps it paired. -/
theorem Paired.calls (paired : Paired link client)
    (operation : FlexicastAttributes → Except FcError FlexicastAttributes) (closed : Bool)
    (refers : ∀ moved, operation client = .ok moved → Refers client moved)
    (relaxes : ∀ status moved, client.mcRole = .client status → status.resting.isSome = true →
      operation client = .ok moved → Calls client moved status) :
    Paired link (Party.call ⟨client, closed⟩ operation).flexicast := by
  obtain same | ⟨moved, -, done, same⟩ := Party.call_cases ⟨client, closed⟩ operation
  · rw [same]
    exact paired
  · rw [same]
    -- A call moves the client to a status that asks for the same, in the same phase.
    obtain ⟨status, phase, role, of, together, turn⟩ := paired.together
    obtain ⟨⟨status', role', relaxed⟩, flight⟩ := relaxes status moved role together.known done
    exact ⟨(refers moved done).indexed, status', phase, role', flight ▸ of, relaxed.together together,
      turn.client rfl rfl relaxed.key⟩

theorem SameChannel.named {channelId : Bytes} (left : client.fcChanId.map Prod.fst = some channelId)
    (right : server.fcChanId.map Prod.fst = some channelId) : SameChannel client server := by
  refine ⟨?_, left.trans right.symm⟩
  obtain ⟨chan, joined, -⟩ := Option.map_eq_some_iff.mp left
  rw [joined]
  rfl

/-- A server that keeps its client where it is stands together with it still. -/
theorem Stays.together {server' : FlexicastAttributes} {status : McClientStatus} (stays : Stays server server')
    (together : Together client server status phase) : Together client server' status phase := by
  -- The server keeps the channel it has its client in, and the place it stands at.
  have channel (same : SameChannel client server) : SameChannel client server' := by
    unfold SameChannel at same ⊢
    rw [stays.joined]
    exact same
  cases phase with
  | idle =>
    obtain ⟨⟨place, rests, at_⟩, settled⟩ := together
    exact ⟨⟨place, rests, stays.place place at_⟩, fun settles waits => channel (settled settles waits)⟩
  | sent frame =>
    obtain ⟨⟨action, place, carries, asked, before, at_⟩, named⟩ := together
    exact ⟨⟨action, place, carries, asked, before, stays.place place at_⟩, named⟩
  | done frame =>
    obtain ⟨⟨action, place, carries, asked, after, at_⟩, settled⟩ := together
    exact ⟨⟨action, place, carries, asked, after, stays.place place at_⟩, fun settles => channel (settled settles)⟩

/-- What keeps the client and its frames, and where the server has it, keeps the link in hand. -/
theorem InHand.onServer (inHand : InHand link) (client : after.client = link.client)
    (frames : after.up = link.up ∧ after.upDone = link.upDone) (keys : after.keys = link.keys)
    (stays : Stays link.server.flexicast after.server.flexicast)
    (role : ∃ status, after.server.flexicast.mcRole = .serverUnicast status) (announced : FirstAnnounced after) :
    InHand after where
  announced := announced
  server := role
  nobody := by
    intro none_
    obtain ⟨up, upDone, outside, keyless⟩ := inHand.nobody (client ▸ none_)
    exact ⟨frames.1.trans up, frames.2.trans upDone, stays.place _ outside, keys.trans keyless⟩
  somebody := by
    intro party listed
    rw [client] at listed
    -- The client and its frames are the same, so the phase is.
    have paired := inHand.somebody party listed
    obtain ⟨status, phase, role, of, together, turn⟩ := paired.together
    obtain ⟨place, stands⟩ := together.stands
    refine ⟨paired.indexed, status, phase, role, ?_, stays.together together, turn.server keys stays stands⟩
    unfold Phase.Of at of ⊢
    rw [frames.1, frames.2]
    exact of

theorem FirstAnnounced.congr (announced : FirstAnnounced link) (client : after.client = link.client)
    (head : after.server.flexicast.mcAnnounceData.head? = link.server.flexicast.mcAnnounceData.head?)
    (down : ∀ frame ∈ after.down, frame.isKey = false → frame ∈ link.down) : FirstAnnounced after := by
  obtain ⟨first, found, processed⟩ := announced.first
  refine ⟨first, head.trans found, fun some_ => processed ?_⟩
  rw [client] at some_
  exact some_.imp_right fun ⟨frame, listed, isAnnounce⟩ => ⟨frame, down frame listed isAnnounce, isAnnounce⟩

/-- A frame of the client that is processed is done, with the server where the frame leaves it. -/
theorem InHand.upDelivered (inHand : InHand link) {createMcPath : Except FcError Nat}
    (running : (link.next fromSecret (.upDelivered createMcPath)).server.closed = false) :
    InHand (link.next fromSecret (.upDelivered createMcPath)) := by
  simp only [Link.next] at running ⊢
  cases waiting : link.up with
  | nil =>
    simp only
    exact inHand
  | cons frame rest =>
    simp only [waiting] at running ⊢
    obtain ⟨-, moved, done, same⟩ := Party.receive_running running
    -- There is a client, which has sent the frame, and nothing else.
    cases listed : link.client with
    | none =>
      have idle := (inHand.nobody listed).1
      rw [waiting] at idle
      cases idle
    | some party =>
      have paired := inHand.somebody party listed
      obtain ⟨status, phase, role, of, together, turn⟩ := paired.together
      cases phase with
      | idle =>
        have idle := of.1
        rw [waiting] at idle
        cases idle
      | done other =>
        have idle := of.1
        rw [waiting] at idle
        cases idle
      | sent other =>
        obtain ⟨up, upDone, flight⟩ := of
        rw [waiting] at up
        cases up
        obtain ⟨⟨action, place, carries, asked, before, at_⟩, named⟩ := together
        obtain ⟨first, head, processed⟩ := inHand.announced.first
        have announced : first.isProcessed = true := processed (.inl (by rw [listed]; rfl))
        obtain ⟨after, leads⟩ := Option.isSome_iff_exists.mp
          (show action.after.isSome = true by cases action <;> first | rfl | cases before)
        obtain ⟨leftAt, joined, channels, server⟩ :=
          processMcState_asked carries before at_ ⟨first, head, announced⟩ leads done
        rw [same]
        refine ⟨⟨first, by rw [channels]; exact head, fun _ => announced⟩, server, fun none_ => ?_, ?_⟩
        · cases none_
        · intro client here
          cases here
          exact ⟨paired.indexed, status, .done frame, role, ⟨rfl, by rw [upDone]; rfl, flight⟩,
            ⟨⟨action, after, carries, asked, leads, leftAt⟩, fun settled => .named (named settled) joined⟩,
            turn.told rfl asked before at_ leads leftAt⟩

/-- A frame of the client that is acknowledged leaves it where its server is. -/
theorem InHand.upAcked (inHand : InHand link) {position : Nat}
    (running : ∀ client ∈ (link.next fromSecret (.upAcked position)).client, client.closed = false) :
    InHand (link.next fromSecret (.upAcked position)) := by
  simp only [Link.next] at running ⊢
  cases sent : link.upDone[position]? with
  | none =>
    simp only
    exact inHand
  | some frame =>
    simp only [sent] at running ⊢
    cases listed : link.client with
    | none =>
      have silent := (inHand.nobody listed).2.1
      rw [silent] at sent
      cases sent
    | some party =>
      have paired := inHand.somebody party listed
      obtain ⟨status, phase, role, of, together, turn⟩ := paired.together
      have opened := running _ (by rw [listed]; rfl)
      obtain ⟨-, moved, done, same⟩ := Party.handle_running opened
      cases phase with
      | idle =>
        rw [of.2.1] at sent
        cases sent
      | sent other =>
        rw [of.2.1] at sent
        cases sent
      | done other =>
        obtain ⟨up, upDone, flight⟩ := of
        -- There is one frame to acknowledge.
        obtain ⟨rfl, rfl⟩ : position = 0 ∧ frame = other := by
          rw [upDone] at sent
          cases position with
          | zero => exact ⟨rfl, (Option.some.inj sent).symm⟩
          | succ position => cases sent
        obtain ⟨⟨action, place, carries, asked, after, at_⟩, settled⟩ := together
        obtain ⟨⟨status', role', rests, settles, key⟩, flight', joined, channels⟩ :=
          onMcStateAcked_asked role carries asked done
        rw [Option.map_some, same, upDone]
        refine ⟨⟨?_⟩, inHand.server, fun none_ => (by cases none_), ?_⟩
        · obtain ⟨first, head, processed⟩ := inHand.announced.first
          exact ⟨first, head, fun _ => processed (.inl (by rw [listed]; rfl))⟩
        · intro client here
          cases here
          refine ⟨(Refers.same paired.indexed channels joined).indexed, status', .idle, role',
            ⟨up, rfl, flight'⟩, ⟨⟨place, rests.trans after, at_⟩, fun settled' _ => ?_⟩, turn.client rfl rfl key⟩
          unfold SameChannel
          rw [joined]
          exact settled (settles settled')

/-- A key that is on its way comes to a client that its server has taken in. -/
theorem Paired.key {moved : FlexicastAttributes} (paired : Paired link client) (coming : 0 < link.keys)
    (done : client.updateClientState .decryptionKey none = .ok moved) :
    moved.Indexed ∧ ∃ phase, moved.mcRole = .client .joinedAndKey ∧ phase.Of link moved.mcStateInFlight ∧
      Together moved link.server.flexicast .joinedAndKey phase ∧ link.keys = 1 ∧
      link.server.flexicast.At .joining ∧ link.server.flexicast.mcKeyUpToDate = true := by
  obtain ⟨status, phase, role, of, together, turn⟩ := paired.together
  obtain ⟨one, takes, joining, flag⟩ := turn.coming coming
  obtain ⟨role', flight, joined, channels⟩ := updateClientState_key role takes together.known done
  refine ⟨(Refers.same paired.indexed channels joined).indexed, phase, role', flight ▸ of, ?_, one, joining, flag⟩
  have same (channel : SameChannel client link.server.flexicast) : SameChannel moved link.server.flexicast := by
    unfold SameChannel at channel ⊢
    rw [joined]
    exact channel
  cases phase with
  | idle =>
    obtain ⟨⟨place, rests, at_⟩, settled⟩ := together
    cases At.unique at_ joining
    rcases takesKey_iff.mp takes with rfl | rfl | rfl
    · exact ⟨⟨_, rfl, joining⟩, fun _ _ => same (settled rfl (by decide))⟩
    · cases rests
    · cases rests
  | sent frame =>
    -- What a client without its key has asked for is to join, and its server had it outside before.
    obtain ⟨⟨action, place, carries, asked, before, at_⟩, -⟩ := together
    cases At.unique at_ joining
    rcases takesKey_iff.mp takes with rfl | rfl | rfl
    all_goals cases action <;> first | (cases asked; done) | cases before
  | done frame =>
    obtain ⟨⟨action, place, carries, asked, after, at_⟩, settled⟩ := together
    rcases takesKey_iff.mp takes with rfl | rfl | rfl
    · cases action <;> cases asked
    · refine ⟨⟨action, place, carries, ?_, after, at_⟩, fun _ => same (settled rfl)⟩
      cases action <;> first | rfl | cases asked
    · cases action <;> cases asked

/-- A client that sends a frame has asked its server where it rests. -/
theorem InHand.stateSent (inHand : InHand link) : InHand (link.next fromSecret .stateSent) := by
  simp only [Link.next]
  cases sends : link.client.bind Party.send? with
  | none => exact inHand
  | some result =>
    obtain ⟨frame, after⟩ := result
    obtain ⟨party, listed, sends⟩ := Option.bind_eq_some_iff.mp sends
    obtain ⟨-, flight, done, rfl⟩ := Party.send_cases sends
    have paired := inHand.somebody party listed
    obtain ⟨status, phase, role, of, together, turn⟩ := paired.together
    obtain ⟨⟨action, carries, asked, before⟩, named⟩ := stateFrame_asked role paired.indexed together.known done
    -- A frame is sent only when none is in flight, so the client was idle.
    cases phase with
    | sent other =>
      have busy := of.2.2
      rw [flight] at busy
      cases busy
    | done other =>
      have busy := of.2.2
      rw [flight] at busy
      cases busy
    | idle =>
      obtain ⟨up, upDone, -⟩ := of
      obtain ⟨⟨place, rests, at_⟩, -⟩ := together
      refine ⟨⟨?_⟩, inHand.server, fun none_ => (by cases none_), ?_⟩
      · obtain ⟨first, head, processed⟩ := inHand.announced.first
        exact ⟨first, head, fun _ => processed (.inl (by rw [listed]; rfl))⟩
      · intro client here
        cases here
        exact ⟨paired.indexed, status, .sent frame, role, ⟨by rw [up]; rfl, upDone, rfl⟩,
          ⟨⟨action, place, carries, asked, before.trans rests, at_⟩, fun _ => named⟩, turn.client rfl rfl ⟨id, id⟩⟩

/-- An announcement makes a client of a connection that knew of none, and teaches any other client a channel. -/
theorem InHand.learns (inHand : InHand link) {announced : McAnnounceData} {rest : List Down}
    (running : ∀ client ∈ link.client, client.closed = false) (first : link.down = .announce announced :: rest)
    (client : after.client = some (System.learn link.client announced))
    (server : after.server = link.server) (frames : after.up = link.up ∧ after.upDone = link.upDone)
    (keys : after.keys = link.keys) :
    InHand after := by
  have told : FirstAnnounced after := by
    obtain ⟨front, head, processed⟩ := inHand.announced.first
    refine ⟨front, by rw [server]; exact head, fun _ => processed (.inr ⟨.announce announced, ?_, rfl⟩)⟩
    rw [first]
    exact List.mem_cons_self
  refine ⟨told, by rw [server]; exact inHand.server, fun none_ => ?_, fun party here => ?_⟩
  · rw [client] at none_
    cases none_
  · rw [client] at here
    cases here
    cases listed : link.client with
    | none =>
      -- A client that was just made is outside, and has sent nothing.
      obtain ⟨up, upDone, outside, keyless⟩ := inHand.nobody listed
      refine ⟨fun chan joined => (by cases joined), .awareUnjoined, .idle, rfl,
        ⟨frames.1.trans up, frames.2.trans upDone, rfl⟩, ⟨⟨.outside, rfl, by rw [server]; exact outside⟩,
        fun settled => (by cases settled)⟩, fun comes => absurd comes (by omega), fun got => by cases got⟩
    | some before =>
      have paired := inHand.somebody before listed
      obtain ⟨status, phase, role, of, together, turn⟩ := paired.together
      simp only [System.learn, running before listed, Bool.false_eq_true, if_false]
      refine ⟨paired.indexed.further _, status, phase, role, ?_, ?_, turn.client keys server ⟨id, id⟩⟩
      · unfold Phase.Of at of ⊢
        rw [frames.1, frames.2]
        exact of
      · rw [server]
        cases phase <;> exact together

/-- A frame of the server that is processed keeps the link in hand. -/
theorem InHand.downDelivered (inHand : InHand link)
    (running : ∀ client ∈ (link.next fromSecret .downDelivered).client, client.closed = false)
    (before : ∀ client ∈ link.client, client.closed = false) : InHand (link.next fromSecret .downDelivered) := by
  simp only [Link.next] at running ⊢
  cases coming : link.down with
  | nil =>
    simp only
    exact inHand
  | cons frame rest =>
    simp only [coming] at running ⊢
    cases frame with
    | announce announced =>
      exact inHand.learns before coming rfl rfl ⟨rfl, rfl⟩ (by simp [Link.keys, coming, Down.isKey])
    | key frame =>
      have counted : link.keys = rest.countP Down.isKey + 1 := by
        unfold Link.keys
        rw [coming]
        exact List.countP_cons_of_pos rfl
      cases listed : link.client with
      | none =>
        -- Without a client no key was sent.
        have keyless := (inHand.nobody listed).2.2.2
        omega
      | some party =>
        have opened := before party listed
        have paired := inHand.somebody party listed
        simp only [Link.receiveDown, Link.receiveKey, listed, opened, Bool.false_eq_true, if_false] at running ⊢
        cases done : (link.clientKeys.keyed party.flexicast).processMcKey fromSecret frame with
        | error error =>
          rw [done] at running
          cases running _ rfl
        | ok keyed =>
          obtain ⟨indexed, phase, role, of, together, one, joining, flag⟩ :=
            paired.key (by omega) (KeySystem.processMcKey_keeps done).1
          refine ⟨⟨?_⟩, inHand.server, fun none_ => (by cases none_), fun client here => ?_⟩
          · obtain ⟨first, head, processed⟩ := inHand.announced.first
            exact ⟨first, head, fun _ => processed (.inl (by rw [listed]; rfl))⟩
          · cases here
            refine ⟨indexed, .joinedAndKey, phase, role, of, together, fun comes => ?_,
              fun _ => ⟨fun outside => ?_, fun _ => flag⟩⟩
            · -- It was the only one.
              have later : 0 < rest.countP Down.isKey := comes
              omega
            · cases At.unique joining outside

theorem sendAnnounce_first {first : McAnnounceData} (unaware : server.mcRole = .serverUnicast .unaware)
    (head : server.mcAnnounceData.head? = some first) :
    ∃ first, server.sendAnnounce.mcAnnounceData.head? = some first ∧ first.isProcessed = true := by
  simp only [sendAnnounce, unaware, if_true]
  cases listed : server.mcAnnounceData with
  | nil =>
    rw [listed] at head
    cases head
  | cons front rest =>
    rw [List.findIdx?_cons]
    cases processed : front.isProcessed with
    | false => exact ⟨{ front with isProcessed := true }, by simp, rfl⟩
    | true =>
      -- The announcement that is sent is a later one.
      cases found : List.findIdx? (fun announce => !announce.isProcessed) rest with
      | none => exact ⟨front, by simp [listed], processed⟩
      | some idx => exact ⟨front, by simp, processed⟩

theorem sendAnnounce_stays (server : FlexicastAttributes) :
    Stays server server.sendAnnounce ∧ server.sendAnnounce.mcRole = server.mcRole := by
  obtain ⟨role, joined, upToDate, -⟩ := sendAnnounce_marks server
  exact ⟨.same role joined (upToDate ▸ id), role⟩

/-- A key is sent to a client that is being taken in, and only once. -/
theorem mcKeyFrame_sent {keyed : KeyedAttributes} {frame : McKey} (sent : keyed.mcKeyFrame = .ok (some frame)) :
    keyed.flexicast.mcKeyUpToDate = false ∧
      (keyed.flexicast.mcRole = .serverUnicast .joinedNoKey ∨ keyed.flexicast.mcRole = .serverUnicast .changing) := by
  unfold KeyedAttributes.mcKeyFrame at sent
  split at sent
  case isTrue wants =>
    constructor
    · unfold KeyedAttributes.shouldSendFcKey at wants
      cases flag : keyed.flexicast.mcKeyUpToDate with
      | false => rfl
      | true => simp [flag] at wants
    · -- In any other status there is no secret to send.
      split at sent
      case h_3 key found =>
        cases role : keyed.flexicast.mcRole with
        | serverUnicast status =>
          simp only [KeyedAttributes.getDecryptionKeySecret, role] at found
          cases status <;> first | exact .inl rfl | exact .inr rfl | cases found
        | _ =>
          simp only [KeyedAttributes.getDecryptionKeySecret, role] at found
          cases found
      all_goals cases sent
  case isFalse => cases sent

/-- A server that sends a key counts it as taken. -/
theorem KeyInTurn.sends (turn : KeyInTurn link status) (together : Together client link.server.flexicast status phase)
    (role : link.server.flexicast.mcRole = .serverUnicast .joinedNoKey)
    (outOfDate : link.server.flexicast.mcKeyUpToDate = false) (keys : after.keys = link.keys + 1)
    (same : after.server.flexicast.mcRole = link.server.flexicast.mcRole)
    (flag : after.server.flexicast.mcKeyUpToDate = true) : KeyInTurn after status := by
  have joining : link.server.flexicast.At .joining := ⟨_, role, rfl⟩
  have joining' : after.server.flexicast.At .joining := ⟨_, same.trans role, rfl⟩
  -- Neither is a key on its way nor has the client one, for then the server would know.
  have keyless : link.keys = 0 := Nat.eq_zero_of_not_pos fun comes => by
    rw [(turn.coming comes).2.2.2] at outOfDate
    cases outOfDate
  have ungot (got : status = .joinedAndKey) : False := by
    rw [(turn.got got).2 joining] at outOfDate
    cases outOfDate
  refine ⟨fun _ => ⟨by omega, ?_, joining', flag⟩, fun got => (ungot got).elim⟩
  cases phase with
  | idle =>
    obtain ⟨⟨place, rests, at_⟩, -⟩ := together
    cases At.unique at_ joining
    cases status with
    | joinedNoKey => rfl
    | joinedAndKey => exact (ungot rfl).elim
    | listenMcPath up => cases up <;> cases rests
    | leaving notified => cases notified <;> cases rests
    | _ => cases rests
  | sent frame =>
    obtain ⟨⟨action, place, -, asked, before, at_⟩, -⟩ := together
    cases At.unique at_ joining
    cases action <;> first | (cases before; done) | skip
    cases status with
    | joinedAndKey => exact (ungot rfl).elim
    | leaving notified => cases notified <;> cases asked
    | _ => cases asked
  | done frame =>
    obtain ⟨⟨action, place, -, asked, left, at_⟩, -⟩ := together
    cases At.unique at_ joining
    cases action <;> first | (cases left; done) | skip
    cases status with
    | waitingToJoin => rfl
    | joinedAndKey => exact (ungot rfl).elim
    | leaving notified => cases notified <;> cases asked
    | _ => cases asked

/-- The server sends an announcement that waits, for an unaware client. -/
theorem InHand.sendsAnnounce (inHand : InHand link) : InHand (link.next fromSecret .announceSent) := by
  obtain ⟨first, head, processed⟩ := inHand.announced.first
  obtain ⟨status, role⟩ := inHand.server
  simp only [Link.next, Link.sendAnnounce]
  split
  case h_1 announced next =>
    unfold Link.nextAnnounce at next
    split at next
    case isTrue => cases next
    case isFalse may =>
      simp only [Bool.or_eq_true, not_or, Bool.not_eq_true, decide_not, Bool.not_eq_true', decide_eq_false_iff_not,
        Decidable.not_not] at may
      obtain ⟨front, head', sent⟩ := sendAnnounce_first may.2 head
      obtain ⟨stays, kept⟩ := sendAnnounce_stays link.server.flexicast
      have called : link.server.call (fun flexicast => .ok flexicast.sendAnnounce) =
          { link.server with flexicast := link.server.flexicast.sendAnnounce } := by
        simp [Party.call, may.1]
      rw [called]
      exact inHand.onServer rfl ⟨rfl, rfl⟩ (by simp [Link.keys, Down.isKey]) stays ⟨status, kept.trans role⟩
        ⟨front, head', fun _ => sent⟩
  case h_2 => exact inHand

/-- The server sends its key, once the client has joined. -/
theorem InHand.sendsKey (inHand : InHand link) : InHand (link.next fromSecret .keySent) := by
  obtain ⟨status, role⟩ := inHand.server
  simp only [Link.next, Link.sendKey]
  split
  case h_1 frame opened sent =>
    obtain ⟨outOfDate, joins⟩ := mcKeyFrame_sent sent
    have keys : Link.keys { link with
        server := { link.server with flexicast := (link.keyed.setMcKeyRead true).flexicast }
        down := link.down ++ [.key frame] } = link.keys + 1 := by
      simp [Link.keys, Down.isKey]
    have told : FirstAnnounced { link with
        server := { link.server with flexicast := (link.keyed.setMcKeyRead true).flexicast }
        down := link.down ++ [.key frame] } := by
      refine inHand.announced.congr rfl rfl fun frame later isAnnounce => ?_
      -- A key announces nothing.
      rcases List.mem_append.mp later with here | there
      · exact here
      · cases List.mem_singleton.mp there
        cases isAnnounce
    have place {other : Place} (at_ : link.server.flexicast.At other) :
        link.server.flexicast.mcRole = .serverUnicast .joinedNoKey := by
      refine joins.resolve_right fun changes => ?_
      cases (At.of_role changes).mp at_
    refine ⟨told, ⟨status, role⟩, fun none_ => ?_, fun party listed => ?_⟩
    · -- Without a client there is nobody to be taken in.
      obtain ⟨-, -, outside, -⟩ := inHand.nobody none_
      cases (At.of_role (place outside)).mp outside
    · obtain ⟨indexed, status, phase, role, of, together, turn⟩ := inHand.somebody party listed
      obtain ⟨_, stands⟩ := together.stands
      have stays : Stays link.server.flexicast (link.keyed.setMcKeyRead true).flexicast := .same rfl rfl fun _ => rfl
      exact ⟨indexed, status, phase, role, of, stays.together together, turn.sends together (place stands) outOfDate
        keys rfl rfl⟩
  case h_2 => exact inHand

/-- What the server hears of its client keeps the client where it is. -/
theorem InHand.acksDown (inHand : InHand link) {position : Nat}
    (running : (link.next fromSecret (.downAcked position)).server.closed = false) :
    InHand (link.next fromSecret (.downAcked position)) := by
  obtain ⟨status, role⟩ := inHand.server
  simp only [Link.next] at running ⊢
  cases sent : link.downDone[position]? with
  | none =>
    simp only
    exact inHand
  | some frame =>
    simp only [sent] at running ⊢
    have heard : Stays link.server.flexicast (Link.ackDown link.server frame).flexicast ∧
        (Link.ackDown link.server frame).flexicast.mcAnnounceData = link.server.flexicast.mcAnnounceData ∧
        ∃ status, (Link.ackDown link.server frame).flexicast.mcRole = .serverUnicast status := by
      cases frame with
      | announce announced =>
        obtain ⟨-, moved, done, same⟩ := Party.handle_running running
        simp only [Link.ackDown, same]
        unfold Endpoint.onMcAnnounceAcked at done
        split at done
        · exact Stays.hears done role ⟨rfl, rfl⟩ id (.inl rfl)
        · cases done
          exact ⟨.same rfl rfl id, rfl, status, role⟩
      | key frame =>
        obtain ⟨-, moved, done, same⟩ := Party.handle_running running
        simp only [Link.ackDown, same]
        have kept := Stays.hears done role ⟨rfl, rfl⟩ (fun _ => rfl) (.inr rfl)
        exact kept
    obtain ⟨stays, channels, role'⟩ := heard
    exact inHand.onServer rfl ⟨rfl, rfl⟩ rfl stays role'
      (inHand.announced.congr rfl (by rw [channels]) fun frame later _ => later)

/-- The server's own events keep the link in hand. -/
theorem InHand.served (inHand : InHand link) (running : (link.next fromSecret event).server.closed = false)
    (own : match event with
      | .announce _ => True
      | .configure .. => True
      | .fcSetFirstPn _ => True
      | .announceSent => True
      | .keySent => True
      | .downAcked _ => True
      | _ => False) : InHand (link.next fromSecret event) := by
  obtain ⟨first, head, processed⟩ := inHand.announced.first
  obtain ⟨status, role⟩ := inHand.server
  have same {after : Link} (client : after.client = link.client)
      (frames : after.up = link.up ∧ after.upDone = link.upDone)
      (down : after.down = link.down)
      (kept : after.server.flexicast.mcRole = link.server.flexicast.mcRole ∧
        after.server.flexicast.fcChanId = link.server.flexicast.fcChanId ∧
        after.server.flexicast.mcAnnounceData = link.server.flexicast.mcAnnounceData)
      (upToDate : after.server.flexicast.mcKeyUpToDate = link.server.flexicast.mcKeyUpToDate) : InHand after := by
    refine inHand.onServer client frames (by rw [Link.keys, down]; rfl) (.same kept.1 kept.2.1 (upToDate ▸ id))
      ⟨status, kept.1.trans role⟩ (inHand.announced.congr client (by rw [kept.2.2]) fun frame later _ => ?_)
    rw [← down]
    exact later
  cases event with
  | announce announced =>
    simp only [Link.next]
    split
    · exact inHand
    · -- A further channel comes behind the first one.
      rename_i opened
      simp only [Party.call, opened]
      refine inHand.onServer rfl ⟨rfl, rfl⟩ rfl (.same rfl rfl id) ⟨status, role⟩ ⟨first, ?_, processed⟩
      simp only [Bool.false_eq_true, if_false]
      rw [List.head?_append, head]
      rfl
  | configure secret fcPathId algo mcAnnounceId =>
    simp only [Link.next]
    split
    case h_1 keyed opened done =>
      simp only [KeyedAttributes.mcSetFlexicastReceiver] at done
      repeat' split at done
      all_goals cases done
      exact same rfl ⟨rfl, rfl⟩ rfl ⟨rfl, rfl, rfl⟩ rfl
    case h_2 => exact inHand
  | fcSetFirstPn pn => exact same rfl ⟨rfl, rfl⟩ rfl ⟨rfl, rfl, rfl⟩ rfl
  | announceSent => exact inHand.sendsAnnounce
  | keySent => exact inHand.sendsKey
  | downAcked position => exact inHand.acksDown running
  | _ => cases own

/-- Every event keeps the link in hand, as long as neither party is closed by it. -/
theorem InHand.next (inHand : InHand link) (before : link.Running) (running : (link.next fromSecret event).Running) :
    InHand (link.next fromSecret event) := by
  -- The client calls, a frame of the client, a frame of the server, or what the server does by itself.
  cases event with
  | join fcChanId =>
    refine inHand.onClient fun client listed paired => paired.calls _ client.closed
      (fun moved done => mcJoinChannel_refers done) fun status moved role _ done => mcJoinChannel_calls role done
  | leave =>
    refine inHand.onClient fun client listed paired => paired.calls _ client.closed ?_
      fun status moved role known done => mcLeaveChannel_calls role known done
    intro moved done
    unfold mcLeaveChannel at done
    split at done
    case h_1 => exact .moves paired.indexed done
    case h_2 => exact .moves paired.indexed done
    case h_3 => cases done
  | pathCreated pathId =>
    refine inHand.onClient fun client listed paired => ?_
    obtain same | ⟨moved, -, done, same⟩ := Party.call_cases client fun flexicast =>
      .ok { flexicast with fcPathId := some pathId }
    · rw [same]
      exact paired
    · rw [same]
      cases done
      exact ⟨paired.indexed, paired.together⟩
  | stateSent => exact inHand.stateSent
  | upDelivered createMcPath => exact inHand.upDelivered running.1
  | downDelivered => exact inHand.downDelivered running.2 before.2
  | upAcked position => exact inHand.upAcked running.2
  | announce announced => exact inHand.served running.1 trivial
  | configure secret fcPathId algo mcAnnounceId => exact inHand.served running.1 trivial
  | fcSetFirstPn pn => exact inHand.served running.1 trivial
  | announceSent => exact inHand.served running.1 trivial
  | keySent => exact inHand.served running.1 trivial
  | downAcked position => exact inHand.served running.1 trivial

theorem Party.call_closed (party : Party) (operation : FlexicastAttributes → Except FcError FlexicastAttributes) :
    (party.call operation).closed = party.closed := by
  obtain same | ⟨moved, -, -, same⟩ := Party.call_cases party operation
  · rw [same]
  · rw [same]

theorem running_onClient (opens : ∀ party, (change party).closed = false → party.closed = false)
    (running : (link.onClient change).Running) : link.Running :=
  ⟨running.1, fun client listed =>
    opens client (running.2 _ (by simp only [Link.onClient, Option.mem_def.mp listed]; rfl))⟩

/-- No event opens a party that is closed. -/
theorem running_before (running : (link.next fromSecret event).Running) : link.Running := by
  -- A party that is called stays open or closed, and one that handles something was open before.
  cases event with
  | announce announced =>
    simp only [Link.next] at running
    split at running
    · exact running
    · exact ⟨by simpa [Party.call_closed] using running.1, running.2⟩
  | configure secret fcPathId algo mcAnnounceId =>
    simp only [Link.next] at running
    split at running <;> exact running
  | fcSetFirstPn pn => exact running
  | announceSent =>
    simp only [Link.next, Link.sendAnnounce] at running
    split at running
    · exact ⟨by simpa [Party.call_closed] using running.1, running.2⟩
    · exact running
  | keySent =>
    simp only [Link.next, Link.sendKey] at running
    split at running <;> exact running
  | join fcChanId => exact running_onClient (fun party opened => by simpa [Party.call_closed] using opened) running
  | leave => exact running_onClient (fun party opened => by simpa [Party.call_closed] using opened) running
  | pathCreated pathId => exact running_onClient (fun party opened => by simpa [Party.call_closed] using opened) running
  | stateSent =>
    simp only [Link.next] at running
    cases sends : link.client.bind Party.send? with
    | none =>
      rw [sends] at running
      exact running
    | some result =>
      rw [sends] at running
      refine ⟨running.1, fun client listed => ?_⟩
      obtain ⟨party, here, sends⟩ := Option.bind_eq_some_iff.mp sends
      rw [Option.mem_def.mp listed] at here
      cases here
      exact (Party.send_cases sends).1
  | upDelivered createMcPath =>
    simp only [Link.next] at running
    split at running
    · exact ⟨(Party.receive_running running.1).1, running.2⟩
    · exact running
  | downDelivered =>
    simp only [Link.next] at running
    cases coming : link.down with
    | nil =>
      rw [coming] at running
      exact running
    | cons frame rest =>
      rw [coming] at running
      cases frame with
      | announce announced =>
        refine ⟨running.1, fun client listed => ?_⟩
        have opened := running.2 _ rfl
        rw [Option.mem_def.mp listed] at opened
        simp only [System.learn] at opened
        split at opened
        · exact opened
        · exact opened
      | key frame =>
        cases listed : link.client with
        | none =>
          simp only [Link.receiveDown, Link.receiveKey, listed] at running
          exact ⟨running.1, fun client here => by rw [listed] at here; cases here⟩
        | some party =>
          simp only [Link.receiveDown, Link.receiveKey, listed] at running
          refine ⟨?_, fun client here => ?_⟩
          · split at running
            · exact running.1
            · split at running <;> exact running.1
          · rw [listed] at here
            cases here
            split at running
            · exact running.2 _ listed
            · rename_i opened
              simpa using opened
  | upAcked position =>
    simp only [Link.next] at running
    split at running
    · refine ⟨running.1, fun client listed => ?_⟩
      exact (Party.handle_running (running.2 _ (by simp only [Option.mem_def.mp listed]; rfl))).1
    · exact running
  | downAcked position =>
    simp only [Link.next] at running
    split at running
    case h_1 frame sent =>
      refine ⟨?_, running.2⟩
      cases frame with
      | announce announced => exact (Party.handle_running running.1).1
      | key frame => exact (Party.handle_running running.1).1
    case h_2 => exact running

theorem new_inHand (first : McAnnounceData × ChannelKey) (rest : List (McAnnounceData × ChannelKey)) :
    InHand (.new first rest) where
  announced := ⟨_, rfl, fun some_ => by
    rcases some_ with isSome | ⟨frame, listed, -⟩
    · cases isSome
    · cases listed⟩
  server := ⟨.unaware, rfl⟩
  nobody := fun _ => ⟨rfl, rfl, ⟨.unaware, rfl, rfl⟩, rfl⟩
  somebody := fun client here => by cases here

/-- On a quiet link, a client that its server knows how to go on with agrees with it. -/
theorem InHand.agreed (inHand : InHand link) (quiet : link.Quiescent) : link.Agreed := by
  unfold Link.Agreed
  cases listed : link.client with
  | none =>
    exact At.isOutside (inHand.nobody listed).2.2.1
  | some party =>
    obtain ⟨status, phase, role, of, together, -⟩ := (inHand.somebody party listed).together
    have silent := quiet.client party listed
    cases phase with
    | sent frame =>
      have idle := of.1
      rw [quiet.up.1] at idle
      cases idle
    | done frame =>
      have idle := of.2.1
      rw [quiet.up.2] at idle
      cases idle
    | idle =>
      obtain ⟨⟨place, rests, at_⟩, settled⟩ := together
      have member (joined : status.member = true) : party.flexicast.member = true := by
        simp only [FlexicastAttributes.member, role]
        exact joined
      simp only [shouldSendFcState, of.2.2, Bool.false_eq_true, if_false, role] at silent
      -- A client that rests in a status of its own accord is outside or a member, as its server has it.
      cases status with
      | awareUnjoined =>
        cases rests
        exact .inl ⟨by simp [FlexicastAttributes.outside, role], At.isOutside at_⟩
      | waitingToJoin => cases silent
      | changing => cases silent
      | leaving notified =>
        cases notified with
        | true => cases rests
        | false => cases silent
      | joinedNoKey =>
        cases rests
        exact .inr ⟨member rfl, At.isMember at_ (by decide), settled rfl (by decide)⟩
      | joinedAndKey =>
        cases rests
        exact .inr ⟨member rfl, At.isMember at_ (by decide), settled rfl (by decide)⟩
      | listenMcPath up =>
        cases up with
        | false => cases rests
        | true =>
          cases rests
          exact .inr ⟨member rfl, At.isMember at_ (by decide), settled rfl (by decide)⟩
      | _ => cases rests

end Links

/-- Whatever happens on a link, the client and its server agree whenever it is quiet. -/
theorem agreed_when_quiescent (fromSecret : Algorithm → Bytes → Bool) (first : McAnnounceData × ChannelKey)
    (rest : List (McAnnounceData × ChannelKey)) (events : List LinkEvent)
    (quiet : (Runs.run (Link.next fromSecret) (.new first rest) events).Quiescent) :
    (Runs.run (Link.next fromSecret) (.new first rest) events).Agreed := by
  -- The link is in hand as long as neither party was closed on the way.
  have step (link : Link) (event : LinkEvent) (held : link.Running → InHand link) :
      (link.next fromSecret event).Running → InHand (link.next fromSecret event) :=
    fun running => (held (running_before running)).next (running_before running) running
  have kept := Runs.run_keeps step (fun _ => new_inHand first rest) events
  exact (kept quiet.running).agreed quiet

/-- Two channels that use no path probing, with their keys. -/
def twoChannels : (McAnnounceData × ChannelKey) × List (McAnnounceData × ChannelKey) :=
  ((⟨[1], false, false⟩, ⟨some [7], some .aes128Gcm⟩), [(⟨[2], false, false⟩, ⟨some [8], some .aes128Gcm⟩)])

/-- A client joins the first channel and listens to it. -/
def joinsFirst : List LinkEvent :=
  [.announceSent, .announceSent, .downDelivered, .downDelivered, .downAcked 0, .downAcked 0, .join (some [1]),
    .pathCreated 4, .stateSent, .upDelivered (.ok 4), .keySent, .upAcked 0, .downDelivered, .downAcked 0, .stateSent,
    .upDelivered (.ok 4), .upAcked 0]

/-- It leaves, asks for the second channel while it is leaving, and joins that one. -/
def movesToSecond : List LinkEvent :=
  [.leave, .join (some [2]), .stateSent, .upDelivered (.ok 4), .upAcked 0, .join (some [2]), .pathCreated 5, .stateSent,
    .upDelivered (.ok 5), .keySent, .downDelivered, .upAcked 0, .stateSent, .upDelivered (.ok 5), .downAcked 0,
    .upAcked 0]

/-- The two agree on the second channel. -/
theorem agreed_when_moved :
    (Runs.run (Link.next fun _ _ => true) (.new twoChannels.1 twoChannels.2) (joinsFirst ++ movesToSecond)).Agreed :=
  agreed_when_quiescent (fun _ _ => true) twoChannels.1 twoChannels.2 (joinsFirst ++ movesToSecond)
    ⟨by decide, by decide, by decide, by decide, by decide⟩

end Channel

end Flexicast
