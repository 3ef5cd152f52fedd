import Flexicast.Paths.Steps

/-! What is queued for advertisement can be put into a frame. -/

namespace Flexicast

namespace ConnectionIdentifiers

/-- There is a frame about an identifier for the peer. -/
def HasFrame (self : ConnectionIdentifiers) (pair : Nat × Nat) : Prop :=
  (self.getPathConnectionIdFrameFor pair.1 pair.2).isOk = true

instance (self : ConnectionIdentifiers) (pair : Nat × Nat) : Decidable (self.HasFrame pair) :=
  inferInstanceAs (Decidable (_ = true))

variable {self : ConnectionIdentifiers} {pair : Nat × Nat}

theorem hasFrame_iff :
    self.HasFrame pair ↔
      ∃ view e, self.view pair.1 = some view ∧ view.get pair.2 = some e ∧ e.resetToken.isSome = true := by
  unfold HasFrame getPathConnectionIdFrameFor view
  -- The frame needs the path, the identifier and its token, in this order.
  cases found : self.getPcids pair.1 with
  | none => simp [Except.isOk, Except.toBool]
  | some pcid =>
    have get : pcid.sourceView.get pair.2 = pcid.scids.get pair.2 := rfl
    cases held : pcid.scids.get pair.2 with
    | none => simp [Except.isOk, Except.toBool, get, held]
    | some e =>
      cases token : e.resetToken with
      | none => simp [Except.isOk, Except.toBool, get, held, token]
      | some token' => simp [Except.isOk, Except.toBool, get, held, token]

/-- What there is a frame about can be made into one. -/
theorem HasFrame.made (framed : self.HasFrame pair) :
    ∃ frame, self.getPathConnectionIdFrameFor pair.1 pair.2 = .ok frame := by
  unfold HasFrame at framed
  cases made : self.getPathConnectionIdFrameFor pair.1 pair.2 with
  | ok frame => exact ⟨frame, rfl⟩
  | error error =>
    rw [made] at framed
    cases framed

/-- The connection identifiers with the frames about them that are in flight. -/
structure Advertising where
  ids : ConnectionIdentifiers
  /-- What the frames in flight are about. -/
  sent : List (Nat × Nat)

/-- What happens to the connection identifiers and to the frames about them. -/
inductive AdvertiseEvent where
  /-- An operation on the identifiers. -/
  | op (event : IdEvent)
  /-- A packet is sent, which has room for some frames. -/
  | send (room : Nat)
  | lost (index : Nat)
  /-- A frame is acknowledged. -/
  | acked (index : Nat)

namespace Advertising

/-- Puts the frames that are due into a packet. -/
def sendNewConnectionIds (self : Advertising) (room : Nat) : Except PathError Unit × Advertising :=
  match self.ids.nextAdvertiseNewScidSeq with
  | none => (.ok (), self)
  | some (pathId, seqNum) =>
    -- The frame is made before it is known whether it fits.
    match self.ids.getPathConnectionIdFrameFor pathId seqNum with
    | .error error => (.error error, self)
    | .ok _ =>
      match room with
      | 0 => (.ok (), self)
      | room + 1 =>
        let sent : Advertising :=
          ⟨self.ids.markAdvertiseNewScidSeq pathId seqNum false, self.sent ++ [(pathId, seqNum)]⟩
        sent.sendNewConnectionIds room

/-- One event. -/
def next (search : List Nat → Nat → Nat) (self : Advertising) : AdvertiseEvent → Advertising
  | .op event => { self with ids := self.ids.step search event }
  | .send room => (self.sendNewConnectionIds room).2
  | .lost index =>
    match self.sent[index]? with
    | none => self
    | some (pathId, seqNum) =>
      ⟨self.ids.markAdvertiseNewScidSeq pathId seqNum true, self.sent.eraseIdx index⟩
  | .acked index => { self with sent := self.sent.eraseIdx index }

/-- The connection identifiers of a new connection. -/
def start (destinationConnIdLimit : Nat) (initialScid : ConnectionId) (networkPath : FourTuple)
    (resetToken : Option Nat) : Advertising :=
  ⟨.new destinationConnIdLimit initialScid networkPath resetToken, []⟩

/-- Everything that is to be advertised can be. -/
def Valid (self : Advertising) : Prop := ∀ pair ∈ self.ids.advertiseNewScidSeqs, self.ids.HasFrame pair

instance (self : Advertising) : Decidable self.Valid :=
  inferInstanceAs (Decidable (∀ pair ∈ self.ids.advertiseNewScidSeqs, self.ids.HasFrame pair))

/-- No identifier is removed before it was advertised, and no lost frame is about one that was removed. -/
def Sound (self : Advertising) : AdvertiseEvent → Prop
  | .op (.retireScid pathId seq _) =>
    self.ids.RetiresScid pathId seq → (pathId, seq) ∉ self.ids.advertiseNewScidSeqs
  | .op (.removePathId pathId) =>
    self.ids.Drops pathId → ∀ pair ∈ self.ids.advertiseNewScidSeqs, pair.1 ≠ pathId
  | .lost index => ∀ pair ∈ self.sent[index]?, self.ids.HasFrame pair
  | _ => True

/-- The application gives a reset token with every identifier. -/
def Given (_ : Advertising) (event : AdvertiseEvent) : Prop :=
  ∀ pathId cid advertise networkPath retireIfNeeded,
    event ≠ .op (.newScid pathId cid none advertise networkPath retireIfNeeded)

instance (self : Advertising) : (event : AdvertiseEvent) → Decidable (self.Sound event)
  | .op (.retireScid pathId seq _) => inferInstanceAs (Decidable (self.ids.RetiresScid pathId seq → _))
  | .op (.removePathId pathId) =>
    inferInstanceAs (Decidable (self.ids.Drops pathId → ∀ pair ∈ self.ids.advertiseNewScidSeqs, _))
  | .lost index => inferInstanceAs (Decidable (∀ pair ∈ self.sent[index]?, _))
  | .send _ | .acked _ | .op (.newScid ..) | .op (.newDcid ..) | .op (.setInitialDcid ..) | .op (.retireDcid ..)
  | .op (.markRetireDcidSeq ..) | .op (.setSourceConnIdLimit _) | .op (.setLocalMaxPathId ..)
  | .op (.setRemoteMaxPathId _) | .op .consumeLowestSparePathId | .op (.closingPathId _) => isTrue trivial

/-- A path without an identifier for the peer has an entry in its place, without a token. -/
def Bare (ids : ConnectionIdentifiers) : Prop :=
  ∀ pathId view, ids.view pathId = some view → view.initialized = false →
    view = ⟨SourceView.single [] none none, 0, false⟩

variable {self : Advertising} {search : List Nat → Nat → Nat} {event : AdvertiseEvent} {pathId seq : Nat}

/-- The frames that are due find their way into packets. -/
theorem Valid.send (valid : self.Valid) (room : Nat) :
    (self.sendNewConnectionIds room).1 = .ok () ∧ (self.sendNewConnectionIds room).2.Valid ∧
      (self.sendNewConnectionIds room).2.ids.view = self.ids.view := by
  -- Induction on the room in the packet: what was put into it is due no more.
  induction room generalizing self with
  | zero =>
    unfold sendNewConnectionIds
    split
    · exact ⟨rfl, valid, rfl⟩
    · rename_i pathId seqNum due
      obtain ⟨frame, made⟩ := (valid _ (List.mem_of_head? due)).made
      rw [made]
      exact ⟨rfl, valid, rfl⟩
  | succ room ih =>
    unfold sendNewConnectionIds
    split
    · exact ⟨rfl, valid, rfl⟩
    · rename_i pathId seqNum due
      obtain ⟨frame, made⟩ := (valid _ (List.mem_of_head? due)).made
      obtain ⟨seen, -, queue, -⟩ := markAdvertise_same self.ids pathId seqNum false
      -- The pair is taken out of the queue, and its identifier stays.
      have left : Valid ⟨self.ids.markAdvertiseNewScidSeq pathId seqNum false, self.sent ++ [(pathId, seqNum)]⟩ := by
        intro pair member
        rw [queue] at member
        rw [hasFrame_iff, seen, ← hasFrame_iff]
        exact valid pair (List.mem_of_mem_erase member)
      obtain ⟨done, valid', seen'⟩ := ih left
      rw [made]
      exact ⟨done, valid', seen'.trans seen⟩

theorem bare_start (destinationConnIdLimit : Nat) (initialScid : ConnectionId) (networkPath : FourTuple)
    (resetToken : Option Nat) : Bare (.new destinationConnIdLimit initialScid networkPath resetToken) := by
  intro pathId view at_ none_
  obtain ⟨pcid, found, rfl⟩ := Option.map_eq_some_iff.mp at_
  have member := (BoundedNonEmptyVecDeque.get_eq_some_iff.mp found).1
  rw [List.mem_singleton.mp member] at none_
  cases none_

variable {ids after : ConnectionIdentifiers} {pair : Nat × Nat}

/-- Identifiers that stay leave a path without one as it was. -/
theorem Bare.same (bare : Bare ids) (seen : after.view = ids.view) : Bare after := by
  unfold Bare
  rw [seen]
  exact bare

/-- A path that changes has an identifier for the peer, or the entry in its place. -/
theorem Bare.change (bare : Bare ids) {view : SourceView} (own : after.view pathId = some view)
    (init : view.initialized = true ∨ view = ⟨SourceView.single [] none none, 0, false⟩)
    (elsewhere : Elsewhere ids after pathId) : Bare after := by
  intro probe other at_ none_
  by_cases hit : probe = pathId
  · rw [hit, own] at at_
    cases at_
    rcases init with init | rfl
    · rw [init] at none_
      cases none_
    · rfl
  · rw [elsewhere probe hit] at at_
    exact bare probe other at_ none_

/-- Every operation leaves paths without an identifier for the peer as they have to be. -/
theorem Bare.step (bare : Bare ids) (event : IdEvent) : Bare (ids.step search event) := by
  cases event with
  | newScid pathId cid resetToken advertise networkPath retireIfNeeded =>
    have outcome := newScid_cases ids pathId cid resetToken advertise networkPath retireIfNeeded
    unfold ConnectionIdentifiers.step
    dsimp only
    generalize ids.newScid pathId cid resetToken advertise networkPath retireIfNeeded = result at outcome
    obtain ⟨result, after⟩ := result
    dsimp only at outcome
    cases outcome with
    | failed error quiet => exact bare.same quiet.view
    | known at_ init found same quiet => exact bare.same quiet.view
    | first at_ none_ token own elsewhere books queue => exact bare.change own (.inl rfl) elsewhere
    | next at_ init fresh token own elsewhere books queue => exact bare.change own (.inl rfl) elsewhere
    | created token created queue => exact bare.change created.own (.inl rfl) created.elsewhere
  | newDcid pathId cid seq resetToken retirePriorTo =>
    have outcome := newDcid_cases search ids pathId cid seq resetToken retirePriorTo
    unfold ConnectionIdentifiers.step
    cases outcome with
    | quiet quiet => exact bare.same quiet.view
    | created created queue => exact bare.change created.own (.inr rfl) created.elsewhere
  | retireScid pathId seq pktDcid =>
    by_cases retires : ids.RetiresScid pathId seq
    · obtain ⟨old, e, at_, held, own, elsewhere, -⟩ := retireScid_drops retires pktDcid
      refine bare.change own (.inl ?_) elsewhere
      -- A path without an identifier for the peer has none to retire.
      cases init : old.initialized with
      | true => exact init
      | false =>
        obtain ⟨pcid, found, below, -⟩ := retires
        have found : ids.getPcids pathId = some pcid := found
        have bare := bare pathId old at_ init
        rw [view, found] at at_
        cases at_
        have zero : pcid.sourceView.next = 0 := by rw [bare]
        have zero : pcid.nextScidSeq = 0 := zero
        omega
    · exact bare.same (retireScid_quiet retires pktDcid).view
  | setInitialDcid | retireDcid | markRetireDcidSeq | setSourceConnIdLimit | setLocalMaxPathId | setRemoteMaxPathId
  | closingPathId => exact bare.same (step_quiet search ids rfl).view
  | consumeLowestSparePathId => exact bare.same (consumeLowestSparePathId_same ids).1
  -- A path that is removed is none without an identifier.
  | removePathId pathId =>
    have removes := removePathId_removes ids pathId
    intro probe view at_ none_
    by_cases hit : probe = pathId
    · subst hit
      rw [ConnectionIdentifiers.step, removes.own] at at_
      split at at_
      · cases at_
      · exact bare probe view at_ none_
    · rw [ConnectionIdentifiers.step, removes.elsewhere probe hit] at at_
      exact bare probe view at_ none_

theorem Valid.grow (valid : self.Valid) {after : Advertising}
    (kept : ∀ pair, self.ids.HasFrame pair → after.ids.HasFrame pair)
    (queue : ∀ other ∈ after.ids.advertiseNewScidSeqs, other ∈ self.ids.advertiseNewScidSeqs ∨ other = pair)
    (new : after.ids.HasFrame pair) : after.Valid := by
  intro other member
  rcases queue other member with listed | rfl
  · exact kept other (valid other listed)
  · exact new

/-- What is to be advertised stays valid when nothing changes about it. -/
theorem Valid.same (valid : self.Valid) {after : Advertising} (seen : after.ids.view = self.ids.view)
    (queue : after.ids.advertiseNewScidSeqs = self.ids.advertiseNewScidSeqs) : after.Valid := by
  intro pair member
  rw [queue] at member
  rw [hasFrame_iff, seen, ← hasFrame_iff]
  exact valid pair member

theorem Valid.quiet (valid : self.Valid) (quiet : Quiet self.ids ids) : Valid { self with ids := ids } :=
  valid.same quiet.view quiet.queue

theorem mem_marked {queue : List (Nat × Nat)} {other : Nat × Nat} {advertise : Bool}
    (member : other ∈ marked queue pair advertise) : other ∈ queue ∨ other = pair := by
  unfold marked at member
  split at member
  · split at member
    · exact .inl member
    · exact (List.mem_append.mp member).imp_right List.mem_singleton.mp
  · exact .inl (List.mem_of_mem_erase member)

/-- A new identifier with a token keeps what is to be advertised valid. -/
theorem Valid.newScid (valid : self.Valid) (bare : Bare self.ids) (cid : ConnectionId) (token : Nat)
    (advertise : Bool) (networkPath : Option FourTuple) (retireIfNeeded : Bool) :
    Valid { self with ids := (self.ids.newScid pathId cid (some token) advertise networkPath retireIfNeeded).2 } := by
  have outcome := newScid_cases self.ids pathId cid (some token) advertise networkPath retireIfNeeded
  generalize self.ids.newScid pathId cid (some token) advertise networkPath retireIfNeeded = result at outcome
  obtain ⟨result, after⟩ := result
  dsimp only at outcome ⊢
  -- Frames about other paths stay, and those about this one when their identifiers do.
  have kept : ∀ view, after.view pathId = some view → Elsewhere self.ids after pathId →
      (∀ old seq e, self.ids.view pathId = some old → old.get seq = some e → e.resetToken.isSome = true →
        ∃ e', view.get seq = some e' ∧ e'.resetToken.isSome = true) →
      ∀ pair, self.ids.HasFrame pair → after.HasFrame pair := by
    intro view own elsewhere stays pair framed
    obtain ⟨old, e, at_, held, some_⟩ := hasFrame_iff.mp framed
    rw [hasFrame_iff]
    by_cases hit : pair.1 = pathId
    · rw [hit] at at_ ⊢
      obtain ⟨e', held', some_'⟩ := stays old pair.2 e at_ held some_
      exact ⟨view, e', own, held', some_'⟩
    · exact ⟨old, e, (elsewhere pair.1 hit).trans at_, held, some_⟩
  cases outcome with
  | failed error quiet => exact valid.quiet quiet
  | known at_ init found same quiet => exact valid.quiet quiet
  | @first _ view at_ none_ _ own elsewhere books queue =>
    have stays := kept _ own elsewhere fun old seq e at' held some_ => by
      -- The entry that is replaced had no token.
      rw [at_] at at'
      cases at'
      rw [bare pathId _ at_ none_] at held
      obtain ⟨-, rfl⟩ := SourceView.single_some held
      cases some_
    apply valid.grow stays (fun other member => mem_marked (queue ▸ member))
    rw [hasFrame_iff]
    exact ⟨_, ⟨cid, 0, some token, networkPath⟩, own, rfl, rfl⟩
  -- The other identifiers of the path keep their numbers and tokens.
  | @next _ view at_ init fresh _ own elsewhere books queue =>
    have stays := kept _ own elsewhere fun old seq e at' held some_ => by
      rw [at_] at at'
      cases at'
      by_cases last : seq = view.next
      · exact ⟨⟨cid, view.next, some token, networkPath⟩, if_pos last, rfl⟩
      · exact ⟨e, (if_neg last).trans held, some_⟩
    apply valid.grow stays (fun other member => mem_marked (queue ▸ member))
    rw [hasFrame_iff]
    exact ⟨_, ⟨cid, view.next, some token, networkPath⟩, own, if_pos rfl, rfl⟩
  -- A path that did not exist had no frames.
  | created _ created queue =>
    have stays := kept _ created.own created.elsewhere fun old seq e at' => by
      rw [created.absent] at at'
      cases at'
    apply valid.grow stays (fun other member => mem_marked (queue ▸ member))
    rw [hasFrame_iff]
    exact ⟨_, ⟨cid, 0, some token, networkPath⟩, created.own, rfl, rfl⟩

/-- What is to be advertised stays valid just when no retirement removes a part of it. -/
theorem Valid.retireScid_iff (valid : self.Valid) (pktDcid : ConnectionId) :
    Valid { self with ids := (self.ids.retireScid pathId seq pktDcid).2 } ↔
      self.Sound (.op (.retireScid pathId seq pktDcid)) := by
  by_cases retires : self.ids.RetiresScid pathId seq
  · obtain ⟨old, e, at_, held, own, elsewhere, -, queue, -⟩ := retireScid_drops retires pktDcid
    -- All frames but the one of the retired identifier can still be made.
    have drops : ∀ pair : Nat × Nat, pair ≠ (pathId, seq) → self.ids.HasFrame pair →
        (self.ids.retireScid pathId seq pktDcid).2.HasFrame pair := by
      intro pair apart framed
      obtain ⟨view, e, at', held, some_⟩ := hasFrame_iff.mp framed
      rw [hasFrame_iff]
      by_cases hit : pair.1 = pathId
      · rw [hit, at_] at at'
        cases at'
        have other : pair.2 ≠ seq := fun same => apart (Prod.ext hit same)
        exact ⟨old.drop seq, e, by rw [hit]; exact own, by rw [SourceView.drop]; simpa [other] using held, some_⟩
      · exact ⟨view, e, (elsewhere pair.1 hit).trans at', held, some_⟩
    constructor
    · intro after _ member
      have framed := after (pathId, seq) (by rw [queue]; exact member)
      obtain ⟨view, e, at', held', -⟩ := hasFrame_iff.mp framed
      rw [own] at at'
      cases at'
      simp [SourceView.drop] at held'
    · intro sound pair member
      rw [queue] at member
      exact drops pair (fun same => sound retires (same ▸ member)) (valid pair member)
  · have quiet := retireScid_quiet retires pktDcid
    exact iff_of_true (valid.same quiet.view quiet.queue) fun does => absurd does retires

theorem Valid.removePathId_iff (valid : self.Valid) :
    Valid { self with ids := (self.ids.removePathId pathId).2 } ↔ self.Sound (.op (.removePathId pathId)) := by
  have removes := removePathId_removes self.ids pathId
  -- Only a path that exists and may be closed loses its identifiers.
  by_cases drops : self.ids.Drops pathId
  · have own := removes.own
    rw [if_pos drops] at own
    constructor
    · rintro after _ pair member rfl
      obtain ⟨view, e, at_, -⟩ := hasFrame_iff.mp (after pair (by rw [removes.queue]; exact member))
      rw [own] at at_
      cases at_
    · intro sound pair member
      rw [removes.queue] at member
      rw [hasFrame_iff, removes.elsewhere pair.1 (sound drops pair member), ← hasFrame_iff]
      exact valid pair member
  · have own := removes.own
    rw [if_neg drops] at own
    exact iff_of_true (valid.same (view_same own removes.elsewhere) removes.queue) fun does => absurd does drops

/-- What is to be advertised stays valid just when the event is sound. -/
theorem Valid.next_iff (bare : Bare self.ids) (valid : self.Valid) (given : self.Given event) :
    (self.next search event).Valid ↔ self.Sound event := by
  cases event with
  | send room => exact iff_of_true (valid.send room).2.1 trivial
  | acked index => exact iff_of_true valid trivial
  | lost index =>
    simp only [next, Sound]
    cases found : self.sent[index]? with
    | none => exact iff_of_true valid fun pair none_ => by cases none_
    | some pair =>
      obtain ⟨seen, -, queue, -⟩ := markAdvertise_same self.ids pair.1 pair.2 true
      -- Marks change what is queued, and no identifier.
      have same : ∀ other, (self.ids.markAdvertiseNewScidSeq pair.1 pair.2 true).HasFrame other ↔
          self.ids.HasFrame other := fun other => by rw [hasFrame_iff, hasFrame_iff, seen]
      constructor
      · rintro after _ ⟨⟩
        -- What is marked is to be advertised in any case.
        apply (same pair).mp
        apply after
        rw [queue, marked, if_pos rfl]
        split
        · rename_i listed
          exact List.contains_iff_mem.mp listed
        · exact List.mem_append_right _ List.mem_cons_self
      · intro sound other member
        rw [queue] at member
        rw [same]
        rcases mem_marked member with listed | rfl
        · exact valid other listed
        · exact sound pair rfl
  | op event =>
    cases event with
    | newScid pathId cid resetToken advertise networkPath retireIfNeeded =>
      cases resetToken with
      | none => exact absurd rfl (given pathId cid advertise networkPath retireIfNeeded)
      | some token => exact iff_of_true (valid.newScid bare cid token advertise networkPath retireIfNeeded) trivial
    | newDcid pathId cid seq resetToken retirePriorTo =>
      refine iff_of_true ?_ trivial
      cases newDcid_cases search self.ids pathId cid seq resetToken retirePriorTo with
      | quiet quiet => exact valid.same quiet.view quiet.queue
      | created created queue =>
        -- A path that did not exist had nothing to be advertised.
        intro pair member
        rw [next, ConnectionIdentifiers.step, queue] at member
        obtain ⟨view, e, at_, held, some_⟩ := hasFrame_iff.mp (valid pair member)
        have apart : pair.1 ≠ pathId := by
          intro hit
          rw [hit, created.absent] at at_
          cases at_
        exact hasFrame_iff.mpr ⟨view, e, (created.elsewhere pair.1 apart).trans at_, held, some_⟩
    | retireScid pathId seq pktDcid => exact valid.retireScid_iff pktDcid
    | removePathId pathId => exact valid.removePathId_iff
    | setInitialDcid | retireDcid | markRetireDcidSeq | setSourceConnIdLimit | setLocalMaxPathId | setRemoteMaxPathId
    | closingPathId =>
      exact iff_of_true (valid.quiet (step_quiet search self.ids rfl)) trivial
    | consumeLowestSparePathId =>
      obtain ⟨seen, queue⟩ := consumeLowestSparePathId_same self.ids
      exact iff_of_true (valid.same seen queue) trivial

/-- Every event leaves paths without an identifier for the peer as they have to be. -/
theorem Bare.next (bare : Bare self.ids) (event : AdvertiseEvent) : Bare (self.next search event).ids := by
  cases event with
  | op event => exact bare.step event
  | acked index => exact bare
  | lost index =>
    simp only [Advertising.next]
    split
    · exact bare
    · exact bare.same (markAdvertise_same self.ids _ _ true).1
  | send room =>
    simp only [Advertising.next]
    -- Induction on the room in the packet: marks do not change the identifiers.
    induction room generalizing self with
    | zero =>
      unfold sendNewConnectionIds
      split
      · exact bare
      · split <;> exact bare
    | succ room ih =>
      unfold sendNewConnectionIds
      split
      · exact bare
      · split
        · exact bare
        · apply ih
          exact bare.same (markAdvertise_same self.ids _ _ false).1

/-- What is to be advertised is valid in every state of a run just when each event is sound where it happens. -/
theorem always_valid_iff (search : List Nat → Nat → Nat) (destinationConnIdLimit : Nat) (initialScid : ConnectionId)
    (networkPath : FourTuple) (resetToken : Option Nat) (events : List AdvertiseEvent)
    (given : ∀ pathId cid advertise networkPath retireIfNeeded,
      .op (.newScid pathId cid none advertise networkPath retireIfNeeded) ∉ events) :
    (∀ done, done <+: events → (Runs.run (next search)
        (start destinationConnIdLimit initialScid networkPath resetToken) done).Valid) ↔
      Runs.Along (next search) Sound (start destinationConnIdLimit initialScid networkPath resetToken) events := by
  have keeps : ∀ (state : Advertising) event, Bare state.ids → state.Given event →
      Bare (state.next search event).ids := fun _ event bare _ => bare.next event
  have step : ∀ (state : Advertising) event, Bare state.ids → state.Valid → state.Given event →
      ((state.next search event).Valid ↔ state.Sound event) := fun _ _ bare valid given => valid.next_iff bare given
  have nothing : (start destinationConnIdLimit initialScid networkPath resetToken).Valid :=
    fun pair member => absurd member List.not_mem_nil
  -- Paths without an identifier stay as they have to be, whatever happens.
  apply Runs.always_iff_along keeps step events (bare_start _ _ _ _) nothing
  apply Runs.along_of_mem
  rintro event member state pathId cid advertise networkPath retireIfNeeded rfl
  exact given pathId cid advertise networkPath retireIfNeeded member

/-- A frame that is lost is sent again, and its identifier is retired afterwards. -/
theorem valid_of_retired_later :
    let search := fun seqs bound => (seqs.takeWhile (· < bound)).length
    (Runs.run (next search) (start 2 [1] (⟨[], 0⟩, ⟨[], 0⟩) none)
      [.op (.newScid 0 [2] (some 8) true none false), .send 3, .lost 0, .send 3, .acked 0,
        .op (.retireScid 0 1 [1])]).Valid :=
  (always_valid_iff _ 2 [1] _ none _ (by simp)).mpr (by decide) _ (List.prefix_refl _)

/-- A frame that is declared lost after the peer retired its identifier makes every later packet fail. -/
theorem lost_after_retired :
    let search := fun seqs bound => (seqs.takeWhile (· < bound)).length
    let final := Runs.run (next search) (start 2 [1] (⟨[], 0⟩, ⟨[], 0⟩) none)
      [.op (.newScid 0 [2] (some 8) true none false), .send 3, .op (.retireScid 0 1 [1]), .lost 0]
    final.ids.advertiseNewScidSeqs = [(0, 1)] ∧ ¬ final.Valid ∧
      ∀ room, final.sendNewConnectionIds room = (.error .invalidState, final) := by
  intro search final
  have facts : final.ids.advertiseNewScidSeqs = [(0, 1)] ∧ ¬ final.Valid ∧
      final.ids.getPathConnectionIdFrameFor 0 1 = .error .invalidState := by decide
  obtain ⟨queue, invalid, failed⟩ := facts
  refine ⟨queue, invalid, fun room => ?_⟩
  have due : final.ids.nextAdvertiseNewScidSeq = some (0, 1) := by rw [nextAdvertiseNewScidSeq, queue]; rfl
  unfold sendNewConnectionIds
  rw [due]
  dsimp only
  rw [failed]

end Advertising

end ConnectionIdentifiers

end Flexicast
