import Flexicast.Paths.Steps

/-! Identifiers for the peer get a new sequence number each, and are found under it until they are retired. -/

namespace Flexicast

namespace ConnectionIdentifiers

/-- An identifier is registered on a path. -/
def Registered (self : ConnectionIdentifiers) (pathId : Nat) (cid : ConnectionId) : Prop :=
  ∃ pcid ∈ self.getPcids pathId, pcid.initializedSourceConnectionId = true ∧ ∃ e ∈ pcid.scids.inner, e.cid = cid

instance (self : ConnectionIdentifiers) (pathId : Nat) (cid : ConnectionId) : Decidable (self.Registered pathId cid) :=
  inferInstanceAs (Decidable (∃ pcid ∈ self.getPcids pathId, _))

/-- A path that has its first identifier takes another one, instead of refusing it. -/
def Takes (self : ConnectionIdentifiers) (pathId : Nat) (cid : ConnectionId) (resetToken : Option Nat)
    (retireIfNeeded : Bool) : Prop :=
  self.zeroLengthScid = false ∧ (resetToken.isSome = true ∨ pathId = 0) ∧ ¬ self.Registered pathId cid ∧
    ∃ pcid ∈ self.getPcids pathId, pcid.initializedSourceConnectionId = true ∧
      (pcid.makeRoom retireIfNeeded).isOk = true

instance (self : ConnectionIdentifiers) (pathId : Nat) (cid : ConnectionId) (resetToken : Option Nat)
    (retireIfNeeded : Bool) : Decidable (self.Takes pathId cid resetToken retireIfNeeded) :=
  have : Decidable (∃ pcid ∈ self.getPcids pathId, pcid.initializedSourceConnectionId = true ∧
      (pcid.makeRoom retireIfNeeded).isOk = true) :=
    inferInstanceAs (Decidable (∃ pcid ∈ self.getPcids pathId, _))
  inferInstanceAs (Decidable (_ ∧ _))

/-- The connection identifiers with what was done about the ones for the peer. -/
structure Issuing where
  ids : ConnectionIdentifiers
  /-- The paths and sequence numbers that were returned. -/
  returned : List (Nat × Nat)
  /-- New identifiers, with their paths and sequence numbers. -/
  issued : List (Nat × Nat × ConnectionId)
  /-- The paths and sequence numbers that were retired. -/
  retired : List (Nat × Nat)
  /-- Whether a new identifier got a sequence number that had been returned before. -/
  reused : Bool

namespace Issuing

/-- One operation. A refused retirement that removes the identifier counts as one, unless the reading is strict. -/
def next (strict : Bool) (search : List Nat → Nat → Nat) (self : Issuing) (event : IdEvent) : Issuing :=
  match event with
  | .newScid pathId cid resetToken advertise networkPath retireIfNeeded =>
    match self.ids.newScid pathId cid resetToken advertise networkPath retireIfNeeded with
    | (.error _, ids) => { self with ids := ids }
    | (.ok seq, ids) =>
      if self.ids.Registered pathId cid then { self with ids := ids, returned := (pathId, seq) :: self.returned }
      else
        { self with
          ids := ids
          returned := (pathId, seq) :: self.returned
          issued := (pathId, seq, cid) :: self.issued
          reused := self.reused || self.returned.contains (pathId, seq) }
  | .retireScid pathId seq pktDcid =>
    match self.ids.retireScid pathId seq pktDcid with
    | (.ok _, ids) => { self with ids := ids, retired := (pathId, seq) :: self.retired }
    | (.error _, ids) =>
      if strict = false ∧ self.ids.RetiresScid pathId seq then
        { self with ids := ids, retired := (pathId, seq) :: self.retired }
      else { self with ids := ids }
  | event => { self with ids := self.ids.step search event }

/-- The connection identifiers of a new connection. -/
def start (destinationConnIdLimit : Nat) (initialScid : ConnectionId) (networkPath : FourTuple)
    (resetToken : Option Nat) : Issuing :=
  ⟨.new destinationConnIdLimit initialScid networkPath resetToken, [], [], [], false⟩

/-- New identifiers got new sequence numbers, and those that are not retired are found under them. -/
structure Kept (state : Issuing) : Prop where
  /-- No sequence number was returned again for a new identifier. -/
  fresh : state.reused = false
  found : ∀ pathId seq cid, (pathId, seq, cid) ∈ state.issued → (pathId, seq) ∉ state.retired →
    ∃ e, state.ids.getScid pathId seq = .ok e ∧ e.cid = cid

/-- No identifier is taken while the next number is that of the first one, and no retirement is refused too late. -/
def Sound (strict : Bool) (self : Issuing) : IdEvent → Prop
  | .newScid pathId cid resetToken _ _ retireIfNeeded =>
    self.ids.Takes pathId cid resetToken retireIfNeeded →
      ∀ pcid ∈ self.ids.getPcids pathId, pcid.nextScidSeq ≠ 0
  | .retireScid pathId seq pktDcid =>
    strict = true → self.ids.RetiresScid pathId seq → self.ids.RefusesScid pathId seq pktDcid →
      ∀ entry ∈ self.issued, entry.1 = pathId → entry.2.1 = seq → (pathId, seq) ∈ self.retired
  | _ => True

instance (self : Issuing) (strict : Bool) : (event : IdEvent) → Decidable (self.Sound strict event)
  | .newScid pathId cid resetToken _ _ retireIfNeeded =>
    inferInstanceAs (Decidable (self.ids.Takes pathId cid resetToken retireIfNeeded →
      ∀ pcid ∈ self.ids.getPcids pathId, _))
  | .retireScid pathId seq pktDcid =>
    inferInstanceAs (Decidable (strict = true → self.ids.RetiresScid pathId seq →
      self.ids.RefusesScid pathId seq pktDcid → ∀ entry ∈ self.issued, _))
  | .setInitialDcid .. | .newDcid .. | .retireDcid .. | .markRetireDcidSeq .. | .setSourceConnIdLimit _
  | .setLocalMaxPathId .. | .setRemoteMaxPathId _ | .consumeLowestSparePathId | .closingPathId _
  | .removePathId _ => isTrue trivial

/-- Paths are not removed. -/
def Stays (_ : Issuing) (event : IdEvent) : Prop := ∀ pathId, event ≠ .removePathId pathId

/-- What holds of the sequence numbers in any case. -/
structure Numbered (state : Issuing) : Prop where
  /-- Returned numbers are below the next one of their path. -/
  known : ∀ pathId seq, (pathId, seq) ∈ state.returned →
    ∃ view, state.ids.view pathId = some view ∧ view.initialized = true ∧ (seq < view.next ∨ seq = 0)
  listed : ∀ pathId seq cid, (pathId, seq, cid) ∈ state.issued → (pathId, seq) ∈ state.returned
  /-- Identifiers have numbers below the next one of their path. -/
  below : ∀ pathId view seq e, state.ids.view pathId = some view → view.get seq = some e → seq < view.next ∨ seq = 0
  /-- As long as the next number is the first one, that was returned, and its identifier is there. -/
  first : ∀ pathId view, state.ids.view pathId = some view → view.initialized = true → view.next = 0 →
    (pathId, 0) ∈ state.returned ∧ (view.get 0).isSome = true

variable {self : Issuing} {strict : Bool} {search : List Nat → Nat → Nat}

variable {ids : ConnectionIdentifiers} {pathId seq : Nat} {cid : ConnectionId} {e : ConnectionIdEntry}
  {view : SourceView} {resetToken : Option Nat}

theorem registered_iff :
    ids.Registered pathId cid ↔ ∃ view, ids.view pathId = some view ∧ view.initialized = true ∧
      ∃ seq e, view.get seq = some e ∧ e.cid = cid := by
  constructor
  · rintro ⟨pcid, found, init, e, member, same⟩
    have found : ids.getPcids pathId = some pcid := found
    refine ⟨pcid.sourceView, ?_, init, e.seq, e, PathConnectionIdentifiers.scid_of_mem member, same⟩
    rw [view, found]
    rfl
  · rintro ⟨view, at_, init, seq, e, held, same⟩
    obtain ⟨pcid, found, rfl⟩ := Option.map_eq_some_iff.mp at_
    exact ⟨pcid, found, init, e, (BoundedNonEmptyVecDeque.get_eq_some_iff.mp held).1, same⟩

theorem getScid_ok : ids.getScid pathId seq = .ok e ↔ ∃ view, ids.view pathId = some view ∧ view.get seq = some e := by
  unfold getScid view
  cases found : ids.getPcids pathId with
  | none => simp
  | some pcid =>
    simp only [Option.bind_some, Option.map_some, Option.some.injEq, exists_eq_left']
    cases held : pcid.scids.get seq with
    | none => simp [PathConnectionIdentifiers.sourceView, held]
    | some other => simp [PathConnectionIdentifiers.sourceView, held]

/-- A new connection has its first identifier. -/
theorem numbered_start (destinationConnIdLimit : Nat) (initialScid : ConnectionId) (networkPath : FourTuple)
    (resetToken : Option Nat) : (start destinationConnIdLimit initialScid networkPath resetToken).Numbered := by
  -- Only path 0 exists, which begins with an identifier and the next number 1.
  have one : ∀ pathId view,
      (start destinationConnIdLimit initialScid networkPath resetToken).ids.view pathId = some view →
      view = ⟨SourceView.single initialScid resetToken (some networkPath), 1, true⟩ := by
    intro pathId view at_
    obtain ⟨pcid, found, rfl⟩ := Option.map_eq_some_iff.mp at_
    have member := (BoundedNonEmptyVecDeque.get_eq_some_iff.mp found).1
    rw [List.mem_singleton.mp member]
    exact PathConnectionIdentifiers.sourceView_withScid 0 _ 2 initialScid (some networkPath) resetToken
  constructor
  case known => intro pathId seq member; cases member
  case listed => intro pathId seq cid member; cases member
  case below =>
    intro pathId view seq e at_ held
    rw [one pathId view at_] at held
    by_cases zero : seq = 0
    · exact .inr zero
    · simp [SourceView.single, zero] at held
  case first =>
    intro pathId view at_ _ zero
    rw [one pathId view at_] at zero
    cases zero

variable {after : Issuing} {networkPath : Option FourTuple} {retireIfNeeded : Bool} {event : IdEvent}

theorem Numbered.congr (numbered : self.Numbered) (returned : after.returned = self.returned)
    (issued : after.issued = self.issued) (same : after.ids.view = self.ids.view) : after.Numbered := by
  constructor
  case known => rw [returned, same]; exact numbered.known
  case listed => rw [returned, issued]; exact numbered.listed
  case below => rw [same]; exact numbered.below
  case first => rw [returned, same]; exact numbered.first

/-- A change of one path keeps the numbers when those of this path stay in order. -/
theorem Numbered.grow (numbered : self.Numbered) (own : after.ids.view pathId = some view)
    (elsewhere : Elsewhere self.ids after.ids pathId) (more : ∀ pair ∈ self.returned, pair ∈ after.returned)
    (returned : ∀ pair ∈ after.returned, pair ∈ self.returned ∨ pair.1 = pathId)
    (listed : ∀ entry ∈ after.issued, (entry.1, entry.2.1) ∈ after.returned)
    (known : ∀ seq, (pathId, seq) ∈ after.returned → view.initialized = true ∧ (seq < view.next ∨ seq = 0))
    (below : ∀ seq e, view.get seq = some e → seq < view.next ∨ seq = 0)
    (first : view.initialized = true → view.next = 0 → (pathId, 0) ∈ after.returned ∧ (view.get 0).isSome = true) :
    after.Numbered := by
  constructor
  case known =>
    intro probe seq member
    -- On the path that changed the assumptions apply, and elsewhere what held before.
    by_cases hit : probe = pathId
    · subst hit
      exact ⟨view, own, known seq member⟩
    · rw [elsewhere probe hit]
      exact numbered.known probe seq ((returned _ member).resolve_right hit)
  case listed => exact fun probe seq cid member => listed (probe, seq, cid) member
  case below =>
    intro probe other seq e at_ held
    by_cases hit : probe = pathId
    · rw [hit, own] at at_
      cases at_
      exact below seq e held
    · rw [elsewhere probe hit] at at_
      exact numbered.below probe other seq e at_ held
  case first =>
    intro probe other at_ init zero
    by_cases hit : probe = pathId
    · rw [hit, own] at at_
      cases at_
      rw [hit]
      exact first init zero
    · rw [elsewhere probe hit] at at_
      obtain ⟨member, held⟩ := numbered.first probe other at_ init zero
      exact ⟨more _ member, held⟩

theorem add_some (held : (view.add cid resetToken networkPath).get seq = some e) :
    (seq = view.next ∧ e = ⟨cid, view.next, resetToken, networkPath⟩) ∨ view.get seq = some e := by
  unfold SourceView.add at held
  dsimp only at held
  split at held
  · rename_i same
    cases held
    exact .inl ⟨same, rfl⟩
  · exact .inr held

/-- A new identifier with its number, after an operation that succeeded. -/
def issue (self : Issuing) (ids : ConnectionIdentifiers) (pathId seq : Nat) (cid : ConnectionId) : Issuing :=
  { self with
    ids := ids
    returned := (pathId, seq) :: self.returned
    issued := (pathId, seq, cid) :: self.issued
    reused := self.reused || self.returned.contains (pathId, seq) }

/-- What succeeds for an identifier that is not registered, on a path that has its first one, is taken. -/
theorem takes_of_ok {advertise : Bool} (at_ : ids.view pathId = some view) (init : view.initialized = true)
    (unlisted : ¬ ids.Registered pathId cid)
    (done : (ids.newScid pathId cid resetToken advertise networkPath retireIfNeeded).1 = .ok seq) :
    ids.Takes pathId cid resetToken retireIfNeeded := by
  obtain ⟨pcid, found, rfl⟩ := Option.map_eq_some_iff.mp at_
  have init : pcid.initializedSourceConnectionId = true := init
  unfold newScid at done
  split at done
  · cases done
  rename_i long
  split at done
  · cases done
  rename_i token
  rw [found] at done
  refine ⟨by simpa using long, ?_, unlisted, pcid, found, init, ?_⟩
  -- Only path 0 may go without a token.
  · cases resetToken with
    | some token => exact .inl rfl
    | none => exact .inr (by simpa using token)
  · -- Without room the path would have refused the identifier.
    dsimp only at done
    rw [PathConnectionIdentifiers.newScid, if_neg (by simp [init])] at done
    cases made : pcid.makeRoom retireIfNeeded with
    | ok roomy => rfl
    | error error =>
      rw [made] at done
      cases done

/-- What is taken succeeds as long as the next number is that of the first identifier, which is there. -/
theorem ok_of_takes (advertise : Bool) (networkPath : Option FourTuple)
    (takes : ids.Takes pathId cid resetToken retireIfNeeded) {pcid : PathConnectionIdentifiers}
    (found : ids.getPcids pathId = some pcid) (zero : pcid.nextScidSeq = 0) (there : (pcid.scids.get 0).isSome = true)
    (error : PathError) :
    (ids.newScid pathId cid resetToken advertise networkPath retireIfNeeded).1 ≠ .error error := by
  obtain ⟨long, token, unlisted, other, found', init, made⟩ := takes
  rw [show ids.getPcids pathId = some other from found'] at found
  cases found
  have found : ids.getPcids pathId = some pcid := found'
  have token : ¬ (resetToken.isNone && pathId != 0) = true := by
    rcases token with given | first
    · cases resetToken with
      | none => cases given
      | some token => simp
    · simp [first]
  intro failed
  unfold newScid at failed
  rw [if_neg (by simp [long]), if_neg token, found] at failed
  dsimp only at failed
  rw [PathConnectionIdentifiers.newScid, if_neg (by simp [init])] at failed
  cases room : pcid.makeRoom retireIfNeeded with
  | error error =>
    rw [room] at made
    cases made
  | ok roomy =>
    obtain ⟨-, same, scids⟩ := PathConnectionIdentifiers.makeRoom_same room
    have next : roomy.nextScidSeq = 0 := by
      have next : roomy.sourceView.next = pcid.sourceView.next := by rw [same]
      exact next.trans zero
    have absent : roomy.scids.inner.find? (fun e => e.cid == cid) = none := by
      rw [scids, List.find?_eq_none]
      intro e member same
      exact unlisted ⟨pcid, found, init, e, member, by simpa using same⟩
    -- The insertion replaces the identifier with number 0, for which no room is needed.
    obtain ⟨old, held⟩ := Option.isSome_iff_exists.mp there
    have held : roomy.scids.get (Identifiable.id (⟨cid, 0, resetToken, networkPath⟩ : ConnectionIdEntry)) =
        some old := by
      rw [scids]
      exact held
    rw [room] at failed
    simp only [next, absent, BoundedNonEmptyVecDeque.insert_of_some held, bne_self_eq_false, Bool.and_false,
      Bool.false_eq_true, if_false] at failed
    cases failed

/-- Adding an identifier for the peer fails, finds it, or issues it on a path where it is not registered. -/
inductive Adds (strict : Bool) (search : List Nat → Nat → Nat) (self : Issuing) (pathId : Nat) (cid : ConnectionId)
    (resetToken : Option Nat) (advertise : Bool) (networkPath : Option FourTuple) (retireIfNeeded : Bool) : Prop where
  /-- A failure leaves everything. -/
  | failed {ids : ConnectionIdentifiers} {error : PathError}
      (refused : (self.ids.newScid pathId cid resetToken advertise networkPath retireIfNeeded).1 = .error error)
      (quiet : Quiet self.ids ids)
      (is : self.next strict search (.newScid pathId cid resetToken advertise networkPath retireIfNeeded) =
        { self with ids := ids })
  /-- A number is returned again for its identifier. -/
  | known {ids : ConnectionIdentifiers} {view : SourceView} {seq : Nat} {e : ConnectionIdEntry}
      (at_ : self.ids.view pathId = some view) (init : view.initialized = true) (found : view.get seq = some e)
      (named : e.cid = cid) (quiet : Quiet self.ids ids)
      (is : self.next strict search (.newScid pathId cid resetToken advertise networkPath retireIfNeeded) =
        { self with ids := ids, returned := (pathId, seq) :: self.returned })
  /-- The first identifier of the path has the first number. -/
  | first {ids : ConnectionIdentifiers} {view : SourceView}
      (fresh : ∀ old, self.ids.view pathId = some old → old.initialized = false)
      (own : ids.view pathId = some view) (init : view.initialized = true)
      (only : view.get = SourceView.single cid resetToken networkPath)
      (elsewhere : Elsewhere self.ids ids pathId)
      (is : self.next strict search (.newScid pathId cid resetToken advertise networkPath retireIfNeeded) =
        self.issue ids pathId 0 cid)
  | next {ids : ConnectionIdentifiers} {view : SourceView} (at_ : self.ids.view pathId = some view)
      (init : view.initialized = true) (takes : self.ids.Takes pathId cid resetToken retireIfNeeded)
      (own : ids.view pathId = some (view.add cid resetToken networkPath)) (elsewhere : Elsewhere self.ids ids pathId)
      (is : self.next strict search (.newScid pathId cid resetToken advertise networkPath retireIfNeeded) =
        self.issue ids pathId view.next cid)

/-- Adding an identifier for the peer does one of these. -/
theorem newScid_adds (strict : Bool) (search : List Nat → Nat → Nat) (self : Issuing) (pathId : Nat)
    (cid : ConnectionId) (resetToken : Option Nat) (advertise : Bool) (networkPath : Option FourTuple)
    (retireIfNeeded : Bool) :
    Adds strict search self pathId cid resetToken advertise networkPath retireIfNeeded := by
  have outcome := newScid_cases self.ids pathId cid resetToken advertise networkPath retireIfNeeded
  have takes : ∀ view, self.ids.view pathId = some view → view.initialized = true →
      ¬ self.ids.Registered pathId cid → ∀ seq,
      (self.ids.newScid pathId cid resetToken advertise networkPath retireIfNeeded).1 = .ok seq →
      self.ids.Takes pathId cid resetToken retireIfNeeded :=
    fun _ at_ init unlisted _ done => takes_of_ok at_ init unlisted done
  have refused : ∀ error ids,
      self.ids.newScid pathId cid resetToken advertise networkPath retireIfNeeded = (.error error, ids) →
      self.next strict search (.newScid pathId cid resetToken advertise networkPath retireIfNeeded) =
        { self with ids := ids } := by
    intro error ids done
    simp only [Issuing.next, done]
  have given : ∀ seq ids,
      self.ids.newScid pathId cid resetToken advertise networkPath retireIfNeeded = (.ok seq, ids) →
      self.next strict search (.newScid pathId cid resetToken advertise networkPath retireIfNeeded) =
        if self.ids.Registered pathId cid then { self with ids := ids, returned := (pathId, seq) :: self.returned }
        else self.issue ids pathId seq cid := by
    intro seq ids done
    simp only [Issuing.next, done]
    rfl
  -- The outcome is known for the identifiers; what is recorded follows from the result.
  generalize same : self.ids.newScid pathId cid resetToken advertise networkPath retireIfNeeded = done
    at outcome takes
  obtain ⟨result, ids⟩ := done
  dsimp only at outcome takes
  cases outcome with
  | failed error quiet => exact .failed (congrArg Prod.fst same) quiet (refused _ _ same)
  | known at_ init found named quiet =>
    have is := given _ _ same
    -- An identifier that is found under a number is registered, so it is not a new one.
    have listed : self.ids.Registered pathId cid := registered_iff.mpr ⟨_, at_, init, _, _, found, named⟩
    simp only [if_pos listed] at is
    exact .known at_ init found named quiet is
  | first at_ none_ token own elsewhere books queue =>
    have is := given _ _ same
    have unlisted : ¬ self.ids.Registered pathId cid := by
      rw [registered_iff]
      rintro ⟨view, at', init, -⟩
      rw [at_] at at'
      cases at'
      rw [none_] at init
      cases init
    simp only [if_neg unlisted] at is
    refine .first ?_ own rfl rfl elsewhere is
    intro old at'
    rw [at_] at at'
    cases at'
    exact none_
  | next at_ init fresh token own elsewhere books queue =>
    have is := given _ _ same
    have unlisted : ¬ self.ids.Registered pathId cid := by
      rw [registered_iff]
      rintro ⟨view, at', -, seq, e, held, same⟩
      rw [at_] at at'
      cases at'
      exact fresh seq e held same
    simp only [if_neg unlisted] at is
    exact .next at_ init (takes _ at_ init unlisted _ rfl) own elsewhere is
  | created token created queue =>
    have is := given _ _ same
    have unlisted : ¬ self.ids.Registered pathId cid := by
      rw [registered_iff]
      rintro ⟨view, at', -⟩
      rw [created.absent] at at'
      cases at'
    simp only [if_neg unlisted] at is
    refine .first ?_ created.own rfl rfl created.elsewhere is
    intro old at'
    rw [created.absent] at at'
    cases at'

/-- What an operation does that neither adds nor retires an identifier for the peer. -/
def Passes (before after : ConnectionIdentifiers) : Prop :=
  after.view = before.view ∨ ∃ pathId, Created before after pathId ⟨SourceView.single [] none none, 0, false⟩

theorem newDcid_passes (search : List Nat → Nat → Nat) (ids : ConnectionIdentifiers) (pathId : Nat)
    (cid : ConnectionId) (seq resetToken retirePriorTo : Nat) :
    Passes ids (ids.newDcid search pathId cid seq resetToken retirePriorTo).2.2 := by
  cases newDcid_cases search ids pathId cid seq resetToken retirePriorTo with
  | quiet quiet => exact .inl quiet.view
  | created created queue => exact .inr ⟨pathId, created⟩

/-- Operations on other things keep the numbers. -/
theorem Numbered.passes (numbered : self.Numbered) (passes : Passes self.ids ids) :
    Numbered { self with ids := ids } := by
  rcases passes with same | ⟨pathId, created⟩
  · exact numbered.congr rfl rfl same
  · -- Nothing was returned for a path that did not exist.
    apply numbered.grow created.own created.elsewhere
    case more => exact fun _ member => member
    case returned => exact fun _ member => .inl member
    case listed => exact fun entry member => numbered.listed _ _ _ member
    case known =>
      intro seq member
      obtain ⟨view, at_, -⟩ := numbered.known pathId seq member
      rw [created.absent] at at_
      cases at_
    case below => exact fun seq e held => .inr (SourceView.single_some held).1
    case first => intro none_; cases none_

/-- The numbers stay in order as an identifier is issued. -/
theorem Numbered.issue (numbered : self.Numbered) (own : ids.view pathId = some view)
    (elsewhere : Elsewhere self.ids ids pathId) (init : view.initialized = true)
    (old : ∀ probe, (pathId, probe) ∈ self.returned → probe < view.next ∨ probe = 0) (new : seq < view.next ∨ seq = 0)
    (below : ∀ probe e, view.get probe = some e → probe < view.next ∨ probe = 0)
    (first : view.next = 0 → seq = 0 ∧ (view.get 0).isSome = true) : (self.issue ids pathId seq cid).Numbered := by
  apply numbered.grow own elsewhere
  case more => exact fun pair member => List.mem_cons_of_mem _ member
  case returned =>
    intro pair member
    rcases List.mem_cons.mp member with rfl | member
    · exact .inr rfl
    · exact .inl member
  case listed =>
    intro entry member
    rcases List.mem_cons.mp member with rfl | member
    · exact List.mem_cons_self
    · exact List.mem_cons_of_mem _ (numbered.listed _ _ _ member)
  case known =>
    intro probe member
    refine ⟨init, ?_⟩
    rcases List.mem_cons.mp member with same | member
    · cases same
      exact new
    · exact old probe member
  case below => exact below
  case first =>
    intro _ zero
    obtain ⟨rfl, there⟩ := first zero
    exact ⟨List.mem_cons_self, there⟩

/-- An identifier for the peer that is created keeps the numbers. -/
theorem Numbered.newScid (numbered : self.Numbered) (pathId : Nat) (cid : ConnectionId) (resetToken : Option Nat)
    (advertise : Bool) (networkPath : Option FourTuple) (retireIfNeeded : Bool) :
    (self.next strict search (.newScid pathId cid resetToken advertise networkPath retireIfNeeded)).Numbered := by
  cases newScid_adds strict search self pathId cid resetToken advertise networkPath retireIfNeeded with
  | failed refused quiet is =>
    rw [is]
    exact numbered.congr rfl rfl quiet.view
  | @known ids view seq e at_ init found named quiet is =>
    rw [is]
    have own : ids.view pathId = some view := by rw [quiet.view]; exact at_
    apply numbered.grow own fun other _ => by rw [quiet.view]
    case more => exact fun pair member => List.mem_cons_of_mem _ member
    case returned =>
      intro pair member
      rcases List.mem_cons.mp member with rfl | member
      · exact .inr rfl
      · exact .inl member
    case listed => exact fun entry member => List.mem_cons_of_mem _ (numbered.listed _ _ _ member)
    case known =>
      intro probe member
      rcases List.mem_cons.mp member with same | member
      · cases same
        exact ⟨init, numbered.below pathId view seq e at_ found⟩
      · obtain ⟨other, at', init', small⟩ := numbered.known pathId probe member
        rw [at_] at at'
        cases at'
        exact ⟨init', small⟩
    case below => exact fun probe e held => numbered.below pathId view probe e at_ held
    case first =>
      intro _ zero
      obtain ⟨member, there⟩ := numbered.first pathId view at_ init zero
      exact ⟨List.mem_cons_of_mem _ member, there⟩
  -- Nothing was returned yet for a path without its first identifier.
  | @first ids view fresh own init only elsewhere is =>
    rw [is]
    apply numbered.issue own elsewhere init
    case old =>
      intro probe member
      obtain ⟨other, at_, init', -⟩ := numbered.known pathId probe member
      rw [fresh other at_] at init'
      cases init'
    case new => exact .inr rfl
    case below =>
      intro probe e held
      rw [only] at held
      exact .inr (SourceView.single_some held).1
    case first =>
      intro _
      rw [only]
      exact ⟨rfl, rfl⟩
  -- The counter moves past the number that is returned.
  | @next ids view at_ init takes own elsewhere is =>
    rw [is]
    apply numbered.issue own elsewhere rfl
    case old =>
      intro probe member
      obtain ⟨other, at', -, small⟩ := numbered.known pathId probe member
      rw [at_] at at'
      cases at'
      show probe < view.next + 1 ∨ probe = 0
      omega
    case new => exact .inl (Nat.lt_succ_self _)
    case below =>
      intro probe e held
      show probe < view.next + 1 ∨ probe = 0
      rcases add_some held with ⟨rfl, -⟩ | held
      · omega
      · have := numbered.below pathId view probe e at_ held
        omega
    case first => intro zero; cases zero

/-- An identifier for the peer that is retired keeps the numbers. -/
theorem Numbered.retireScid (numbered : self.Numbered) (pathId seq : Nat) (pktDcid : ConnectionId) :
    (self.next strict search (.retireScid pathId seq pktDcid)).Numbered := by
  -- What is recorded as retired plays no role for the numbers.
  have recorded : ∀ after : Issuing, after.Numbered → ∀ retired, Numbered { after with retired := retired } :=
    fun after held _ => ⟨held.known, held.listed, held.below, held.first⟩
  have moved : Numbered { self with ids := (self.ids.retireScid pathId seq pktDcid).2 } := by
    by_cases retires : self.ids.RetiresScid pathId seq
    · obtain ⟨old, e, at_, held, own, elsewhere, -⟩ := retireScid_drops retires pktDcid
      apply numbered.grow own elsewhere
      case more => exact fun _ member => member
      case returned => exact fun _ member => .inl member
      case listed => exact fun entry member => numbered.listed _ _ _ member
      case known =>
        intro probe member
        obtain ⟨other, at', init, small⟩ := numbered.known pathId probe member
        rw [at_] at at'
        cases at'
        exact ⟨init, small⟩
      case below =>
        intro probe e held
        unfold SourceView.drop at held
        dsimp only at held
        split at held
        · cases held
        · exact numbered.below pathId old probe e at_ held
      case first =>
        -- Only numbers below the next one are retired.
        intro _ zero
        obtain ⟨pcid, found, below, -⟩ := retires
        have zero : old.next = 0 := zero
        rw [view, show self.ids.getPcids pathId = some pcid from found] at at_
        cases at_
        have zero : pcid.nextScidSeq = 0 := zero
        omega
    · exact numbered.congr rfl rfl (retireScid_quiet retires pktDcid).view
  simp only [Issuing.next]
  split
  · rename_i entry ids done
    rw [done] at moved
    exact recorded _ moved _
  · rename_i error ids done
    rw [done] at moved
    split
    · exact recorded _ moved _
    · exact moved

/-- Every operation keeps the numbers. -/
theorem Numbered.next (numbered : self.Numbered) (stays : self.Stays event) :
    (self.next strict search event).Numbered := by
  cases event with
  | newScid pathId cid resetToken advertise networkPath retireIfNeeded =>
    exact numbered.newScid pathId cid resetToken advertise networkPath retireIfNeeded
  | retireScid pathId seq pktDcid => exact numbered.retireScid pathId seq pktDcid
  | setInitialDcid | retireDcid | markRetireDcidSeq | setSourceConnIdLimit | setLocalMaxPathId | setRemoteMaxPathId
  | closingPathId => exact numbered.passes (.inl (step_quiet search self.ids rfl).view)
  | newDcid pathId cid seq resetToken retirePriorTo =>
    exact numbered.passes (newDcid_passes search self.ids pathId cid seq resetToken retirePriorTo)
  | consumeLowestSparePathId => exact numbered.passes (.inl (consumeLowestSparePathId_same self.ids).1)
  | removePathId pathId => exact absurd rfl (stays pathId)

theorem kept_iff {state : Issuing} : state.Kept ↔ state.reused = false ∧
    ∀ pathId seq cid, (pathId, seq, cid) ∈ state.issued → (pathId, seq) ∉ state.retired →
      ∃ view e, state.ids.view pathId = some view ∧ view.get seq = some e ∧ e.cid = cid := by
  constructor
  · rintro ⟨fresh, found⟩
    refine ⟨fresh, fun pathId seq cid member left => ?_⟩
    obtain ⟨e, held, same⟩ := found pathId seq cid member left
    obtain ⟨view, at_, held⟩ := getScid_ok.mp held
    exact ⟨view, e, at_, held, same⟩
  · rintro ⟨fresh, found⟩
    refine ⟨fresh, fun pathId seq cid member left => ?_⟩
    obtain ⟨view, e, at_, held, same⟩ := found pathId seq cid member left
    exact ⟨e, getScid_ok.mpr ⟨view, at_, held⟩, same⟩

/-- Operations on other things lose no identifier. -/
theorem Kept.passes (kept : self.Kept) (passes : Passes self.ids ids) : Kept { self with ids := ids } := by
  obtain ⟨fresh, found⟩ := kept_iff.mp kept
  refine kept_iff.mpr ⟨fresh, fun pathId seq cid member left => ?_⟩
  obtain ⟨view, e, at_, held, same⟩ := found pathId seq cid member left
  rcases passes with seen | ⟨new, created⟩
  · exact ⟨view, e, by rw [seen]; exact at_, held, same⟩
  · -- The new path had no identifier to lose.
    have apart : pathId ≠ new := by
      rintro rfl
      rw [created.absent] at at_
      cases at_
    exact ⟨view, e, by rw [created.elsewhere pathId apart]; exact at_, held, same⟩

/-- An identifier that is issued with a new number is kept like the others. -/
theorem Kept.issue (kept : self.Kept) (new : (pathId, seq) ∉ self.returned) (own : ids.view pathId = some view)
    (elsewhere : Elsewhere self.ids ids pathId) (held : view.get seq = some e) (named : e.cid = cid)
    (rest : ∀ old probe, self.ids.view pathId = some old → (∃ cid, (pathId, probe, cid) ∈ self.issued) →
      view.get probe = old.get probe) : (self.issue ids pathId seq cid).Kept := by
  obtain ⟨fresh, found⟩ := kept_iff.mp kept
  refine kept_iff.mpr ⟨?_, fun path probe name member left => ?_⟩
  · show (self.reused || self.returned.contains (pathId, seq)) = false
    rw [fresh, Bool.false_or]
    simpa using new
  · rcases List.mem_cons.mp member with same | earlier
    · cases same
      exact ⟨view, e, own, held, named⟩
    · obtain ⟨old, entry, at_, listed, same⟩ := found path probe name earlier left
      -- The view of the path still has the earlier identifiers, under their numbers.
      by_cases hit : path = pathId
      · subst hit
        exact ⟨view, entry, own, (rest old probe at_ ⟨name, earlier⟩).trans listed, same⟩
      · have at_ : ids.view path = some old := by rw [elsewhere path hit]; exact at_
        exact ⟨old, entry, at_, listed, same⟩

/-- An identifier that is removed is missed, unless it was not issued or counts as retired. -/
theorem kept_drop_iff (kept : self.Kept) {old : SourceView} {retired : List (Nat × Nat)}
    (at_ : self.ids.view pathId = some old) (own : ids.view pathId = some (old.drop seq))
    (elsewhere : Elsewhere self.ids ids pathId) (more : ∀ pair ∈ self.retired, pair ∈ retired) :
    Kept { self with ids := ids, retired := retired } ↔
      ∀ cid, (pathId, seq, cid) ∈ self.issued → (pathId, seq) ∈ retired := by
  obtain ⟨fresh, found⟩ := kept_iff.mp kept
  rw [kept_iff]
  constructor
  · rintro ⟨-, found⟩ cid member
    -- The identifier was removed, so the view cannot have it.
    by_contra left
    obtain ⟨view, e, at', held, -⟩ := found pathId seq cid member left
    have at' : ids.view pathId = some view := at'
    rw [own] at at'
    cases at'
    simp [SourceView.drop] at held
  · intro counted
    refine ⟨fresh, fun path probe cid member left => ?_⟩
    have left : (path, probe) ∉ retired := left
    obtain ⟨view, e, seen, held, same⟩ := found path probe cid member fun listed => left (more _ listed)
    by_cases hit : path = pathId
    · subst hit
      have apart : probe ≠ seq := fun equal => left (by rw [equal]; exact counted cid (equal ▸ member))
      rw [at_] at seen
      cases seen
      exact ⟨old.drop seq, e, own, by rw [SourceView.drop]; simpa [apart] using held, same⟩
    · exact ⟨view, e, by rw [show ids.view path = self.ids.view path from elsewhere path hit]; exact seen, held, same⟩

/-- Identifiers are kept by the retirement of one just when it does not go uncounted. -/
theorem kept_retireScid_iff (kept : self.Kept) (pathId seq : Nat) (pktDcid : ConnectionId) :
    (self.next strict search (.retireScid pathId seq pktDcid)).Kept ↔
      self.Sound strict (.retireScid pathId seq pktDcid) := by
  -- What counts as retired besides cannot be missed.
  have counted : ∀ ids retired, Kept { self with ids := ids } → Kept { self with
      ids := ids, retired := retired ++ self.retired } := by
    intro ids retired held
    exact ⟨held.fresh, fun path probe cid member left =>
      held.found path probe cid member fun listed => left (List.mem_append_right _ listed)⟩
  by_cases retires : self.ids.RetiresScid pathId seq
  · obtain ⟨old, e, at_, held, own, elsewhere, -, -, refused⟩ := retireScid_drops retires pktDcid
    have drop : ∀ retired, (∀ pair ∈ self.retired, pair ∈ retired) →
        (Kept { self with ids := (self.ids.retireScid pathId seq pktDcid).2, retired := retired } ↔
          ∀ cid, (pathId, seq, cid) ∈ self.issued → (pathId, seq) ∈ retired) :=
      fun retired more => kept_drop_iff kept at_ own elsewhere more
    simp only [Sound, Issuing.next]
    generalize self.ids.retireScid pathId seq pktDcid = result at drop refused
    obtain ⟨result, ids⟩ := result
    cases result with
    -- A retirement that succeeds is recorded, and cannot be missed.
    | ok entry =>
      have all := drop ((pathId, seq) :: self.retired) fun pair member => List.mem_cons_of_mem _ member
      constructor
      · intro _ _ _ refuses
        obtain ⟨error, none⟩ := refused.mpr refuses
        cases none
      · exact fun _ => all.mpr fun _ _ => List.mem_cons_self
    | error error =>
      dsimp only
      cases strict with
      | false =>
        rw [if_pos ⟨rfl, retires⟩]
        have all := drop ((pathId, seq) :: self.retired) fun pair member => List.mem_cons_of_mem _ member
        exact ⟨fun _ => by simp, fun _ => all.mpr fun _ _ => List.mem_cons_self⟩
      -- In the strict reading the removal is not recorded when it is refused.
      | true =>
        rw [if_neg (by simp)]
        have all := drop self.retired fun pair member => member
        refine all.trans ⟨?_, ?_⟩
        · rintro listed _ _ _ ⟨path, probe, cid⟩ member rfl rfl
          exact listed cid member
        · intro sound cid member
          exact sound rfl retires (refused.mp ⟨error, rfl⟩) (pathId, seq, cid) member rfl rfl
  · have quiet : Kept { self with ids := (self.ids.retireScid pathId seq pktDcid).2 } :=
      kept.passes (.inl (retireScid_quiet retires pktDcid).view)
    have sound : self.Sound strict (.retireScid pathId seq pktDcid) := fun _ does => absurd does retires
    refine ⟨fun _ => sound, fun _ => ?_⟩
    simp only [Issuing.next]
    generalize self.ids.retireScid pathId seq pktDcid = result at quiet
    obtain ⟨result, ids⟩ := result
    cases result with
    | ok entry => exact counted ids [(pathId, seq)] quiet
    | error error =>
      dsimp only
      rw [if_neg fun both => retires both.2]
      exact quiet

/-- Identifiers are kept by a new one just when it is not taken while the next number is the first one. -/
theorem kept_newScid_iff (numbered : self.Numbered) (kept : self.Kept) (pathId : Nat) (cid : ConnectionId)
    (resetToken : Option Nat) (advertise : Bool) (networkPath : Option FourTuple) (retireIfNeeded : Bool) :
    (self.next strict search (.newScid pathId cid resetToken advertise networkPath retireIfNeeded)).Kept ↔
      self.Sound strict (.newScid pathId cid resetToken advertise networkPath retireIfNeeded) := by
  -- What was issued on a path that has its first identifier is numbered below the next one.
  have small : ∀ view, self.ids.view pathId = some view → ∀ seq, (pathId, seq) ∈ self.returned →
      view.initialized = true ∧ (seq < view.next ∨ seq = 0) := by
    intro view at_ seq member
    obtain ⟨other, at', init, below⟩ := numbered.known pathId seq member
    rw [at_] at at'
    cases at'
    exact ⟨init, below⟩
  cases newScid_adds strict search self pathId cid resetToken advertise networkPath retireIfNeeded with
  | @failed ids error refused quiet is =>
    rw [is]
    refine ⟨fun _ takes pcid found zero => ?_, fun _ => kept.passes (.inl quiet.view)⟩
    -- Taking the identifier would replace the first one, for which there is room.
    have found : self.ids.getPcids pathId = some pcid := found
    have at_ : self.ids.view pathId = some pcid.sourceView := by rw [view, found]; rfl
    obtain ⟨-, -, -, other, found', init, -⟩ := id takes
    rw [show self.ids.getPcids pathId = some other from found'] at found
    cases found
    obtain ⟨-, there⟩ := numbered.first pathId _ at_ init zero
    exact ok_of_takes advertise networkPath takes found' zero there error refused
  | known at_ init found named quiet is =>
    rw [is]
    have held : Kept { self with ids := _ } := kept.passes (.inl quiet.view)
    refine ⟨fun _ takes => absurd ?_ takes.2.2.1, fun _ => ⟨held.fresh, held.found⟩⟩
    exact registered_iff.mpr ⟨_, at_, init, _, _, found, named⟩
  | @first ids view fresh own init only elsewhere is =>
    rw [is]
    -- No number was returned on a path without its first identifier.
    have empty : ∀ old, self.ids.view pathId = some old → ∀ seq, (pathId, seq) ∉ self.returned := by
      intro old at_ seq member
      have known := (small old at_ seq member).1
      rw [fresh old at_] at known
      cases known
    refine ⟨fun _ takes => ?_, fun _ => ?_⟩
    · obtain ⟨-, -, -, pcid, found, init, -⟩ := takes
      have found : self.ids.getPcids pathId = some pcid := found
      have none_ := fresh pcid.sourceView (by rw [ConnectionIdentifiers.view, found]; rfl)
      have init : pcid.sourceView.initialized = true := init
      rw [none_] at init
      cases init
    · have held : view.get 0 = some ⟨cid, 0, resetToken, networkPath⟩ := by rw [only]; rfl
      apply kept.issue _ own elsewhere held rfl
      · rintro old probe at_ ⟨name, member⟩
        exact absurd (numbered.listed _ _ _ member) (empty old at_ probe)
      · intro member
        obtain ⟨old, at_, -⟩ := numbered.known pathId 0 member
        exact empty old at_ 0 member
  | @next ids view at_ init takes own elsewhere is =>
    rw [is]
    -- The counter of the path is the next number of its view.
    have number : ∀ pcid ∈ self.ids.getPcids pathId, pcid.nextScidSeq = view.next := by
      intro pcid found
      have found : self.ids.getPcids pathId = some pcid := found
      have same : self.ids.view pathId = some pcid.sourceView := by rw [ConnectionIdentifiers.view, found]; rfl
      rw [at_] at same
      cases same
      rfl
    by_cases zero : view.next = 0
    · -- The first number is returned a second time.
      constructor
      · intro held
        have reused : (self.reused || self.returned.contains (pathId, view.next)) = false := held.fresh
        have member := (numbered.first pathId view at_ init zero).1
        rw [zero] at reused
        simp [member] at reused
      · intro sound
        obtain ⟨-, -, -, pcid, found, -⟩ := id takes
        exact absurd ((number pcid found).trans zero) (sound takes pcid found)
    · refine ⟨fun _ _ pcid found => by rw [number pcid found]; exact zero, fun _ => ?_⟩
      have held : (view.add cid resetToken networkPath).get view.next =
          some ⟨cid, view.next, resetToken, networkPath⟩ := if_pos rfl
      apply kept.issue _ own elsewhere held rfl
      · rintro old probe at' ⟨name, member⟩
        rw [at_] at at'
        cases at'
        have below := (small view at_ probe (numbered.listed _ _ _ member)).2
        have apart : probe ≠ view.next := by omega
        rw [SourceView.add]
        simp [apart]
      · intro member
        have below := (small view at_ view.next member).2
        omega

theorem kept_next_iff (numbered : self.Numbered) (kept : self.Kept) (stays : self.Stays event) :
    (self.next strict search event).Kept ↔ self.Sound strict event := by
  cases event with
  | newScid pathId cid resetToken advertise networkPath retireIfNeeded =>
    exact kept_newScid_iff numbered kept pathId cid resetToken advertise networkPath retireIfNeeded
  | retireScid pathId seq pktDcid => exact kept_retireScid_iff kept pathId seq pktDcid
  | setInitialDcid | retireDcid | markRetireDcidSeq | setSourceConnIdLimit | setLocalMaxPathId | setRemoteMaxPathId
  | closingPathId =>
    exact iff_of_true (kept.passes (.inl (step_quiet search self.ids rfl).view)) trivial
  | newDcid pathId cid seq resetToken retirePriorTo =>
    exact iff_of_true (kept.passes (newDcid_passes search self.ids pathId cid seq resetToken retirePriorTo)) trivial
  | consumeLowestSparePathId =>
    exact iff_of_true (kept.passes (.inl (consumeLowestSparePathId_same self.ids).1)) trivial
  | removePathId pathId => exact absurd rfl (stays pathId)

/-- Identifiers are kept in every state of a run just when each operation is sound in the state it happens in. -/
theorem always_kept_iff (strict : Bool) (search : List Nat → Nat → Nat) (destinationConnIdLimit : Nat)
    (initialScid : ConnectionId) (networkPath : FourTuple) (resetToken : Option Nat) (events : List IdEvent)
    (stay : ∀ pathId, .removePathId pathId ∉ events) :
    (∀ done, done <+: events → (Runs.run (next strict search)
        (start destinationConnIdLimit initialScid networkPath resetToken) done).Kept) ↔
      Runs.Along (next strict search) (Sound strict)
        (start destinationConnIdLimit initialScid networkPath resetToken) events := by
  -- The numbers stay in order in any case; whether identifiers are kept depends on each step.
  have keeps : ∀ (state : Issuing) event, state.Numbered → state.Stays event →
      (state.next strict search event).Numbered := fun _ _ numbered stays => numbered.next stays
  have step : ∀ (state : Issuing) event, state.Numbered → state.Kept → state.Stays event →
      ((state.next strict search event).Kept ↔ state.Sound strict event) :=
    fun _ _ numbered kept stays => kept_next_iff numbered kept stays
  have nothing : (start destinationConnIdLimit initialScid networkPath resetToken).Kept := by
    refine ⟨rfl, ?_⟩
    intro pathId seq cid member
    cases member
  apply Runs.always_iff_along keeps step events (numbered_start _ _ _ _) nothing
  apply Runs.along_of_mem
  rintro event member state pathId rfl
  exact stay pathId member

/-- The second path gets its identifiers for the peer before the ones of the peer. -/
theorem kept_of_scid_first :
    let search := fun seqs bound => (seqs.takeWhile (· < bound)).length
    (Runs.run (next true search) (start 2 [1] (⟨[], 0⟩, ⟨[], 0⟩) none)
      [.setLocalMaxPathId 1 false, .setRemoteMaxPathId 1, .newScid 1 [2] (some 8) true none false,
        .newDcid 1 [7] 0 5 0, .newScid 1 [3] (some 9) true none false, .retireScid 1 0 [3]]).Kept :=
  (always_kept_iff true _ 2 [1] _ none _ (by simp)).mpr (by decide) _ (List.prefix_refl _)

/-- With an identifier of the peer first, the second one for it takes the number and the place of the first. -/
theorem reused_of_dcid_first :
    let search := fun seqs bound => (seqs.takeWhile (· < bound)).length
    let final := Runs.run (next false search) (start 2 [1] (⟨[], 0⟩, ⟨[], 0⟩) none)
      [.setLocalMaxPathId 1 false, .setRemoteMaxPathId 1, .newDcid 1 [7] 0 5 0,
        .newScid 1 [2] (some 8) true none false, .newScid 1 [3] (some 9) true none false]
    final.issued = [(1, 0, [3]), (1, 0, [2])] ∧ final.retired = [] ∧
      (final.ids.getScid 1 0).map ConnectionIdEntry.cid = .ok [3] ∧ ¬ final.Kept := by
  intro search final
  have facts : final.issued = [(1, 0, [3]), (1, 0, [2])] ∧ final.retired = [] ∧
      (final.ids.getScid 1 0).map ConnectionIdEntry.cid = .ok [3] ∧ final.reused = true := by decide
  obtain ⟨issued, retired, there, reused⟩ := facts
  refine ⟨issued, retired, there, fun kept => ?_⟩
  rw [kept.fresh] at reused
  cases reused

end Issuing

end ConnectionIdentifiers

end Flexicast
