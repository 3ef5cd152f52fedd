import Flexicast.Paths.Steps

/-! Path identifiers that are offered for new paths are neither closed nor in use. -/

namespace Flexicast

namespace ConnectionIdentifiers

/-- There is room for the identifiers of a new path, which is allowed and was not closed. -/
def Opens (self : ConnectionIdentifiers) (pathId : Nat) : Prop :=
  self.getPcids pathId = none ∧ pathId ≤ self.maxPathId ∧ pathId ∉ self.closedPathId ∧
    self.pcids.len < self.pcids.capacity

variable {self after : ConnectionIdentifiers} {pathId : Nat}

/-- A path is added just when there is room for it. -/
theorem addPath_ok_iff {pcid : PathConnectionIdentifiers} (absent : self.getPcids pcid.pathId = none) :
    (self.addPath pcid).1 = .ok () ↔ self.Opens pcid.pathId := by
  have inserted := @BoundedNonEmptyVecDeque.insert_of_none _ _ self.pcids pcid absent
  unfold addPath Opens
  by_cases large : self.maxPathId < pcid.pathId
  · rw [if_pos large]
    exact iff_of_false (by simp) fun opens => absurd opens.2.1 (Nat.not_le.mpr large)
  rw [if_neg large]
  by_cases closed : pcid.pathId ∈ self.closedPathId
  · rw [if_pos (List.contains_iff_mem.mpr closed)]
    exact iff_of_false (by simp) fun opens => opens.2.2.1 closed
  rw [if_neg fun member => closed (List.contains_iff_mem.mp member), inserted]
  by_cases full : self.pcids.capacity ≤ self.pcids.len
  · rw [if_pos full]
    exact iff_of_false (by simp) fun opens => absurd opens.2.2.2 (Nat.not_lt.mpr full)
  · rw [if_neg full]
    exact iff_of_true rfl ⟨absent, Nat.not_lt.mp large, closed, Nat.not_le.mp full⟩

theorem view_isSome : (self.view pathId).isSome = (self.getPcids pathId).isSome := Option.isSome_map

/-- An identifier for the peer on a path without any is added just when there is room for the path. -/
theorem newScid_isOk_iff (absent : self.getPcids pathId = none) (cid : ConnectionId) (resetToken : Option Nat)
    (advertise : Bool) (networkPath : Option FourTuple) (retireIfNeeded : Bool) :
    (self.newScid pathId cid resetToken advertise networkPath retireIfNeeded).1.isOk = true ↔
      self.zeroLengthScid = false ∧ (resetToken.isSome = true ∨ pathId = 0) ∧ self.Opens pathId := by
  unfold newScid
  by_cases short : self.zeroLengthScid = true
  · rw [if_pos short, short]
    simp [Except.isOk, Except.toBool]
  rw [if_neg short]
  by_cases needed : (resetToken.isNone && pathId != 0) = true
  · rw [if_pos needed]
    refine iff_of_false (by simp [Except.isOk, Except.toBool]) ?_
    rintro ⟨-, given | first, -⟩
    · cases resetToken with
      | none => cases given
      | some token => simp at needed
    · simp [first] at needed
  rw [if_neg needed, absent]
  have token : resetToken.isSome = true ∨ pathId = 0 := by
    cases resetToken with
    | some token => exact .inl rfl
    | none => exact .inr (by simpa using needed)
  have decides := @addPath_ok_iff self (.newWithPathId pathId self.destinationConnIdLimit self.sourceConnIdLimit
    (some cid) none networkPath resetToken) absent
  dsimp only
  generalize self.addPath _ = result at decides
  obtain ⟨result, after⟩ := result
  cases result with
  | error error =>
    refine iff_of_false (by simp [Except.isOk, Except.toBool]) ?_
    rintro ⟨-, -, opens⟩
    have failed := decides.mpr opens
    cases failed
  | ok done => exact iff_of_true rfl ⟨by simpa using short, token, decides.mp rfl⟩

/-- An identifier of the peer comes with a new path just when there is room for it. -/
theorem newDcid_creates (search : List Nat → Nat → Nat) (self : ConnectionIdentifiers) (pathId : Nat)
    (cid : ConnectionId) (seq resetToken retirePriorTo : Nat) :
    (self.zeroLengthDcid = false ∧ self.Opens pathId ∧
      ∃ view, Created self (self.newDcid search pathId cid seq resetToken retirePriorTo).2.2 pathId view) ∨
    (¬ (self.zeroLengthDcid = false ∧ self.Opens pathId) ∧
      Quiet self (self.newDcid search pathId cid seq resetToken retirePriorTo).2.2) := by
  unfold newDcid
  by_cases short : self.zeroLengthDcid = true
  · rw [if_pos short, short]
    exact .inr ⟨by simp, .refl self⟩
  rw [if_neg short]
  cases found : self.getPcids pathId with
  -- A path that exists is not created again.
  | some pcid =>
    refine .inr ⟨?_, quiet_setPcids found (pcid.newDcid_same search cid seq resetToken retirePriorTo)⟩
    rintro ⟨-, absent, -⟩
    rw [absent] at found
    cases found
  | none =>
    have absent : self.getPcids (PathConnectionIdentifiers.newWithPathId pathId self.destinationConnIdLimit
        self.sourceConnIdLimit none (some cid) none (some resetToken)).pathId = none := found
    have decides := addPath_ok_iff absent
    dsimp only
    rcases addPath_cases absent with ⟨error, failed⟩ | ⟨done, created, -⟩
    · rw [failed] at decides ⊢
      refine .inr ⟨fun both => ?_, .refl self⟩
      have none_ := decides.mpr both.2
      cases none_
    · exact .inl ⟨by simpa using short, decides.mp done, _, created⟩

/-- The connection identifiers with the paths that were taken. -/
structure Spares where
  ids : ConnectionIdentifiers
  consumed : List Nat

namespace Spares

/-- One operation. -/
def next (search : List Nat → Nat → Nat) (self : Spares) (event : IdEvent) : Spares where
  ids := self.ids.step search event
  consumed :=
    match event with
    | .consumeLowestSparePathId => self.ids.lowestSparePathId.toList ++ self.consumed
    | _ => self.consumed

/-- The connection identifiers of a new connection. -/
def start (destinationConnIdLimit : Nat) (initialScid : ConnectionId) (networkPath : FourTuple)
    (resetToken : Option Nat) : Spares :=
  ⟨.new destinationConnIdLimit initialScid networkPath resetToken, []⟩

/-- The paths that are offered can be used. -/
structure Usable (state : Spares) : Prop where
  there : ∀ pathId ∈ state.ids.sparePathIds, (state.ids.getPcids pathId).isSome = true
  opened : ∀ pathId ∈ state.ids.sparePathIds, pathId ∉ state.ids.closedPathId
  once : state.ids.sparePathIds.Nodup
  unused : ∀ pathId ∈ state.ids.sparePathIds, pathId ∉ state.consumed

/-- No path is dropped while it is offered, and none is created again after it was taken. -/
def Sound (self : Spares) : IdEvent → Prop
  | .newScid pathId _ resetToken _ _ _ =>
    self.ids.zeroLengthScid = false → (resetToken.isSome = true ∨ pathId = 0) → self.ids.Opens pathId →
      pathId ∉ self.consumed
  | .newDcid pathId _ _ _ _ => self.ids.zeroLengthDcid = false → self.ids.Opens pathId → pathId ∉ self.consumed
  | .removePathId pathId => self.ids.Drops pathId → pathId ∉ self.ids.sparePathIds
  | _ => True

variable {self : Spares} {search : List Nat → Nat → Nat} {event : IdEvent} {pathId : Nat}

/-- The path that is offered next has its identifiers, is not closed, and was not taken. -/
theorem Usable.lowest (usable : self.Usable) (offered : self.ids.lowestSparePathId = some pathId) :
    (self.ids.getPcids pathId).isSome = true ∧ pathId ∉ self.ids.closedPathId ∧ pathId ∉ self.consumed := by
  have member : pathId ∈ self.ids.sparePathIds := (List.min?_eq_some_iff.mp offered).1
  exact ⟨usable.there pathId member, usable.opened pathId member, usable.unused pathId member⟩

/-- What leaves the paths leaves those that are offered usable. -/
theorem Usable.same (usable : self.Usable) {after : ConnectionIdentifiers} (books : SameBooks self.ids after)
    (seen : ∀ pathId, (after.view pathId).isSome = (self.ids.view pathId).isSome) :
    Usable ⟨after, self.consumed⟩ := by
  constructor
  case there =>
    intro pathId member
    have member : pathId ∈ after.sparePathIds := member
    rw [books.spare] at member
    show (after.getPcids pathId).isSome = true
    rw [← view_isSome, seen, view_isSome]
    exact usable.there pathId member
  case opened =>
    show ∀ pathId ∈ after.sparePathIds, pathId ∉ after.closedPathId
    rw [books.spare, books.closed]
    exact usable.opened
  case once =>
    show after.sparePathIds.Nodup
    rw [books.spare]
    exact usable.once
  case unused =>
    show ∀ pathId ∈ after.sparePathIds, pathId ∉ self.consumed
    rw [books.spare]
    exact usable.unused

theorem Usable.quiet (usable : self.Usable) {after : ConnectionIdentifiers} (quiet : Quiet self.ids after) :
    Usable ⟨after, self.consumed⟩ :=
  usable.same quiet.books fun pathId => by rw [quiet.view]

/-- What changes the identifiers of a path leaves the paths that are offered usable. -/
theorem Usable.change (usable : self.Usable) {after : ConnectionIdentifiers} {view old : SourceView}
    (at_ : self.ids.view pathId = some old) (own : after.view pathId = some view)
    (elsewhere : Elsewhere self.ids after pathId) (books : SameBooks self.ids after) :
    Usable ⟨after, self.consumed⟩ := by
  apply usable.same books
  intro probe
  -- The path that changed exists before and after.
  by_cases hit : probe = pathId
  · rw [hit, own, at_]
    rfl
  · rw [elsewhere probe hit]

/-- A new path can be used just when it was not taken before. -/
theorem Usable.created_iff (usable : self.Usable) {after : ConnectionIdentifiers} {view : SourceView}
    (created : Created self.ids after pathId view) : Usable ⟨after, self.consumed⟩ ↔ pathId ∉ self.consumed := by
  -- The new path is offered in front of the others.
  have listed : ∀ probe, probe ∈ after.sparePathIds ↔ probe = pathId ∨ probe ∈ self.ids.sparePathIds := by
    intro probe
    rw [created.spare]
    exact List.mem_cons
  constructor
  · exact fun held => held.unused pathId ((listed pathId).mpr (.inl rfl))
  · intro untaken
    constructor
    case there =>
      intro probe member
      show (after.getPcids probe).isSome = true
      rw [← view_isSome]
      rcases (listed probe).mp member with rfl | member
      · rw [created.own]
        rfl
      · by_cases hit : probe = pathId
        · rw [hit, created.own]
          rfl
        · rw [created.elsewhere probe hit, view_isSome]
          exact usable.there probe member
    case opened =>
      intro probe member
      show probe ∉ after.closedPathId
      rw [created.closed]
      rcases (listed probe).mp member with rfl | member
      · exact created.opened
      · exact usable.opened probe member
    case once =>
      show after.sparePathIds.Nodup
      rw [created.spare]
      refine List.nodup_cons.mpr ⟨fun member => ?_, usable.once⟩
      -- A path that is offered has its identifiers, and this one had none.
      have there := usable.there pathId member
      rw [← view_isSome, created.absent] at there
      cases there
    case unused =>
      intro probe member
      rcases (listed probe).mp member with rfl | member
      · exact untaken
      · exact usable.unused probe member

/-- The paths that are offered can be used after a removal just when it drops none of them. -/
theorem Usable.removes_iff (usable : self.Usable) {after : ConnectionIdentifiers}
    (removes : Removes self.ids after pathId) :
    Usable ⟨after, self.consumed⟩ ↔ (self.ids.Drops pathId → pathId ∉ self.ids.sparePathIds) := by
  constructor
  · intro held drops member
    have there : (after.getPcids pathId).isSome = true := held.there pathId (by rw [removes.spare]; exact member)
    rw [← view_isSome, removes.own, if_pos drops] at there
    cases there
  · intro spared
    -- A path that is offered and not dropped keeps its identifiers.
    have seen : ∀ probe ∈ self.ids.sparePathIds, after.view probe = self.ids.view probe := by
      intro probe member
      by_cases hit : probe = pathId
      · rw [hit, removes.own, if_neg fun drops => spared drops (hit ▸ member)]
      · exact removes.elsewhere probe hit
    have there : ∀ probe ∈ self.ids.sparePathIds, (after.view probe).isSome = true := by
      intro probe member
      rw [seen probe member, view_isSome]
      exact usable.there probe member
    constructor
    case there =>
      intro probe member
      rw [removes.spare] at member
      show (after.getPcids probe).isSome = true
      rw [← view_isSome]
      exact there probe member
    case opened =>
      intro probe member closed
      rw [removes.spare] at member
      rcases (removes.closed probe).mp closed with before | ⟨rfl, closed⟩
      · exact usable.opened probe member before
      · -- A path that is closed now has no identifiers.
        rcases removes.gone closed with before | none_
        · exact usable.opened probe member before
        · have there := there probe member
          rw [none_] at there
          cases there
    case once =>
      show after.sparePathIds.Nodup
      rw [removes.spare]
      exact usable.once
    case unused =>
      intro probe member
      rw [removes.spare] at member
      exact usable.unused probe member

/-- Taking the least path leaves the others usable. -/
theorem Usable.consume (usable : self.Usable) : (self.next search .consumeLowestSparePathId).Usable := by
  show Usable ⟨self.ids.consumeLowestSparePathId, self.ids.lowestSparePathId.toList ++ self.consumed⟩
  unfold consumeLowestSparePathId
  cases offered : self.ids.lowestSparePathId with
  | none => exact ⟨usable.there, usable.opened, usable.once, usable.unused⟩
  | some least =>
    constructor
    case there => exact fun probe member => usable.there probe (List.mem_of_mem_erase member)
    case opened => exact fun probe member => usable.opened probe (List.mem_of_mem_erase member)
    case once => exact usable.once.erase least
    -- The least path occurs once, so it is gone after it was taken.
    case unused =>
      intro probe member taken
      rcases List.mem_cons.mp taken with rfl | taken
      · exact usable.once.not_mem_erase member
      · exact usable.unused probe (List.mem_of_mem_erase member) taken

/-- What is offered stays usable with a new identifier for the peer just when its path was not taken. -/
theorem Usable.newScid_iff (usable : self.Usable) (cid : ConnectionId) (resetToken : Option Nat) (advertise : Bool)
    (networkPath : Option FourTuple) (retireIfNeeded : Bool) :
    Usable ⟨(self.ids.newScid pathId cid resetToken advertise networkPath retireIfNeeded).2, self.consumed⟩ ↔
      self.Sound (.newScid pathId cid resetToken advertise networkPath retireIfNeeded) := by
  have outcome := newScid_cases self.ids pathId cid resetToken advertise networkPath retireIfNeeded
  have decides := fun absent => @newScid_isOk_iff self.ids pathId absent cid resetToken advertise networkPath
    retireIfNeeded
  -- On a path that exists no path is created.
  have exists_ : ∀ view, self.ids.view pathId = some view →
      self.Sound (.newScid pathId cid resetToken advertise networkPath retireIfNeeded) := by
    intro view at_ _ _ opens
    rw [ConnectionIdentifiers.view, opens.1] at at_
    cases at_
  generalize self.ids.newScid pathId cid resetToken advertise networkPath retireIfNeeded = result at outcome decides
  obtain ⟨result, after⟩ := result
  dsimp only at outcome decides ⊢
  cases outcome with
  | failed error quiet =>
    refine iff_of_true (usable.quiet quiet) fun long token opens => ?_
    have none_ := (decides opens.1).mpr ⟨long, token, opens⟩
    cases none_
  | known at_ init found same quiet => exact iff_of_true (usable.quiet quiet) (exists_ _ at_)
  | first at_ none_ token own elsewhere books queue =>
    exact iff_of_true (usable.change at_ own elsewhere books) (exists_ _ at_)
  | next at_ init fresh token own elsewhere books queue =>
    exact iff_of_true (usable.change at_ own elsewhere books) (exists_ _ at_)
  -- A path is created just when it may be opened, and can be used unless it was taken.
  | created token created queue =>
    obtain ⟨long, token, opens⟩ := (decides (view_eq_none.mp created.absent)).mp rfl
    rw [usable.created_iff created]
    exact ⟨fun untaken _ _ _ => untaken, fun sound => sound long token opens⟩

/-- What is offered stays usable just when the operation is sound. -/
theorem Usable.next_iff (usable : self.Usable) : (self.next search event).Usable ↔ self.Sound event := by
  cases event with
  | newScid pathId cid resetToken advertise networkPath retireIfNeeded =>
    exact usable.newScid_iff cid resetToken advertise networkPath retireIfNeeded
  -- The peer may create a path as well, which is offered then.
  | newDcid pathId cid seq resetToken retirePriorTo =>
    rcases newDcid_creates search self.ids pathId cid seq resetToken retirePriorTo with
      ⟨long, opens, view, created⟩ | ⟨never, quiet⟩
    · refine (usable.created_iff created).trans ?_
      exact ⟨fun untaken _ _ => untaken, fun sound => sound long opens⟩
    · exact iff_of_true (usable.quiet quiet) fun long opens => absurd ⟨long, opens⟩ never
  | retireScid pathId seq pktDcid =>
    refine iff_of_true ?_ trivial
    by_cases retires : self.ids.RetiresScid pathId seq
    · obtain ⟨old, e, at_, held, own, elsewhere, books, -⟩ := retireScid_drops retires pktDcid
      exact usable.change at_ own elsewhere books
    · exact usable.quiet (retireScid_quiet retires pktDcid)
  | setInitialDcid | retireDcid | markRetireDcidSeq | setSourceConnIdLimit | setLocalMaxPathId | setRemoteMaxPathId
  | closingPathId => exact iff_of_true (usable.quiet (step_quiet search self.ids rfl)) trivial
  | consumeLowestSparePathId => exact iff_of_true usable.consume trivial
  | removePathId pathId => exact usable.removes_iff (removePathId_removes self.ids pathId)

/-- What is offered can be used in every state of a run just when each operation is sound where it happens. -/
theorem always_usable_iff (search : List Nat → Nat → Nat) (destinationConnIdLimit : Nat) (initialScid : ConnectionId)
    (networkPath : FourTuple) (resetToken : Option Nat) (events : List IdEvent) :
    (∀ done, done <+: events → (Runs.run (next search)
        (start destinationConnIdLimit initialScid networkPath resetToken) done).Usable) ↔
      Runs.Along (next search) Sound (start destinationConnIdLimit initialScid networkPath resetToken) events := by
  have step : ∀ (state : Spares) event, True → state.Usable → True →
      ((state.next search event).Usable ↔ state.Sound event) := fun _ _ _ usable _ => usable.next_iff
  have nothing : (start destinationConnIdLimit initialScid networkPath resetToken).Usable := by
    have none_ :
        ∀ pathId, pathId ∉ (start destinationConnIdLimit initialScid networkPath resetToken).ids.sparePathIds :=
      fun _ => List.not_mem_nil
    exact ⟨fun pathId member => absurd member (none_ pathId), fun pathId member => absurd member (none_ pathId),
      List.nodup_nil, fun pathId member => absurd member (none_ pathId)⟩
  have keeps : ∀ (state : Spares) (event : IdEvent), True → True → True := fun _ _ _ _ => trivial
  exact Runs.always_iff_along keeps step events trivial nothing (Runs.along_true _ _ events)

/-- A path that is closed while it is offered is offered still. -/
theorem closed_offered :
    let search := fun seqs bound => (seqs.takeWhile (· < bound)).length
    let final := Runs.run (next search) (start 2 [1] (⟨[], 0⟩, ⟨[], 0⟩) none)
      [.setLocalMaxPathId 1 false, .setRemoteMaxPathId 1, .newScid 1 [2] (some 8) true none false,
        .newDcid 1 [7] 0 5 0, .removePathId 1]
    final.ids.lowestSparePathId = some 1 ∧ final.ids.closedPathId = [1] ∧ final.ids.getPcids 1 = none ∧
      ¬ final.Usable := by
  intro search final
  have facts : final.ids.lowestSparePathId = some 1 ∧ final.ids.closedPathId = [1] ∧
      (final.ids.getPcids 1).isNone = true := by decide
  obtain ⟨offered, closed, none_⟩ := facts
  refine ⟨offered, closed, by simpa using none_, fun usable => ?_⟩
  have opened := (usable.lowest offered).2.1
  rw [closed] at opened
  exact opened List.mem_cons_self

end Spares

end ConnectionIdentifiers

end Flexicast
