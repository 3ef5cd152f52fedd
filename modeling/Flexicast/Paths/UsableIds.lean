import Flexicast.Paths.Steps

/-! Identifiers for the peer that it was not asked to retire, and the calls that leave none of them. -/

namespace Flexicast

namespace PathConnectionIdentifiers

/-- Records the addresses that an identifier for the peer is in use for. -/
def linkScidToNetworkPath (self : PathConnectionIdentifiers) (scidSeq : Nat) (networkPath : FourTuple) :
    Except PathError Unit × PathConnectionIdentifiers :=
  match self.scids.get scidSeq with
  | none => (.error .invalidState, self)
  | some e => (.ok (), { self with scids := self.scids.replace { e with networkPath := some networkPath } })

/-- An operation on the connection identifiers of a path. -/
inductive PathIdEvent where
  /-- The application provides an identifier for the peer. -/
  | newScid (cid : ConnectionId) (resetToken : Option Nat) (networkPath : Option FourTuple) (retireIfNeeded : Bool)
  | retireScid (seq : Nat) (pktDcid : ConnectionId)
  /-- An identifier for the peer comes into use. -/
  | linkScidToNetworkPath (scidSeq : Nat) (networkPath : FourTuple)
  /-- The peer allows more identifiers. -/
  | setSourceConnIdLimit (v : Nat)
  /-- The first identifier of the peer is known. -/
  | setInitialDcid (cid : ConnectionId) (seq : Nat) (resetToken : Option Nat) (networkPath : Option FourTuple)
  /-- The peer provides an identifier. -/
  | newDcid (cid : ConnectionId) (seq resetToken retirePriorTo : Nat)
  /-- An identifier of the peer is retired. -/
  | retireDcid (seq : Nat)
  /-- A retired identifier is to be told to the peer, or was told. -/
  | markRetireDcidSeq (dcidSeq : Nat) (retire : Bool)
  /-- The path is being closed. -/
  | closing

/-- One operation, with what it leaves when it fails. -/
def step (search : List Nat → Nat → Nat) (self : PathConnectionIdentifiers) : PathIdEvent → PathConnectionIdentifiers
  | .newScid cid resetToken networkPath retireIfNeeded => (self.newScid cid resetToken networkPath retireIfNeeded).2
  | .retireScid seq pktDcid => (self.retireScid seq pktDcid).2
  | .linkScidToNetworkPath scidSeq networkPath => (self.linkScidToNetworkPath scidSeq networkPath).2
  | .setSourceConnIdLimit v => self.setSourceConnIdLimit v
  | .setInitialDcid cid seq resetToken networkPath => self.setInitialDcid cid seq resetToken networkPath
  | .newDcid cid seq resetToken retirePriorTo => (self.newDcid search cid seq resetToken retirePriorTo).2.2
  | .retireDcid seq => (self.retireDcid seq).2
  | .markRetireDcidSeq dcidSeq retire => (self.markRetireDcidSeq dcidSeq retire).2
  | .closing => { self with closing := true }

/-- The peer was not asked to retire all of its identifiers. -/
def Usable (self : PathConnectionIdentifiers) : Prop := ∃ e ∈ self.scids.inner, self.retirePriorTo ≤ e.seq

instance (self : PathConnectionIdentifiers) : Decidable self.Usable :=
  inferInstanceAs (Decidable (∃ e ∈ self.scids.inner, _))

/-- A call that adds no identifier changes nothing, and a retirement does not fail for lack of a usable one. -/
def Clean (self : PathConnectionIdentifiers) : PathIdEvent → Prop
  | .newScid cid resetToken networkPath retireIfNeeded =>
    (∀ seq, (self.newScid cid resetToken networkPath retireIfNeeded).1 ≠ .ok (true, seq)) →
      (self.newScid cid resetToken networkPath retireIfNeeded).2 = self
  | .retireScid seq pktDcid =>
    ∀ e scids, seq < self.nextScidSeq → self.scids.remove seq self.closing = .ok (some e, scids) → e.cid ≠ pktDcid →
      (self.retireScid seq pktDcid).1 = .ok (some e)
  | _ => True

/-- Room is made only for an identifier that is added, and one that is removed leaves a usable one. -/
def Fits (self : PathConnectionIdentifiers) : PathIdEvent → Prop
  | .newScid cid resetToken _ retireIfNeeded =>
    self.initializedSourceConnectionId = true → self.sourceConnIdLimit ≤ self.scids.len → retireIfNeeded = true →
      resetToken.isSome = true ∧ (∀ e ∈ self.scids.inner, e.cid ≠ cid) ∧ self.scids.len < self.scids.capacity
  | .retireScid seq _ => self.Retires seq → ∃ e ∈ self.scids.inner, e.seq ≠ seq ∧ self.retirePriorTo ≤ e.seq
  | _ => True

variable {self roomy : PathConnectionIdentifiers} {cid : ConnectionId} {resetToken : Option Nat}
  {networkPath : Option FourTuple} {retireIfNeeded : Bool} {seq : Nat} {pktDcid : ConnectionId}

/-- What adding an identifier returns, and the whole path that it leaves. -/
inductive Adding (self : PathConnectionIdentifiers) (cid : ConnectionId) (resetToken : Option Nat)
    (networkPath : Option FourTuple) (retireIfNeeded : Bool) :
    Except PathError (Bool × Nat) × PathConnectionIdentifiers → Prop where
  /-- The path gets its first identifier. -/
  | first (none_ : self.initializedSourceConnectionId = false) :
      Adding self cid resetToken networkPath retireIfNeeded
        (.ok (true, 0), self.setInitialScid cid resetToken networkPath)
  /-- No room is made. -/
  | full {error : PathError} (some_ : self.initializedSourceConnectionId = true)
      (made : self.makeRoom retireIfNeeded = .error error) :
      Adding self cid resetToken networkPath retireIfNeeded (.error error, self)
  /-- Nothing is added to the room. -/
  | spared {roomy : PathConnectionIdentifiers} {result : Except PathError (Bool × Nat)}
      (some_ : self.initializedSourceConnectionId = true) (made : self.makeRoom retireIfNeeded = .ok roomy)
      (adds : ∀ seq, result ≠ .ok (true, seq))
      (why : (resetToken.isSome = false ∧ self.nextScidSeq ≠ 0) ∨ (∃ e ∈ self.scids.inner, e.cid = cid) ∨
        self.scids.capacity ≤ self.scids.len) :
      Adding self cid resetToken networkPath retireIfNeeded (result, roomy)
  | added {roomy : PathConnectionIdentifiers} {scids : BoundedNonEmptyVecDeque ConnectionIdEntry}
      (some_ : self.initializedSourceConnectionId = true) (made : self.makeRoom retireIfNeeded = .ok roomy)
      (token : resetToken.isSome = true ∨ self.nextScidSeq = 0) (fresh : ∀ e ∈ self.scids.inner, e.cid ≠ cid)
      (inserted : self.scids.insert ⟨cid, self.nextScidSeq, resetToken, networkPath⟩ = .ok scids) :
      Adding self cid resetToken networkPath retireIfNeeded
        (.ok (true, self.nextScidSeq), { roomy with scids := scids, nextScidSeq := self.nextScidSeq + 1 })

/-- Room is there, or is made by asking the peer to retire its lowest usable identifier. -/
theorem makeRoom_ok (made : self.makeRoom retireIfNeeded = .ok roomy) :
    (roomy = self ∧ self.scids.len < self.sourceConnIdLimit) ∨
      (self.sourceConnIdLimit ≤ self.scids.len ∧ retireIfNeeded = true ∧
        ∃ e ∈ self.scids.inner, self.retirePriorTo ≤ e.seq ∧ roomy = { self with retirePriorTo := e.seq + 1 }) := by
  unfold makeRoom at made
  split at made
  · rename_i full
    split at made
    · rename_i asked
      cases lowest : self.lowestUsableScidSeq with
      | error error =>
        rw [lowest] at made
        cases made
      | ok least =>
        rw [lowest] at made
        cases made
        obtain ⟨e, member, above, rfl⟩ := lowestUsableScidSeq_ok lowest
        exact .inr ⟨full, asked, e, member, above, rfl⟩
    · cases made
  · rename_i room
    cases made
    exact .inl ⟨rfl, Nat.not_le.mp room⟩

/-- Adding an identifier has one of these outcomes. -/
theorem newScid_adding (self : PathConnectionIdentifiers) (cid : ConnectionId) (resetToken : Option Nat)
    (networkPath : Option FourTuple) (retireIfNeeded : Bool) :
    Adding self cid resetToken networkPath retireIfNeeded
      (self.newScid cid resetToken networkPath retireIfNeeded) := by
  -- The cases are the exits of the source, in their order.
  unfold newScid
  split
  · rename_i none_
    exact .first none_
  rename_i some_
  have some_ : self.initializedSourceConnectionId = true := by simpa using some_
  split
  · rename_i error made
    exact .full some_ made
  rename_i roomy made
  -- Room is made without a change of the identifiers and of the next number.
  obtain ⟨-, view, scids⟩ := makeRoom_same made
  have next : roomy.nextScidSeq = self.nextScidSeq := congrArg SourceView.next view
  rw [next, scids]
  dsimp only
  split
  · rename_i token
    -- Only the identifier with number 0 may come without a reset token.
    refine .spared some_ made (fun _ added => by cases added) (.inl ?_)
    simpa using token
  rename_i token
  split
  · rename_i e listed
    -- A known identifier is reported, or refused if its token is another one.
    have member := List.mem_of_find?_eq_some listed
    have same : e.cid = cid := by simpa using List.find?_some listed
    split
    · exact .spared some_ made (fun _ added => by cases added) (.inr (.inl ⟨e, member, same⟩))
    · exact .spared some_ made (fun _ added => by cases added) (.inr (.inl ⟨e, member, same⟩))
  · rename_i absent
    have fresh : ∀ e ∈ self.scids.inner, e.cid ≠ cid := by
      intro e member same
      have other := List.find?_eq_none.mp absent e member
      simp [same] at other
    cases inserted : self.scids.insert ⟨cid, self.nextScidSeq, resetToken, networkPath⟩ with
    | error error =>
      refine .spared some_ made (fun _ added => by cases added) (.inr (.inr ?_))
      exact BoundedNonEmptyVecDeque.full_of_insert inserted
    | ok entries =>
      refine .added some_ made ?_ fresh inserted
      cases resetToken with
      | some token => exact .inl rfl
      | none => exact .inr (by simpa using token)

/-- What retiring an identifier returns, and the whole path that it leaves. -/
inductive Retiring (self : PathConnectionIdentifiers) (seq : Nat) (pktDcid : ConnectionId) :
    Except PathError (Option ConnectionIdEntry) × PathConnectionIdentifiers → Prop where
  /-- No identifier is removed. -/
  | kept {result : Except PathError (Option ConnectionIdEntry)} (stays : ¬ self.Retires seq) :
      Retiring self seq pktDcid (result, self)
  /-- The identifier that the packet used is removed. -/
  | current {e : ConnectionIdEntry} {scids : BoundedNonEmptyVecDeque ConnectionIdEntry} (retires : self.Retires seq)
      (removed : self.scids.remove seq self.closing = .ok (some e, scids)) (same : e.cid = pktDcid) :
      Retiring self seq pktDcid (.error .invalidState, { self with scids := scids })
  /-- The last usable identifier is removed. -/
  | stranded {e : ConnectionIdEntry} {scids : BoundedNonEmptyVecDeque ConnectionIdEntry} {error : PathError}
      (retires : self.Retires seq) (removed : self.scids.remove seq self.closing = .ok (some e, scids))
      (apart : e.cid ≠ pktDcid) (none_ : ∀ other ∈ scids.inner, other.seq < self.retirePriorTo) :
      Retiring self seq pktDcid (.error error, { self with scids := scids })
  /-- An identifier is removed and a usable one is left. -/
  | done {e least : ConnectionIdEntry} {scids : BoundedNonEmptyVecDeque ConnectionIdEntry}
      (retires : self.Retires seq) (removed : self.scids.remove seq self.closing = .ok (some e, scids))
      (apart : e.cid ≠ pktDcid) (member : least ∈ scids.inner) (above : self.retirePriorTo ≤ least.seq) :
      Retiring self seq pktDcid (.ok (some e), { self with scids := scids, retirePriorTo := least.seq })

/-- Retiring an identifier has one of these outcomes. -/
theorem retireScid_retiring (self : PathConnectionIdentifiers) (seq : Nat) (pktDcid : ConnectionId) :
    Retiring self seq pktDcid (self.retireScid seq pktDcid) := by
  unfold retireScid
  split
  · rename_i above
    exact .kept fun retires => absurd retires.1 (Nat.not_lt.mpr above)
  rename_i below
  split
  · -- Only the last identifier is not removed.
    rename_i error removed
    refine .kept fun retires => ?_
    unfold BoundedNonEmptyVecDeque.remove at removed
    rw [if_neg (Nat.not_le.mpr retires.2.1)] at removed
    cases removed
  -- The last identifier stays, and so do those that are not listed.
  · rename_i scids removed
    obtain rfl := BoundedNonEmptyVecDeque.remove_none_same removed
    refine .kept fun retires => ?_
    obtain ⟨-, short | absent⟩ := remove_none removed
    · exact absurd retires.2.1 (Nat.not_lt.mpr short)
    · have there := retires.2.2
      rw [absent] at there
      cases there
  · rename_i e scids removed
    obtain ⟨long, found, -⟩ := remove_scid removed
    have retires : self.Retires seq := ⟨Nat.not_le.mp below, long, by rw [found]; rfl⟩
    dsimp only
    split
    · rename_i same
      exact .current retires removed same
    rename_i apart
    split
    · rename_i error lowest
      exact .stranded retires removed apart (lowestUsableScidSeq_error lowest)
    · rename_i least lowest
      obtain ⟨e, member, above, rfl⟩ := lowestUsableScidSeq_ok lowest
      exact .done retires removed apart member above

/-- What every run keeps: sequence numbers below the next one, and the first bound as long as there is no second. -/
structure Counted (pcid : PathConnectionIdentifiers) : Prop where
  limit : 2 ≤ pcid.sourceConnIdLimit
  /-- Without its first identifier the path counted none. -/
  fresh : pcid.initializedSourceConnectionId = false → pcid.nextScidSeq = 0
  /-- A path that counted none has one entry at most, and no bound. -/
  first : pcid.nextScidSeq = 0 → pcid.retirePriorTo = 0 ∧ pcid.scids.len ≤ 1
  /-- Sequence numbers were counted, but for the first one. -/
  below : ∀ e ∈ pcid.scids.inner, e.seq < pcid.nextScidSeq ∨ e.seq = 0

/-- A path starts with one entry, counted or not. -/
theorem counted_new (pathId destinationConnIdLimit sourceConnIdLimit : Nat)
    (initialScid initialDcid : Option ConnectionId) (networkPath : Option FourTuple) (resetToken : Option Nat) :
    (newWithPathId pathId destinationConnIdLimit sourceConnIdLimit initialScid initialDcid networkPath
      resetToken).Counted := by
  constructor
  case limit => exact Nat.le_max_right _ _
  case fresh =>
    intro none_
    -- Only a path that is given an identifier counts it.
    cases initialScid with
    | none => rfl
    | some cid => cases none_
  case first => exact fun _ => ⟨rfl, Nat.le_refl 1⟩
  case below =>
    intro e member
    rw [List.mem_singleton.mp member]
    exact .inr rfl

theorem usable_new (pathId destinationConnIdLimit sourceConnIdLimit : Nat)
    (initialScid initialDcid : Option ConnectionId) (networkPath : Option FourTuple) (resetToken : Option Nat) :
    (newWithPathId pathId destinationConnIdLimit sourceConnIdLimit initialScid initialDcid networkPath
      resetToken).Usable :=
  ⟨_, List.mem_singleton_self _, Nat.zero_le _⟩

/-- A path with as many identifiers as the peer allows has counted all of them. -/
theorem Counted.full (counted : self.Counted) (full : self.sourceConnIdLimit ≤ self.scids.len) :
    0 < self.nextScidSeq ∧ ∀ e ∈ self.scids.inner, e.seq < self.nextScidSeq := by
  have limit := counted.limit
  have positive : 0 < self.nextScidSeq := by
    -- A path that counted none would have one identifier, which is fewer than any limit.
    by_contra zero
    obtain ⟨-, short⟩ := counted.first (by omega)
    omega
  refine ⟨positive, fun e member => ?_⟩
  rcases counted.below e member with counted | zero
  · exact counted
  · omega

/-- The counts are about the sequence numbers only. -/
theorem Counted.of_seqs (counted : self.Counted)
    (seqs : roomy.scids.inner.map ConnectionIdEntry.seq = self.scids.inner.map ConnectionIdEntry.seq)
    (next : roomy.nextScidSeq = self.nextScidSeq) (bound : roomy.retirePriorTo = self.retirePriorTo)
    (limit : roomy.sourceConnIdLimit = self.sourceConnIdLimit)
    (initialized : roomy.initializedSourceConnectionId = self.initializedSourceConnectionId) : roomy.Counted := by
  have len : roomy.scids.len = self.scids.len := by
    unfold BoundedNonEmptyVecDeque.len
    rw [← List.length_map ConnectionIdEntry.seq, seqs, List.length_map]
  constructor
  case limit => rw [limit]; exact counted.limit
  case fresh => rw [initialized, next]; exact counted.fresh
  case first => rw [next, bound, len]; exact counted.first
  case below =>
    intro e member
    have listed : e.seq ∈ self.scids.inner.map ConnectionIdEntry.seq := by
      rw [← seqs]
      exact List.mem_map_of_mem member
    obtain ⟨old, held, same⟩ := List.mem_map.mp listed
    rw [← same, next]
    exact counted.below old held

theorem usable_of_seqs (seqs : roomy.scids.inner.map ConnectionIdEntry.seq = self.scids.inner.map ConnectionIdEntry.seq)
    (bound : roomy.retirePriorTo = self.retirePriorTo) : roomy.Usable ↔ self.Usable := by
  have listed : ∀ pcid : PathConnectionIdentifiers,
      pcid.Usable ↔ ∃ seq ∈ pcid.scids.inner.map ConnectionIdEntry.seq, pcid.retirePriorTo ≤ seq := by
    intro pcid
    simp [Usable]
  rw [listed, listed, seqs, bound]

theorem Counted.of_side (counted : self.Counted) (same : roomy.sourceSide = self.sourceSide) :
    roomy.Counted ∧ (roomy.Usable ↔ self.Usable) := by
  obtain ⟨-, scids, next, bound, limit, initialized⟩ := SourceSide.mk.inj same
  have seqs := congrArg (fun scids => scids.inner.map ConnectionIdEntry.seq) scids
  exact ⟨counted.of_seqs seqs next bound limit initialized, usable_of_seqs seqs bound⟩

theorem Counted.makeRoom (counted : self.Counted) (made : self.makeRoom retireIfNeeded = .ok roomy) :
    roomy.Counted := by
  rcases makeRoom_ok made with ⟨rfl, -⟩ | ⟨full, -, e, -, -, rfl⟩
  · exact counted
  -- A bound is only set on a full path, which has counted identifiers.
  · obtain ⟨positive, -⟩ := counted.full full
    refine ⟨counted.limit, counted.fresh, fun zero => ?_, counted.below⟩
    have zero : self.nextScidSeq = 0 := zero
    omega

/-- The counts stay when an identifier is added, or is not. -/
theorem Counted.newScid (counted : self.Counted) (cid : ConnectionId) (resetToken : Option Nat)
    (networkPath : Option FourTuple) (retireIfNeeded : Bool) :
    (self.newScid cid resetToken networkPath retireIfNeeded).2.Counted := by
  have adding := newScid_adding self cid resetToken networkPath retireIfNeeded
  generalize self.newScid cid resetToken networkPath retireIfNeeded = done at adding
  cases adding with
  | first none_ =>
    have zero := counted.fresh none_
    refine ⟨counted.limit, fun some_ => (by cases some_), fun _ => ⟨(counted.first zero).1, Nat.le_refl 1⟩, ?_⟩
    intro e member
    rw [List.mem_singleton.mp member]
    exact .inr rfl
  | full some_ made => exact counted
  | spared some_ made adds why => exact counted.makeRoom made
  | added some_ made token fresh inserted =>
    -- The number of the new identifier is counted by the addition.
    have roomy := counted.makeRoom made
    have initialized := congrArg SourceView.initialized (makeRoom_same made).2.1
    refine ⟨roomy.limit, fun none_ => ?_, fun zero => (by cases zero), fun e member => .inl ?_⟩
    · have none_ : self.initializedSourceConnectionId = false := initialized.symm.trans none_
      rw [some_] at none_
      cases none_
    · show e.seq < self.nextScidSeq + 1
      rcases (BoundedNonEmptyVecDeque.mem_insert inserted).mp member with rfl | ⟨old, -⟩
      · exact Nat.lt_succ_self _
      · rcases counted.below e old with counted | zero <;> omega

/-- The counts stay when an identifier is removed, or is not. -/
theorem Counted.retireScid (counted : self.Counted) (seq : Nat) (pktDcid : ConnectionId) :
    (self.retireScid seq pktDcid).2.Counted := by
  have retiring := retireScid_retiring self seq pktDcid
  -- Only counted identifiers are removed, and what is left was there before.
  have removal : ∀ {e scids} bound, self.Retires seq → self.scids.remove seq self.closing = .ok (some e, scids) →
      Counted { self with scids := scids, retirePriorTo := bound } := by
    intro e scids bound retires removed
    refine ⟨counted.limit, counted.fresh, fun zero => ?_, fun other member => ?_⟩
    · have zero : self.nextScidSeq = 0 := zero
      have positive := retires.1
      omega
    · exact counted.below other ((BoundedNonEmptyVecDeque.mem_remove removed).mp member).1
  generalize self.retireScid seq pktDcid = done at retiring
  cases retiring with
  | kept stays => exact counted
  | current retires removed same => exact removal _ retires removed
  | stranded retires removed apart none_ => exact removal _ retires removed
  | done retires removed apart member above => exact removal _ retires removed

/-- Recording addresses has no part in either. -/
theorem Counted.link (counted : self.Counted) (scidSeq : Nat) (networkPath : FourTuple) :
    (self.linkScidToNetworkPath scidSeq networkPath).2.Counted ∧
      ((self.linkScidToNetworkPath scidSeq networkPath).2.Usable ↔ self.Usable) := by
  unfold linkScidToNetworkPath
  split
  · exact ⟨counted, Iff.rfl⟩
  · have seqs := BoundedNonEmptyVecDeque.ids_replaced self.scids.inner
    exact ⟨counted.of_seqs (seqs _) rfl rfl rfl rfl, usable_of_seqs (seqs _) rfl⟩

/-- More identifiers that the peer allows have no part in either. -/
theorem Counted.setLimit (counted : self.Counted) (v : Nat) :
    (self.setSourceConnIdLimit v).Counted ∧ ((self.setSourceConnIdLimit v).Usable ↔ self.Usable) := by
  unfold setSourceConnIdLimit
  dsimp only
  split
  · rename_i two
    have same : (self.scids.resize (2 * min v (usizeMax / 2) - 1)).inner = self.scids.inner := by
      unfold BoundedNonEmptyVecDeque.resize
      split <;> rfl
    refine ⟨⟨two, counted.fresh, ?_, ?_⟩, usable_of_seqs (congrArg (List.map ConnectionIdEntry.seq) same) rfl⟩
    · intro zero
      rw [BoundedNonEmptyVecDeque.len_resize]
      exact counted.first zero
    · rw [same]
      exact counted.below
  · exact ⟨counted, Iff.rfl⟩

/-- Every operation keeps the counts. -/
theorem Counted.step (counted : self.Counted) (search : List Nat → Nat → Nat) (event : PathIdEvent) :
    (self.step search event).Counted := by
  cases event with
  | newScid cid resetToken networkPath retireIfNeeded =>
    exact counted.newScid cid resetToken networkPath retireIfNeeded
  | retireScid seq pktDcid => exact counted.retireScid seq pktDcid
  | linkScidToNetworkPath scidSeq networkPath => exact (counted.link scidSeq networkPath).1
  | setSourceConnIdLimit v => exact (counted.setLimit v).1
  | setInitialDcid cid seq resetToken networkPath =>
    exact (@of_side _ (self.setInitialDcid cid seq resetToken networkPath) counted rfl).1
  | newDcid cid seq resetToken retirePriorTo =>
    exact (counted.of_side (newDcid_side search self cid seq resetToken retirePriorTo)).1
  | retireDcid seq => exact (counted.of_side (retireDcid_side self seq)).1
  | markRetireDcidSeq dcidSeq retire => exact (counted.of_side (markRetireDcidSeq_side self dcidSeq retire)).1
  | closing => exact (@of_side _ { self with closing := true } counted rfl).1

theorem makeRoom_error {error : PathError} (usable : self.Usable) (made : self.makeRoom retireIfNeeded = .error error) :
    retireIfNeeded = false := by
  unfold makeRoom at made
  split at made
  · split at made
    · cases lowest : self.lowestUsableScidSeq with
      | error error =>
        -- A usable identifier is one that the search finds.
        obtain ⟨e, member, above⟩ := usable
        have low := lowestUsableScidSeq_error lowest e member
        omega
      | ok least =>
        rw [lowest] at made
        cases made
    · rename_i asked
      simpa using asked
  · cases made

/-- An identifier that is added leaves a usable one, and one that is not changes nothing, unless room was made. -/
theorem newScid_clean_iff (counted : self.Counted) (usable : self.Usable) (cid : ConnectionId)
    (resetToken : Option Nat) (networkPath : Option FourTuple) (retireIfNeeded : Bool) :
    (self.newScid cid resetToken networkPath retireIfNeeded).2.Usable ∧
        self.Clean (.newScid cid resetToken networkPath retireIfNeeded) ↔
      self.Fits (.newScid cid resetToken networkPath retireIfNeeded) := by
  have adding := newScid_adding self cid resetToken networkPath retireIfNeeded
  unfold Clean Fits
  dsimp only
  generalize self.newScid cid resetToken networkPath retireIfNeeded = done at adding
  cases adding with
  | first none_ =>
    -- The first identifier has number 0, and nothing was asked back before it.
    have bound := (counted.first (counted.fresh none_)).1
    refine iff_of_true ⟨⟨⟨cid, 0, resetToken, networkPath⟩, List.mem_singleton_self _, ?_⟩, ?_⟩ ?_
    · exact Nat.le_of_eq bound
    · exact fun adds => absurd rfl (adds 0)
    · intro some_
      rw [none_] at some_
      cases some_
  | full some_ made =>
    -- A usable identifier is there to make room with, so no room was asked for.
    refine iff_of_true ⟨usable, fun _ => rfl⟩ fun _ _ asked => ?_
    rw [makeRoom_error usable made] at asked
    cases asked
  | spared some_ made adds why =>
    rcases makeRoom_ok made with ⟨rfl, room⟩ | ⟨full, asked, e, member, above, rfl⟩
    · exact iff_of_true ⟨usable, fun _ => rfl⟩ fun _ full => absurd full (Nat.not_le.mpr room)
    · -- The peer is asked to retire an identifier although none is added.
      refine iff_of_false (fun both => ?_) fun fits => ?_
      · have same := congrArg PathConnectionIdentifiers.retirePriorTo (both.2 adds)
        have same : e.seq + 1 = self.retirePriorTo := same
        omega
      · obtain ⟨token, fresh, room⟩ := fits some_ full asked
        rcases why with ⟨missing, -⟩ | ⟨old, held, same⟩ | none_
        · rw [missing] at token
          cases token
        · exact fresh old held same
        · omega
  | @added roomy scids some_ made token fresh inserted =>
    have listed := @BoundedNonEmptyVecDeque.mem_insert _ _ _ _ _ inserted
    refine iff_of_true ⟨?_, fun adds => absurd rfl (adds _)⟩ ?_
    · rcases makeRoom_ok made with ⟨same, -⟩ | ⟨full, -, e, member, -, rfl⟩
      · -- The usable identifier stays, or the new one has its number.
        subst roomy
        obtain ⟨e, member, above⟩ := usable
        by_cases own : e.seq = self.nextScidSeq
        · exact ⟨_, listed.mpr (.inl rfl), Nat.le_trans above (Nat.le_of_eq own)⟩
        · exact ⟨e, listed.mpr (.inr ⟨member, own⟩), above⟩
      · -- The new identifier has the largest number.
        exact ⟨_, listed.mpr (.inl rfl), (counted.full full).2 e member⟩
    · intro _ full _
      obtain ⟨positive, below⟩ := counted.full full
      refine ⟨token.resolve_right (by omega), fresh, Nat.not_le.mp fun none_ => ?_⟩
      -- Nothing is replaced, so the insertion found room.
      have absent : self.scids.get self.nextScidSeq = none := by
        apply List.find?_eq_none.mpr
        intro e member same
        have same : e.seq = self.nextScidSeq := beq_iff_eq.mp same
        have low := below e member
        omega
      have absent : self.scids.get
          (Identifiable.id (⟨cid, self.nextScidSeq, resetToken, networkPath⟩ : ConnectionIdEntry)) = none := absent
      rw [BoundedNonEmptyVecDeque.insert_of_none absent, if_pos none_] at inserted
      cases inserted

/-- An identifier that is removed leaves a usable one, and is not refused for lack of it, or there was none. -/
theorem retireScid_clean_iff (usable : self.Usable) (seq : Nat) (pktDcid : ConnectionId) :
    (self.retireScid seq pktDcid).2.Usable ∧ self.Clean (.retireScid seq pktDcid) ↔
      self.Fits (.retireScid seq pktDcid) := by
  have retiring := retireScid_retiring self seq pktDcid
  unfold Clean Fits
  dsimp only
  generalize self.retireScid seq pktDcid = done at retiring
  -- What is usable after the removal was there before, under another number.
  have left : ∀ {e scids}, self.scids.remove seq self.closing = .ok (some e, scids) →
      ((∃ other ∈ scids.inner, self.retirePriorTo ≤ other.seq) ↔
        ∃ other ∈ self.scids.inner, other.seq ≠ seq ∧ self.retirePriorTo ≤ other.seq) := by
    intro e scids removed
    have listed : ∀ other, other ∈ scids.inner ↔ other ∈ self.scids.inner ∧ other.seq ≠ seq :=
      fun _ => BoundedNonEmptyVecDeque.mem_remove removed
    simp only [listed, and_assoc]
  cases retiring with
  | kept stays =>
    refine iff_of_true ⟨usable, fun e scids below removed => ?_⟩ fun retires => absurd retires stays
    obtain ⟨long, found, -⟩ := remove_scid removed
    exact absurd ⟨below, long, by rw [found]; rfl⟩ stays
  | current retires removed same =>
    constructor
    · rintro ⟨held, -⟩ _
      exact (left removed).mp held
    · intro fits
      refine ⟨(left removed).mpr (fits retires), fun other scids _ removed' apart => ?_⟩
      rw [removed] at removed'
      cases removed'
      exact absurd same apart
  | stranded retires removed apart none_ =>
    -- The identifier is gone although the call fails.
    have lacks : ¬ ∃ other ∈ self.scids.inner, other.seq ≠ seq ∧ self.retirePriorTo ≤ other.seq := by
      rw [← left removed]
      rintro ⟨other, member, above⟩
      exact absurd (none_ other member) (Nat.not_lt.mpr above)
    exact iff_of_false (fun both => lacks ((left removed).mp both.1)) fun fits => lacks (fits retires)
  | done retires removed apart member above =>
    refine iff_of_true ⟨⟨_, member, Nat.le_refl _⟩, fun other scids _ removed' _ => ?_⟩ fun _ => ?_
    · rw [removed] at removed'
      cases removed'
      rfl
    · exact (left removed).mp ⟨_, member, above⟩

theorem step_clean_iff (search : List Nat → Nat → Nat) (counted : self.Counted) (usable : self.Usable)
    (event : PathIdEvent) : (self.step search event).Usable ∧ self.Clean event ↔ self.Fits event := by
  -- Only the first two operations add identifiers for the peer, or take some away.
  cases event with
  | newScid cid resetToken networkPath retireIfNeeded =>
    exact newScid_clean_iff counted usable cid resetToken networkPath retireIfNeeded
  | retireScid seq pktDcid => exact retireScid_clean_iff usable seq pktDcid
  | linkScidToNetworkPath scidSeq networkPath =>
    exact iff_of_true ⟨(counted.link scidSeq networkPath).2.mpr usable, trivial⟩ trivial
  | setSourceConnIdLimit v => exact iff_of_true ⟨(counted.setLimit v).2.mpr usable, trivial⟩ trivial
  | newDcid cid seq resetToken retirePriorTo =>
    have same := newDcid_side search self cid seq resetToken retirePriorTo
    exact iff_of_true ⟨(counted.of_side same).2.mpr usable, trivial⟩ trivial
  | retireDcid seq => exact iff_of_true ⟨(counted.of_side (retireDcid_side self seq)).2.mpr usable, trivial⟩ trivial
  | markRetireDcidSeq dcidSeq retire =>
    have same := markRetireDcidSeq_side self dcidSeq retire
    exact iff_of_true ⟨(counted.of_side same).2.mpr usable, trivial⟩ trivial
  | setInitialDcid | closing => exact iff_of_true ⟨usable, trivial⟩ trivial

/-- A usable identifier is always left, and failures change nothing, just when room is made for what is added. -/
theorem always_clean_iff_fits (search : List Nat → Nat → Nat) (pathId destinationConnIdLimit sourceConnIdLimit : Nat)
    (initialScid initialDcid : Option ConnectionId) (networkPath : Option FourTuple) (resetToken : Option Nat)
    (events : List PathIdEvent) :
    let start := newWithPathId pathId destinationConnIdLimit sourceConnIdLimit initialScid initialDcid networkPath
      resetToken
    ((∀ done, done <+: events → (Runs.run (step search) start done).Usable) ∧
        Runs.Along (step search) Clean start events) ↔
      Runs.Along (step search) Fits start events :=
  @Runs.always_along_iff _ _ (step search) Clean Fits Counted Usable
    (fun _ event counted => counted.step search event)
    (fun _ event counted usable => step_clean_iff search counted usable event) events _
    (counted_new pathId destinationConnIdLimit sourceConnIdLimit initialScid initialDcid networkPath resetToken)
    (usable_new pathId destinationConnIdLimit sourceConnIdLimit initialScid initialDcid networkPath resetToken)

/-- Two calls that add nothing leave no usable identifier, and the retirement that the peer was asked for fails. -/
theorem known_id_makes_room :
    let search := fun seqs bound => (seqs.takeWhile (· < bound)).length
    let start := newWithPathId 0 2 2 (some [1]) none none none
    let full := Runs.run (step search) start [.newScid [2] (some 8) none false]
    let after := Runs.run (step search) full [.newScid [2] (some 8) none true, .newScid [2] (some 8) none true]
    (full.newScid [2] (some 8) none true).1 = .ok (false, 1) ∧
      (full.newScid [2] (some 8) none true).2.retirePriorTo = 1 ∧ full.retirePriorTo = 0 ∧
      ¬ full.Clean (.newScid [2] (some 8) none true) ∧ ¬ after.Usable ∧
      (after.newScid [3] (some 9) none true).1 = .error .invalidState ∧
      (after.retireScid 0 [2]).1 = .error .invalidState := by
  intro search start full after
  -- What is compared is the bound, which the first call raises.
  have facts : (full.newScid [2] (some 8) none true).1 = .ok (false, 1) ∧
      (full.newScid [2] (some 8) none true).2.retirePriorTo = 1 ∧ full.retirePriorTo = 0 ∧ ¬ after.Usable ∧
      (after.newScid [3] (some 9) none true).1 = .error .invalidState ∧
      (after.retireScid 0 [2]).1 = .error .invalidState := by
    decide
  obtain ⟨known, raised, before, unusable, refused, failed⟩ := facts
  refine ⟨known, raised, before, fun clean => ?_, unusable, refused, failed⟩
  have same := clean fun seq added => by
    rw [known] at added
    cases added
  rw [same, before] at raised
  cases raised

end PathConnectionIdentifiers

end Flexicast
