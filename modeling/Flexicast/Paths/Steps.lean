import Flexicast.Lib.Runs
import Flexicast.Paths.Identifiers

/-! What each operation on connection identifiers does to the identifiers for the peer and to the paths. -/

namespace Flexicast

/-- The identifiers for the peer on a path. -/
structure SourceView where
  /-- The identifier with a sequence number. -/
  get : Nat → Option ConnectionIdEntry
  next : Nat
  /-- Whether the first identifier is there. -/
  initialized : Bool

namespace SourceView

/-- One identifier, with the first sequence number. -/
def single (cid : ConnectionId) (resetToken : Option Nat) (networkPath : Option FourTuple) :
    Nat → Option ConnectionIdEntry :=
  fun seq => if seq = 0 then some ⟨cid, 0, resetToken, networkPath⟩ else none

theorem single_some {cid : ConnectionId} {resetToken : Option Nat} {networkPath : Option FourTuple} {seq : Nat}
    {e : ConnectionIdEntry} (held : single cid resetToken networkPath seq = some e) :
    seq = 0 ∧ e = ⟨cid, 0, resetToken, networkPath⟩ := by
  unfold single at held
  split at held
  · rename_i zero
    cases held
    exact ⟨zero, rfl⟩
  · cases held

/-- The identifiers with the one of the next sequence number. -/
def add (view : SourceView) (cid : ConnectionId) (resetToken : Option Nat) (networkPath : Option FourTuple) :
    SourceView where
  get := fun seq => if seq = view.next then some ⟨cid, view.next, resetToken, networkPath⟩ else view.get seq
  next := view.next + 1
  initialized := true

/-- The identifiers without the one of a sequence number. -/
def drop (view : SourceView) (gone : Nat) : SourceView :=
  { view with get := fun seq => if seq = gone then none else view.get seq }

/-- What adding an identifier for the peer returns, and what it leaves. -/
inductive NewScid (view : SourceView) (cid : ConnectionId) (resetToken : Option Nat) (networkPath : Option FourTuple) :
    Except PathError (Bool × Nat) → SourceView → Prop where
  /-- A failure leaves the identifiers. -/
  | failed (error : PathError) : NewScid view cid resetToken networkPath (.error error) view
  /-- The first identifier of the path has the first number. -/
  | first (none_ : view.initialized = false) : NewScid view cid resetToken networkPath (.ok (true, 0))
      { view with get := single cid resetToken networkPath, initialized := true }
  /-- An identifier that is there keeps its number. -/
  | known {seq : Nat} {e : ConnectionIdEntry} (some_ : view.initialized = true) (found : view.get seq = some e)
      (same : e.cid = cid) : NewScid view cid resetToken networkPath (.ok (false, seq)) view
  /-- A new identifier gets the next number. -/
  | next (some_ : view.initialized = true) (fresh : ∀ seq e, view.get seq = some e → e.cid ≠ cid)
      (token : resetToken.isSome = true ∨ view.next = 0) :
      NewScid view cid resetToken networkPath (.ok (true, view.next)) (view.add cid resetToken networkPath)

end SourceView

namespace PathConnectionIdentifiers

/-- The identifiers for the peer among those of a path. -/
def sourceView (pcid : PathConnectionIdentifiers) : SourceView :=
  ⟨pcid.scids.get, pcid.nextScidSeq, pcid.initializedSourceConnectionId⟩

variable {self after : PathConnectionIdentifiers}

variable {e : ConnectionIdEntry} {seq : Nat} {scids : BoundedNonEmptyVecDeque ConnectionIdEntry} {allowEmpty : Bool}

theorem scid_of_mem (member : e ∈ self.scids.inner) : self.scids.get e.seq = some e :=
  BoundedNonEmptyVecDeque.get_of_mem member

theorem get_single (capacity : Nat) (cid : ConnectionId) (resetToken : Option Nat) (networkPath : Option FourTuple) :
    (BoundedNonEmptyVecDeque.new capacity (⟨cid, 0, resetToken, networkPath⟩ : ConnectionIdEntry)).get =
      SourceView.single cid resetToken networkPath := by
  funext seq
  unfold BoundedNonEmptyVecDeque.new BoundedNonEmptyVecDeque.get SourceView.single
  by_cases zero : seq = 0
  · simp [zero, Identifiable.id]
  · have other : (0 == seq) = false := by simpa using fun same : 0 = seq => zero same.symm
    simp [Identifiable.id, zero, other]

theorem makeRoom_same {retireIfNeeded : Bool} (made : self.makeRoom retireIfNeeded = .ok after) :
    after.pathId = self.pathId ∧ after.sourceView = self.sourceView ∧ after.scids = self.scids := by
  unfold makeRoom at made
  split at made
  -- Room is made by raising the bound to advertise to the lowest usable number.
  · split at made
    · cases lowest : self.lowestUsableScidSeq with
      | error error =>
        rw [lowest] at made
        cases made
      | ok seq =>
        rw [lowest] at made
        cases made
        exact ⟨rfl, rfl, rfl⟩
    · cases made
  · cases made
    exact ⟨rfl, rfl, rfl⟩

/-- Adding an identifier for the peer has one of these outcomes. -/
theorem newScid_cases (self : PathConnectionIdentifiers) (cid : ConnectionId) (resetToken : Option Nat)
    (networkPath : Option FourTuple) (retireIfNeeded : Bool) :
    (self.newScid cid resetToken networkPath retireIfNeeded).2.pathId = self.pathId ∧
      SourceView.NewScid self.sourceView cid resetToken networkPath
        (self.newScid cid resetToken networkPath retireIfNeeded).1
        (self.newScid cid resetToken networkPath retireIfNeeded).2.sourceView := by
  unfold newScid
  split
  -- The first identifier takes number 0, and the counter stays where it is.
  · rename_i none
    have view : (self.setInitialScid cid resetToken networkPath).sourceView =
        { self.sourceView with get := SourceView.single cid resetToken networkPath, initialized := true } := by
      unfold sourceView setInitialScid
      simp only [SourceView.mk.injEq, and_self, and_true]
      exact get_single self.scids.capacity cid resetToken networkPath
    refine ⟨rfl, ?_⟩
    rw [view]
    exact .first none
  · rename_i some_
    have init : self.initializedSourceConnectionId = true := by simpa using some_
    split
    · exact ⟨rfl, .failed _⟩
    · rename_i roomy made
      obtain ⟨path, view, scids⟩ := makeRoom_same made
      have next : roomy.nextScidSeq = self.sourceView.next := by rw [← view]; rfl
      dsimp only
      split
      · exact ⟨path, by rw [view]; exact .failed _⟩
      rename_i token
      split
      · -- The identifier is there, with this token or with another one.
        rename_i e listed
        have member := List.mem_of_find?_eq_some listed
        have same := List.find?_some listed
        simp only [beq_iff_eq] at same
        split
        · refine ⟨path, ?_⟩
          rw [view]
          have found := scid_of_mem member
          rw [scids] at found
          exact .known init found same
        · exact ⟨path, by rw [view]; exact .failed _⟩
      -- An identifier that is new to the path is inserted under the next number.
      · rename_i absent
        cases inserted : roomy.scids.insert ⟨cid, roomy.nextScidSeq, resetToken, networkPath⟩ with
        | error error => exact ⟨path, by rw [view]; exact .failed _⟩
        | ok entries =>
          refine ⟨path, ?_⟩
          have added : sourceView { roomy with scids := entries, nextScidSeq := roomy.nextScidSeq + 1 } =
              self.sourceView.add cid resetToken networkPath := by
            have initialized : roomy.initializedSourceConnectionId = true := by
              have same : roomy.sourceView.initialized = self.sourceView.initialized := by rw [view]
              exact same.trans init
            have get := BoundedNonEmptyVecDeque.get_insert inserted
            unfold sourceView SourceView.add
            simp only [SourceView.mk.injEq]
            refine ⟨?_, congrArg (· + 1) next, initialized⟩
            funext seq
            have next : roomy.nextScidSeq = self.nextScidSeq := next
            rw [get seq, ← next, ← scids]
            rfl
          rw [added, next]
          refine .next init ?_ ?_
          · intro seq e found same
            have member : e ∈ roomy.scids.inner := by
              rw [scids]
              exact (BoundedNonEmptyVecDeque.get_eq_some_iff.mp found).1
            have other := List.find?_eq_none.mp absent e member
            simp [same] at other
          · rw [← next]
            cases resetToken with
            | some token => exact .inl rfl
            | none => exact .inr (by simpa using token)

theorem sourceView_withScid (pathId destinationConnIdLimit sourceConnIdLimit : Nat) (cid : ConnectionId)
    (networkPath : Option FourTuple) (resetToken : Option Nat) :
    (newWithPathId pathId destinationConnIdLimit sourceConnIdLimit (some cid) none networkPath resetToken).sourceView =
      ⟨SourceView.single cid resetToken networkPath, 1, true⟩ := by
  unfold sourceView newWithPathId
  simp [get_single]

theorem sourceView_withDcid (pathId destinationConnIdLimit sourceConnIdLimit : Nat) (cid : ConnectionId)
    (networkPath : Option FourTuple) (resetToken : Option Nat) :
    (newWithPathId pathId destinationConnIdLimit sourceConnIdLimit none (some cid) networkPath resetToken).sourceView =
      ⟨SourceView.single [] none networkPath, 0, false⟩ := by
  unfold sourceView newWithPathId
  simp [get_single]

/-- Retiring an identifier for the peer removes it. -/
def Retires (self : PathConnectionIdentifiers) (seq : Nat) : Prop :=
  seq < self.nextScidSeq ∧ 1 < self.scids.len ∧ (self.scids.get seq).isSome = true

instance (self : PathConnectionIdentifiers) (seq : Nat) : Decidable (self.Retires seq) :=
  inferInstanceAs (Decidable (_ ∧ _))

/-- Retiring an identifier for the peer is refused after it was removed. -/
def Refuses (self : PathConnectionIdentifiers) (seq : Nat) (pktDcid : ConnectionId) : Prop :=
  (∃ e ∈ self.scids.get seq, e.cid = pktDcid) ∨
    ∀ e ∈ self.scids.inner, e.seq = seq ∨ e.seq < self.retirePriorTo

instance (self : PathConnectionIdentifiers) (seq : Nat) (pktDcid : ConnectionId) :
    Decidable (self.Refuses seq pktDcid) :=
  inferInstanceAs (Decidable (_ ∨ _))

theorem lowestUsableScidSeq_error {error : PathError} :
    self.lowestUsableScidSeq = .error error →
      ∀ e ∈ self.scids.inner, e.seq < self.retirePriorTo := by
  intro failed e member
  unfold lowestUsableScidSeq at failed
  split at failed
  · cases failed
  · rename_i empty
    rw [List.min?_eq_none_iff, List.filter_eq_nil_iff] at empty
    have low := empty e.seq (List.mem_map_of_mem member)
    simpa using low

/-- A usable identifier is not to be retired. -/
theorem lowestUsableScidSeq_ok (found : self.lowestUsableScidSeq = .ok seq) :
    ∃ e ∈ self.scids.inner, self.retirePriorTo ≤ e.seq ∧ e.seq = seq := by
  unfold lowestUsableScidSeq at found
  split at found
  · rename_i least lowest
    obtain ⟨member, -⟩ := List.min?_eq_some_iff.mp lowest
    obtain ⟨listed, above⟩ := List.mem_filter.mp member
    obtain ⟨e, held, rfl⟩ := List.mem_map.mp listed
    cases found
    exact ⟨e, held, by simpa using above, rfl⟩
  · cases found

theorem remove_scid (removed : self.scids.remove seq allowEmpty = .ok (some e, scids)) :
    1 < self.scids.len ∧ self.scids.get seq = some e ∧
      ∀ probe, scids.get probe = if probe = seq then none else self.scids.get probe := by
  have all := BoundedNonEmptyVecDeque.get_remove removed
  obtain ⟨long, found⟩ := (all 0).2.1 e rfl
  refine ⟨long, found, fun probe => ?_⟩
  have get := (all probe).2.2
  simpa using get

/-- What a removal that finds nothing leaves. -/
theorem remove_none (removed : self.scids.remove seq allowEmpty = .ok (none, scids)) :
    scids.get = self.scids.get ∧ (self.scids.len ≤ 1 ∨ self.scids.get seq = none) := by
  constructor
  · funext probe
    have get := (BoundedNonEmptyVecDeque.get_remove removed probe).2.2
    simpa using get
  · unfold BoundedNonEmptyVecDeque.remove at removed
    split at removed
    · rename_i short
      exact .inl short
    · cases found : self.scids.get seq with
      | none => exact .inr rfl
      | some e =>
        rw [found] at removed
        cases removed

theorem retireScid_keeps (stays : ¬ self.Retires seq) (pktDcid : ConnectionId) :
    (self.retireScid seq pktDcid).2.pathId = self.pathId ∧
      (self.retireScid seq pktDcid).2.sourceView = self.sourceView := by
  unfold retireScid
  split
  · exact ⟨rfl, rfl⟩
  rename_i below
  split
  · exact ⟨rfl, rfl⟩
  · rename_i scids removed
    obtain ⟨same, -⟩ := remove_none removed
    refine ⟨rfl, ?_⟩
    unfold sourceView
    rw [same]
  · -- An identifier that is removed was one that retires.
    rename_i e scids removed
    obtain ⟨long, found, -⟩ := remove_scid removed
    exact absurd ⟨Nat.not_le.mp below, long, by rw [found]; rfl⟩ stays

/-- Retiring an identifier for the peer that can be removed removes it, and may be refused then. -/
theorem retireScid_removes (retires : self.Retires seq) (pktDcid : ConnectionId) :
    (self.retireScid seq pktDcid).2.pathId = self.pathId ∧
      (self.retireScid seq pktDcid).2.sourceView = self.sourceView.drop seq ∧
      ((∃ error, (self.retireScid seq pktDcid).1 = .error error) ↔ self.Refuses seq pktDcid) := by
  obtain ⟨below, long, there⟩ := retires
  unfold retireScid
  rw [if_neg (Nat.not_le.mpr below)]
  cases removed : self.scids.remove seq self.closing with
  | error error =>
    unfold BoundedNonEmptyVecDeque.remove at removed
    rw [if_neg (Nat.not_le.mpr long)] at removed
    cases removed
  | ok result =>
    obtain ⟨entry, scids⟩ := result
    cases entry with
    | none =>
      obtain ⟨-, short | absent⟩ := remove_none removed
      · omega
      · rw [absent] at there
        cases there
    | some e =>
      obtain ⟨-, found, get⟩ := remove_scid removed
      have view : ∀ retirePriorTo,
          sourceView { self with scids := scids, retirePriorTo := retirePriorTo } = self.sourceView.drop seq := by
        intro _
        unfold sourceView SourceView.drop
        simp only [SourceView.mk.injEq, and_self, and_true]
        funext probe
        exact get probe
      -- What is left are the other identifiers.
      have rest : ∀ other, other ∈ scids.inner ↔ other ∈ self.scids.inner ∧ other.seq ≠ seq :=
        fun _ => BoundedNonEmptyVecDeque.mem_remove removed
      dsimp only
      split
      · rename_i same
        exact ⟨rfl, view _, fun _ => .inl ⟨e, found, same⟩, fun _ => ⟨_, rfl⟩⟩
      · rename_i apart
        split
        · rename_i error lowest
          refine ⟨rfl, view _, fun _ => .inr ?_, fun _ => ⟨_, rfl⟩⟩
          -- Everything that is left is to be retired.
          intro other member
          by_cases own : other.seq = seq
          · exact .inl own
          · exact .inr (lowestUsableScidSeq_error lowest other ((rest other).mpr ⟨member, own⟩))
        · rename_i least lowest
          refine ⟨rfl, view _, ?_, ?_⟩
          · rintro ⟨error, none⟩
            cases none
          · rintro (⟨other, found', same⟩ | low)
            · rw [found] at found'
              cases found'
              exact absurd same apart
            · obtain ⟨other, member, above, -⟩ := lowestUsableScidSeq_ok lowest
              obtain ⟨listed, own⟩ := (rest other).mp member
              have above : self.retirePriorTo ≤ other.seq := above
              rcases low other listed with same | small
              · exact absurd same own
              · omega

/-- What is done about identifiers of the peer leaves the ones for it. -/
structure SameSource (before after : PathConnectionIdentifiers) : Prop where
  pathId : after.pathId = before.pathId
  view : after.sourceView = before.sourceView

/-- What a path has besides the identifiers of the peer. -/
structure SourceSide where
  pathId : Nat
  scids : BoundedNonEmptyVecDeque ConnectionIdEntry
  next : Nat
  retirePriorTo : Nat
  /-- How many identifiers the peer allows. -/
  limit : Nat
  /-- Whether the first identifier is there. -/
  initialized : Bool

/-- The part of a path that the identifiers of the peer are not in. -/
def sourceSide (pcid : PathConnectionIdentifiers) : SourceSide :=
  ⟨pcid.pathId, pcid.scids, pcid.nextScidSeq, pcid.retirePriorTo, pcid.sourceConnIdLimit,
    pcid.initializedSourceConnectionId⟩

theorem SameSource.of_side (same : after.sourceSide = self.sourceSide) : SameSource self after := by
  obtain ⟨pathId, scids, next, -, -, initialized⟩ := SourceSide.mk.inj same
  refine ⟨pathId, ?_⟩
  unfold sourceView
  rw [scids, next, initialized]

theorem markRetireDcidSeq_side (self : PathConnectionIdentifiers) (dcidSeq : Nat) (retire : Bool) :
    (self.markRetireDcidSeq dcidSeq retire).2.sourceSide = self.sourceSide := by
  unfold markRetireDcidSeq
  split
  · split <;> rfl
  · rfl

theorem addDcid_side (self : PathConnectionIdentifiers) (entry : ConnectionIdEntry) (queueErr : Option PathError) :
    (self.addDcid entry queueErr).2.sourceSide = self.sourceSide := by
  unfold addDcid
  split
  · rfl
  · split <;> rfl

/-- An identifier of the peer changes nothing else. -/
theorem newDcid_side (search : List Nat → Nat → Nat) (self : PathConnectionIdentifiers) (cid : ConnectionId)
    (seq resetToken retirePriorTo : Nat) :
    (self.newDcid search cid seq resetToken retirePriorTo).2.2.sourceSide = self.sourceSide := by
  unfold newDcid
  -- Each return of the source has changed the identifiers of the peer, or nothing.
  split
  · rfl
  split
  · split <;> rfl
  split
  · rfl
  split
  · exact markRetireDcidSeq_side self seq true
  dsimp only
  split
  · -- The retired identifiers are dropped before the new one is added.
    exact addDcid_side _ _ _
  · exact addDcid_side _ _ _

/-- Retiring an identifier of the peer changes nothing else. -/
theorem retireDcid_side (self : PathConnectionIdentifiers) (seq : Nat) :
    (self.retireDcid seq).2.sourceSide = self.sourceSide := by
  unfold retireDcid
  split
  · rfl
  · rename_i e dcids removed
    have side := markRetireDcidSeq_side { self with dcids := dcids } seq true
    split
    · rename_i error marked same
      rw [same] at side
      exact side
    · rename_i marked same
      rw [same] at side
      exact side
  · split <;> rfl

theorem newDcid_same (search : List Nat → Nat → Nat) (self : PathConnectionIdentifiers) (cid : ConnectionId)
    (seq resetToken retirePriorTo : Nat) :
    SameSource self (self.newDcid search cid seq resetToken retirePriorTo).2.2 :=
  .of_side (newDcid_side search self cid seq resetToken retirePriorTo)

theorem markRetireDcidSeq_same (self : PathConnectionIdentifiers) (dcidSeq : Nat) (retire : Bool) :
    SameSource self (self.markRetireDcidSeq dcidSeq retire).2 :=
  .of_side (markRetireDcidSeq_side self dcidSeq retire)

theorem retireDcid_same (self : PathConnectionIdentifiers) (seq : Nat) : SameSource self (self.retireDcid seq).2 :=
  .of_side (retireDcid_side self seq)

end PathConnectionIdentifiers

namespace ConnectionIdentifiers

/-- An operation on the connection identifiers. -/
inductive IdEvent where
  /-- The application provides an identifier for the peer. -/
  | newScid (pathId : Nat) (cid : ConnectionId) (resetToken : Option Nat) (advertise : Bool)
      (networkPath : Option FourTuple) (retireIfNeeded : Bool)
  /-- The first identifier of the peer is known. -/
  | setInitialDcid (cid : ConnectionId) (resetToken : Option Nat) (networkPath : Option FourTuple)
  /-- The peer provides an identifier. -/
  | newDcid (pathId : Nat) (cid : ConnectionId) (seq resetToken retirePriorTo : Nat)
  | retireScid (pathId seq : Nat) (pktDcid : ConnectionId)
  /-- An identifier of the peer is retired. -/
  | retireDcid (pathId seq : Nat)
  /-- A retired identifier is to be told to the peer, or was told. -/
  | markRetireDcidSeq (pathId dcidSeq : Nat) (retire : Bool)
  /-- The peer allows more identifiers. -/
  | setSourceConnIdLimit (v : Nat)
  /-- More paths are allowed to the peer. -/
  | setLocalMaxPathId (v : Nat) (advertise : Bool)
  /-- The peer allows more paths. -/
  | setRemoteMaxPathId (v : Nat)
  | consumeLowestSparePathId
  | closingPathId (pathId : Nat)
  | removePathId (pathId : Nat)

/-- One operation, with what it leaves when it fails. -/
def step (search : List Nat → Nat → Nat) (self : ConnectionIdentifiers) : IdEvent → ConnectionIdentifiers
  | .newScid pathId cid resetToken advertise networkPath retireIfNeeded =>
    (self.newScid pathId cid resetToken advertise networkPath retireIfNeeded).2
  | .setInitialDcid cid resetToken networkPath => self.setInitialDcid cid resetToken networkPath
  | .newDcid pathId cid seq resetToken retirePriorTo =>
    (self.newDcid search pathId cid seq resetToken retirePriorTo).2.2
  | .retireScid pathId seq pktDcid => (self.retireScid pathId seq pktDcid).2
  | .retireDcid pathId seq => (self.retireDcid pathId seq).2
  | .markRetireDcidSeq pathId dcidSeq retire => (self.markRetireDcidSeq pathId dcidSeq retire).2
  | .setSourceConnIdLimit v => self.setSourceConnIdLimit v
  | .setLocalMaxPathId v advertise => self.setLocalMaxPathId v advertise
  | .setRemoteMaxPathId v => self.setRemoteMaxPathId v
  | .consumeLowestSparePathId => self.consumeLowestSparePathId
  | .closingPathId pathId => self.closingPathId pathId
  | .removePathId pathId => (self.removePathId pathId).2

/-- The identifiers for the peer on a path that exists. -/
def view (self : ConnectionIdentifiers) (pathId : Nat) : Option SourceView :=
  (self.getPcids pathId).map PathConnectionIdentifiers.sourceView

/-- What an operation that creates and closes no path leaves as it was. -/
structure SameBooks (before after : ConnectionIdentifiers) : Prop where
  spare : after.sparePathIds = before.sparePathIds
  closed : after.closedPathId = before.closedPathId
  len : after.pcids.len = before.pcids.len
  most : before.maxPathId ≤ after.maxPathId

/-- What an operation on one path leaves as it was on the others. -/
def Elsewhere (self after : ConnectionIdentifiers) (pathId : Nat) : Prop :=
  ∀ other, other ≠ pathId → after.view other = self.view other

variable {self after : ConnectionIdentifiers} {pathId : Nat}

variable {pcid old : PathConnectionIdentifiers}

theorem pathId_of_getPcids (found : self.getPcids pathId = some pcid) : pcid.pathId = pathId :=
  BoundedNonEmptyVecDeque.id_of_get found

theorem getPcids_setPcids (found : self.getPcids pathId = some old) (own : pcid.pathId = pathId) (probe : Nat) :
    (self.setPcids pcid).getPcids probe = if probe = pathId then some pcid else self.getPcids probe := by
  have number : Identifiable.id pcid = pathId := own
  unfold getPcids setPcids
  rw [BoundedNonEmptyVecDeque.get_replace, number]
  -- The path is found by its number, which the replacement keeps.
  by_cases hit : probe = pathId
  · have found : self.pcids.get probe = some old := by rw [hit]; exact found
    rw [if_pos hit, if_pos hit, found]
    rfl
  · rw [if_neg hit, if_neg hit]

theorem view_setPcids (found : self.getPcids pathId = some old) (own : pcid.pathId = old.pathId) :
    (self.setPcids pcid).view pathId = some pcid.sourceView ∧ Elsewhere self (self.setPcids pcid) pathId := by
  have own : pcid.pathId = pathId := own.trans (pathId_of_getPcids found)
  constructor
  · rw [view, getPcids_setPcids found own, if_pos rfl]
    rfl
  · intro other apart
    rw [view, getPcids_setPcids found own, if_neg apart]
    rfl

theorem sameBooks_setPcids (self : ConnectionIdentifiers) (pcid : PathConnectionIdentifiers) :
    SameBooks self (self.setPcids pcid) := by
  refine ⟨rfl, rfl, ?_, Nat.le_refl _⟩
  exact List.length_map _

theorem view_same (own : after.view pathId = self.view pathId) (elsewhere : Elsewhere self after pathId) :
    after.view = self.view := by
  funext probe
  by_cases hit : probe = pathId
  · rw [hit]
    exact own
  · exact elsewhere probe hit

/-- What an operation leaves that neither adds nor retires an identifier for the peer. -/
structure Quiet (before after : ConnectionIdentifiers) : Prop where
  view : after.view = before.view
  queue : after.advertiseNewScidSeqs = before.advertiseNewScidSeqs
  books : SameBooks before after

theorem Quiet.refl (self : ConnectionIdentifiers) : Quiet self self := ⟨rfl, rfl, rfl, rfl, rfl, Nat.le_refl _⟩

theorem quiet_setPcids (found : self.getPcids pathId = some old) (same : old.SameSource pcid) :
    Quiet self (self.setPcids pcid) := by
  obtain ⟨own, elsewhere⟩ := view_setPcids found same.pathId
  refine ⟨view_same ?_ elsewhere, rfl, sameBooks_setPcids self pcid⟩
  rw [own, same.view, view, found]
  rfl

/-- What is to be advertised after an identifier was marked. -/
def marked (queue : List (Nat × Nat)) (pair : Nat × Nat) (advertise : Bool) : List (Nat × Nat) :=
  if advertise then if queue.contains pair then queue else queue ++ [pair] else queue.erase pair

theorem markAdvertise_same (self : ConnectionIdentifiers) (pathId scidSeq : Nat) (advertise : Bool) :
    (self.markAdvertiseNewScidSeq pathId scidSeq advertise).view = self.view ∧
      SameBooks self (self.markAdvertiseNewScidSeq pathId scidSeq advertise) ∧
      (self.markAdvertiseNewScidSeq pathId scidSeq advertise).advertiseNewScidSeqs =
        marked self.advertiseNewScidSeqs (pathId, scidSeq) advertise ∧
      (self.markAdvertiseNewScidSeq pathId scidSeq advertise).maxPathId = self.maxPathId := by
  unfold markAdvertiseNewScidSeq marked
  split
  · split
    · exact ⟨rfl, ⟨rfl, rfl, rfl, Nat.le_refl _⟩, rfl, rfl⟩
    · exact ⟨rfl, ⟨rfl, rfl, rfl, Nat.le_refl _⟩, rfl, rfl⟩
  · exact ⟨rfl, ⟨rfl, rfl, rfl, Nat.le_refl _⟩, rfl, rfl⟩

/-- What a new path changes. -/
structure Created (before after : ConnectionIdentifiers) (pathId : Nat) (view : SourceView) : Prop where
  absent : before.view pathId = none
  own : after.view pathId = some view
  elsewhere : Elsewhere before after pathId
  spare : after.sparePathIds = pathId :: before.sparePathIds
  opened : pathId ∉ before.closedPathId
  closed : after.closedPathId = before.closedPathId
  small : pathId ≤ before.maxPathId
  most : after.maxPathId = before.maxPathId

variable {mid : ConnectionIdentifiers} {seq : Nat}

theorem SameBooks.trans (first : SameBooks self mid) (second : SameBooks mid after) : SameBooks self after :=
  ⟨second.spare.trans first.spare, second.closed.trans first.closed, second.len.trans first.len,
    Nat.le_trans first.most second.most⟩

theorem Created.trans {view : SourceView} (created : Created self mid pathId view) (same : after.view = mid.view)
    (books : SameBooks mid after) (most : after.maxPathId = mid.maxPathId) : Created self after pathId view := by
  constructor
  case absent => exact created.absent
  case own => rw [same]; exact created.own
  case elsewhere => intro other apart; rw [same]; exact created.elsewhere other apart
  case spare => exact books.spare.trans created.spare
  case opened => exact created.opened
  case closed => exact books.closed.trans created.closed
  case small => exact created.small
  case most => exact most.trans created.most

theorem view_eq_none : self.view pathId = none ↔ self.getPcids pathId = none := Option.map_eq_none_iff

/-- A path is added as a whole, or not at all. -/
theorem addPath_cases (absent : self.getPcids pcid.pathId = none) :
    (∃ error, self.addPath pcid = (.error error, self)) ∨
      ((self.addPath pcid).1 = .ok () ∧ Created self (self.addPath pcid).2 pcid.pathId pcid.sourceView ∧
        (self.addPath pcid).2.advertiseNewScidSeqs = self.advertiseNewScidSeqs) := by
  unfold addPath
  split
  · exact .inl ⟨_, rfl⟩
  rename_i small
  split
  · exact .inl ⟨_, rfl⟩
  rename_i opened
  -- The bounds were checked, so only the room for the path can be missing.
  cases inserted : self.pcids.insert pcid with
  | error error => exact .inl ⟨_, rfl⟩
  | ok pcids =>
    have get : ∀ probe, pcids.get probe = if probe = pcid.pathId then some pcid else self.pcids.get probe :=
      BoundedNonEmptyVecDeque.get_insert inserted
    refine .inr ⟨rfl, ?_, rfl⟩
    constructor
    case absent => exact view_eq_none.mpr absent
    case own =>
      show (pcids.get pcid.pathId).map _ = _
      rw [get, if_pos rfl]
      rfl
    case elsewhere =>
      intro other apart
      show (pcids.get other).map _ = (self.pcids.get other).map _
      rw [get, if_neg apart]
    case spare => rfl
    case opened => exact fun member => opened (List.contains_iff_mem.mpr member)
    case closed => rfl
    case small => exact Nat.not_lt.mp small
    case most => rfl

/-- What adding an identifier for the peer does. -/
inductive NewScid (before : ConnectionIdentifiers) (pathId : Nat) (cid : ConnectionId) (resetToken : Option Nat)
    (advertise : Bool) (networkPath : Option FourTuple) : Except PathError Nat → ConnectionIdentifiers → Prop where
  | failed {after : ConnectionIdentifiers} (error : PathError) (quiet : Quiet before after) :
      NewScid before pathId cid resetToken advertise networkPath (.error error) after
  /-- An identifier that is there keeps its number. -/
  | known {after : ConnectionIdentifiers} {view : SourceView} {seq : Nat} {e : ConnectionIdEntry}
      (at_ : before.view pathId = some view) (some_ : view.initialized = true) (found : view.get seq = some e)
      (same : e.cid = cid) (quiet : Quiet before after) :
      NewScid before pathId cid resetToken advertise networkPath (.ok seq) after
  /-- The first identifier of a path that exists has the first number. -/
  | first {after : ConnectionIdentifiers} {view : SourceView} (at_ : before.view pathId = some view)
      (none_ : view.initialized = false) (token : resetToken.isSome = true ∨ pathId = 0)
      (own : after.view pathId = some
        { view with get := SourceView.single cid resetToken networkPath, initialized := true })
      (elsewhere : Elsewhere before after pathId) (books : SameBooks before after)
      (queue : after.advertiseNewScidSeqs = marked before.advertiseNewScidSeqs (pathId, 0) advertise) :
      NewScid before pathId cid resetToken advertise networkPath (.ok 0) after
  | next {after : ConnectionIdentifiers} {view : SourceView} (at_ : before.view pathId = some view)
      (some_ : view.initialized = true) (fresh : ∀ seq e, view.get seq = some e → e.cid ≠ cid)
      (token : resetToken.isSome = true ∨ (pathId = 0 ∧ view.next = 0))
      (own : after.view pathId = some (view.add cid resetToken networkPath))
      (elsewhere : Elsewhere before after pathId) (books : SameBooks before after)
      (queue : after.advertiseNewScidSeqs = marked before.advertiseNewScidSeqs (pathId, view.next) advertise) :
      NewScid before pathId cid resetToken advertise networkPath (.ok view.next) after
  /-- The first identifier of a new path has the first number. -/
  | created {after : ConnectionIdentifiers} (token : resetToken.isSome = true ∨ pathId = 0)
      (created : Created before after pathId ⟨SourceView.single cid resetToken networkPath, 1, true⟩)
      (queue : after.advertiseNewScidSeqs = marked before.advertiseNewScidSeqs (pathId, 0) advertise) :
      NewScid before pathId cid resetToken advertise networkPath (.ok 0) after

/-- Adding an identifier for the peer has one of these outcomes. -/
theorem newScid_cases (self : ConnectionIdentifiers) (pathId : Nat) (cid : ConnectionId) (resetToken : Option Nat)
    (advertise : Bool) (networkPath : Option FourTuple) (retireIfNeeded : Bool) :
    NewScid self pathId cid resetToken advertise networkPath
      (self.newScid pathId cid resetToken advertise networkPath retireIfNeeded).1
      (self.newScid pathId cid resetToken advertise networkPath retireIfNeeded).2 := by
  unfold newScid
  split
  · exact .failed _ (.refl self)
  split
  · exact .failed _ (.refl self)
  rename_i needed
  have token : resetToken.isSome = true ∨ pathId = 0 := by
    cases resetToken with
    | some token => exact .inl rfl
    | none => exact .inr (by simpa using needed)
  split
  · rename_i pcid found
    obtain ⟨path, outcome⟩ := pcid.newScid_cases cid resetToken networkPath retireIfNeeded
    generalize pcid.newScid cid resetToken networkPath retireIfNeeded = result at path outcome
    obtain ⟨result, after⟩ := result
    have at_ : self.view pathId = some pcid.sourceView := by rw [view, found]; rfl
    obtain ⟨own, elsewhere⟩ := view_setPcids found path
    have mark := fun seq => markAdvertise_same (self.setPcids after) pathId seq advertise
    have stays := sameBooks_setPcids self after
    dsimp only at outcome ⊢
    generalize viewed : after.sourceView = last at outcome own
    cases outcome with
    | failed error => exact .failed error (quiet_setPcids found ⟨path, viewed⟩)
    | known init held same => exact .known at_ init held same (quiet_setPcids found ⟨path, viewed⟩)
    | first none_ =>
      obtain ⟨seen, books, queue, -⟩ := mark 0
      refine .first at_ none_ token ?_ ?_ (stays.trans books) queue
      · exact (congrFun seen pathId).trans own
      · exact fun other apart => (congrFun seen other).trans (elsewhere other apart)
    | next init fresh token' =>
      obtain ⟨seen, books, queue, -⟩ := mark pcid.sourceView.next
      refine .next at_ init fresh ?_ ?_ ?_ (stays.trans books) queue
      · rcases token with given | first
        · exact .inl given
        · rcases token' with given | zero
          · exact .inl given
          · exact .inr ⟨first, zero⟩
      · exact (congrFun seen pathId).trans own
      · exact fun other apart => (congrFun seen other).trans (elsewhere other apart)
  · rename_i absent
    have absent : self.getPcids (PathConnectionIdentifiers.newWithPathId pathId self.destinationConnIdLimit
        self.sourceConnIdLimit (some cid) none networkPath resetToken).pathId = none := absent
    rcases addPath_cases absent with ⟨error, failed⟩ | ⟨done, created, queue⟩
    · rw [failed]
      exact .failed error (.refl self)
    · generalize self.addPath _ = result at done created queue
      obtain ⟨result, after⟩ := result
      have done : result = .ok () := done
      subst done
      obtain ⟨seen, books, queue', most⟩ := markAdvertise_same after pathId 0 advertise
      rw [PathConnectionIdentifiers.sourceView_withScid] at created
      have queue : after.advertiseNewScidSeqs = self.advertiseNewScidSeqs := queue
      refine .created token (created.trans seen books most) ?_
      rw [← queue]
      exact queue'

/-- What an identifier of the peer does: it leaves the ones for it, or comes with a new path. -/
inductive NewDcid (before : ConnectionIdentifiers) (pathId : Nat) : ConnectionIdentifiers → Prop where
  | quiet {after : ConnectionIdentifiers} (quiet : Quiet before after) : NewDcid before pathId after
  /-- A new path has no identifier for the peer yet. -/
  | created {after : ConnectionIdentifiers}
      (created : Created before after pathId ⟨SourceView.single [] none none, 0, false⟩)
      (queue : after.advertiseNewScidSeqs = before.advertiseNewScidSeqs) : NewDcid before pathId after

/-- An identifier of the peer has one of these outcomes. -/
theorem newDcid_cases (search : List Nat → Nat → Nat) (self : ConnectionIdentifiers) (pathId : Nat)
    (cid : ConnectionId) (seq resetToken retirePriorTo : Nat) :
    NewDcid self pathId (self.newDcid search pathId cid seq resetToken retirePriorTo).2.2 := by
  unfold newDcid
  split
  · exact .quiet (.refl self)
  split
  · rename_i pcid found
    exact .quiet (quiet_setPcids found (pcid.newDcid_same search cid seq resetToken retirePriorTo))
  · rename_i absent
    have absent : self.getPcids (PathConnectionIdentifiers.newWithPathId pathId self.destinationConnIdLimit
        self.sourceConnIdLimit none (some cid) none (some resetToken)).pathId = none := absent
    rcases addPath_cases absent with ⟨error, failed⟩ | ⟨-, created, queue⟩
    · rw [failed]
      exact .quiet (.refl self)
    · rw [PathConnectionIdentifiers.sourceView_withDcid] at created
      exact .created created queue

/-- Retiring an identifier for the peer removes it. -/
def RetiresScid (self : ConnectionIdentifiers) (pathId seq : Nat) : Prop :=
  ∃ pcid ∈ self.getPcids pathId, pcid.Retires seq

instance (self : ConnectionIdentifiers) (pathId seq : Nat) : Decidable (self.RetiresScid pathId seq) :=
  inferInstanceAs (Decidable (∃ pcid ∈ self.getPcids pathId, _))

/-- Retiring an identifier for the peer is refused after it was removed. -/
def RefusesScid (self : ConnectionIdentifiers) (pathId seq : Nat) (pktDcid : ConnectionId) : Prop :=
  ∃ pcid ∈ self.getPcids pathId, pcid.Refuses seq pktDcid

instance (self : ConnectionIdentifiers) (pathId seq : Nat) (pktDcid : ConnectionId) :
    Decidable (self.RefusesScid pathId seq pktDcid) :=
  inferInstanceAs (Decidable (∃ pcid ∈ self.getPcids pathId, _))

/-- What retires nothing leaves the identifiers. -/
theorem retireScid_quiet (stays : ¬ self.RetiresScid pathId seq) (pktDcid : ConnectionId) :
    Quiet self (self.retireScid pathId seq pktDcid).2 := by
  unfold retireScid
  split
  · exact .refl self
  rename_i pcid found
  have kept : ¬ pcid.Retires seq := fun retires => stays ⟨pcid, found, retires⟩
  obtain ⟨path, same⟩ := PathConnectionIdentifiers.retireScid_keeps kept pktDcid
  split
  · rename_i error after result
    rw [result] at path same
    exact quiet_setPcids found ⟨path, same⟩
  · rename_i after result
    rw [result] at path same
    exact quiet_setPcids found ⟨path, same⟩
  · rename_i e after result
    rw [result] at path same
    obtain ⟨seen, queue, books⟩ := quiet_setPcids found ⟨path, same⟩
    exact ⟨seen, queue, books.spare, books.closed, books.len, books.most⟩

/-- What retires an identifier removes it, and is refused then or not. -/
theorem retireScid_drops (retires : self.RetiresScid pathId seq) (pktDcid : ConnectionId) :
    ∃ old e, self.view pathId = some old ∧ old.get seq = some e ∧
      (self.retireScid pathId seq pktDcid).2.view pathId = some (old.drop seq) ∧
      Elsewhere self (self.retireScid pathId seq pktDcid).2 pathId ∧
      SameBooks self (self.retireScid pathId seq pktDcid).2 ∧
      (self.retireScid pathId seq pktDcid).2.advertiseNewScidSeqs = self.advertiseNewScidSeqs ∧
      ((∃ error, (self.retireScid pathId seq pktDcid).1 = .error error) ↔ self.RefusesScid pathId seq pktDcid) := by
  obtain ⟨pcid, found, retires⟩ := retires
  have found : self.getPcids pathId = some pcid := found
  obtain ⟨e, held⟩ := Option.isSome_iff_exists.mp retires.2.2
  obtain ⟨path, same, refused⟩ := PathConnectionIdentifiers.retireScid_removes retires pktDcid
  obtain ⟨own, elsewhere⟩ := view_setPcids found path
  have books := sameBooks_setPcids self (pcid.retireScid seq pktDcid).2
  -- The path that exists is the one that is found.
  have refuses : self.RefusesScid pathId seq pktDcid ↔ pcid.Refuses seq pktDcid := by
    constructor
    · rintro ⟨other, found', refuses⟩
      rw [show self.getPcids pathId = some other from found'] at found
      cases found
      exact refuses
    · exact fun refuses => ⟨pcid, found, refuses⟩
  refine ⟨pcid.sourceView, e, by rw [view, found]; rfl, held, ?_⟩
  rw [refuses, ← refused]
  rw [same] at own
  unfold retireScid
  rw [found]
  dsimp only
  generalize pcid.retireScid seq pktDcid = result at own elsewhere books
  obtain ⟨result, after⟩ := result
  -- The outcome only decides what the application is told.
  cases result with
  | error error => exact ⟨own, elsewhere, books, rfl, fun _ => ⟨error, rfl⟩, fun _ => ⟨error, rfl⟩⟩
  | ok entry =>
    cases entry with
    | none => exact ⟨own, elsewhere, books, rfl, fun none => by simp at none, fun none => by simp at none⟩
    | some e =>
      exact ⟨own, elsewhere, ⟨books.spare, books.closed, books.len, books.most⟩, rfl, fun none => by simp at none,
        fun none => by simp at none⟩

/-- Removing a path drops its identifiers. -/
def Drops (self : ConnectionIdentifiers) (pathId : Nat) : Prop :=
  pathId ∉ self.closedPathId ∧ pathId ≤ self.maxPathId ∧ 1 < self.pcids.len ∧ (self.getPcids pathId).isSome = true

instance (self : ConnectionIdentifiers) (pathId : Nat) : Decidable (self.Drops pathId) :=
  inferInstanceAs (Decidable (_ ∧ _))

/-- What the removal of a path leaves in any case. -/
structure Removes (before after : ConnectionIdentifiers) (pathId : Nat) : Prop where
  own : after.view pathId = if before.Drops pathId then none else before.view pathId
  elsewhere : Elsewhere before after pathId
  queue : after.advertiseNewScidSeqs = before.advertiseNewScidSeqs
  spare : after.sparePathIds = before.sparePathIds
  /-- At most this path is closed, and only when it does not exist any more. -/
  closed : ∀ other, other ∈ after.closedPathId ↔
    other ∈ before.closedPathId ∨ (other = pathId ∧ pathId ∈ after.closedPathId)
  /-- A path that is closed now was closed before, or is gone. -/
  gone : pathId ∈ after.closedPathId → pathId ∈ before.closedPathId ∨ after.view pathId = none
  most : after.maxPathId = before.maxPathId

theorem Removes.refl (stays : ¬ self.Drops pathId) : Removes self self pathId := by
  constructor
  case own => rw [if_neg stays]
  case elsewhere => exact fun _ _ => rfl
  case queue => rfl
  case spare => rfl
  case closed => exact fun other => ⟨.inl, fun either => either.elim id fun both => both.1 ▸ both.2⟩
  case gone => exact .inl
  case most => rfl

/-- Removing a path has this effect. -/
theorem removePathId_removes (self : ConnectionIdentifiers) (pathId : Nat) :
    Removes self (self.removePathId pathId).2 pathId := by
  unfold removePathId
  split
  · rename_i closed
    exact .refl fun drops => drops.1 (List.contains_iff_mem.mp closed)
  rename_i opened
  have opened : pathId ∉ self.closedPathId := fun member => opened (List.contains_iff_mem.mpr member)
  split
  · rename_i large
    exact .refl fun drops => absurd drops.2.1 (Nat.not_le.mpr large)
  rename_i small
  have small : pathId ≤ self.maxPathId := Nat.not_lt.mp small
  -- A removal fails only when this is the last path, and that drops nothing.
  cases removed : self.pcids.remove pathId false with
  | error error =>
    apply Removes.refl
    rintro ⟨-, -, long, -⟩
    unfold BoundedNonEmptyVecDeque.remove at removed
    rw [if_neg (Nat.not_le.mpr long)] at removed
    cases removed
  | ok result =>
    obtain ⟨entry, pcids⟩ := result
    have all := BoundedNonEmptyVecDeque.get_remove removed
    cases entry with
    | none =>
      -- There is no such path, which is recorded as closed.
      have absent : self.getPcids pathId = none := by
        unfold BoundedNonEmptyVecDeque.remove at removed
        split at removed
        · simp at removed
        · simp only [Except.ok.injEq, Prod.mk.injEq] at removed
          exact removed.1
      have stays : ¬ self.Drops pathId := by
        rintro ⟨-, -, -, there⟩
        rw [absent] at there
        cases there
      constructor
      case own => rw [if_neg stays]; rfl
      case elsewhere => exact fun _ _ => rfl
      case queue => rfl
      case spare => rfl
      case closed => intro other; simp
      case gone => exact fun _ => .inr (view_eq_none.mpr absent)
      case most => rfl
    | some pcid =>
      obtain ⟨long, found⟩ := (all 0).2.1 pcid rfl
      have drops : self.Drops pathId := ⟨opened, small, long, by unfold getPcids; rw [found]; rfl⟩
      have get : ∀ probe, pcids.get probe = if probe = pathId then none else self.pcids.get probe := by
        intro probe
        have get := (all probe).2.2
        simpa using get
      have own : (pcids.get pathId).map PathConnectionIdentifiers.sourceView = none := by
        rw [get, if_pos rfl]
        rfl
      -- The identifiers of the other paths do not move.
      have elsewhere : ∀ other, other ≠ pathId → (pcids.get other).map PathConnectionIdentifiers.sourceView =
          self.view other := by
        intro other apart
        rw [get, if_neg apart]
        rfl
      dsimp only
      split
      · -- The identifiers of the peer find no room, and the path is gone without being closed.
        constructor
        case own => rw [if_pos drops]; exact own
        case elsewhere => exact elsewhere
        case queue => rfl
        case spare => rfl
        case closed => exact fun other => ⟨.inl, fun either => either.elim id fun both => both.1 ▸ both.2⟩
        case gone => exact .inl
        case most => rfl
      · constructor
        case own => rw [if_pos drops]; exact own
        case elsewhere => exact elsewhere
        case queue => rfl
        case spare => rfl
        case closed => intro other; simp
        case gone => exact fun _ => .inr own
        case most => rfl

section Quiet

theorem setInitialDcid_quiet (self : ConnectionIdentifiers) (cid : ConnectionId) (resetToken : Option Nat)
    (networkPath : Option FourTuple) : Quiet self (self.setInitialDcid cid resetToken networkPath) := by
  unfold setInitialDcid
  dsimp only
  split
  · rename_i pcid found
    have same : pcid.SameSource (pcid.setInitialDcid cid 0 resetToken networkPath) := ⟨rfl, rfl⟩
    obtain ⟨seen, queue, books⟩ := quiet_setPcids found same
    exact ⟨seen, queue, books.spare, books.closed, books.len, books.most⟩
  · exact ⟨rfl, rfl, rfl, rfl, rfl, Nat.le_refl _⟩

/-- Retiring an identifier of the peer is quiet. -/
theorem retireDcid_quiet (self : ConnectionIdentifiers) (pathId seq : Nat) :
    Quiet self (self.retireDcid pathId seq).2 := by
  unfold retireDcid
  split
  · exact .refl self
  split
  · exact .refl self
  split
  · exact .refl self
  · rename_i pcid found
    exact quiet_setPcids found (pcid.retireDcid_same seq)

theorem markRetireDcidSeq_quiet (self : ConnectionIdentifiers) (pathId dcidSeq : Nat) (retire : Bool) :
    Quiet self (self.markRetireDcidSeq pathId dcidSeq retire).2 := by
  unfold markRetireDcidSeq
  split
  · exact .refl self
  · rename_i pcid found
    exact quiet_setPcids found (pcid.markRetireDcidSeq_same dcidSeq retire)

theorem closingPathId_quiet (self : ConnectionIdentifiers) (pathId : Nat) :
    Quiet self (self.closingPathId pathId) := by
  unfold closingPathId
  split
  · rename_i pcid found
    exact quiet_setPcids found ⟨rfl, rfl⟩
  · exact .refl self

theorem sourceView_setSourceConnIdLimit (pcid : PathConnectionIdentifiers) (v : Nat) :
    (pcid.setSourceConnIdLimit v).sourceView = pcid.sourceView := by
  unfold PathConnectionIdentifiers.setSourceConnIdLimit
  dsimp only
  split
  · unfold PathConnectionIdentifiers.sourceView
    simp only [SourceView.mk.injEq, and_self, and_true]
    funext seq
    exact BoundedNonEmptyVecDeque.get_resize pcid.scids _ seq
  · rfl

/-- A new limit on the identifiers is quiet. -/
theorem setSourceConnIdLimit_quiet (self : ConnectionIdentifiers) (v : Nat) :
    Quiet self (self.setSourceConnIdLimit v) := by
  unfold setSourceConnIdLimit
  dsimp only
  split
  · refine ⟨?_, rfl, rfl, rfl, List.length_map _, Nat.le_refl _⟩
    -- Every path gets the limit, and each keeps its identifiers.
    funext pathId
    unfold view getPcids
    rw [BoundedNonEmptyVecDeque.get_mapValues, Option.map_map]
    apply congrFun
    apply congrArg
    funext pcid
    exact sourceView_setSourceConnIdLimit pcid _
  · exact .refl self

theorem maybeResizePcids_quiet (self : ConnectionIdentifiers) : Quiet self self.maybeResizePcids := by
  refine ⟨?_, rfl, rfl, rfl, ?_, Nat.le_refl _⟩
  · funext pathId
    unfold view getPcids maybeResizePcids
    rw [BoundedNonEmptyVecDeque.get_resize]
  · exact BoundedNonEmptyVecDeque.len_resize _ _

/-- Allowing more paths is quiet. -/
theorem setLocalMaxPathId_quiet (self : ConnectionIdentifiers) (v : Nat) (advertise : Bool) :
    Quiet self (self.setLocalMaxPathId v advertise) := by
  unfold setLocalMaxPathId
  split
  · rename_i more
    obtain ⟨seen, queue, books⟩ := maybeResizePcids_quiet { self with
      localMaxPathId := v, advertiseLocalMaxPathId := self.advertiseLocalMaxPathId || advertise }
    refine ⟨seen, queue, books.spare, books.closed, books.len, ?_⟩
    -- The largest path is the smaller of both limits, of which one grows.
    have most : min v self.remoteMaxPathId ≤ _ := books.most
    exact Nat.le_trans (by unfold maxPathId; omega) most
  · exact .refl self

theorem setRemoteMaxPathId_quiet (self : ConnectionIdentifiers) (v : Nat) :
    Quiet self (self.setRemoteMaxPathId v) := by
  unfold setRemoteMaxPathId
  split
  · rename_i more
    obtain ⟨seen, queue, books⟩ := maybeResizePcids_quiet { self with remoteMaxPathId := v }
    refine ⟨seen, queue, books.spare, books.closed, books.len, ?_⟩
    have most : min self.localMaxPathId v ≤ _ := books.most
    exact Nat.le_trans (by unfold maxPathId; omega) most
  · exact .refl self

theorem consumeLowestSparePathId_same (self : ConnectionIdentifiers) :
    self.consumeLowestSparePathId.view = self.view ∧
      self.consumeLowestSparePathId.advertiseNewScidSeqs = self.advertiseNewScidSeqs := by
  unfold consumeLowestSparePathId
  split <;> exact ⟨rfl, rfl⟩

/-- An operation neither adds nor retires an identifier for the peer, and leaves the paths. -/
def IdEvent.isQuiet : IdEvent → Bool
  | .setInitialDcid .. | .retireDcid .. | .markRetireDcidSeq .. | .setSourceConnIdLimit _ | .setLocalMaxPathId ..
  | .setRemoteMaxPathId _ | .closingPathId _ => true
  | _ => false

/-- Such an operation is quiet. -/
theorem step_quiet (search : List Nat → Nat → Nat) (self : ConnectionIdentifiers) {event : IdEvent}
    (quiet : event.isQuiet = true) : Quiet self (self.step search event) := by
  cases event with
  | setInitialDcid cid resetToken networkPath => exact setInitialDcid_quiet self cid resetToken networkPath
  | retireDcid pathId seq => exact retireDcid_quiet self pathId seq
  | markRetireDcidSeq pathId dcidSeq retire => exact markRetireDcidSeq_quiet self pathId dcidSeq retire
  | setSourceConnIdLimit v => exact setSourceConnIdLimit_quiet self v
  | setLocalMaxPathId v advertise => exact setLocalMaxPathId_quiet self v advertise
  | setRemoteMaxPathId v => exact setRemoteMaxPathId_quiet self v
  | closingPathId pathId => exact closingPathId_quiet self pathId
  | _ => cases quiet

end Quiet

end ConnectionIdentifiers

end Flexicast
