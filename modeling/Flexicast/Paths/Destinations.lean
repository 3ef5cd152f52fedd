import Flexicast.Paths.Steps

/-! What each operation on connection identifiers does to the identifiers of the peer. -/

namespace Flexicast

/-- The identifiers of the peer on a path. -/
structure DestinationView where
  held : List ConnectionIdEntry
  /-- The retired ones that the peer still has to be told about. -/
  retired : List Nat
  /-- The largest bound that was applied. -/
  largest : Nat
  /-- Whether the first identifier is there. -/
  initialized : Bool

/-- The identifiers that are active. -/
def DestinationView.active (view : DestinationView) : List ConnectionIdEntry :=
  if view.initialized then view.held else []

namespace PathConnectionIdentifiers

/-- The identifiers of the peer among those of a path. -/
def destinationView (pcid : PathConnectionIdentifiers) : DestinationView :=
  ⟨pcid.dcids.inner, pcid.retireDcidSeqs.inner, pcid.largestPeerRetirePriorTo,
    pcid.initializedDestinationConnectionId⟩

theorem retireAll_ok {entries : List ConnectionIdEntry} {set : BoundedConnectionIdSeqSet}
    (done : (retireAll entries set).1 = none) (seq : Nat) :
    seq ∈ (retireAll entries set).2.2.inner ↔ seq ∈ set.inner ∨ ∃ e ∈ entries, e.seq = seq := by
  -- Induction on the identifiers, each of which is inserted before the rest.
  induction entries generalizing set with
  | nil => simp [retireAll]
  | cons e rest ih =>
    unfold retireAll at done ⊢
    dsimp only at done ⊢
    cases inserted : set.insert e.seq with
    | error error =>
      rw [inserted] at done
      cases done
    | ok mid =>
      rw [inserted] at done
      dsimp only at done ⊢
      rw [ih done, BoundedConnectionIdSeqSet.mem_insert inserted]
      simp only [List.mem_cons, exists_eq_or_imp]
      tauto

/-- What an identifier of the peer that is accepted leaves. -/
inductive Accepts (search : List Nat → Nat → Nat) (view : DestinationView) (cid : ConnectionId)
    (seq resetToken retirePriorTo : Nat) : DestinationView → Prop where
  /-- The first identifier replaces the entry in its place. -/
  | first (none_ : view.initialized = false) :
      Accepts search view cid seq resetToken retirePriorTo
        ⟨[⟨cid, seq, some resetToken, none⟩], view.retired, view.largest, true⟩
  /-- An identifier that is there stays. -/
  | known {e : ConnectionIdEntry} (init : view.initialized = true) (member : e ∈ view.held) (same : e.cid = cid)
      (number : e.seq = seq) : Accepts search view cid seq resetToken retirePriorTo view
  /-- An identifier below the bound is retired at once. -/
  | late {retired : List Nat} (init : view.initialized = true)
      (fresh : ∀ e ∈ view.held, e.cid ≠ cid ∧ e.seq ≠ seq) (above : retirePriorTo ≤ seq) (below : seq < view.largest)
      (marked : ∀ probe, probe ∈ retired ↔ probe = seq ∨ probe ∈ view.retired) :
      Accepts search view cid seq resetToken retirePriorTo { view with retired := retired }
  /-- A bound that is not new leaves the identifiers. -/
  | added (init : view.initialized = true) (fresh : ∀ e ∈ view.held, e.cid ≠ cid ∧ e.seq ≠ seq)
      (above : retirePriorTo ≤ seq) (next : view.largest ≤ seq) (old : retirePriorTo ≤ view.largest) :
      Accepts search view cid seq resetToken retirePriorTo
        { view with held := view.held ++ [⟨cid, seq, some resetToken, none⟩] }
  /-- A new bound retires the identifiers in front of the place where it is reached. -/
  | drained {retired : List Nat} (init : view.initialized = true)
      (fresh : ∀ e ∈ view.held, e.cid ≠ cid ∧ e.seq ≠ seq) (above : retirePriorTo ≤ seq)
      (new : view.largest < retirePriorTo)
      (marked : ∀ probe, probe ∈ retired ↔ probe ∈ view.retired ∨
        ∃ e ∈ view.held.take (search (view.held.map ConnectionIdEntry.seq) retirePriorTo), e.seq = probe) :
      Accepts search view cid seq resetToken retirePriorTo
        ⟨view.held.drop (search (view.held.map ConnectionIdEntry.seq) retirePriorTo) ++
          [⟨cid, seq, some resetToken, none⟩], retired, retirePriorTo, true⟩

/-- An identifier that is added stands behind the others. -/
theorem addDcid_ok {self : PathConnectionIdentifiers} {entry : ConnectionIdEntry} {queueErr : Option PathError}
    (fresh : ∀ e ∈ self.dcids.inner, e.seq ≠ entry.seq) (done : (self.addDcid entry queueErr).1 = .ok ()) :
    queueErr = none ∧ (self.addDcid entry queueErr).2.pathId = self.pathId ∧
      (self.addDcid entry queueErr).2.destinationView =
        { self.destinationView with held := self.dcids.inner ++ [entry] } := by
  have absent : self.dcids.get (Identifiable.id entry) = none := by
    apply List.find?_eq_none.mpr
    intro e member same
    exact fresh e member (by simpa [Identifiable.id] using same)
  unfold addDcid at done ⊢
  rw [BoundedNonEmptyVecDeque.insert_of_none absent] at done ⊢
  -- A queue that is full is refused before the error of the drained ones is reported.
  by_cases full : self.dcids.capacity ≤ self.dcids.len
  · rw [if_pos full] at done
    cases done
  · rw [if_neg full] at done ⊢
    cases queueErr with
    | some error => cases done
    | none => exact ⟨rfl, rfl, rfl⟩

/-- An identifier of the peer that is accepted leaves one of these. -/
theorem newDcid_accepts {search : List Nat → Nat → Nat} {self : PathConnectionIdentifiers} {cid : ConnectionId}
    {seq resetToken retirePriorTo : Nat}
    (done : (self.newDcid search cid seq resetToken retirePriorTo).1 = .ok ()) :
    (self.newDcid search cid seq resetToken retirePriorTo).2.2.pathId = self.pathId ∧
      Accepts search self.destinationView cid seq resetToken retirePriorTo
        (self.newDcid search cid seq resetToken retirePriorTo).2.2.destinationView := by
  unfold newDcid at done ⊢
  by_cases none_ : self.initializedDestinationConnectionId = false
  · rw [if_pos none_]
    exact ⟨rfl, .first none_⟩
  rw [if_neg none_] at done ⊢
  have init : self.destinationView.initialized = true := by
    show self.initializedDestinationConnectionId = true
    simpa using none_
  -- An identifier or number that is known has to come with the same of both, and the same token.
  cases listed : self.dcids.inner.find? fun e => e.cid == cid || e.seq == seq with
  | some e =>
    rw [listed] at done
    have member : e ∈ self.destinationView.held := List.mem_of_find?_eq_some listed
    dsimp only at done ⊢
    by_cases same : e.cid = cid ∧ e.seq = seq ∧ e.resetToken = some resetToken
    · rw [if_pos same]
      exact ⟨rfl, .known init member same.1 same.2.1⟩
    · rw [if_neg same] at done
      cases done
  | none =>
    rw [listed] at done
    dsimp only at done ⊢
    have fresh : ∀ e ∈ self.destinationView.held, e.cid ≠ cid ∧ e.seq ≠ seq := by
      intro e member
      have other := List.find?_eq_none.mp listed e member
      simpa [not_or] using other
    -- The peer may not retire the identifier that it gives.
    by_cases under : seq < retirePriorTo
    · rw [if_pos under] at done
      cases done
    rw [if_neg under] at done ⊢
    have above : retirePriorTo ≤ seq := Nat.not_lt.mp under
    -- An identifier below the bound that was applied is never active.
    by_cases below : seq < self.largestPeerRetirePriorTo
    · rw [if_pos below] at done ⊢
      unfold markRetireDcidSeq at done ⊢
      rw [if_pos rfl] at done ⊢
      cases inserted : self.retireDcidSeqs.insert seq with
      | error error =>
        rw [inserted] at done
        cases done
      | ok set => exact ⟨rfl, .late init fresh above below (BoundedConnectionIdSeqSet.mem_insert inserted)⟩
    rw [if_neg below] at done ⊢
    have next : self.destinationView.largest ≤ seq := Nat.not_lt.mp below
    -- A larger bound drains the queue before the identifier is added behind what is left.
    by_cases new : self.largestPeerRetirePriorTo < retirePriorTo
    · rw [if_pos new] at done ⊢
      simp only [under, if_false] at done ⊢
      have left : ∀ e ∈ self.dcids.inner.drop (search (self.dcids.inner.map ConnectionIdEntry.seq) retirePriorTo),
          e.seq ≠ seq := fun e member => (fresh e (List.mem_of_mem_drop member)).2
      obtain ⟨queued, path, view⟩ := addDcid_ok left done
      refine ⟨path, ?_⟩
      rw [view]
      have drained := @Accepts.drained search self.destinationView cid seq resetToken retirePriorTo _ init fresh above
        new (retireAll_ok queued)
      rw [← init] at drained
      exact drained
    · rw [if_neg new] at done ⊢
      have left : ∀ e ∈ self.dcids.inner, e.seq ≠ seq := fun e member => (fresh e member).2
      obtain ⟨-, path, view⟩ := @addDcid_ok
        { self with largestDestinationSeq := max self.largestDestinationSeq seq } ⟨cid, seq, some resetToken, none⟩
        none left done
      refine ⟨path, ?_⟩
      rw [view]
      exact .added init fresh above next (Nat.not_lt.mp new)

/-- What an identifier for the peer changes is not about those of the peer. -/
theorem newScid_destinationView (self : PathConnectionIdentifiers) (cid : ConnectionId) (resetToken : Option Nat)
    (networkPath : Option FourTuple) (retireIfNeeded : Bool) :
    (self.newScid cid resetToken networkPath retireIfNeeded).2.destinationView = self.destinationView := by
  -- Making room only raises the bound to advertise.
  have made : ∀ after, self.makeRoom retireIfNeeded = .ok after → after.destinationView = self.destinationView := by
    intro after made
    unfold makeRoom at made
    split at made
    · split at made
      · cases lowest : self.lowestUsableScidSeq with
        | error error =>
          rw [lowest] at made
          cases made
        | ok seq =>
          rw [lowest] at made
          cases made
          rfl
      · cases made
    · cases made
      rfl
  unfold newScid
  split
  · rfl
  split
  · rfl
  · rename_i roomy done
    dsimp only
    split
    · exact made roomy done
    split
    · split <;> exact made roomy done
    · split <;> exact made roomy done

theorem retireScid_destinationView (self : PathConnectionIdentifiers) (seq : Nat) (pktDcid : ConnectionId) :
    (self.retireScid seq pktDcid).2.destinationView = self.destinationView := by
  unfold retireScid
  split
  · rfl
  split
  · rfl
  · rfl
  · dsimp only
    split
    · rfl
    · split <;> rfl

end PathConnectionIdentifiers

/-- What only lets go of identifiers of the peer, and keeps track of the retired ones. -/
structure DestinationView.Eases (before after : DestinationView) : Prop where
  active : ∀ e ∈ after.active, e ∈ before.active
  retired : ∀ seq ∈ before.retired, seq ∈ after.retired
  largest : after.largest = before.largest
  /-- The first identifier is there when it was. -/
  initialized : after.initialized = before.initialized

theorem DestinationView.Eases.refl (view : DestinationView) : view.Eases view :=
  ⟨fun _ member => member, fun _ member => member, rfl, rfl⟩

theorem PathConnectionIdentifiers.markRetire_eases (self : PathConnectionIdentifiers) (seq : Nat) :
    self.destinationView.Eases (self.markRetireDcidSeq seq true).2.destinationView := by
  unfold markRetireDcidSeq
  rw [if_pos rfl]
  cases inserted : self.retireDcidSeqs.insert seq with
  | error error => exact .refl _
  | ok set =>
    refine ⟨fun _ member => member, ?_, rfl, rfl⟩
    exact fun probe member => (BoundedConnectionIdSeqSet.mem_insert inserted probe).mpr (.inr member)

/-- Retiring an identifier of the peer lets go of it. -/
theorem PathConnectionIdentifiers.retireDcid_eases (self : PathConnectionIdentifiers) (seq : Nat) :
    self.destinationView.Eases (self.retireDcid seq).2.destinationView := by
  -- A removal may be refused to the last identifier, and takes one out otherwise.
  have removes : ∀ entry dcids, self.dcids.remove seq self.closing = .ok (entry, dcids) →
      self.destinationView.Eases { self with dcids := dcids }.destinationView := by
    intro entry dcids removed
    refine ⟨?_, fun _ member => member, rfl, rfl⟩
    have sub : ∀ e ∈ dcids.inner, e ∈ self.dcids.inner := by
      unfold BoundedNonEmptyVecDeque.remove at removed
      split at removed
      · split at removed
        · cases removed
          exact fun _ member => member
        · cases removed
      · cases removed
        exact fun e member => List.mem_of_mem_eraseP member
    have same : { self with dcids := dcids }.destinationView.initialized = self.destinationView.initialized := rfl
    unfold DestinationView.active
    rw [same]
    split
    · exact sub
    · exact fun e member => absurd member List.not_mem_nil
  unfold retireDcid
  split
  · exact .refl _
  · rename_i e dcids removed
    have first := removes _ _ removed
    have second := markRetire_eases { self with dcids := dcids } seq
    generalize { self with dcids := dcids }.markRetireDcidSeq seq true = result at second
    obtain ⟨result, after⟩ := result
    -- The identifier is dropped first and marked as retired then.
    have both : self.destinationView.Eases after.destinationView :=
      ⟨fun e member => first.active e (second.active e member),
        fun s member => second.retired s (first.retired s member),
        second.largest.trans first.largest, second.initialized.trans first.initialized⟩
    cases result <;> exact both
  · rename_i dcids removed
    split <;> exact removes _ _ removed

namespace ConnectionIdentifiers

/-- The identifiers of the peer on a path that exists. -/
def destinations (self : ConnectionIdentifiers) (pathId : Nat) : Option DestinationView :=
  (self.getPcids pathId).map PathConnectionIdentifiers.destinationView

/-- The identifiers of the peer that are active on a path. -/
def activeDcids (self : ConnectionIdentifiers) (pathId : Nat) : List ConnectionIdEntry :=
  ((self.destinations pathId).map DestinationView.active).getD []

/-- What only lets go of identifiers of the peer, beside new paths without any. -/
def Eases (before after : ConnectionIdentifiers) : Prop :=
  ∀ pathId,
    (∃ old new, before.destinations pathId = some old ∧ after.destinations pathId = some new ∧ old.Eases new) ∨
    (before.destinations pathId = none ∧ ∀ new, after.destinations pathId = some new →
      new.initialized = false ∧ new.largest = 0)

variable {self after : ConnectionIdentifiers} {pathId : Nat}

/-- What leaves the identifiers of the peer eases. -/
theorem Eases.same (seen : after.destinations = self.destinations) : Eases self after := by
  intro pathId
  rw [seen]
  cases at_ : self.destinations pathId with
  | some view => exact .inl ⟨view, view, rfl, rfl, .refl view⟩
  | none => exact .inr ⟨rfl, fun new none_ => by cases none_⟩

theorem eases_setPcids {old pcid : PathConnectionIdentifiers} (found : self.getPcids pathId = some old)
    (own : pcid.pathId = old.pathId) (eases : old.destinationView.Eases pcid.destinationView) :
    Eases self (self.setPcids pcid) := by
  have own : pcid.pathId = pathId := own.trans (pathId_of_getPcids found)
  intro probe
  unfold destinations
  rw [getPcids_setPcids found own]
  -- The other paths are found as they were, whether they exist or not.
  by_cases hit : probe = pathId
  · rw [hit, found, if_pos rfl]
    exact .inl ⟨_, _, rfl, rfl, eases⟩
  · rw [if_neg hit]
    cases at_ : self.getPcids probe with
    | some view => exact .inl ⟨_, _, rfl, rfl, .refl _⟩
    | none => exact .inr ⟨rfl, fun new none_ => by cases none_⟩

/-- A path that is added has its identifiers, and the others stay. -/
theorem addPath_destinations (self : ConnectionIdentifiers) {pcid : PathConnectionIdentifiers}
    (own : pcid.pathId = pathId) :
    (∃ error, self.addPath pcid = (.error error, self)) ∨ ((self.addPath pcid).1 = .ok () ∧
      ∀ probe, (self.addPath pcid).2.destinations probe =
        if probe = pathId then some pcid.destinationView else self.destinations probe) := by
  subst own
  unfold addPath
  split
  · exact .inl ⟨_, rfl⟩
  split
  · exact .inl ⟨_, rfl⟩
  cases inserted : self.pcids.insert pcid with
  | error error => exact .inl ⟨_, rfl⟩
  | ok pcids =>
    refine .inr ⟨rfl, fun probe => ?_⟩
    have get : pcids.get probe = if probe = pcid.pathId then some pcid else self.pcids.get probe :=
      BoundedNonEmptyVecDeque.get_insert inserted probe
    show (pcids.get probe).map _ = _
    rw [get]
    split <;> rfl

/-- An identifier for the peer eases. -/
theorem newScid_eases (self : ConnectionIdentifiers) (pathId : Nat) (cid : ConnectionId) (resetToken : Option Nat)
    (advertise : Bool) (networkPath : Option FourTuple) (retireIfNeeded : Bool) :
    Eases self (self.newScid pathId cid resetToken advertise networkPath retireIfNeeded).2 := by
  -- What is to be advertised plays no role for the identifiers of the peer.
  have marks : ∀ (ids : ConnectionIdentifiers) seq,
      (ids.markAdvertiseNewScidSeq pathId seq advertise).destinations = ids.destinations := by
    intro ids seq
    unfold markAdvertiseNewScidSeq
    split
    · split <;> rfl
    · rfl
  unfold newScid
  split
  · exact .same rfl
  split
  · exact .same rfl
  split
  · rename_i pcid found
    have own := (pcid.newScid_cases cid resetToken networkPath retireIfNeeded).1
    have view := pcid.newScid_destinationView cid resetToken networkPath retireIfNeeded
    generalize pcid.newScid cid resetToken networkPath retireIfNeeded = result at own view
    obtain ⟨result, after⟩ := result
    have replaced : Eases self (self.setPcids after) :=
      eases_setPcids found own (by rw [show after.destinationView = pcid.destinationView from view]; exact .refl _)
    cases result with
    | error error => exact replaced
    | ok done =>
      dsimp only
      split
      · intro probe
        rw [marks]
        exact replaced probe
      · exact replaced
  · rename_i absent
    have own : (PathConnectionIdentifiers.newWithPathId pathId self.destinationConnIdLimit self.sourceConnIdLimit
        (some cid) none networkPath resetToken).pathId = pathId := rfl
    rcases addPath_destinations self own with ⟨error, failed⟩ | ⟨done, seen⟩
    · rw [failed]
      exact .same rfl
    · generalize self.addPath _ = result at done seen
      obtain ⟨result, after⟩ := result
      have done : result = .ok () := done
      subst done
      intro probe
      dsimp only
      rw [marks, seen]
      -- The new path has no identifier of the peer yet.
      by_cases hit : probe = pathId
      · refine .inr ⟨by rw [hit, destinations, absent]; rfl, ?_⟩
        rw [if_pos hit]
        rintro new ⟨⟩
        exact ⟨rfl, rfl⟩
      · rw [if_neg hit]
        exact Eases.same rfl probe

/-- The retirement of an identifier for the peer eases. -/
theorem retireScid_eases (self : ConnectionIdentifiers) (pathId seq : Nat) (pktDcid : ConnectionId) :
    Eases self (self.retireScid pathId seq pktDcid).2 := by
  unfold retireScid
  split
  · exact .same rfl
  rename_i pcid found
  have view := pcid.retireScid_destinationView seq pktDcid
  have own : (pcid.retireScid seq pktDcid).2.pathId = pcid.pathId := by
    by_cases retires : pcid.Retires seq
    · exact (PathConnectionIdentifiers.retireScid_removes retires pktDcid).1
    · exact (PathConnectionIdentifiers.retireScid_keeps retires pktDcid).1
  generalize pcid.retireScid seq pktDcid = result at own view
  obtain ⟨result, after⟩ := result
  have replaced : Eases self (self.setPcids after) :=
    eases_setPcids found own (by rw [show after.destinationView = pcid.destinationView from view]; exact .refl _)
  cases result with
  | error error => exact replaced
  | ok entry => cases entry <;> exact replaced

theorem retireDcid_eases (self : ConnectionIdentifiers) (pathId seq : Nat) :
    Eases self (self.retireDcid pathId seq).2 := by
  unfold retireDcid
  split
  · exact .same rfl
  split
  · exact .same rfl
  split
  · exact .same rfl
  · rename_i pcid found
    exact eases_setPcids found (pcid.retireDcid_same seq).pathId (pcid.retireDcid_eases seq)

/-- A new limit on the identifiers of the peer is none. -/
theorem setSourceConnIdLimit_eases (self : ConnectionIdentifiers) (v : Nat) :
    Eases self (self.setSourceConnIdLimit v) := by
  unfold setSourceConnIdLimit
  dsimp only
  split
  · apply Eases.same
    -- The limit is one on the identifiers for the peer, on every path.
    funext pathId
    unfold destinations getPcids
    rw [BoundedNonEmptyVecDeque.get_mapValues, Option.map_map]
    apply congrFun
    apply congrArg
    funext pcid
    unfold Function.comp PathConnectionIdentifiers.setSourceConnIdLimit
    dsimp only
    split <;> rfl
  · exact .same rfl

theorem maybeResizePcids_destinations (self : ConnectionIdentifiers) :
    self.maybeResizePcids.destinations = self.destinations := by
  funext pathId
  unfold destinations getPcids maybeResizePcids
  rw [BoundedNonEmptyVecDeque.get_resize]

/-- An operation may add identifiers of the peer, or forget about retired ones. -/
def IdEvent.changesDcids : IdEvent → Bool
  | .newDcid .. | .setInitialDcid .. | .markRetireDcidSeq _ _ false | .removePathId _ => true
  | _ => false

/-- Other operations than those on the identifiers of the peer ease. -/
theorem step_eases (search : List Nat → Nat → Nat) (self : ConnectionIdentifiers) {event : IdEvent}
    (other : event.changesDcids = false) : Eases self (self.step search event) := by
  cases event with
  | newScid pathId cid resetToken advertise networkPath retireIfNeeded =>
    exact newScid_eases self pathId cid resetToken advertise networkPath retireIfNeeded
  | setInitialDcid cid resetToken networkPath => cases other
  | newDcid pathId cid seq resetToken retirePriorTo => cases other
  | retireScid pathId seq pktDcid => exact retireScid_eases self pathId seq pktDcid
  | retireDcid pathId seq => exact retireDcid_eases self pathId seq
  | markRetireDcidSeq pathId seq retire =>
    cases retire with
    | false => cases other
    | true =>
      show Eases self (self.markRetireDcidSeq pathId seq true).2
      unfold markRetireDcidSeq
      split
      · exact .same rfl
      · rename_i pcid found
        exact eases_setPcids found (pcid.markRetireDcidSeq_same seq true).pathId (pcid.markRetire_eases seq)
  | setSourceConnIdLimit v => exact setSourceConnIdLimit_eases self v
  | setLocalMaxPathId v advertise =>
    apply Eases.same
    show (self.setLocalMaxPathId v advertise).destinations = _
    unfold setLocalMaxPathId
    split
    · exact maybeResizePcids_destinations _
    · rfl
  | setRemoteMaxPathId v =>
    apply Eases.same
    show (self.setRemoteMaxPathId v).destinations = _
    unfold setRemoteMaxPathId
    split
    · exact maybeResizePcids_destinations _
    · rfl
  | consumeLowestSparePathId =>
    apply Eases.same
    show self.consumeLowestSparePathId.destinations = _
    unfold consumeLowestSparePathId
    split <;> rfl
  | closingPathId pathId =>
    show Eases self (self.closingPathId pathId)
    unfold closingPathId
    split
    · rename_i pcid found
      have found : self.getPcids pathId = some pcid := found
      exact eases_setPcids found rfl (.refl _)
    · exact .same rfl
  | removePathId pathId => cases other

end ConnectionIdentifiers

end Flexicast
