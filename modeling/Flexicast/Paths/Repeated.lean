import Flexicast.Paths.UsableIds

/-! Retirements of identifiers for the peer that are repeated, as their frames are retransmitted. -/

namespace Flexicast

namespace PathConnectionIdentifiers

/-- The number of an identifier was given, and it is not there, unless it is the last one. -/
def Lacks (self : PathConnectionIdentifiers) (seq : Nat) : Prop :=
  seq < self.nextScidSeq ∧ (1 < self.scids.len → self.scids.get seq = none)

/-- A retirement is answered even when one identifier is left, or more are left. -/
def Answers (self : PathConnectionIdentifiers) : Prop := self.closing = true ∨ 1 < self.scids.len

variable {self : PathConnectionIdentifiers}

/-- A retirement does nothing just when it is answered and the identifier is not there. -/
theorem retireScid_none_iff (seq : Nat) (pktDcid : ConnectionId) :
    self.retireScid seq pktDcid = (.ok none, self) ↔ self.Answers ∧ self.Lacks seq := by
  unfold retireScid Answers Lacks
  by_cases above : self.nextScidSeq ≤ seq
  · rw [if_pos above]
    exact iff_of_false (fun same => by cases congrArg Prod.fst same) fun both => absurd both.2.1 (Nat.not_lt.mpr above)
  rw [if_neg above]
  have below := Nat.not_le.mp above
  by_cases short : self.scids.len ≤ 1
  · -- The last identifier is never removed, and only a path that is being closed says nothing about it.
    have last : ¬ 1 < self.scids.len := Nat.not_lt.mpr short
    unfold BoundedNonEmptyVecDeque.remove
    rw [if_pos short]
    by_cases closing : self.closing = true
    · rw [if_pos closing]
      exact iff_of_true rfl ⟨.inl closing, below, fun long => absurd long last⟩
    · rw [if_neg closing]
      exact iff_of_false (fun same => by cases congrArg Prod.fst same) fun both => both.1.elim closing last
  have long := Nat.not_le.mp short
  cases found : self.scids.get seq with
  | none =>
    rw [BoundedNonEmptyVecDeque.remove_of_none long found]
    exact iff_of_true rfl ⟨.inr long, below, fun _ => rfl⟩
  | some e =>
    -- What is removed is missing afterwards.
    refine iff_of_false (fun same => ?_) fun both => ?_
    · unfold BoundedNonEmptyVecDeque.remove at same
      rw [if_neg short, found] at same
      dsimp only at same
      split at same
      · cases congrArg Prod.fst same
      · split at same
        · cases congrArg Prod.fst same
        · cases congrArg Prod.fst same
    · cases both.2.2 long

end PathConnectionIdentifiers

namespace ConnectionIdentifiers

variable {self : ConnectionIdentifiers} {pathId : Nat}

/-- A retirement does nothing just when the path is gone, or has not the identifier and answers. -/
theorem retireScid_none_iff (seq : Nat) (pktDcid : ConnectionId) :
    self.retireScid pathId seq pktDcid = (.ok none, self) ↔
      ∀ pcid ∈ self.getPcids pathId, pcid.Answers ∧ pcid.Lacks seq := by
  unfold retireScid
  cases found : self.getPcids pathId with
  | none => exact iff_of_true rfl fun pcid member => by cases member
  | some pcid =>
    have one : (∀ other ∈ some pcid, other.Answers ∧ other.Lacks seq) ↔
        pcid.retireScid seq pktDcid = (.ok none, pcid) := by
      rw [PathConnectionIdentifiers.retireScid_none_iff]
      simp
    rw [one]
    have path : (pcid.retireScid seq pktDcid).2.pathId = pcid.pathId := by
      by_cases retires : pcid.Retires seq
      · exact (PathConnectionIdentifiers.retireScid_removes retires pktDcid).1
      · exact (PathConnectionIdentifiers.retireScid_keeps retires pktDcid).1
    dsimp only
    generalize pcid.retireScid seq pktDcid = done at path
    obtain ⟨result, after⟩ := done
    -- A path that is replaced by itself leaves the connection as it was, and by another one does not.
    have stays : self.setPcids after = self ↔ after = pcid := by
      have own : after.pathId = pathId := path.trans (pathId_of_getPcids found)
      constructor
      · intro same
        have seen := getPcids_setPcids found own pathId
        rw [same, found, if_pos rfl] at seen
        exact (Option.some.inj seen).symm
      · intro same
        have listed := (BoundedNonEmptyVecDeque.get_eq_some_iff.mp found).1
        unfold setPcids
        rw [same, BoundedNonEmptyVecDeque.replace_self listed]
    cases result with
    | error error => simp
    | ok entry =>
      cases entry with
      | none => simpa using stays
      | some e =>
        refine iff_of_false (fun same => ?_) fun same => by cases congrArg Prod.fst same
        -- The application is told about one identifier more.
        have told := congrArg (fun pair => pair.2.retiredScids.length) same
        simp at told

/-- The connection identifiers with the retirements that succeeded. -/
structure Repeating where
  ids : ConnectionIdentifiers
  /-- The paths and sequence numbers of retirements that succeeded. -/
  succeeded : List (Nat × Nat)
  /-- Those that left the identifier missing from its path, which is still there. -/
  retired : List (Nat × Nat)

namespace Repeating

/-- A path has an identifier to spare. -/
def Spares (ids : ConnectionIdentifiers) (pathId : Nat) : Prop := ∃ pcid ∈ ids.getPcids pathId, 1 < pcid.scids.len

instance (ids : ConnectionIdentifiers) (pathId : Nat) : Decidable (Spares ids pathId) :=
  inferInstanceAs (Decidable (∃ pcid ∈ ids.getPcids pathId, _))

/-- One operation. -/
def next (search : List Nat → Nat → Nat) (self : Repeating) (event : IdEvent) : Repeating :=
  let ids := self.ids.step search event
  match event with
  | .retireScid pathId seq pktDcid =>
    if (self.ids.retireScid pathId seq pktDcid).1.isOk then
      { ids := ids
        succeeded := (pathId, seq) :: self.succeeded
        retired := if Spares self.ids pathId then (pathId, seq) :: self.retired else self.retired }
    else { self with ids := ids }
  | .removePathId _ =>
    { self with ids := ids, retired := self.retired.filter fun pair => (ids.getPcids pair.1).isSome }
  | _ => { self with ids := ids }

/-- The connection identifiers of a new connection. -/
def start (destinationConnIdLimit : Nat) (initialScid : ConnectionId) (networkPath : FourTuple)
    (resetToken : Option Nat) : Repeating :=
  ⟨.new destinationConnIdLimit initialScid networkPath resetToken, [], []⟩

/-- A retirement that succeeded before does nothing again. -/
def Idempotent (self : Repeating) : IdEvent → Prop
  | .retireScid pathId seq pktDcid =>
    (pathId, seq) ∈ self.succeeded → self.ids.retireScid pathId seq pktDcid = (.ok none, self.ids)
  | _ => True

/-- The path of a repeated retirement is gone, or answers and has not got the identifier since. -/
def Repeatable (self : Repeating) : IdEvent → Prop
  | .retireScid pathId seq _ =>
    (pathId, seq) ∈ self.succeeded → ∀ pcid ∈ self.ids.getPcids pathId,
      pcid.Answers ∧ ((pathId, seq) ∈ self.retired ∨ pcid.Lacks seq)
  | _ => True

/-- What every run keeps: identifiers that are missing were numbered before, and no others follow under their number. -/
structure Settled (state : Repeating) : Prop where
  /-- A path without its first identifier has given no number. -/
  fresh : ∀ pathId view, state.ids.view pathId = some view → view.initialized = false → view.next = 0
  gone : ∀ pathId seq, (pathId, seq) ∈ state.retired →
    ∃ view, state.ids.view pathId = some view ∧ seq < view.next ∧ view.get seq = none

variable {self : Repeating} {ids : ConnectionIdentifiers} {pathId : Nat} {view : SourceView}

theorem settled_start (destinationConnIdLimit : Nat) (initialScid : ConnectionId) (networkPath : FourTuple)
    (resetToken : Option Nat) : (start destinationConnIdLimit initialScid networkPath resetToken).Settled := by
  constructor
  · intro pathId view at_ none_
    obtain ⟨pcid, found, rfl⟩ := Option.map_eq_some_iff.mp at_
    have member := (BoundedNonEmptyVecDeque.get_eq_some_iff.mp found).1
    rw [List.mem_singleton.mp member] at none_
    cases none_
  · intro pathId seq listed
    cases listed

/-- Where the identifiers for the peer stay, they stay missing. -/
theorem Settled.same (settled : self.Settled) (same : ids.view = self.ids.view) :
    Settled { self with ids := ids } := by
  constructor
  case fresh => rw [same]; exact settled.fresh
  case gone => rw [same]; exact settled.gone

/-- A change of one path keeps missing what is missing from it. -/
theorem Settled.change (settled : self.Settled) (own : ids.view pathId = some view)
    (elsewhere : Elsewhere self.ids ids pathId) (fresh : view.initialized = false → view.next = 0)
    (gone : ∀ seq, (pathId, seq) ∈ self.retired → seq < view.next ∧ view.get seq = none) :
    Settled { self with ids := ids } := by
  constructor
  case fresh =>
    intro probe other at_ none_
    by_cases hit : probe = pathId
    · rw [hit, own] at at_
      cases at_
      exact fresh none_
    · rw [elsewhere probe hit] at at_
      exact settled.fresh probe other at_ none_
  case gone =>
    intro probe seq listed
    by_cases hit : probe = pathId
    · subst hit
      exact ⟨view, own, gone seq listed⟩
    · rw [elsewhere probe hit]
      exact settled.gone probe seq listed

/-- Nothing is missing from a path that was not there. -/
theorem Settled.created (settled : self.Settled) (created : Created self.ids ids pathId view)
    (fresh : view.initialized = false → view.next = 0) : Settled { self with ids := ids } := by
  refine settled.change created.own created.elsewhere fresh fun seq listed => ?_
  obtain ⟨old, at_, -⟩ := settled.gone pathId seq listed
  rw [created.absent] at at_
  cases at_

/-- An identifier that is added is not one that is missing. -/
theorem Settled.newScid (settled : self.Settled) (pathId : Nat) (cid : ConnectionId) (resetToken : Option Nat)
    (advertise : Bool) (networkPath : Option FourTuple) (retireIfNeeded : Bool) :
    Settled { self with
      ids := (self.ids.newScid pathId cid resetToken advertise networkPath retireIfNeeded).2 } := by
  have outcome := newScid_cases self.ids pathId cid resetToken advertise networkPath retireIfNeeded
  generalize self.ids.newScid pathId cid resetToken advertise networkPath retireIfNeeded = done at outcome
  obtain ⟨result, ids⟩ := done
  dsimp only at outcome ⊢
  cases outcome with
  | failed error quiet => exact settled.same quiet.view
  | known at_ some_ found same quiet => exact settled.same quiet.view
  | @first _ view at_ none_ token own elsewhere books queue =>
    refine settled.change own elsewhere (fun none_ => by cases none_) fun seq listed => ?_
    -- No number was given before the first identifier, so none can be missing.
    obtain ⟨old, at', below, -⟩ := settled.gone pathId seq listed
    rw [at_] at at'
    cases at'
    have zero := settled.fresh pathId view at_ none_
    omega
  | @next _ view at_ some_ fresh token own elsewhere books queue =>
    refine settled.change own elsewhere (fun none_ => by cases none_) fun seq listed => ?_
    -- The new number is above all that are missing.
    obtain ⟨old, at', below, absent⟩ := settled.gone pathId seq listed
    rw [at_] at at'
    cases at'
    refine ⟨Nat.lt_succ_of_lt below, ?_⟩
    unfold SourceView.add
    exact (if_neg (Nat.ne_of_lt below)).trans absent
  | created token created queue => exact settled.created created fun none_ => by cases none_

/-- An identifier that is removed is missing then, like the others. -/
theorem Settled.drop (settled : self.Settled) (pathId seq : Nat) (pktDcid : ConnectionId) :
    Settled { self with ids := (self.ids.retireScid pathId seq pktDcid).2 } := by
  by_cases retires : self.ids.RetiresScid pathId seq
  · obtain ⟨old, e, at_, held, own, elsewhere, -⟩ := retireScid_drops retires pktDcid
    refine settled.change own elsewhere (settled.fresh pathId old at_) fun probe listed => ?_
    obtain ⟨other, at', below, absent⟩ := settled.gone pathId probe listed
    rw [at_] at at'
    cases at'
    refine ⟨below, ?_⟩
    unfold SourceView.drop
    dsimp only
    split
    · rfl
    · exact absent
  · exact settled.same (retireScid_quiet retires pktDcid).view

/-- A retirement that succeeds on a path with an identifier to spare leaves this one missing. -/
theorem missing_of_ok {seq : Nat} {pktDcid : ConnectionId}
    (done : (self.ids.retireScid pathId seq pktDcid).1.isOk = true) (spares : Spares self.ids pathId) :
    ∃ view, (self.ids.retireScid pathId seq pktDcid).2.view pathId = some view ∧ seq < view.next ∧
      view.get seq = none := by
  obtain ⟨pcid, found, long⟩ := spares
  have found : self.ids.getPcids pathId = some pcid := found
  have at_ : self.ids.view pathId = some pcid.sourceView := by rw [ConnectionIdentifiers.view, found]; rfl
  -- A number that was not given is refused.
  have below : seq < pcid.nextScidSeq := by
    by_contra above
    unfold retireScid at done
    rw [found] at done
    dsimp only at done
    rw [PathConnectionIdentifiers.retireScid, if_pos (Nat.not_lt.mp above)] at done
    cases done
  by_cases retires : self.ids.RetiresScid pathId seq
  · obtain ⟨old, e, at', held, own, -⟩ := retireScid_drops retires pktDcid
    rw [at_] at at'
    cases at'
    exact ⟨_, own, below, if_pos rfl⟩
  · refine ⟨pcid.sourceView, by rw [(retireScid_quiet retires pktDcid).view]; exact at_, below, ?_⟩
    cases held : pcid.scids.get seq with
    | none => exact held
    | some e => exact absurd ⟨pcid, found, below, long, by rw [held]; rfl⟩ retires

theorem Settled.retireScid (settled : self.Settled) (search : List Nat → Nat → Nat) (pathId seq : Nat)
    (pktDcid : ConnectionId) : (self.next search (.retireScid pathId seq pktDcid)).Settled := by
  obtain ⟨fresh, gone⟩ := settled.drop pathId seq pktDcid
  unfold Repeating.next
  dsimp only [step]
  by_cases done : (self.ids.retireScid pathId seq pktDcid).1.isOk = true
  · rw [if_pos done]
    refine ⟨fresh, fun probe other listed => ?_⟩
    by_cases spares : Spares self.ids pathId
    · rw [if_pos spares] at listed
      rcases List.mem_cons.mp listed with same | listed
      · cases same
        exact missing_of_ok done spares
      · exact gone probe other listed
    · rw [if_neg spares] at listed
      exact gone probe other listed
  · rw [if_neg done]
    exact ⟨fresh, gone⟩

/-- A path that is removed takes its records with it. -/
theorem Settled.removePathId (settled : self.Settled) (search : List Nat → Nat → Nat) (pathId : Nat) :
    (self.next search (.removePathId pathId)).Settled := by
  have removes := removePathId_removes self.ids pathId
  -- The view of a path that is left is the one from before.
  have left : ∀ probe view, (self.ids.removePathId pathId).2.view probe = some view →
      self.ids.view probe = some view := by
    intro probe view at_
    by_cases hit : probe = pathId
    · subst hit
      rw [removes.own] at at_
      split at at_
      · cases at_
      · exact at_
    · rw [removes.elsewhere probe hit] at at_
      exact at_
  constructor
  case fresh => exact fun probe view at_ none_ => settled.fresh probe view (left probe view at_) none_
  case gone =>
    intro probe seq listed
    obtain ⟨listed, there⟩ := List.mem_filter.mp listed
    have there : ((self.ids.removePathId pathId).2.view probe).isSome = true := by
      rw [ConnectionIdentifiers.view, Option.isSome_map]
      exact there
    obtain ⟨view, at_⟩ := Option.isSome_iff_exists.mp there
    obtain ⟨old, at', missing⟩ := settled.gone probe seq listed
    rw [left probe view at_] at at'
    cases at'
    exact ⟨view, at_, missing⟩

/-- Every operation keeps missing what is missing. -/
theorem Settled.next (settled : self.Settled) (search : List Nat → Nat → Nat) (event : IdEvent) :
    (self.next search event).Settled := by
  cases event with
  | newScid pathId cid resetToken advertise networkPath retireIfNeeded =>
    exact settled.newScid pathId cid resetToken advertise networkPath retireIfNeeded
  | retireScid pathId seq pktDcid => exact settled.retireScid search pathId seq pktDcid
  | newDcid pathId cid seq resetToken retirePriorTo =>
    have outcome := newDcid_cases search self.ids pathId cid seq resetToken retirePriorTo
    show Settled { self with ids := (self.ids.newDcid search pathId cid seq resetToken retirePriorTo).2.2 }
    cases outcome with
    | quiet quiet => exact settled.same quiet.view
    | created created queue => exact settled.created created fun _ => rfl
  | consumeLowestSparePathId => exact settled.same (consumeLowestSparePathId_same self.ids).1
  | removePathId pathId => exact settled.removePathId search pathId
  | setInitialDcid | retireDcid | markRetireDcidSeq | setSourceConnIdLimit | setLocalMaxPathId | setRemoteMaxPathId
  | closingPathId => exact settled.same (step_quiet search self.ids rfl).view

theorem Settled.idempotent_iff (settled : self.Settled) (event : IdEvent) :
    self.Idempotent event ↔ self.Repeatable event := by
  cases event with
  | retireScid pathId seq pktDcid =>
    refine imp_congr_right fun _ => ?_
    rw [retireScid_none_iff]
    refine forall_congr' fun pcid => forall_congr' fun found => and_congr_right fun _ => ?_
    refine ⟨.inr, fun either => either.elim (fun listed => ?_) id⟩
    -- What was retired on the path is missing, however much was added since.
    have found : self.ids.getPcids pathId = some pcid := found
    obtain ⟨view, at_, below, absent⟩ := settled.gone pathId seq listed
    rw [ConnectionIdentifiers.view, found] at at_
    cases at_
    exact ⟨below, fun _ => absent⟩
  | _ => exact Iff.rfl

/-- Repeated retirements do nothing throughout a run just when each is repeatable. -/
theorem always_idempotent_iff (search : List Nat → Nat → Nat) (destinationConnIdLimit : Nat)
    (initialScid : ConnectionId) (networkPath : FourTuple) (resetToken : Option Nat) (events : List IdEvent) :
    Runs.Along (next search) Idempotent (start destinationConnIdLimit initialScid networkPath resetToken) events ↔
      Runs.Along (next search) Repeatable (start destinationConnIdLimit initialScid networkPath resetToken) events :=
  Runs.along_congr (fun _ event settled => settled.next search event)
    (fun _ event settled => settled.idempotent_iff event) events
    (settled_start destinationConnIdLimit initialScid networkPath resetToken)

/-- A retirement that is repeated while one identifier is left fails. -/
theorem repeated_with_one_left :
    let search := fun seqs bound => (seqs.takeWhile (· < bound)).length
    let events : List IdEvent := [.newScid 0 [2] (some 8) true none false, .retireScid 0 0 [2]]
    let state := Runs.run (next search) (start 2 [1] (⟨[], 0⟩, ⟨[], 0⟩) none) events
    (0, 0) ∈ state.succeeded ∧ (state.ids.retireScid 0 0 [2]).1 = .error .outOfIdentifiers ∧
      ¬ Runs.Along (next search) Idempotent (start 2 [1] (⟨[], 0⟩, ⟨[], 0⟩) none)
        (events ++ [.retireScid 0 0 [2]]) := by
  intro search events state
  have facts : (0, 0) ∈ state.succeeded ∧ (state.ids.retireScid 0 0 [2]).1 = .error .outOfIdentifiers := by decide
  obtain ⟨once, failed⟩ := facts
  refine ⟨once, failed, fun along => ?_⟩
  have same := (Runs.along_append.mp along).2.1 once
  have result := congrArg Prod.fst same
  rw [failed] at result
  cases result

end Repeating

end ConnectionIdentifiers

end Flexicast
