import Flexicast.Paths.Destinations

/-! Identifiers of the peer below a bound that it gave are not in use any more, and it is told so. -/

namespace Flexicast

namespace DestinationView

/-- The active identifiers reach all bounds once an identifier is accepted with another one. -/
def Respects (search : List Nat → Nat → Nat) (view : DestinationView) (bounds : List Nat) (cid : ConnectionId)
    (seq retirePriorTo : Nat) : Prop :=
  if view.initialized = false then retirePriorTo ≤ seq
  else if ∃ e ∈ view.held, e.cid = cid ∧ e.seq = seq then ∀ e ∈ view.held, retirePriorTo ≤ e.seq
  else if seq < view.largest then True
  else (∀ bound ∈ bounds, bound ≤ seq) ∧ (view.largest < retirePriorTo →
    ∀ e ∈ view.held.drop (search (view.held.map ConnectionIdEntry.seq) retirePriorTo), retirePriorTo ≤ e.seq)

instance (search : List Nat → Nat → Nat) (view : DestinationView) (bounds : List Nat) (cid : ConnectionId)
    (seq retirePriorTo : Nat) : Decidable (view.Respects search bounds cid seq retirePriorTo) :=
  inferInstanceAs (Decidable (@ite _ _ _ _ _))

/-- The active identifiers reach some bounds. -/
def Reaches (view : DestinationView) (bounds : List Nat) : Prop :=
  ∀ bound ∈ bounds, ∀ e ∈ view.active, bound ≤ e.seq

variable {view new : DestinationView} {search : List Nat → Nat → Nat} {cid : ConnectionId}
  {seq resetToken retirePriorTo : Nat} {bounds : List Nat}

theorem active_of_initialized (init : view.initialized = true) : view.active = view.held := if_pos init

/-- What is removed as an identifier is accepted is marked as retired. -/
theorem retired_of_accepts
    (accepts : PathConnectionIdentifiers.Accepts search view cid seq resetToken retirePriorTo new) :
    new.initialized = true ∧ (∀ s ∈ view.retired, s ∈ new.retired) ∧
      (∀ e ∈ view.active, e ∉ new.active → e.seq ∈ new.retired) ∧
      ((∀ e ∈ new.active, e.cid ≠ cid) → seq ∈ new.retired) := by
  cases accepts with
  | first none_ =>
    refine ⟨rfl, fun _ member => member, ?_, ?_⟩
    · intro e member
      rw [DestinationView.active, none_] at member
      cases member
    · exact fun other => absurd rfl (other ⟨cid, seq, some resetToken, none⟩ List.mem_cons_self)
  | known init member same number =>
    refine ⟨init, fun _ member => member, fun e active gone => absurd active gone, ?_⟩
    intro other
    rw [active_of_initialized init] at other
    exact absurd same (other _ member)
  | late init fresh above below marked =>
    refine ⟨init, fun s member => (marked s).mpr (.inr member), fun e active gone => absurd active gone, ?_⟩
    exact fun _ => (marked seq).mpr (.inl rfl)
  | added init fresh above next old =>
    have active : DestinationView.active { view with held := view.held ++ [⟨cid, seq, some resetToken, none⟩] } =
        view.held ++ [⟨cid, seq, some resetToken, none⟩] := active_of_initialized init
    refine ⟨init, fun _ member => member, ?_, ?_⟩
    · intro e member gone
      rw [active_of_initialized init] at member
      rw [active] at gone
      exact absurd (List.mem_append_left _ member) gone
    · intro other
      rw [active] at other
      exact absurd rfl (other ⟨cid, seq, some resetToken, none⟩ (List.mem_append_right _ List.mem_cons_self))
  | drained init fresh above new marked =>
    refine ⟨rfl, fun s member => (marked s).mpr (.inl member), ?_, ?_⟩
    · -- What is not behind the place of the bound is in front of it.
      intro e member gone
      rw [active_of_initialized init] at member
      rw [active_of_initialized rfl] at gone
      refine (marked e.seq).mpr (.inr ⟨e, ?_, rfl⟩)
      rw [← List.take_append_drop (search (view.held.map ConnectionIdEntry.seq) retirePriorTo) view.held] at member
      exact (List.mem_append.mp member).resolve_right fun behind => gone (List.mem_append_left _ behind)
    · intro other
      rw [active_of_initialized rfl] at other
      exact absurd rfl (other ⟨cid, seq, some resetToken, none⟩ (List.mem_append_right _ List.mem_cons_self))

/-- The active identifiers reach all bounds just when the ones before respect the new one. -/
theorem reaches_iff_respects
    (accepts : PathConnectionIdentifiers.Accepts search view cid seq resetToken retirePriorTo new)
    (reaches : view.Reaches bounds) (largest : view.largest = 0 ∨ view.largest ∈ bounds)
    (empty : view.initialized = false → bounds = []) :
    new.Reaches (retirePriorTo :: bounds) ↔ view.Respects search bounds cid seq retirePriorTo := by
  -- What was applied before is a bound that the identifiers reach.
  have applied : ∀ e ∈ view.active, view.largest ≤ e.seq := by
    intro e member
    rcases largest with zero | listed
    · omega
    · exact reaches _ listed e member
  have all : ∀ {after : DestinationView}, after.Reaches (retirePriorTo :: bounds) ↔
      (∀ e ∈ after.active, retirePriorTo ≤ e.seq) ∧ after.Reaches bounds := List.forall_mem_cons
  -- A bound is reached by what is left and by the identifier that is added.
  have split : ∀ {after : DestinationView} {rest : List ConnectionIdEntry},
      after.active = rest ++ [⟨cid, seq, some resetToken, none⟩] → ∀ {bound : Nat},
      (∀ e ∈ after.active, bound ≤ e.seq) ↔ (∀ e ∈ rest, bound ≤ e.seq) ∧ bound ≤ seq := by
    intro after rest same bound
    rw [same]
    simp [or_imp, forall_and]
  unfold Respects
  cases accepts with
  -- No bound came before the first identifier, so only its own one matters.
  | first none_ =>
    rw [if_pos none_, all, empty none_]
    simp [DestinationView.active, Reaches]
  -- A frame that repeats an identifier changes nothing, whatever bound it carries.
  | @known e init member same number =>
    rw [if_neg (by simp [init]), if_pos ⟨e, member, same, number⟩, all, active_of_initialized init]
    exact and_iff_left reaches
  -- The identifier never becomes active, and the bound is not above the one that was applied.
  | late init fresh above below marked =>
    have unlisted : ¬ ∃ e ∈ view.held, e.cid = cid ∧ e.seq = seq :=
      fun ⟨e, member, same, _⟩ => (fresh e member).1 same
    rw [if_neg (by simp [init]), if_neg unlisted, if_pos below, all]
    refine iff_of_true ⟨fun e member => ?_, reaches⟩ trivial
    have low := applied e member
    omega
  -- The identifiers are above the old bound, so only the new one can be below a bound.
  | added init fresh above next old =>
    have unlisted : ¬ ∃ e ∈ view.held, e.cid = cid ∧ e.seq = seq :=
      fun ⟨e, member, same, _⟩ => (fresh e member).1 same
    rw [if_neg (by simp [init]), if_neg unlisted, if_neg (Nat.not_lt.mpr next), all]
    have active := @active_of_initialized
      { view with held := view.held ++ [⟨cid, seq, some resetToken, none⟩] } init
    rw [active_of_initialized init] at applied
    constructor
    · rintro ⟨-, reaches⟩
      exact ⟨fun bound listed => ((split active).mp (reaches bound listed)).2, fun more => by omega⟩
    · rintro ⟨low, -⟩
      refine ⟨(split active).mpr ⟨fun e member => Nat.le_trans old (applied e member), above⟩, ?_⟩
      intro bound listed
      rw [Reaches, active_of_initialized init] at reaches
      exact (split active).mpr ⟨reaches bound listed, low bound listed⟩
  -- What is behind the place of the search stays active, and may be below the bound.
  | drained init fresh above more marked =>
    have unlisted : ¬ ∃ e ∈ view.held, e.cid = cid ∧ e.seq = seq :=
      fun ⟨e, member, same, _⟩ => (fresh e member).1 same
    have next : ¬ seq < view.largest := by omega
    rw [if_neg (by simp [init]), if_neg unlisted, if_neg next, all]
    rename_i retired
    have active := @active_of_initialized
      ⟨view.held.drop (search (view.held.map ConnectionIdEntry.seq) retirePriorTo) ++
        [⟨cid, seq, some resetToken, none⟩], retired, retirePriorTo, true⟩ rfl
    constructor
    · rintro ⟨new, reaches⟩
      exact ⟨fun bound listed => ((split active).mp (reaches bound listed)).2, fun _ => ((split active).mp new).1⟩
    · rintro ⟨low, behind⟩
      refine ⟨(split active).mpr ⟨behind more, above⟩, fun bound listed => ?_⟩
      rw [Reaches, active_of_initialized init] at reaches
      refine (split active).mpr ⟨fun e member => ?_, low bound listed⟩
      exact reaches bound listed e (List.mem_of_mem_drop member)

end DestinationView

namespace ConnectionIdentifiers

/-- An identifier of the peer is marked as retired. -/
def IsRetired (self : ConnectionIdentifiers) (pathId seq : Nat) : Prop :=
  ∃ pcid ∈ self.getPcids pathId, seq ∈ pcid.retireDcidSeqs.inner

instance (self : ConnectionIdentifiers) (pathId seq : Nat) : Decidable (self.IsRetired pathId seq) :=
  inferInstanceAs (Decidable (∃ pcid ∈ self.getPcids pathId, _))

/-- An identifier of the peer that is accepted comes with a new path, or changes its own one. -/
theorem newDcid_destinations {search : List Nat → Nat → Nat} {self : ConnectionIdentifiers} {pathId : Nat}
    {cid : ConnectionId} {seq resetToken retirePriorTo : Nat}
    (done : (self.newDcid search pathId cid seq resetToken retirePriorTo).1.isOk = true) :
    (∀ other, other ≠ pathId →
      (self.newDcid search pathId cid seq resetToken retirePriorTo).2.2.destinations other = self.destinations other) ∧
    ((self.getPcids pathId = none ∧
        (self.newDcid search pathId cid seq resetToken retirePriorTo).2.2.destinations pathId =
          some ⟨[⟨cid, 0, none, none⟩], [], 0, true⟩) ∨
      ∃ pcid new, self.getPcids pathId = some pcid ∧
        (self.newDcid search pathId cid seq resetToken retirePriorTo).2.2.destinations pathId = some new ∧
        PathConnectionIdentifiers.Accepts search pcid.destinationView cid seq resetToken retirePriorTo new) := by
  unfold newDcid at done ⊢
  by_cases short : self.zeroLengthDcid = true
  · rw [if_pos short] at done
    cases done
  rw [if_neg short] at done ⊢
  cases found : self.getPcids pathId with
  | some pcid =>
    rw [found] at done
    dsimp only at done ⊢
    -- The result of the path is the one of the connection.
    have accepted : (pcid.newDcid search cid seq resetToken retirePriorTo).1 = .ok () := by
      cases result : (pcid.newDcid search cid seq resetToken retirePriorTo).1 with
      | ok _ => rfl
      | error error =>
        rw [result] at done
        cases done
    obtain ⟨own, accepts⟩ := PathConnectionIdentifiers.newDcid_accepts accepted
    have own := own.trans (pathId_of_getPcids found)
    have get := getPcids_setPcids found own
    refine ⟨fun other apart => ?_, .inr ⟨pcid, _, rfl, ?_, accepts⟩⟩
    · rw [destinations, get, if_neg apart]
      rfl
    · rw [destinations, get, if_pos rfl]
      rfl
  | none =>
    rw [found] at done
    dsimp only at done ⊢
    have own : (PathConnectionIdentifiers.newWithPathId pathId self.destinationConnIdLimit self.sourceConnIdLimit
        none (some cid) none (some resetToken)).pathId = pathId := rfl
    rcases addPath_destinations self own with ⟨error, failed⟩ | ⟨-, seen⟩
    · rw [failed] at done
      cases done
    · refine ⟨fun other apart => (seen other).trans (if_neg apart), .inl ⟨rfl, ?_⟩⟩
      rw [seen, if_pos rfl]
      rfl

/-- The connection identifiers with what the peer asked for. -/
structure Retiring where
  ids : ConnectionIdentifiers
  /-- The bounds that the peer gave, with their paths. -/
  received : List (Nat × Nat)
  /-- The identifiers that were removed or refused as new ones were accepted, with their paths. -/
  removed : List (Nat × Nat)
  /-- The retired identifiers that the peer was told about, with their paths. -/
  told : List (Nat × Nat)

namespace Retiring

/-- The bounds that the peer gave for a path. -/
def bounds (self : Retiring) (pathId : Nat) : List Nat :=
  (self.received.filter fun pair => pair.1 == pathId).map Prod.snd

/-- What is not active any more after an identifier was accepted, or never was. -/
def gone (before after : List ConnectionIdEntry) (cid : ConnectionId) (seq : Nat) : List Nat :=
  ((before.filter fun e => !after.contains e).map ConnectionIdEntry.seq) ++
    if after.any fun e => e.cid == cid then [] else [seq]

/-- One operation. -/
def next (search : List Nat → Nat → Nat) (self : Retiring) (event : IdEvent) : Retiring :=
  match event with
  | .newDcid pathId cid seq resetToken retirePriorTo =>
    let ids := (self.ids.newDcid search pathId cid seq resetToken retirePriorTo).2.2
    { self with
      ids := ids
      received := (pathId, retirePriorTo) :: self.received
      removed := (gone (self.ids.activeDcids pathId) (ids.activeDcids pathId) cid seq).map (pathId, ·) ++ self.removed }
  | .markRetireDcidSeq pathId seq retire =>
    { self with
      ids := (self.ids.markRetireDcidSeq pathId seq retire).2
      told := if retire = false ∧ self.ids.IsRetired pathId seq then (pathId, seq) :: self.told else self.told }
  | event => { self with ids := self.ids.step search event }

/-- The connection identifiers of a new connection. -/
def start (destinationConnIdLimit : Nat) (initialScid : ConnectionId) (networkPath : FourTuple)
    (resetToken : Option Nat) : Retiring :=
  ⟨.new destinationConnIdLimit initialScid networkPath resetToken, [], [], []⟩

/-- What the peer asked for is honoured. -/
structure Honoured (state : Retiring) : Prop where
  active : ∀ pathId bound, (pathId, bound) ∈ state.received → ∀ e ∈ state.ids.activeDcids pathId, bound ≤ e.seq
  /-- The peer is told, or will be, about all that were removed. -/
  queued : ∀ pathId seq, (pathId, seq) ∈ state.removed →
    state.ids.IsRetired pathId seq ∨ (pathId, seq) ∈ state.told

/-- New identifiers are accepted, the first one is set before, and paths are not removed. -/
def Orderly (search : List Nat → Nat → Nat) (self : Retiring) : IdEvent → Prop
  | .newDcid pathId cid seq resetToken retirePriorTo =>
    (self.ids.newDcid search pathId cid seq resetToken retirePriorTo).1.isOk = true
  | .setInitialDcid _ _ _ => self.bounds 0 = []
  | .removePathId _ => False
  | _ => True

instance (search : List Nat → Nat → Nat) (self : Retiring) : (event : IdEvent) → Decidable (self.Orderly search event)
  | .newDcid pathId cid seq resetToken retirePriorTo =>
    inferInstanceAs (Decidable ((self.ids.newDcid search pathId cid seq resetToken retirePriorTo).1.isOk = true))
  | .setInitialDcid _ _ _ => inferInstanceAs (Decidable (self.bounds 0 = []))
  | .removePathId _ => isFalse id
  | .newScid .. | .retireScid .. | .retireDcid .. | .markRetireDcidSeq .. | .setSourceConnIdLimit _
  | .setLocalMaxPathId .. | .setRemoteMaxPathId _ | .consumeLowestSparePathId | .closingPathId _ => isTrue trivial

/-- A new identifier comes with a bound that the active ones reach, on a new path with none. -/
def Sound (search : List Nat → Nat → Nat) (self : Retiring) : IdEvent → Prop
  | .newDcid pathId cid seq _ retirePriorTo =>
    (self.ids.getPcids pathId = none → retirePriorTo = 0) ∧
      ∀ pcid ∈ self.ids.getPcids pathId,
        pcid.destinationView.Respects search (self.bounds pathId) cid seq retirePriorTo
  | _ => True

instance (search : List Nat → Nat → Nat) (self : Retiring) : (event : IdEvent) → Decidable (self.Sound search event)
  | .newDcid pathId _ _ _ _ =>
    have : Decidable (self.ids.getPcids pathId = none) :=
      decidable_of_iff ((self.ids.getPcids pathId).isNone = true) Option.isNone_iff_eq_none
    inferInstanceAs (Decidable (_ ∧ ∀ pcid ∈ self.ids.getPcids pathId, _))
  | .newScid .. | .setInitialDcid .. | .retireScid .. | .retireDcid .. | .markRetireDcidSeq ..
  | .setSourceConnIdLimit _ | .setLocalMaxPathId .. | .setRemoteMaxPathId _ | .consumeLowestSparePathId
  | .closingPathId _ | .removePathId _ => isTrue trivial

/-- What holds of the bounds in any case. -/
structure Tracked (state : Retiring) : Prop where
  known : ∀ pathId bound, (pathId, bound) ∈ state.received →
    ∃ view, state.ids.destinations pathId = some view ∧ view.initialized = true
  /-- The bound that was applied last was given. -/
  largest : ∀ pathId view, state.ids.destinations pathId = some view →
    view.largest = 0 ∨ (pathId, view.largest) ∈ state.received

variable {self : Retiring} {search : List Nat → Nat → Nat} {pathId seq : Nat}

theorem mem_bounds {bound : Nat} : bound ∈ self.bounds pathId ↔ (pathId, bound) ∈ self.received := by
  unfold bounds
  constructor
  · intro member
    obtain ⟨⟨path, _⟩, listed, rfl⟩ := List.mem_map.mp member
    obtain ⟨listed, own⟩ := List.mem_filter.mp listed
    have own : path = pathId := by simpa using own
    rw [← own]
    exact listed
  · intro listed
    exact List.mem_map.mpr ⟨(pathId, bound), List.mem_filter.mpr ⟨listed, by simp⟩, rfl⟩

variable {ids : ConnectionIdentifiers} {cid : ConnectionId} {resetToken retirePriorTo : Nat} {event : IdEvent}

theorem isRetired_iff :
    ids.IsRetired pathId seq ↔ ∃ view, ids.destinations pathId = some view ∧ seq ∈ view.retired := by
  constructor
  · rintro ⟨pcid, found, member⟩
    have found : ids.getPcids pathId = some pcid := found
    exact ⟨pcid.destinationView, by rw [destinations, found]; rfl, member⟩
  · rintro ⟨view, at_, member⟩
    obtain ⟨pcid, found, rfl⟩ := Option.map_eq_some_iff.mp at_
    exact ⟨pcid, found, member⟩

theorem activeDcids_eq {view : DestinationView} (at_ : ids.destinations pathId = some view) :
    ids.activeDcids pathId = view.active := by
  rw [activeDcids, at_]
  rfl

theorem mem_gone {before after : List ConnectionIdEntry} {probe : Nat} (member : probe ∈ gone before after cid seq) :
    (∃ e ∈ before, e ∉ after ∧ e.seq = probe) ∨ ((∀ e ∈ after, e.cid ≠ cid) ∧ probe = seq) := by
  unfold gone at member
  -- It was removed, or it is the new one that was refused.
  rcases List.mem_append.mp member with left | refused
  · obtain ⟨e, listed, rfl⟩ := List.mem_map.mp left
    obtain ⟨listed, gone⟩ := List.mem_filter.mp listed
    exact .inl ⟨e, listed, by simpa using gone, rfl⟩
  · split at refused
    · cases refused
    · rename_i none_
      refine .inr ⟨fun e listed same => none_ ?_, List.mem_singleton.mp refused⟩
      exact List.any_eq_true.mpr ⟨e, listed, by simpa using same⟩

/-- What is honoured stays so when identifiers of the peer are let go. -/
theorem Honoured.eases (honoured : self.Honoured) (tracked : self.Tracked) (eases : Eases self.ids ids) :
    Honoured { self with ids := ids } := by
  constructor
  · intro pathId bound listed e member
    have member : e ∈ ids.activeDcids pathId := member
    obtain ⟨view, at_, -⟩ := tracked.known pathId bound listed
    -- A bound was given for a path that exists, so the path only let go of identifiers.
    rcases eases pathId with ⟨old, new, before, after, less⟩ | ⟨none_, -⟩
    · rw [activeDcids_eq after] at member
      apply honoured.active pathId bound listed
      rw [activeDcids_eq before]
      exact less.active e member
    · rw [none_] at at_
      cases at_
  · intro pathId seq listed
    rcases honoured.queued pathId seq listed with retired | told
    · obtain ⟨view, at_, member⟩ := isRetired_iff.mp retired
      rcases eases pathId with ⟨old, new, before, after, less⟩ | ⟨none_, -⟩
      · rw [before] at at_
        cases at_
        exact .inl (isRetired_iff.mpr ⟨new, after, less.retired seq member⟩)
      · rw [none_] at at_
        cases at_
    · exact .inr told

/-- What is tracked stays so when identifiers of the peer are let go. -/
theorem Tracked.eases (tracked : self.Tracked) (eases : Eases self.ids ids) : Tracked { self with ids := ids } := by
  constructor
  · intro pathId bound listed
    obtain ⟨view, at_, init⟩ := tracked.known pathId bound listed
    rcases eases pathId with ⟨old, new, before, after, less⟩ | ⟨none_, -⟩
    · rw [before] at at_
      cases at_
      exact ⟨new, after, less.initialized.trans init⟩
    · rw [none_] at at_
      cases at_
  · intro pathId view at_
    have at_ : ids.destinations pathId = some view := at_
    rcases eases pathId with ⟨old, new, before, after, less⟩ | ⟨-, fresh⟩
    · rw [after] at at_
      cases at_
      rw [less.largest]
      exact tracked.largest pathId old before
    · exact .inl (fresh view at_).2

/-- What the peer was told about is marked no more. -/
theorem destinations_markRetire_false (ids : ConnectionIdentifiers) (pathId seq probe : Nat) :
    (ids.markRetireDcidSeq pathId seq false).2.destinations probe =
      if probe = pathId then (ids.destinations probe).map fun view =>
        { view with retired := view.retired.filter fun listed => listed != seq } else ids.destinations probe := by
  unfold ConnectionIdentifiers.markRetireDcidSeq
  cases found : ids.getPcids pathId with
  | none =>
    -- A path that does not exist has nothing to be marked.
    by_cases hit : probe = pathId
    · rw [if_pos hit, hit, destinations, found]
      rfl
    · rw [if_neg hit]
  | some pcid =>
    have own : (pcid.markRetireDcidSeq seq false).2.pathId = pathId :=
      (pcid.markRetireDcidSeq_same seq false).pathId.trans (pathId_of_getPcids found)
    dsimp only
    rw [destinations, getPcids_setPcids found own]
    by_cases hit : probe = pathId
    · rw [if_pos hit, if_pos hit, hit, destinations, found]
      rfl
    · rw [if_neg hit, if_neg hit]
      rfl

/-- What is honoured stays so as the peer is told about an identifier. -/
theorem Honoured.tell (honoured : self.Honoured) (pathId seq : Nat) :
    (self.next search (.markRetireDcidSeq pathId seq false)).Honoured := by
  have seen := destinations_markRetire_false self.ids pathId seq
  have active : ∀ probe, (self.ids.markRetireDcidSeq pathId seq false).2.activeDcids probe =
      self.ids.activeDcids probe := by
    intro probe
    rw [activeDcids, seen]
    split
    · rw [Option.map_map]
      rfl
    · rfl
  constructor
  · intro path bound listed e member
    apply honoured.active path bound listed
    rw [← active]
    exact member
  · intro path probe listed
    show IsRetired _ path probe ∨ (path, probe) ∈ if _ then _ else _
    rcases honoured.queued path probe listed with retired | told
    · obtain ⟨view, at_, member⟩ := isRetired_iff.mp retired
      -- The identifier that the peer is told about leaves the set and is recorded as told.
      by_cases same : path = pathId ∧ probe = seq
      · obtain ⟨rfl, rfl⟩ := same
        exact .inr (by rw [if_pos ⟨rfl, retired⟩]; exact List.mem_cons_self)
      · refine .inl (isRetired_iff.mpr ?_)
        show ∃ view, (self.ids.markRetireDcidSeq pathId seq false).2.destinations path = some view ∧ _
        rw [seen, at_]
        by_cases hit : path = pathId
        · rw [if_pos hit]
          have other : probe ≠ seq := fun equal => same ⟨hit, equal⟩
          exact ⟨_, rfl, List.mem_filter.mpr ⟨member, by simpa using other⟩⟩
        · rw [if_neg hit]
          exact ⟨view, rfl, member⟩
    · refine .inr ?_
      split
      · exact List.mem_cons_of_mem _ told
      · exact told

/-- What is tracked stays so as the peer is told about an identifier. -/
theorem Tracked.tell (tracked : self.Tracked) (pathId seq : Nat) :
    (self.next search (.markRetireDcidSeq pathId seq false)).Tracked := by
  have seen := destinations_markRetire_false self.ids pathId seq
  constructor
  · intro path bound listed
    obtain ⟨view, at_, init⟩ := tracked.known path bound listed
    show ∃ view, (self.ids.markRetireDcidSeq pathId seq false).2.destinations path = some view ∧ _
    rw [seen, at_]
    split
    · exact ⟨_, rfl, init⟩
    · exact ⟨view, rfl, init⟩
  · intro path view at_
    have at_ : (self.ids.markRetireDcidSeq pathId seq false).2.destinations path = some view := at_
    rw [seen] at at_
    split at at_
    · obtain ⟨old, before, rfl⟩ := Option.map_eq_some_iff.mp at_
      exact tracked.largest path old before
    · exact tracked.largest path view at_

/-- The first identifier of the peer is the only one of the first path, of which nothing else changes. -/
theorem destinations_setInitialDcid (ids : ConnectionIdentifiers) (cid : ConnectionId) (resetToken : Option Nat)
    (networkPath : Option FourTuple) (probe : Nat) :
    (probe ≠ 0 ∧ (ids.setInitialDcid cid resetToken networkPath).destinations probe = ids.destinations probe) ∨
      (probe = 0 ∧ (ids.setInitialDcid cid resetToken networkPath).destinations probe =
        (ids.destinations probe).map fun view =>
          { view with held := [⟨cid, 0, resetToken, networkPath⟩], initialized := true }) := by
  unfold ConnectionIdentifiers.setInitialDcid
  dsimp only
  cases found : ids.getPcids 0 with
  | none =>
    have found' : getPcids { ids with zeroLengthDcid := cid.isEmpty } 0 = none := found
    rw [found']
    by_cases hit : probe = 0
    · refine .inr ⟨hit, ?_⟩
      rw [hit, destinations, destinations, found', found]
      rfl
    · exact .inl ⟨hit, rfl⟩
  | some pcid =>
    have found' : getPcids { ids with zeroLengthDcid := cid.isEmpty } 0 = some pcid := found
    have number : pcid.pathId = 0 := pathId_of_getPcids found
    have own : (pcid.setInitialDcid cid 0 resetToken networkPath).pathId = 0 := number
    rw [found']
    dsimp only
    rw [destinations, getPcids_setPcids found' own]
    by_cases hit : probe = 0
    · refine .inr ⟨hit, ?_⟩
      rw [if_pos hit, hit, destinations, found]
      rfl
    · refine .inl ⟨hit, ?_⟩
      rw [if_neg hit]
      rfl

theorem apart_of_bounds (none_ : self.bounds 0 = []) {bound : Nat} (listed : (pathId, bound) ∈ self.received) :
    pathId ≠ 0 := by
  rintro rfl
  have member := mem_bounds.mpr listed
  rw [none_] at member
  cases member

/-- What is honoured stays so when the first identifier of the peer comes before any bound. -/
theorem Honoured.initial (honoured : self.Honoured) (none_ : self.bounds 0 = []) (cid : ConnectionId)
    (resetToken : Option Nat) (networkPath : Option FourTuple) :
    (self.next search (.setInitialDcid cid resetToken networkPath)).Honoured := by
  have seen := destinations_setInitialDcid self.ids cid resetToken networkPath
  constructor
  · intro path bound listed e member
    have member : e ∈ (self.ids.setInitialDcid cid resetToken networkPath).activeDcids path := member
    -- No bound was given for the first path, whose identifiers are the only ones that change.
    rcases seen path with ⟨-, same⟩ | ⟨hit, -⟩
    · rw [activeDcids, same] at member
      exact honoured.active path bound listed e member
    · exact absurd hit (apart_of_bounds none_ listed)
  · intro path probe listed
    rcases honoured.queued path probe listed with retired | told
    · refine .inl ?_
      obtain ⟨view, at_, member⟩ := isRetired_iff.mp retired
      apply isRetired_iff.mpr
      rcases seen path with ⟨-, same⟩ | ⟨-, same⟩
      · exact ⟨view, same.trans at_, member⟩
      · rw [at_] at same
        exact ⟨_, same, member⟩
    · exact .inr told

/-- What is tracked stays so when the first identifier of the peer comes before any bound. -/
theorem Tracked.initial (tracked : self.Tracked) (none_ : self.bounds 0 = []) (cid : ConnectionId)
    (resetToken : Option Nat) (networkPath : Option FourTuple) :
    (self.next search (.setInitialDcid cid resetToken networkPath)).Tracked := by
  have seen := destinations_setInitialDcid self.ids cid resetToken networkPath
  constructor
  · intro path bound listed
    obtain ⟨view, at_, init⟩ := tracked.known path bound listed
    rcases seen path with ⟨-, same⟩ | ⟨hit, -⟩
    · exact ⟨view, same.trans at_, init⟩
    · exact absurd hit (apart_of_bounds none_ listed)
  · intro path view at_
    have at_ : (self.ids.setInitialDcid cid resetToken networkPath).destinations path = some view := at_
    rcases seen path with ⟨-, same⟩ | ⟨-, same⟩
    · rw [same] at at_
      exact tracked.largest path view at_
    · rw [same] at at_
      obtain ⟨old, before, rfl⟩ := Option.map_eq_some_iff.mp at_
      exact tracked.largest path old before

/-- An identifier of the peer that is accepted keeps track of the bounds. -/
theorem Tracked.newDcid (tracked : self.Tracked)
    (done : (self.ids.newDcid search pathId cid seq resetToken retirePriorTo).1.isOk = true) :
    (self.next search (.newDcid pathId cid seq resetToken retirePriorTo)).Tracked := by
  obtain ⟨elsewhere, outcome⟩ := newDcid_destinations done
  have own : ∃ view, (self.ids.newDcid search pathId cid seq resetToken retirePriorTo).2.2.destinations pathId =
      some view ∧ view.initialized = true ∧
        (view.largest = 0 ∨ (pathId, view.largest) ∈ (pathId, retirePriorTo) :: self.received) := by
    rcases outcome with ⟨-, at_⟩ | ⟨pcid, new, found, at_, accepts⟩
    · exact ⟨_, at_, rfl, .inl rfl⟩
    · have before := tracked.largest pathId pcid.destinationView (by rw [destinations, found]; rfl)
      have before := before.imp_right fun listed => List.mem_cons_of_mem (pathId, retirePriorTo) listed
      refine ⟨new, at_, (DestinationView.retired_of_accepts accepts).1, ?_⟩
      -- Only a drained queue raises the bound that was applied, to the one that came.
      cases accepts with
      | drained init fresh above more marked => exact .inr List.mem_cons_self
      | first none_ => exact before
      | known init member same number => exact before
      | late init fresh above below marked => exact before
      | added init fresh above next old => exact before
  constructor
  · intro path bound listed
    show ∃ view, (self.ids.newDcid search pathId cid seq resetToken retirePriorTo).2.2.destinations path = some view ∧ _
    by_cases hit : path = pathId
    · rw [hit]
      obtain ⟨view, at_, init, -⟩ := own
      exact ⟨view, at_, init⟩
    · rw [elsewhere path hit]
      have listed : (path, bound) ∈ (pathId, retirePriorTo) :: self.received := listed
      rcases List.mem_cons.mp listed with same | listed
      · cases same
        exact absurd rfl hit
      · exact tracked.known path bound listed
  · intro path view at_
    have at_ : (self.ids.newDcid search pathId cid seq resetToken retirePriorTo).2.2.destinations path = some view :=
      at_
    by_cases hit : path = pathId
    · obtain ⟨other, at', -, largest⟩ := own
      rw [hit, at'] at at_
      cases at_
      rw [hit]
      exact largest
    · rw [elsewhere path hit] at at_
      exact (tracked.largest path view at_).imp_right fun listed => List.mem_cons_of_mem _ listed

/-- What an accepted identifier leaves on its path, where all bounds are reached just when it is sound. -/
theorem Honoured.newDcid_leaves (honoured : self.Honoured) (tracked : self.Tracked)
    (done : (self.ids.newDcid search pathId cid seq resetToken retirePriorTo).1.isOk = true) :
    ∃ new, (self.ids.newDcid search pathId cid seq resetToken retirePriorTo).2.2.destinations pathId = some new ∧
      (∀ old, self.ids.destinations pathId = some old → ∀ s ∈ old.retired, s ∈ new.retired) ∧
      (∀ e ∈ self.ids.activeDcids pathId, e ∉ new.active → e.seq ∈ new.retired) ∧
      ((∀ e ∈ new.active, e.cid ≠ cid) → seq ∈ new.retired) ∧
      (new.Reaches (retirePriorTo :: self.bounds pathId) ↔
        self.Sound search (.newDcid pathId cid seq resetToken retirePriorTo)) := by
  -- A new path starts without bounds; on a path that exists the outcomes are compared.
  rcases (newDcid_destinations done).2 with ⟨absent, at_⟩ | ⟨pcid, new, found, at_, accepts⟩
  · have none_ : self.ids.destinations pathId = none := by rw [destinations, absent]; rfl
    have empty : self.bounds pathId = [] := by
      apply List.eq_nil_iff_forall_not_mem.mpr
      intro bound listed
      obtain ⟨view, at', -⟩ := tracked.known pathId bound (mem_bounds.mp listed)
      rw [none_] at at'
      cases at'
    refine ⟨_, at_, ?_, ?_, ?_, ?_⟩
    · intro old at'
      rw [none_] at at'
      cases at'
    · intro e member
      rw [activeDcids, none_] at member
      cases member
    · exact fun other => absurd rfl (other ⟨cid, 0, none, none⟩ List.mem_cons_self)
    · rw [empty]
      simp [DestinationView.Reaches, DestinationView.active, Sound, absent]
  · have before : self.ids.destinations pathId = some pcid.destinationView := by rw [destinations, found]; rfl
    obtain ⟨-, kept, left, refused⟩ := DestinationView.retired_of_accepts accepts
    refine ⟨new, at_, ?_, ?_, refused, ?_⟩
    · intro old at' s member
      rw [before] at at'
      cases at'
      exact kept s member
    · rw [activeDcids_eq before]
      exact left
    · have reaches : pcid.destinationView.Reaches (self.bounds pathId) := by
        intro bound listed e member
        apply honoured.active pathId bound (mem_bounds.mp listed)
        rw [activeDcids_eq before]
        exact member
      -- The bound that was applied last is one that was given.
      have largest := (tracked.largest pathId _ before).imp_right fun listed => mem_bounds.mpr listed
      have empty : pcid.destinationView.initialized = false → self.bounds pathId = [] := by
        intro none_
        apply List.eq_nil_iff_forall_not_mem.mpr
        intro bound listed
        obtain ⟨view, at', init⟩ := tracked.known pathId bound (mem_bounds.mp listed)
        rw [before] at at'
        cases at'
        rw [none_] at init
        cases init
      rw [DestinationView.reaches_iff_respects accepts reaches largest empty]
      simp [Sound, found]

/-- What the peer asked for is honoured by an identifier that is accepted just when it is sound. -/
theorem Honoured.newDcid_iff (honoured : self.Honoured) (tracked : self.Tracked)
    (done : (self.ids.newDcid search pathId cid seq resetToken retirePriorTo).1.isOk = true) :
    (self.next search (.newDcid pathId cid seq resetToken retirePriorTo)).Honoured ↔
      self.Sound search (.newDcid pathId cid seq resetToken retirePriorTo) := by
  have elsewhere := (newDcid_destinations done).1
  obtain ⟨new, at_, kept, left, refused, reaches⟩ := honoured.newDcid_leaves tracked done
  rw [← reaches]
  have active := activeDcids_eq at_
  constructor
  · intro after bound listed e member
    rw [← active] at member
    apply after.active pathId bound _ e member
    rcases List.mem_cons.mp listed with rfl | listed
    · exact List.mem_cons_self
    · exact List.mem_cons_of_mem _ (mem_bounds.mp listed)
  · intro reaches
    constructor
    case active =>
      intro path bound listed e member
      have listed : (path, bound) ∈ (pathId, retirePriorTo) :: self.received := listed
      have member : e ∈ (self.ids.newDcid search pathId cid seq resetToken retirePriorTo).2.2.activeDcids path := member
      by_cases hit : path = pathId
      · rw [hit, active] at member
        apply reaches bound _ e member
        rcases List.mem_cons.mp listed with same | listed
        · cases same
          exact List.mem_cons_self
        · exact List.mem_cons_of_mem _ (mem_bounds.mpr (hit ▸ listed))
      · rw [activeDcids, elsewhere path hit] at member
        rcases List.mem_cons.mp listed with same | listed
        · cases same
          exact absurd rfl hit
        · exact honoured.active path bound listed e member
    case queued =>
      intro path probe listed
      rcases List.mem_append.mp listed with fresh | listed
      · obtain ⟨number, member, same⟩ := List.mem_map.mp fresh
        cases same
        refine .inl (isRetired_iff.mpr ⟨new, at_, ?_⟩)
        rw [active] at member
        -- What is gone was drained or refused, and both are marked as retired.
        rcases mem_gone member with ⟨e, held, gone, rfl⟩ | ⟨none_, rfl⟩
        · exact left e held gone
        · exact refused none_
      · rcases honoured.queued path probe listed with retired | told
        · obtain ⟨old, at', member⟩ := isRetired_iff.mp retired
          refine .inl (isRetired_iff.mpr ?_)
          by_cases hit : path = pathId
          · subst hit
            exact ⟨new, at_, kept old at' probe member⟩
          · exact ⟨old, (elsewhere path hit).trans at', member⟩
        · exact .inr told

theorem next_other (other : event.changesDcids = false) :
    self.next search event = { self with ids := self.ids.step search event } := by
  cases event with
  | newDcid pathId cid seq resetToken retirePriorTo => cases other
  | markRetireDcidSeq pathId seq retire =>
    cases retire with
    | false => cases other
    | true => simp [next, step]
  | newScid | setInitialDcid | retireScid | retireDcid | setSourceConnIdLimit | setLocalMaxPathId
  | setRemoteMaxPathId | consumeLowestSparePathId | closingPathId | removePathId => rfl

/-- Every operation keeps track of the bounds. -/
theorem Tracked.next (tracked : self.Tracked) (orderly : self.Orderly search event) :
    (self.next search event).Tracked := by
  cases other : event.changesDcids with
  | false =>
    rw [next_other other]
    exact tracked.eases (step_eases search self.ids other)
  | true =>
    cases event with
    | newDcid pathId cid seq resetToken retirePriorTo => exact tracked.newDcid orderly
    | setInitialDcid cid resetToken networkPath => exact tracked.initial orderly cid resetToken networkPath
    | markRetireDcidSeq pathId seq retire =>
      cases retire with
      | false => exact tracked.tell pathId seq
      | true => cases other
    | removePathId pathId => exact orderly.elim
    | newScid | retireScid | retireDcid | setSourceConnIdLimit | setLocalMaxPathId | setRemoteMaxPathId
    | consumeLowestSparePathId | closingPathId => cases other

/-- What the peer asked for is honoured by an operation just when it is sound. -/
theorem Honoured.next_iff (honoured : self.Honoured) (tracked : self.Tracked) (orderly : self.Orderly search event) :
    (self.next search event).Honoured ↔ self.Sound search event := by
  cases event with
  | newDcid pathId cid seq resetToken retirePriorTo => exact honoured.newDcid_iff tracked orderly
  | setInitialDcid cid resetToken networkPath =>
    exact iff_of_true (honoured.initial orderly cid resetToken networkPath) trivial
  | markRetireDcidSeq pathId seq retire =>
    refine iff_of_true ?_ trivial
    cases retire with
    -- The peer is told about the identifier, which must not be lost from the records.
    | false => exact honoured.tell pathId seq
    | true =>
      rw [next_other rfl]
      exact honoured.eases tracked (step_eases search self.ids rfl)
  | removePathId pathId => exact orderly.elim
  | newScid | retireScid | retireDcid | setSourceConnIdLimit | setLocalMaxPathId | setRemoteMaxPathId
  | consumeLowestSparePathId | closingPathId =>
    refine iff_of_true ?_ trivial
    rw [next_other rfl]
    exact honoured.eases tracked (step_eases search self.ids rfl)

theorem tracked_start (destinationConnIdLimit : Nat) (initialScid : ConnectionId) (networkPath : FourTuple)
    (resetToken : Option Nat) : (start destinationConnIdLimit initialScid networkPath resetToken).Tracked := by
  constructor
  · intro pathId bound listed
    cases listed
  · intro pathId view at_
    obtain ⟨pcid, found, rfl⟩ := Option.map_eq_some_iff.mp at_
    have member := (BoundedNonEmptyVecDeque.get_eq_some_iff.mp found).1
    rw [List.mem_singleton.mp member]
    exact .inl rfl

/-- What the peer asked for is honoured in every state of a run just when each new identifier is sound. -/
theorem always_honoured_iff (search : List Nat → Nat → Nat) (destinationConnIdLimit : Nat) (initialScid : ConnectionId)
    (networkPath : FourTuple) (resetToken : Option Nat) (events : List IdEvent)
    (orderly : Runs.Along (next search) (Orderly search)
      (start destinationConnIdLimit initialScid networkPath resetToken) events) :
    (∀ done, done <+: events → (Runs.run (next search)
        (start destinationConnIdLimit initialScid networkPath resetToken) done).Honoured) ↔
      Runs.Along (next search) (Sound search) (start destinationConnIdLimit initialScid networkPath resetToken)
        events := by
  have keeps : ∀ (state : Retiring) event, state.Tracked → state.Orderly search event →
      (state.next search event).Tracked := fun _ _ tracked orderly => tracked.next orderly
  have step : ∀ (state : Retiring) event, state.Tracked → state.Honoured → state.Orderly search event →
      ((state.next search event).Honoured ↔ state.Sound search event) :=
    fun _ _ tracked honoured orderly => honoured.next_iff tracked orderly
  have nothing : (start destinationConnIdLimit initialScid networkPath resetToken).Honoured := by
    constructor
    · intro pathId bound listed
      cases listed
    · intro pathId seq listed
      cases listed
  exact Runs.always_iff_along keeps step events (tracked_start _ _ _ _) nothing orderly

/-- Identifiers in order are retired as the bound grows. -/
theorem honoured_in_order :
    let search := fun seqs bound => (seqs.takeWhile (· < bound)).length
    (Runs.run (next search) (start 3 [1] (⟨[], 0⟩, ⟨[], 0⟩) none)
      [.setInitialDcid [9] none none, .newDcid 0 [7] 1 5 0, .newDcid 0 [8] 2 6 0, .newDcid 0 [6] 3 4 2,
        .markRetireDcidSeq 0 0 false, .newDcid 0 [6] 3 4 2]).Honoured :=
  (always_honoured_iff _ 3 [1] _ none _ (by decide)).mpr (by decide) _ (List.prefix_refl _)

/-- Identifiers that arrived out of order are not all found to be retired. -/
theorem kept_out_of_order :
    let search := fun seqs bound => (seqs.takeWhile (· < bound)).length
    let events : List IdEvent :=
      [.setInitialDcid [9] none none, .newDcid 0 [7] 3 5 0, .newDcid 0 [8] 1 6 0, .newDcid 0 [6] 4 4 2]
    let final := Runs.run (next search) (start 4 [1] (⟨[], 0⟩, ⟨[], 0⟩) none) events
    Runs.Along (next search) (Orderly search) (start 4 [1] (⟨[], 0⟩, ⟨[], 0⟩) none) events ∧
      (final.ids.activeDcids 0).map ConnectionIdEntry.seq = [3, 1, 4] ∧ (0, 2) ∈ final.received ∧ ¬ final.Honoured := by
  intro search events final
  have facts : Runs.Along (next search) (Orderly search) (start 4 [1] (⟨[], 0⟩, ⟨[], 0⟩) none) events ∧
      (final.ids.activeDcids 0).map ConnectionIdEntry.seq = [3, 1, 4] ∧ (0, 2) ∈ final.received := by
    decide
  obtain ⟨orderly, active, received⟩ := facts
  refine ⟨orderly, active, received, fun honoured => ?_⟩
  have member : 1 ∈ (final.ids.activeDcids 0).map ConnectionIdEntry.seq := by
    rw [active]
    decide
  obtain ⟨e, listed, same⟩ := List.mem_map.mp member
  have reached := honoured.active 0 2 received e listed
  omega

end Retiring

end ConnectionIdentifiers

end Flexicast
