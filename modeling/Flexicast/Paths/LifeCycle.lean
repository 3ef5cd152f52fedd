import Flexicast.Paths.PathMap

/-! A path that is being closed is not used again, and can be abandoned. -/

namespace Flexicast

namespace Path

/-- The path is being closed, or closed. -/
def Ends (self : Path) : Prop := self.isClosing = true ∨ self.closed = true

instance (self : Path) : Decidable self.Ends := inferInstanceAs (Decidable (_ ∨ _))

/-- The path is where it was in its life, or further on. -/
structure Precedes (before after : Path) : Prop where
  /-- A path that is being closed is so, or closed. -/
  closing : before.isClosing = true → after.Ends
  closed : before.closed = true → after.closed = true

/-- The loss of a challenge makes the validation fail. -/
def FailsAt (self : Path) (now rtt : Nat) (isServer : Bool) : Prop :=
  ∃ lost ∈ self.inFlightChallenges.find? fun challenge => challenge.sentTime ≤ now,
    maxProbingTimeouts ≤ (self.countLoss rtt lost.sentTime).1 ∨ (isServer = true ∧ self.maxSendBytes < minProbingSize)

instance (self : Path) (now rtt : Nat) (isServer : Bool) : Decidable (self.FailsAt now rtt isServer) :=
  inferInstanceAs (Decidable (∃ lost ∈ self.inFlightChallenges.find? _, _))

variable {self : Path}

theorem closingErrorCode_ok : (∃ errorCode, self.closingErrorCode = .ok errorCode) ↔ self.Ends := by
  unfold closingErrorCode Ends isClosing closed
  cases self.state <;> simp

theorem precedes_of_state {after : Path} (same : after.state = self.state) : self.Precedes after := by
  constructor
  · intro closing
    refine .inl ?_
    unfold isClosing at closing ⊢
    rw [same]
    exact closing
  · intro closed
    unfold Path.closed at closed ⊢
    rw [same]
    exact closed

theorem Precedes.refl (self : Path) : self.Precedes self := precedes_of_state rfl

theorem Precedes.trans {mid after : Path} (first : self.Precedes mid) (second : mid.Precedes after) :
    self.Precedes after := by
  constructor
  · intro closing
    rcases first.closing closing with closing | closed
    · exact second.closing closing
    · exact .inr (second.closed closed)
  · exact fun closed => second.closed (first.closed closed)

/-- A state that may follow leads further on. -/
theorem precedes_of_setState {state : PathState} {after : Path} (done : self.setState state = .ok after) :
    self.Precedes after ∧ after.state = state := by
  unfold setState at done
  by_cases valid : self.validStateTransition state = true
  · rw [if_pos valid] at done
    cases done
    refine ⟨?_, rfl⟩
    unfold validStateTransition at valid
    constructor
    · intro closing
      unfold isClosing at closing
      unfold Ends isClosing Path.closed
      -- From a path that is being closed the table leads to closing and closed states only.
      revert closing valid
      cases self.state <;> cases state <;> simp
    · intro closed
      unfold Path.closed at closed ⊢
      -- From a closed path it leads to itself only.
      revert closed valid
      cases self.state <;> cases state <;> simp
  · rw [if_neg valid] at done
    cases done

theorem onLossDetectionTimeout_state (self : Path) (now rtt : Nat) (isServer : Bool) :
    (self.onLossDetectionTimeout now rtt isServer).state =
      if self.FailsAt now rtt isServer then .unused else self.state := by
  -- The first challenge that was sent in time decides, and there may be none.
  by_cases fails : self.FailsAt now rtt isServer
  · obtain ⟨lost, found, least⟩ := id fails
    have found : self.inFlightChallenges.find? (fun challenge => challenge.sentTime ≤ now) = some lost := found
    rw [if_pos fails, onLossDetectionTimeout, found]
    dsimp only
    rw [if_pos least]
    rfl
  · rw [if_neg fails, onLossDetectionTimeout]
    split
    · rfl
    · rename_i lost found
      dsimp only
      rw [if_neg fun least => fails ⟨lost, found, least⟩]
      rfl

theorem precedes_timeout_iff (self : Path) (now rtt : Nat) (isServer : Bool) :
    self.Precedes (self.onLossDetectionTimeout now rtt isServer) ↔
      (self.Ends → ¬ self.FailsAt now rtt isServer) := by
  have state := self.onLossDetectionTimeout_state now rtt isServer
  by_cases fails : self.FailsAt now rtt isServer
  · rw [if_pos fails] at state
    -- The state is assigned without a look at the one before.
    have unused : ¬ (self.onLossDetectionTimeout now rtt isServer).Ends := by
      unfold Ends isClosing Path.closed
      rw [state]
      simp
    constructor
    · rintro precedes (closing | closed)
      · exact absurd (precedes.closing closing) unused
      · exact absurd (.inr (precedes.closed closed)) unused
    · intro never
      have open_ : ¬ self.Ends := fun ends => never ends fails
      exact ⟨fun closing => absurd (.inl closing) open_, fun closed => absurd (.inr closed) open_⟩
  · rw [if_neg fails] at state
    exact iff_of_true (precedes_of_state state) fun _ => fails

theorem onResponseReceived_state (self : Path) (data : Bytes) :
    (self.onResponseReceived data).2.state = self.state := by
  unfold onResponseReceived promoteTo requestValidation
  dsimp only
  repeat' split
  all_goals rfl

theorem addChallengeSent_state (self : Path) (challenge : Challenge) :
    (self.addChallengeSent challenge).state = self.state := by
  unfold addChallengeSent onChallengeSent promoteTo
  dsimp only
  split <;> rfl

theorem onChallengeReceived_state (self : Path) (data : Bytes) :
    (self.onChallengeReceived data).state = self.state := by
  unfold onChallengeReceived
  split <;> rfl

end Path

namespace PathMap

/-- Every path is where it was in its life, or further on. -/
def LifeCycle (before after : PathMap) : Prop :=
  ∀ pid path, before.paths.find? pid = some path → ∃ later, after.paths.find? pid = some later ∧ path.Precedes later

/-- Every path that the peer is to be told about has an error code. -/
def Queued (self : PathMap) : Prop :=
  ∀ pid ∈ self.pathAbandon, ∃ path errorCode, self.get pid = .ok path ∧ path.closingErrorCode = .ok errorCode

/-- No path is removed for a new one. -/
def HasRoom (self : PathMap) : PathOp → Prop
  | .insertPath _ _ _ => self.len < self.maxConcurrentPaths
  | _ => True

/-- No timeout makes the validation of a path fail that is being closed, or closed. -/
def Sound (self : PathMap) : PathOp → Prop
  | .lossDetectionTimeout pid now rtt =>
    ∀ path ∈ self.paths.find? pid, path.Ends → ¬ path.FailsAt now rtt self.isServer
  | _ => True

instance (self : PathMap) : (op : PathOp) → Decidable (self.HasRoom op)
  | .insertPath _ _ _ => inferInstanceAs (Decidable (_ < _))
  | .setMultipath _ | .setActiveDcidSeq .. | .setMaxSendBytes .. | .requestValidation _ | .challengeSent ..
  | .challengeReceived .. | .responseSent _ | .responseReceived _ | .lossDetectionTimeout .. | .request ..
  | .abandonSent _ | .abandonReceived .. | .abandonAcknowledged _ | .setActivePath _ => isTrue trivial

instance (self : PathMap) : (op : PathOp) → Decidable (self.Sound op)
  | .lossDetectionTimeout pid now rtt =>
    inferInstanceAs (Decidable (∀ path ∈ self.paths.find? pid, path.Ends → ¬ path.FailsAt now rtt self.isServer))
  | .insertPath .. | .setMultipath _ | .setActiveDcidSeq .. | .setMaxSendBytes .. | .requestValidation _
  | .challengeSent .. | .challengeReceived .. | .responseSent _ | .responseReceived _ | .request ..
  | .abandonSent _ | .abandonReceived .. | .abandonAcknowledged _ | .setActivePath _ => isTrue trivial

variable {self : PathMap} {pid : Nat}

theorem LifeCycle.refl (self : PathMap) : self.LifeCycle self :=
  fun _ path found => ⟨path, found, .refl path⟩

theorem LifeCycle.trans {mid after : PathMap} (first : self.LifeCycle mid) (second : mid.LifeCycle after) :
    self.LifeCycle after := by
  intro pid path found
  obtain ⟨later, found', step⟩ := first pid path found
  obtain ⟨last, found'', step'⟩ := second pid later found'
  exact ⟨last, found'', step.trans step'⟩

theorem lifeCycle_set_iff {path new : Path} (found : self.paths.find? pid = some path) :
    self.LifeCycle (self.set pid new) ↔ path.Precedes new := by
  constructor
  · intro life
    obtain ⟨later, found', step⟩ := life pid path found
    rw [find?_set, if_pos rfl] at found'
    cases found'
    exact step
  · intro step probe old found'
    rw [find?_set]
    -- The other paths are found as they were.
    by_cases hit : probe = pid
    · rw [hit, found] at found'
      cases found'
      exact ⟨new, if_pos hit, step⟩
    · exact ⟨old, (if_neg hit).trans found', .refl old⟩

theorem lifeCycle_modify {f : Path → Path} (step : ∀ path : Path, path.Precedes (f path)) :
    self.LifeCycle (self.modify pid f) := by
  unfold modify
  split
  · rename_i path found
    exact (lifeCycle_set_iff found).mpr (step path)
  · exact .refl self

theorem queued_iff : self.Queued ↔ ∀ pid ∈ self.pathAbandon, ∃ path, self.paths.find? pid = some path ∧ path.Ends := by
  -- There is an error code just for the states of paths that end.
  have same : ∀ pid, (∃ path errorCode, self.get pid = .ok path ∧ path.closingErrorCode = .ok errorCode) ↔
      ∃ path, self.paths.find? pid = some path ∧ path.Ends := by
    intro pid
    constructor
    · rintro ⟨path, errorCode, found, code⟩
      exact ⟨path, get_eq_ok_iff.mp found, Path.closingErrorCode_ok.mp ⟨errorCode, code⟩⟩
    · rintro ⟨path, found, ends⟩
      obtain ⟨errorCode, code⟩ := Path.closingErrorCode_ok.mpr ends
      exact ⟨path, errorCode, by rw [get, found], code⟩
  unfold Queued
  simp only [same]

/-- The identifier of a new path is free. -/
theorem find?_vacant (self : PathMap) : self.paths.find? self.vacant = none := by
  unfold vacant
  cases found : (List.range (self.len + 1)).find? fun pid => !self.paths.contains pid with
  | some pid =>
    have free := List.find?_some found
    simpa [OrdMap.contains] using free
  | none =>
    -- There are fewer paths than identifiers to choose from.
    have taken : ∀ pid ∈ List.range (self.len + 1), pid ∈ self.paths.keys := by
      intro pid member
      have held := List.find?_eq_none.mp found pid member
      apply OrdMap.mem_keys_iff.mpr
      exact Option.ne_none_iff_exists'.mp (by simpa [OrdMap.contains] using held)
    have few := List.nodup_range.length_le_of_subset taken
    simp only [List.length_range, OrdMap.keys, List.length_map, len] at few
    omega

theorem lifeCycle_insertPath (room : self.len < self.maxConcurrentPaths) (path : Path) :
    self.insertPath path = .ok (self.vacant, self.set self.vacant path) ∧
      self.LifeCycle (self.set self.vacant path) := by
  refine ⟨by rw [insertPath, makeRoomForNewPath, if_pos room], ?_⟩
  intro pid old found
  refine ⟨old, ?_, .refl old⟩
  -- With room no path is evicted, and the new one gets a free identifier.
  have apart : pid ≠ self.vacant := by
    rintro rfl
    rw [find?_vacant] at found
    cases found
  show (self.paths.insert self.vacant path).find? pid = some old
  rw [OrdMap.find?_insert, if_neg apart]
  exact found

theorem lifeCycle_onResponseReceived (data : Bytes) : self.LifeCycle (self.onResponseReceived data).2 := by
  unfold onResponseReceived
  split
  · exact .refl self
  split
  · rename_i pid path pending
    have found : self.paths.find? pid = some path :=
      OrdMap.find?_eq_some_iff.mpr (List.mem_of_find?_eq_some pending)
    exact (lifeCycle_set_iff found).mpr (Path.precedes_of_state (path.onResponseReceived_state data))
  · exact .refl self

theorem lifeCycle_onPathAbandonAcknowledged (abandonPathId : Nat) :
    self.LifeCycle (self.onPathAbandonAcknowledged abandonPathId) := by
  unfold onPathAbandonAcknowledged
  split
  · exact .refl self
  · apply lifeCycle_modify
    intro path
    split
    -- Only a path that is being closed is closed then.
    · rename_i errorCode closing
      constructor
      · exact fun _ => .inr rfl
      · exact fun _ => rfl
    · exact .refl path

theorem lifeCycle_stopActive {after : PathMap} (done : self.stopActive = .ok after) :
    self.LifeCycle after ∧ after.pathAbandon = self.pathAbandon := by
  rcases stopActive_cases done with rfl | ⟨pid, path, new, found, stopped, rfl⟩
  · exact ⟨.refl _, rfl⟩
  · exact ⟨(lifeCycle_set_iff found).mpr (Path.precedes_of_setState stopped).1, rfl⟩

/-- So does making a path active. -/
theorem lifeCycle_setActivePath (self : PathMap) (pid : Nat) :
    self.LifeCycle (self.setActivePath pid).2 ∧ (self.setActivePath pid).2.pathAbandon = self.pathAbandon := by
  rcases self.setActivePath_cases pid with same | ⟨mid, stopped, same | ⟨path, new, found, started, same | same⟩⟩
  · rw [same]
    exact ⟨.refl self, rfl⟩
  · rw [same]
    exact lifeCycle_stopActive stopped
  · obtain ⟨first, queue⟩ := lifeCycle_stopActive stopped
    rw [same]
    exact ⟨first.trans ((lifeCycle_set_iff found).mpr (Path.precedes_of_setState started).1), queue⟩
  · obtain ⟨first, queue⟩ := lifeCycle_stopActive stopped
    -- A validation that is asked for leaves the state of the path.
    have step : path.Precedes new.requestValidation :=
      (Path.precedes_of_setState started).1.trans (Path.precedes_of_state rfl)
    rw [same]
    exact ⟨first.trans ((lifeCycle_set_iff found).mpr step), queue⟩

theorem lifeCycle_of_paths {after : PathMap} (same : after.paths = self.paths) : self.LifeCycle after := by
  intro pid path found
  exact ⟨path, by rw [same]; exact found, .refl path⟩

theorem Queued.grow (queued : self.Queued) {after : PathMap} (life : self.LifeCycle after)
    (queue : ∀ pid ∈ after.pathAbandon, pid ∈ self.pathAbandon ∨
      ∃ path, after.paths.find? pid = some path ∧ path.Ends) : after.Queued := by
  rw [queued_iff] at queued ⊢
  intro pid member
  rcases queue pid member with listed | ends
  · obtain ⟨path, found, ends⟩ := queued pid listed
    obtain ⟨later, found', step⟩ := life pid path found
    refine ⟨later, found', ?_⟩
    rcases ends with closing | closed
    · exact step.closing closing
    · exact .inr (step.closed closed)
  · exact ends

/-- A path that ends may be told about. -/
theorem lifeCycle_mark {path new : Path} (found : self.paths.find? pid = some path) (step : path.Precedes new)
    (ends : new.Ends) : self.LifeCycle ((self.set pid new).markPathAbandon pid true) ∧
      ∀ probe ∈ ((self.set pid new).markPathAbandon pid true).pathAbandon, probe ∈ self.pathAbandon ∨
        ∃ path, ((self.set pid new).markPathAbandon pid true).paths.find? probe = some path ∧ path.Ends := by
  refine ⟨((lifeCycle_set_iff found).mpr step).trans (lifeCycle_of_paths (markPathAbandon_paths _ _ _)), ?_⟩
  intro probe member
  -- The path joins those that the peer is to be told about.
  rcases List.mem_append.mp member with listed | single
  · exact .inl listed
  · rw [List.mem_singleton.mp single, markPathAbandon_paths]
    refine .inr ⟨new, ?_, ends⟩
    show (self.paths.insert pid new).find? pid = some new
    rw [OrdMap.find?_insert, if_pos rfl]

theorem modify_pathAbandon (self : PathMap) (pid : Nat) (f : Path → Path) :
    (self.modify pid f).pathAbandon = self.pathAbandon := by
  unfold modify
  split <;> rfl

/-- Every event but a timeout leaves the paths where they are, and tells about paths that end only. -/
theorem next_other {op : PathOp} (room : self.HasRoom op)
    (other : ∀ pid now rtt, op ≠ .lossDetectionTimeout pid now rtt) :
    self.LifeCycle (self.next op) ∧ ∀ pid ∈ (self.next op).pathAbandon, pid ∈ self.pathAbandon ∨
      ∃ path, (self.next op).paths.find? pid = some path ∧ path.Ends := by
  -- Most events change one path, which keeps its state.
  have changes : ∀ pid (f : Path → Path), (∀ path, (f path).state = path.state) →
      self.LifeCycle (self.modify pid f) ∧ ∀ probe ∈ (self.modify pid f).pathAbandon, probe ∈ self.pathAbandon ∨
        ∃ path, (self.modify pid f).paths.find? probe = some path ∧ path.Ends := by
    intro pid f same
    refine ⟨lifeCycle_modify fun path => Path.precedes_of_state (same path), ?_⟩
    rw [modify_pathAbandon]
    exact fun _ member => .inl member
  cases op with
  | insertPath pathId pathChallengeRecvMaxQueueLen isInitial =>
    obtain ⟨done, life⟩ := lifeCycle_insertPath room (.new pathId pathChallengeRecvMaxQueueLen isInitial)
    unfold next
    dsimp only
    rw [done]
    exact ⟨life, fun _ member => .inl member⟩
  | setMultipath v => exact ⟨lifeCycle_of_paths rfl, fun _ member => .inl member⟩
  | setActiveDcidSeq pid seq => exact changes pid _ fun _ => rfl
  | setMaxSendBytes pid v => exact changes pid _ fun _ => rfl
  | requestValidation pid => exact changes pid _ fun _ => rfl
  | challengeSent pid challenge => exact changes pid _ fun path => path.addChallengeSent_state challenge
  | challengeReceived pid data => exact changes pid _ fun path => path.onChallengeReceived_state data
  | responseSent pid => exact changes pid _ fun _ => rfl
  | responseReceived data =>
    refine ⟨lifeCycle_onResponseReceived data, fun pid member => .inl ?_⟩
    revert member
    unfold next onResponseReceived
    dsimp only
    split
    · exact id
    split <;> exact id
  | lossDetectionTimeout pid now rtt => exact absurd rfl (other pid now rtt)
  | request pid request =>
    rcases self.request_cases pid request with same | ⟨path, new, found, done, same | ⟨closing, same⟩⟩
    · rw [next, same]
      exact ⟨.refl self, fun _ member => .inl member⟩
    · rw [next, same]
      exact ⟨(lifeCycle_set_iff found).mpr (Path.precedes_of_setState done).1, fun _ member => .inl member⟩
    · rw [next, same]
      exact lifeCycle_mark found (Path.precedes_of_setState done).1 (.inl closing)
  -- The peer was told, so the path leaves the queue.
  | abandonSent pid =>
    unfold next onPathAbandonSent
    dsimp only
    split
    · exact ⟨.refl self, fun _ member => .inl member⟩
    · refine ⟨lifeCycle_of_paths (markPathAbandon_paths _ _ _), fun probe member => .inl ?_⟩
      exact (List.mem_filter.mp member).1
  | abandonReceived pathId errorCode =>
    rcases self.onPathAbandonReceived_cases pathId errorCode with same | ⟨pid, path, new, found, done, same | same⟩
    · rw [next, same]
      exact ⟨.refl self, fun _ member => .inl member⟩
    · rw [next, same]
      exact ⟨(lifeCycle_set_iff found).mpr (Path.precedes_of_setState done).1, fun _ member => .inl member⟩
    · -- The state that was reached is the one of a path that is being closed.
      obtain ⟨step, state⟩ := Path.precedes_of_setState done
      have closing : new.isClosing = true := by
        unfold Path.isClosing
        rw [state]
      rw [next, same]
      exact lifeCycle_mark found step (.inl closing)
  | abandonAcknowledged pathId =>
    refine ⟨lifeCycle_onPathAbandonAcknowledged pathId, fun pid member => .inl ?_⟩
    revert member
    unfold next onPathAbandonAcknowledged
    dsimp only
    split
    · exact id
    · rw [modify_pathAbandon]
      exact id
  | setActivePath pid =>
    obtain ⟨life, queue⟩ := self.lifeCycle_setActivePath pid
    refine ⟨life, fun probe member => .inl ?_⟩
    rw [← queue]
    exact member

/-- The paths stay where they are just when an event is sound, and what is to be told ends then. -/
theorem next_lifeCycle_iff {op : PathOp} (room : self.HasRoom op) :
    (self.LifeCycle (self.next op) ↔ self.Sound op) ∧ (self.Queued → self.Sound op → (self.next op).Queued) := by
  by_cases timeout : ∃ pid now rtt, op = .lossDetectionTimeout pid now rtt
  · obtain ⟨pid, now, rtt, rfl⟩ := timeout
    have same : self.LifeCycle (self.next (.lossDetectionTimeout pid now rtt)) ↔
        self.Sound (.lossDetectionTimeout pid now rtt) := by
      unfold next modify
      dsimp only
      -- A timer of a path that does not exist changes nothing.
      cases found : self.paths.find? pid with
      | none =>
        refine iff_of_true (.refl self) ?_
        intro path none_
        rw [found] at none_
        cases none_
      | some path =>
        rw [lifeCycle_set_iff found, Path.precedes_timeout_iff]
        simp [Sound, found]
    refine ⟨same, fun queued sound => queued.grow (same.mpr sound) ?_⟩
    rw [show (self.next (.lossDetectionTimeout pid now rtt)).pathAbandon = self.pathAbandon from
      modify_pathAbandon _ _ _]
    exact fun _ member => .inl member
  · have other : ∀ pid now rtt, op ≠ .lossDetectionTimeout pid now rtt :=
      fun pid now rtt same => timeout ⟨pid, now, rtt, same⟩
    obtain ⟨life, queue⟩ := next_other room other
    have sound : self.Sound op := by
      cases op with
      | lossDetectionTimeout pid now rtt => exact absurd rfl (other pid now rtt)
      | _ => trivial
    exact ⟨iff_of_true life sound, fun queued _ => queued.grow life queue⟩

/-- No path comes back into use, and all that are to be abandoned have an error code, just when no timeout fails one. -/
theorem always_closing_iff {start : PathMap} (queued : start.Queued) {ops : List PathOp}
    (room : Runs.Along next HasRoom start ops) :
    ((∀ early late, early <+: late → late <+: ops → (Runs.run next start early).LifeCycle (Runs.run next start late)) ∧
      ∀ done, done <+: ops → (Runs.run next start done).Queued) ↔ Runs.Along next Sound start ops := by
  have ordered := @Runs.ordered_iff_along _ _ next LifeCycle LifeCycle.refl
    (fun _ _ _ first second => first.trans second) ops start
  -- It is enough to look at single steps, of which only timeouts can go wrong.
  rw [ordered]
  constructor
  · rintro ⟨life, -⟩
    exact (room.and life).imp fun state op both => (next_lifeCycle_iff both.1).1.mp both.2
  · intro sound
    have both := room.and sound
    refine ⟨both.imp fun state op both => (next_lifeCycle_iff both.1).1.mpr both.2, ?_⟩
    rintro done ⟨rest, rfl⟩
    have keeps : ∀ (state : PathMap) op, state.Queued → state.HasRoom op ∧ state.Sound op → (state.next op).Queued :=
      fun _ _ queued both => (next_lifeCycle_iff both.1).2 queued both.2
    exact (Runs.along_append.mp both).1.keeps keeps queued

/-- A second path is validated, abandoned and closed. -/
theorem queued_of_abandoned :
    (Runs.run next (new (.new 0 3 true) 4 false)
      [.setMultipath true, .insertPath 1 3 false, .setActiveDcidSeq 1 (some 0), .challengeSent 1 ⟨[1], 1200, 0⟩,
        .responseReceived [1], .setActivePath 1, .request 1 (.abandon 7), .lossDetectionTimeout 1 9 5]).Queued :=
  ((always_closing_iff (fun _ none_ => absurd none_ List.not_mem_nil) (by decide)).mpr (by decide)).2 _
    (List.prefix_refl _)

/-- A path that is being closed is not used for anything after its last challenge is lost, not even to abandon it. -/
theorem unused_after_closing :
    let start := new (.new 0 3 true) 4 false
    let early : List PathOp :=
      [.setMultipath true, .insertPath 1 3 false, .setActiveDcidSeq 1 (some 0), .challengeSent 1 ⟨[1], 1200, 0⟩,
        .lossDetectionTimeout 1 1 5, .challengeSent 1 ⟨[2], 1200, 10⟩, .lossDetectionTimeout 1 11 5,
        .challengeSent 1 ⟨[3], 1200, 20⟩, .request 1 (.abandon 7)]
    let late := early ++ [.lossDetectionTimeout 1 21 5]
    Runs.Along next HasRoom start late ∧
      ((Runs.run next start early).paths.find? 1).map Path.state = some (.closing 7) ∧
      ((Runs.run next start late).paths.find? 1).map Path.state = some .unused ∧
      (Runs.run next start late).pathAbandon = [1] ∧
      ((Runs.run next start late).paths.find? 1).map Path.closingErrorCode = some (.error .invalidState) ∧
      ¬ (Runs.run next start early).LifeCycle (Runs.run next start late) := by
  intro start early late
  have facts : Runs.Along next HasRoom start late ∧
      ((Runs.run next start early).paths.find? 1).map Path.state = some (.closing 7) ∧
      ((Runs.run next start late).paths.find? 1).map Path.state = some .unused ∧
      (Runs.run next start late).pathAbandon = [1] ∧
      ((Runs.run next start late).paths.find? 1).map Path.closingErrorCode = some (.error .invalidState) := by
    decide
  obtain ⟨room, closing, unused, queue, code⟩ := facts
  refine ⟨room, closing, unused, queue, code, fun life => ?_⟩
  obtain ⟨path, found, closing⟩ := Option.map_eq_some_iff.mp closing
  obtain ⟨later, found', step⟩ := life 1 path found
  rw [found'] at unused
  have unused : later.state = .unused := Option.some.inj unused
  have ends := step.closing (by rw [Path.isClosing, closing])
  unfold Path.Ends Path.isClosing Path.closed at ends
  rw [unused] at ends
  simp at ends

end PathMap

end Flexicast
