import Flexicast.Paths.PathMap

/-! A path is validated by the response to a challenge that was sent on it in a large packet. -/

namespace Flexicast

namespace Path

/-- A path has no more to show for its validation than it had before. -/
structure Unproved (before after : Path) : Prop where
  challenges : after.inFlightChallenges ⊆ before.inFlightChallenges
  size : after.maxChallengeSize = before.maxChallengeSize
  validated : after.validationState = .validated → before.validationState = .validated

variable {self : Path}

theorem Unproved.refl (self : Path) : self.Unproved self := ⟨List.Subset.refl _, rfl, id⟩

theorem Unproved.trans {mid after : Path} (first : self.Unproved mid) (second : mid.Unproved after) :
    self.Unproved after :=
  ⟨fun _ member => first.challenges (second.challenges member), second.size.trans first.size,
    fun valid => first.validated (second.validated valid)⟩

theorem unproved_of_setState {state : PathState} {after : Path} (done : self.setState state = .ok after) :
    self.Unproved after := by
  unfold setState at done
  split at done
  · cases done
    exact ⟨List.Subset.refl _, rfl, id⟩
  · cases done

theorem unproved_onChallengeReceived (self : Path) (data : Bytes) : self.Unproved (self.onChallengeReceived data) := by
  unfold onChallengeReceived
  split <;> exact ⟨List.Subset.refl _, rfl, id⟩

/-- A timeout shows nothing. -/
theorem unproved_onLossDetectionTimeout (self : Path) (now rtt : Nat) (isServer : Bool) :
    self.Unproved (self.onLossDetectionTimeout now rtt isServer) := by
  unfold onLossDetectionTimeout
  split
  · exact .refl self
  have fewer : (self.inFlightChallenges.filter fun challenge => decide (now < challenge.sentTime)) ⊆
      self.inFlightChallenges := fun _ member => (List.mem_filter.mp member).1
  dsimp only
  split
  · exact ⟨fewer, rfl, fun failed => by cases failed⟩
  · exact ⟨fewer, rfl, id⟩

theorem promoteTo_validated {state : PathValidationState} (less : state ≠ .validated) :
    (self.promoteTo state).validationState = .validated ↔ self.validationState = .validated := by
  have top : state.rank ≤ PathValidationState.validated.rank := by cases state <;> decide
  unfold promoteTo
  -- The state is raised to a lower one than validated, if at all.
  split
  · rename_i below
    constructor
    · exact fun same => absurd same less
    · intro valid
      rw [valid] at below
      omega
  · exact Iff.rfl

theorem promoteTo_challenges (self : Path) (state : PathValidationState) :
    (self.promoteTo state).inFlightChallenges = self.inFlightChallenges ∧
      (self.promoteTo state).maxChallengeSize = self.maxChallengeSize := by
  unfold promoteTo
  split <;> exact ⟨rfl, rfl⟩

theorem addChallengeSent_shows (self : Path) (challenge : Challenge) :
    (self.addChallengeSent challenge).inFlightChallenges = self.inFlightChallenges ++ [challenge] ∧
      (self.addChallengeSent challenge).maxChallengeSize = self.maxChallengeSize ∧
      ((self.addChallengeSent challenge).validationState = .validated ↔ self.validationState = .validated) := by
  have promoted : (self.promoteTo .validating).validationState = .validated ↔ self.validationState = .validated :=
    promoteTo_validated (by decide)
  obtain ⟨flying, size⟩ := self.promoteTo_challenges .validating
  refine ⟨?_, size, promoted⟩
  show (self.promoteTo .validating).inFlightChallenges ++ [challenge] = _
  rw [flying]

theorem mem_answeredBy_of_size {data : Bytes} (large : minClientInitialLen ≤
    ((self.answeredBy data).getLast?.map Challenge.pktSize).getD 0) :
    ∃ challenge ∈ self.answeredBy data, minClientInitialLen ≤ challenge.pktSize := by
  cases last : (self.answeredBy data).getLast? with
  | none =>
    rw [last] at large
    exact absurd large (by decide)
  | some challenge =>
    rw [last] at large
    exact ⟨challenge, List.mem_of_getLast? last, large⟩

/-- A response shows what the challenges do that it answers, and validates nothing else. -/
theorem onResponseReceived_shows (self : Path) (data : Bytes) :
    (self.onResponseReceived data).2.inFlightChallenges ⊆ self.inFlightChallenges ∧
      (self.onResponseReceived data).2.maxChallengeSize =
        max self.maxChallengeSize (((self.answeredBy data).getLast?.map Challenge.pktSize).getD 0) ∧
      ((self.onResponseReceived data).2.validationState = .validated → self.validationState = .validated ∨
        minClientInitialLen ≤ (self.onResponseReceived data).2.maxChallengeSize) := by
  -- The path after its challenges are gone, and after it was found to be reachable.
  let answered : Path := { self with
    probingLost := 0
    inFlightChallenges := self.inFlightChallenges.filter fun challenge => challenge.data != data }
  obtain ⟨flying, size⟩ := answered.promoteTo_challenges .validatingMTU
  have reached : (answered.promoteTo .validatingMTU).validationState = .validated → self.validationState = .validated :=
    (promoteTo_validated (by decide)).mp
  have fewer : (answered.promoteTo .validatingMTU).inFlightChallenges ⊆ self.inFlightChallenges := by
    rw [flying]
    exact fun _ member => (List.mem_filter.mp member).1
  have largest : max (answered.promoteTo .validatingMTU).maxChallengeSize
      (((self.answeredBy data).getLast?.map Challenge.pktSize).getD 0) =
        max self.maxChallengeSize (((self.answeredBy data).getLast?.map Challenge.pktSize).getD 0) :=
    congrArg (max · (((self.answeredBy data).getLast?.map Challenge.pktSize).getD 0)) size
  unfold onResponseReceived
  dsimp only
  split
  · split
    · rename_i large
      obtain ⟨flying', size'⟩ := promoteTo_challenges { answered.promoteTo .validatingMTU with
        maxChallengeSize := max (answered.promoteTo .validatingMTU).maxChallengeSize
          (((self.answeredBy data).getLast?.map Challenge.pktSize).getD 0) } .validated
      refine ⟨?_, ?_, fun _ => .inr ?_⟩
      · rw [flying']
        exact fewer
      · exact size'.trans largest
      · rw [size']
        exact large
    · exact ⟨fewer, largest, fun valid => .inl (reached valid)⟩
  · exact ⟨fewer, largest, fun valid => .inl (reached valid)⟩

end Path

namespace PathMap

/-- No path has more to show for its validation than it had before, and none is new. -/
def Unproved (before after : PathMap) : Prop :=
  ∀ pid later, after.paths.find? pid = some later →
    ∃ earlier, before.paths.find? pid = some earlier ∧ earlier.Unproved later

/-- The challenges that a response answers, each with its path. -/
def answers (self : PathMap) (data : Bytes) : List (Nat × Challenge) :=
  match self.getActivePathId, self.pendingPath data with
  | .ok _, some (pid, path) => (path.answeredBy data).map fun challenge => (pid, challenge)
  | _, _ => []

variable {self : PathMap} {pid : Nat}

theorem unproved_of_paths {after : PathMap} (same : after.paths = self.paths) : self.Unproved after := by
  intro pid later found
  rw [same] at found
  exact ⟨later, found, .refl later⟩

theorem Unproved.trans {mid after : PathMap} (first : self.Unproved mid) (second : mid.Unproved after) :
    self.Unproved after := by
  intro pid later found
  obtain ⟨between, found', step'⟩ := second pid later found
  obtain ⟨earlier, found'', step⟩ := first pid between found'
  exact ⟨earlier, found'', step.trans step'⟩

theorem unproved_set {path new : Path} (found : self.paths.find? pid = some path) (step : path.Unproved new) :
    self.Unproved (self.set pid new) := by
  intro probe later found'
  rw [find?_set] at found'
  by_cases hit : probe = pid
  · rw [if_pos hit] at found'
    cases found'
    exact ⟨path, hit ▸ found, step⟩
  · rw [if_neg hit] at found'
    exact ⟨later, found', .refl later⟩

theorem unproved_modify {f : Path → Path} (step : ∀ path : Path, path.Unproved (f path)) :
    self.Unproved (self.modify pid f) := by
  unfold modify
  split
  · rename_i path found
    exact unproved_set found (step path)
  · exact unproved_of_paths rfl

theorem unproved_markPathAbandon (self : PathMap) (pid : Nat) (abandon : Bool) :
    self.Unproved (self.markPathAbandon pid abandon) :=
  unproved_of_paths (self.markPathAbandon_paths pid abandon)

theorem unproved_request (self : PathMap) (pid : Nat) (request : PathRequest) :
    self.Unproved (self.request pid request).2 := by
  rcases self.request_cases pid request with same | ⟨path, new, found, done, same | ⟨-, same⟩⟩
  · rw [same]
    exact unproved_of_paths rfl
  · rw [same]
    exact unproved_set found (Path.unproved_of_setState done)
  · rw [same]
    exact (unproved_set found (Path.unproved_of_setState done)).trans (unproved_markPathAbandon _ _ _)

theorem unproved_onPathAbandonReceived (self : PathMap) (abandonPathId errorCode : Nat) :
    self.Unproved (self.onPathAbandonReceived abandonPathId errorCode).2 := by
  rcases self.onPathAbandonReceived_cases abandonPathId errorCode with
    same | ⟨pid, path, new, found, done, same | same⟩
  · rw [same]
    exact unproved_of_paths rfl
  · rw [same]
    exact unproved_set found (Path.unproved_of_setState done)
  · rw [same]
    exact (unproved_set found (Path.unproved_of_setState done)).trans (unproved_markPathAbandon _ _ _)

theorem unproved_onPathAbandonAcknowledged (self : PathMap) (abandonPathId : Nat) :
    self.Unproved (self.onPathAbandonAcknowledged abandonPathId) := by
  unfold onPathAbandonAcknowledged
  split
  · exact unproved_of_paths rfl
  · apply unproved_modify
    intro path
    split
    · exact ⟨List.Subset.refl _, rfl, id⟩
    · exact .refl path

theorem unproved_stopActive {after : PathMap} (done : self.stopActive = .ok after) : self.Unproved after := by
  rcases stopActive_cases done with rfl | ⟨pid, path, new, found, stopped, rfl⟩
  · exact unproved_of_paths rfl
  · exact unproved_set found (Path.unproved_of_setState stopped)

/-- A path that becomes active shows nothing. -/
theorem unproved_setActivePath (self : PathMap) (pid : Nat) : self.Unproved (self.setActivePath pid).2 := by
  rcases self.setActivePath_cases pid with same | ⟨mid, stopped, same | ⟨path, new, found, started, same | same⟩⟩
  · rw [same]
    exact unproved_of_paths rfl
  · rw [same]
    exact unproved_stopActive stopped
  · rw [same]
    exact (unproved_stopActive stopped).trans (unproved_set found (Path.unproved_of_setState started))
  · -- A validation that is asked for shows nothing either.
    have step : path.Unproved new.requestValidation :=
      (Path.unproved_of_setState started).trans ⟨List.Subset.refl _, rfl, id⟩
    rw [same]
    exact (unproved_stopActive stopped).trans (unproved_set found step)

/-- The paths, with what was sent and answered on them. -/
structure Validating where
  map : PathMap
  sent : List (Nat × Challenge)
  /-- The challenges that were answered, each with its path. -/
  answered : List (Nat × Challenge)
  /-- The paths that were taken as validated when they were created. -/
  initial : List Nat

namespace Validating

/-- A connection that begins with some path. -/
def start (pathId pathChallengeRecvMaxQueueLen : Nat) (isInitial : Bool) (maxConcurrentPaths : Nat)
    (isServer : Bool) : Validating where
  map := .new (.new pathId pathChallengeRecvMaxQueueLen isInitial) maxConcurrentPaths isServer
  sent := []
  answered := []
  initial := if isInitial then [0] else []

/-- One event; what is known of a path that had the identifier of a new one is forgotten. -/
def next (self : Validating) : PathOp → Validating
  | .insertPath pathId pathChallengeRecvMaxQueueLen isInitial =>
    match self.map.insertPath (.new pathId pathChallengeRecvMaxQueueLen isInitial) with
    | .error _ => self
    | .ok (pid, map) =>
      { map := map
        sent := self.sent.filter fun entry => entry.1 != pid
        answered := self.answered.filter fun entry => entry.1 != pid
        initial := (if isInitial then [pid] else []) ++ self.initial.filter fun other => other != pid }
  | .challengeSent pid challenge =>
    { self with map := self.map.next (.challengeSent pid challenge), sent := self.sent ++ [(pid, challenge)] }
  | .responseReceived data =>
    { self with map := self.map.next (.responseReceived data), answered := self.answered ++ self.map.answers data }
  | op => { self with map := self.map.next op }

/-- A challenge was sent on a path in a packet large enough, and answered. -/
def Proof (self : Validating) (pid : Nat) : Prop :=
  ∃ challenge, (pid, challenge) ∈ self.sent ∧ (pid, challenge) ∈ self.answered ∧ minClientInitialLen ≤ challenge.pktSize

/-- All paths that are validated were so when they were created, or have a proof. -/
def Sound (self : Validating) : Prop :=
  ∀ pid path, self.map.get pid = .ok path → path.validated = true → pid ∈ self.initial ∨ self.Proof pid

/-- What is known of a path: its challenges were sent, and what they showed is proved. -/
structure Shown (state : Validating) (pid : Nat) (path : Path) : Prop where
  /-- The challenges without a response were sent on the path. -/
  challenges : ∀ challenge ∈ path.inFlightChallenges, (pid, challenge) ∈ state.sent
  size : minClientInitialLen ≤ path.maxChallengeSize → state.Proof pid
  validated : path.validationState = .validated → pid ∈ state.initial ∨ state.Proof pid

/-- Everything is known of all paths. -/
def Known (self : Validating) : Prop := ∀ pid path, self.map.paths.find? pid = some path → self.Shown pid path

variable {self : Validating} {pid : Nat}

theorem next_map (self : Validating) (op : PathOp) : (self.next op).map = self.map.next op := by
  cases op with
  | insertPath pathId pathChallengeRecvMaxQueueLen isInitial =>
    unfold next PathMap.next
    dsimp only
    split <;> rename_i done <;> rw [done]
  | _ => rfl

variable {after : Validating} {path : Path}

theorem Proof.grow (proof : self.Proof pid) (sent : ∀ challenge, (pid, challenge) ∈ self.sent →
    (pid, challenge) ∈ after.sent) (answered : ∀ challenge, (pid, challenge) ∈ self.answered →
    (pid, challenge) ∈ after.answered) : after.Proof pid := by
  obtain ⟨challenge, went, came, large⟩ := proof
  exact ⟨challenge, sent _ went, answered _ came, large⟩

theorem Shown.grow (shown : self.Shown pid path)
    (sent : ∀ challenge, (pid, challenge) ∈ self.sent → (pid, challenge) ∈ after.sent)
    (answered : ∀ challenge, (pid, challenge) ∈ self.answered → (pid, challenge) ∈ after.answered)
    (initial : pid ∈ self.initial → pid ∈ after.initial) : after.Shown pid path where
  challenges := fun challenge member => sent challenge (shown.challenges challenge member)
  size := fun large => (shown.size large).grow sent answered
  validated := fun valid => (shown.validated valid).imp initial fun proof => proof.grow sent answered

theorem shown_new (none_ : path.inFlightChallenges = []) (size : path.maxChallengeSize = 0)
    (initial : path.validationState = .validated → pid ∈ self.initial) : self.Shown pid path := by
  constructor
  · intro challenge member
    rw [none_] at member
    cases member
  · intro large
    rw [size] at large
    exact absurd large (by decide)
  · exact fun valid => .inl (initial valid)

theorem Known.unproved (known : self.Known) {map : PathMap} (step : self.map.Unproved map) :
    Known { self with map := map } := by
  intro pid later found
  obtain ⟨earlier, found', unproved⟩ := step pid later found
  have shown : self.Shown pid earlier := known pid earlier found'
  constructor
  · exact fun challenge member => shown.challenges challenge (unproved.challenges member)
  · intro large
    rw [unproved.size] at large
    exact shown.size large
  · exact fun valid => shown.validated (unproved.validated valid)

/-- The validated paths are sound as long as everything is known. -/
theorem Known.sound (known : self.Known) : self.Sound := by
  intro pid path found valid
  exact (known pid path (get_eq_ok_iff.mp found)).validated (of_decide_eq_true valid)

/-- A challenge that is sent is known. -/
theorem Known.challengeSent (known : self.Known) (pid : Nat) (challenge : Challenge) :
    (self.next (.challengeSent pid challenge)).Known := by
  intro probe later found
  have sent : ∀ old, (probe, old) ∈ self.sent → (probe, old) ∈ (self.next (.challengeSent pid challenge)).sent :=
    fun _ member => List.mem_append_left _ member
  have shown : ∀ path, self.map.paths.find? probe = some path →
      (self.next (.challengeSent pid challenge)).Shown probe path :=
    fun path found => (known probe path found).grow sent (fun _ member => member) id
  rw [next_map] at found
  unfold PathMap.next modify at found
  dsimp only at found
  cases there : self.map.paths.find? pid with
  | none =>
    rw [there] at found
    exact shown later found
  | some path =>
    rw [there] at found
    dsimp only at found
    rw [find?_set] at found
    -- The challenge joins those that wait on its path, and was sent on it.
    by_cases hit : probe = pid
    · rw [if_pos hit] at found
      cases found
      obtain ⟨flying, size, valid⟩ := path.addChallengeSent_shows challenge
      have before := shown path (hit ▸ there)
      constructor
      · intro one member
        rw [flying] at member
        rcases List.mem_append.mp member with member | member
        · exact before.challenges one member
        · rw [List.mem_singleton.mp member, hit]
          exact List.mem_append_right _ (List.mem_singleton_self _)
      · intro large
        rw [size] at large
        exact before.size large
      · exact fun now => before.validated (valid.mp now)
    · rw [if_neg hit] at found
      exact shown later found

/-- A response that is received makes known what it answers. -/
theorem Known.responseReceived (known : self.Known) (data : Bytes) : (self.next (.responseReceived data)).Known := by
  intro probe later found
  have answered : ∀ old, (probe, old) ∈ self.answered → (probe, old) ∈ (self.next (.responseReceived data)).answered :=
    fun _ member => List.mem_append_left _ member
  have shown : ∀ path, self.map.paths.find? probe = some path →
      (self.next (.responseReceived data)).Shown probe path :=
    fun path found => (known probe path found).grow (fun _ member => member) answered id
  rw [next_map] at found
  unfold PathMap.next onResponseReceived at found
  dsimp only at found
  cases active : self.map.getActivePathId with
  | error error =>
    rw [active] at found
    exact shown later found
  | ok activePid =>
    rw [active] at found
    dsimp only at found
    -- A response is looked up among the challenges of all paths.
    cases pending : self.map.pendingPath data with
    | none =>
      rw [pending] at found
      exact shown later found
    | some entry =>
      obtain ⟨pid, path⟩ := entry
      rw [pending] at found
      dsimp only at found
      rw [find?_set] at found
      have there : self.map.paths.find? pid = some path :=
        OrdMap.find?_eq_some_iff.mpr (List.mem_of_find?_eq_some pending)
      by_cases hit : probe = pid
      · rw [if_pos hit] at found
        cases found
        subst hit
        obtain ⟨flying, size, valid⟩ := path.onResponseReceived_shows data
        have before := shown path there
        -- The challenges that are answered were outstanding on this path, so they were sent on it.
        have proof : minClientInitialLen ≤ (path.onResponseReceived data).2.maxChallengeSize →
            (self.next (.responseReceived data)).Proof probe := by
          intro large
          -- The largest size came from an earlier challenge, or comes from one that is answered now.
          have either : minClientInitialLen ≤ path.maxChallengeSize ∨ minClientInitialLen ≤
              ((path.answeredBy data).getLast?.map Challenge.pktSize).getD 0 := by omega
          rcases either with large | large
          · exact before.size large
          · obtain ⟨challenge, member, large⟩ := Path.mem_answeredBy_of_size large
            refine ⟨challenge, before.challenges challenge (List.mem_filter.mp member).1, ?_, large⟩
            apply List.mem_append_right
            unfold answers
            rw [active, pending]
            exact List.mem_map_of_mem member
        constructor
        · exact fun challenge member => before.challenges challenge (flying member)
        · exact proof
        · intro now
          rcases valid now with already | large
          · exact before.validated already
          · exact .inr (proof large)
      · rw [if_neg hit] at found
        exact shown later found

theorem find?_of_makeRoomForNewPath {before after : PathMap} (done : before.makeRoomForNewPath = .ok after)
    (found : after.paths.find? pid = some path) : before.paths.find? pid = some path := by
  unfold makeRoomForNewPath at done
  split at done
  · cases done
    exact found
  split at done
  · rename_i removed _ _
    cases done
    rw [OrdMap.find?_erase] at found
    -- The path that was evicted is not found any more.
    by_cases hit : pid = removed
    · rw [if_pos hit] at found
      cases found
    · rw [if_neg hit] at found
      exact found
  · cases done

/-- A new path has nothing to show, unless it is an initial one. -/
theorem Known.insertPath (known : self.Known) (pathId pathChallengeRecvMaxQueueLen : Nat) (isInitial : Bool) :
    (self.next (.insertPath pathId pathChallengeRecvMaxQueueLen isInitial)).Known := by
  unfold next PathMap.insertPath
  dsimp only
  cases room : self.map.makeRoomForNewPath with
  | error error => exact known
  | ok roomy =>
    intro probe later found
    dsimp only at found ⊢
    rw [find?_set] at found
    by_cases hit : probe = roomy.vacant
    · rw [if_pos hit] at found
      cases found
      apply shown_new rfl rfl
      intro valid
      cases isInitial with
      | true => exact List.mem_append_left _ (List.mem_singleton.mpr hit)
      | false => cases valid
    · rw [if_neg hit] at found
      -- What is known of the other paths stays, as their identifiers are different ones.
      have kept : ∀ {list : List (Nat × Challenge)} (challenge : Challenge), (probe, challenge) ∈ list →
          (probe, challenge) ∈ list.filter fun entry => entry.1 != roomy.vacant :=
        fun challenge member => List.mem_filter.mpr ⟨member, by simpa using hit⟩
      refine (known probe later (find?_of_makeRoomForNewPath room found)).grow kept kept ?_
      exact fun member => List.mem_append_right _ (List.mem_filter.mpr ⟨member, by simpa using hit⟩)

/-- Everything stays known. -/
theorem Known.next (known : self.Known) (op : PathOp) : (self.next op).Known := by
  cases op with
  | insertPath pathId pathChallengeRecvMaxQueueLen isInitial =>
    exact known.insertPath pathId pathChallengeRecvMaxQueueLen isInitial
  | challengeSent pid challenge => exact known.challengeSent pid challenge
  | responseReceived data => exact known.responseReceived data
  -- The other events add no challenge, and only take away from what a path has to show.
  | setMultipath v => exact known.unproved (unproved_of_paths rfl)
  | setActiveDcidSeq pid seq => exact known.unproved (unproved_modify fun _ => ⟨List.Subset.refl _, rfl, id⟩)
  | setMaxSendBytes pid v => exact known.unproved (unproved_modify fun _ => ⟨List.Subset.refl _, rfl, id⟩)
  | requestValidation pid => exact known.unproved (unproved_modify fun _ => ⟨List.Subset.refl _, rfl, id⟩)
  | challengeReceived pid data =>
    exact known.unproved (unproved_modify fun path => path.unproved_onChallengeReceived data)
  | responseSent pid => exact known.unproved (unproved_modify fun _ => ⟨List.Subset.refl _, rfl, id⟩)
  | lossDetectionTimeout pid now rtt =>
    exact known.unproved (unproved_modify fun path => path.unproved_onLossDetectionTimeout now rtt self.map.isServer)
  | request pid request => exact known.unproved (unproved_request self.map pid request)
  | abandonSent pid =>
    apply known.unproved
    unfold PathMap.next onPathAbandonSent
    dsimp only
    split
    · exact unproved_of_paths rfl
    · exact unproved_markPathAbandon self.map pid false
  | abandonReceived pathId errorCode => exact known.unproved (unproved_onPathAbandonReceived self.map pathId errorCode)
  | abandonAcknowledged pathId => exact known.unproved (unproved_onPathAbandonAcknowledged self.map pathId)
  | setActivePath pid => exact known.unproved (unproved_setActivePath self.map pid)

/-- Everything is known in the beginning. -/
theorem known_start (pathId pathChallengeRecvMaxQueueLen : Nat) (isInitial : Bool) (maxConcurrentPaths : Nat)
    (isServer : Bool) : (start pathId pathChallengeRecvMaxQueueLen isInitial maxConcurrentPaths isServer).Known := by
  intro pid path found
  have found : (OrdMap.empty.insert 0 { Path.new pathId pathChallengeRecvMaxQueueLen isInitial with
      state := .active }).find? pid = some path := found
  rw [OrdMap.find?_insert] at found
  -- There is one path, which may be taken as validated.
  by_cases first : pid = 0
  · rw [if_pos first] at found
    cases found
    apply shown_new rfl rfl
    intro valid
    cases isInitial with
    | true => exact List.mem_singleton.mpr first
    | false => cases valid
  · rw [if_neg first] at found
    cases found

/-- A path is validated only by the response to a challenge that was sent on it in a large packet. -/
theorem always_sound (pathId pathChallengeRecvMaxQueueLen : Nat) (isInitial : Bool) (maxConcurrentPaths : Nat)
    (isServer : Bool) (ops : List PathOp) :
    (Runs.run next (start pathId pathChallengeRecvMaxQueueLen isInitial maxConcurrentPaths isServer) ops).Sound := by
  have keeps : ∀ (state : Validating) op, state.Known → (state.next op).Known := fun _ op known => known.next op
  exact (Runs.run_keeps keeps (known_start _ _ _ _ _) ops).sound

end Validating

end PathMap

end Flexicast
