import Flexicast.Congestion.Protocol

/-! The rounds in which EXP3 bans an increase because earlier ones failed. -/

namespace Flexicast

namespace Congestion

open Packing (McAnnounceData)
open Runs

variable {F : Type} [Float64 F]

/-- What a round of the heuristic comes with. -/
structure Round (F : Type) where
  announceData : List McAnnounceData
  /-- What is measured of the current channel. -/
  stats : CongestionStats F
  currentChannelIdx : Nat
  action : Action

namespace EXP3State

/-- One round: actions are banned, the last increase is judged, and an action is recorded. -/
def round (state : EXP3State F) (event : Round F) : EXP3State F :=
  let state := state.updateInstances event.announceData
  let (state, _) := state.getBanned event.stats event.currentChannelIdx
  { state.updateTrialCount event.stats with lastTakenAction := some event.action }

/-- The action of a round is not banned. -/
def Permitted (state : EXP3State F) (event : Round F) : Prop :=
  event.action ∉ ((state.updateInstances event.announceData).getBanned event.stats event.currentChannelIdx).2

/-- The last action was an increase, which the losses of a round show to have failed. -/
def Fails (state : EXP3State F) (event : Round F) : Prop :=
  state.lastTakenAction = some .increase ∧ state.conf.hardLossThreshold < event.stats.lossRate

/-- The last action was an increase, which the losses of a round do not show to have failed. -/
def Succeeds (state : EXP3State F) (event : Round F) : Prop :=
  state.lastTakenAction = some .increase ∧ ¬ state.conf.hardLossThreshold < event.stats.lossRate

instance (state : EXP3State F) (event : Round F) : Decidable (state.Permitted event) :=
  inferInstanceAs (Decidable (_ ∉ _))

instance (state : EXP3State F) (event : Round F) : Decidable (state.Fails event) := inferInstanceAs (Decidable (_ ∧ _))

instance (state : EXP3State F) (event : Round F) : Decidable (state.Succeeds event) :=
  inferInstanceAs (Decidable (_ ∧ _))

/-- The part of the state that bans increases. -/
def counters (state : EXP3State F) : Option Action × Nat × Nat × F :=
  (state.lastTakenAction, state.failedIncreaseCount, state.banIncreaseRounds, state.conf.hardLossThreshold)

theorem counters_updateInstances (state : EXP3State F) (announceData : List McAnnounceData) :
    (state.updateInstances announceData).counters = state.counters := by
  -- Only instances are opened, and none of the counters belongs to one.
  obtain ⟨instances, folded, -⟩ := foldl_openInstance announceData state
  rw [updateInstances, folded]
  rfl

theorem getBanned_fst (state : EXP3State F) (stats : CongestionStats F) (currentChannelIdx : Nat) :
    (state.getBanned stats currentChannelIdx).1 = { state with banIncreaseRounds := state.banIncreaseRounds - 1 } := by
  simp only [getBanned, apply_ite Prod.fst, ite_self]
  split
  · rfl
  · rename_i none_
    have zero : state.banIncreaseRounds = 0 := by omega
    rw [zero, Nat.zero_sub, ← zero]

theorem increase_mem_allowed {σ : Type} {banned : List Action} (member : .increase ∈ banned) (state : σ) :
    Action.increase ∈ (if .decrease ∈ banned ∧ .increase ∈ banned ∧ .stay ∈ banned then (state, banned.erase .stay)
      else (state, banned)).2 := by
  have apart : Action.increase ≠ .stay := by decide
  split
  · exact (List.mem_erase_of_ne apart).mpr member
  · exact member

/-- An increase is banned while rounds are left, or by the losses. -/
theorem increase_mem_getBanned {state : EXP3State F} {stats : CongestionStats F}
    (reason : 0 < state.banIncreaseRounds ∨ .increase ∈ state.bannedByLoss stats) (currentChannelIdx : Nat) :
    Action.increase ∈ (state.getBanned stats currentChannelIdx).2 := by
  -- The place of the channel adds bans only.
  have kept : ∀ (place : Prop) [Decidable place] (banned : List Action) (action : Action), .increase ∈ banned →
      .increase ∈ if place then banned.insert action else banned := by
    intro place _ banned action member
    split
    · exact List.mem_insert_of_mem member
    · exact member
  by_cases left : 0 < state.banIncreaseRounds
  · simp only [getBanned, if_pos left]
    exact increase_mem_allowed (kept _ _ _ (kept _ _ _ List.mem_insert_self)) _
  · have byLoss := reason.resolve_left left
    simp only [getBanned, if_neg left]
    exact increase_mem_allowed (kept _ _ _ (kept _ _ _ byLoss)) _

/-- What a round leaves of the counters. -/
theorem counters_round (state : EXP3State F) (event : Round F) :
    (state.round event).counters =
      (some event.action,
        if state.Fails event then min (state.failedIncreaseCount + 1) 4
        else if state.Succeeds event then 0 else state.failedIncreaseCount,
        if state.Fails event then 2 ^ min (state.failedIncreaseCount + 1) 4 - 1
        else if state.Succeeds event then 0 else state.banIncreaseRounds - 1,
        state.conf.hardLossThreshold) := by
  have same := counters_updateInstances state event.announceData
  simp only [counters, Prod.mk.injEq] at same
  obtain ⟨last, failed, bans, hard⟩ := same
  unfold round
  simp only [getBanned_fst, updateTrialCount, Fails, Succeeds, last, failed, bans, hard]
  -- The last increase is judged after a round was counted down, so the judgement replaces the countdown.
  by_cases increased : state.lastTakenAction = some .increase
  · by_cases lossy : state.conf.hardLossThreshold < event.stats.lossRate
    · simp [counters, increased, lossy, hard, Nat.one_shiftLeft]
    · simp [counters, increased, lossy, hard]
  · simp [counters, increased, hard]

end EXP3State

/-- The rounds for which so many failed increases in a row ban the next ones. -/
def roundsBanned (failures : Nat) : Nat := 2 ^ min failures 4 - 1

theorem roundsBanned_le_succ (failures : Nat) : roundsBanned failures ≤ roundsBanned (failures + 1) := by
  have fewer : min failures 4 ≤ min (failures + 1) 4 := by omega
  exact Nat.sub_le_sub_right (Nat.pow_le_pow_right (by omega) fewer) 1

theorem roundsBanned_le_one (failures : Nat) : roundsBanned failures ≤ 1 ↔ failures ≤ 1 := by
  rw [roundsBanned]
  constructor
  · intro few
    by_contra many
    have power : 2 ^ 2 ≤ 2 ^ min failures 4 := Nat.pow_le_pow_right (by omega) (by omega)
    omega
  · intro few
    have power : 2 ^ min failures 4 ≤ 2 ^ 1 := Nat.pow_le_pow_right (by omega) (by omega)
    omega

/-- The state of the heuristic along its rounds, and what their losses showed of the increases. -/
structure Backoff (F : Type) where
  state : EXP3State F
  round : Nat
  /-- How many increases failed since the last one that did not. -/
  failures : Nat
  /-- The rounds that observed a failure, each with how many there were by then. -/
  observed : List (Nat × Nat)
  /-- The rounds that observed an increase that did not fail. -/
  succeeded : List Nat

namespace Backoff

/-- Before the first round. -/
def new (config : EXP3Conf F) (now : Nat) : Backoff F := ⟨.new config now, 0, 0, [], []⟩

/-- After one more round. -/
def next (backoff : Backoff F) (event : Round F) : Backoff F where
  state := backoff.state.round event
  round := backoff.round + 1
  failures :=
    if backoff.state.Fails event then backoff.failures + 1
    else if backoff.state.Succeeds event then 0 else backoff.failures
  observed :=
    if backoff.state.Fails event then (backoff.round, backoff.failures + 1) :: backoff.observed else backoff.observed
  succeeded := if backoff.state.Succeeds event then backoff.round :: backoff.succeeded else backoff.succeeded

/-- The action of the next round is not banned. -/
def Permitted (backoff : Backoff F) (event : Round F) : Prop := backoff.state.Permitted event

/-- The next round is one of those that follow the observation of a failure, and for which it bans increases. -/
def Due (backoff : Backoff F) : Prop :=
  ∃ ban ∈ backoff.observed, ban.1 < backoff.round ∧ backoff.round ≤ ban.1 + roundsBanned ban.2

/-- No increase was seen not to fail since a failure was observed. -/
def Stands (backoff : Backoff F) (ban : Nat × Nat) : Prop := ∀ success ∈ backoff.succeeded, success ≤ ban.1

/-- The next round is one for which such a failure bans increases. -/
def StillDue (backoff : Backoff F) : Prop :=
  ∃ ban ∈ backoff.observed, backoff.Stands ban ∧ ban.1 < backoff.round ∧ backoff.round ≤ ban.1 + roundsBanned ban.2

/-- The back-off bans increases in the next round. -/
def Bans (backoff : Backoff F) : Prop := 0 < backoff.state.banIncreaseRounds

/-- If the next round shows that an increase did not fail, the round that took it observed no second failure. -/
def Sound (backoff : Backoff F) (event : Round F) : Prop :=
  backoff.state.Succeeds event → ∀ ban ∈ backoff.observed, ban.1 + 1 = backoff.round → ban.2 ≤ 1

/-- The rounds that are left end with the last one for which a failure that stands bans increases. -/
structure Held (backoff : Backoff F) : Prop where
  count : backoff.state.failedIncreaseCount = min backoff.failures 4
  past : ∀ ban ∈ backoff.observed, ban.1 < backoff.round
  earlier : ∀ success ∈ backoff.succeeded, success < backoff.round
  enough : ∀ ban ∈ backoff.observed, backoff.Stands ban →
    ban.1 + roundsBanned ban.2 < backoff.round + backoff.state.banIncreaseRounds
  needed : backoff.state.banIncreaseRounds = 0 ∨ ∃ ban ∈ backoff.observed, backoff.Stands ban ∧
    ban.1 + roundsBanned ban.2 + 1 = backoff.round + backoff.state.banIncreaseRounds
  atMost : backoff.state.banIncreaseRounds ≤ roundsBanned backoff.failures

omit [Float64 F] in
theorem new_held (config : EXP3Conf F) (now : Nat) : (new config now).Held where
  count := rfl
  past := fun _ member => (by cases member)
  earlier := fun _ member => (by cases member)
  enough := fun _ member => (by cases member)
  needed := .inl rfl
  atMost := Nat.zero_le _

variable {backoff : Backoff F} {event : Round F}

omit [Float64 F] in
theorem Held.bans_iff (held : backoff.Held) : backoff.Bans ↔ backoff.StillDue := by
  rw [Bans]
  constructor
  · intro left
    rcases held.needed with none_ | ⟨ban, member, stands, ends⟩
    · omega
    · exact ⟨ban, member, stands, held.past ban member, by omega⟩
  · rintro ⟨ban, member, stands, -, within⟩
    have enough := held.enough ban member stands
    omega

/-- A round observes a failure, a success, or neither. -/
theorem next_cases (backoff : Backoff F) (event : Round F) :
    (backoff.state.Fails event ∧
      (backoff.next event).state.failedIncreaseCount = min (backoff.state.failedIncreaseCount + 1) 4 ∧
      (backoff.next event).state.banIncreaseRounds = 2 ^ min (backoff.state.failedIncreaseCount + 1) 4 - 1 ∧
      (backoff.next event).failures = backoff.failures + 1 ∧
      (backoff.next event).observed = (backoff.round, backoff.failures + 1) :: backoff.observed ∧
      (backoff.next event).succeeded = backoff.succeeded) ∨
    (backoff.state.Succeeds event ∧
      (backoff.next event).state.failedIncreaseCount = 0 ∧ (backoff.next event).state.banIncreaseRounds = 0 ∧
      (backoff.next event).failures = 0 ∧ (backoff.next event).observed = backoff.observed ∧
      (backoff.next event).succeeded = backoff.round :: backoff.succeeded) ∨
    (backoff.state.lastTakenAction ≠ some .increase ∧
      (backoff.next event).state.failedIncreaseCount = backoff.state.failedIncreaseCount ∧
      (backoff.next event).state.banIncreaseRounds = backoff.state.banIncreaseRounds - 1 ∧
      (backoff.next event).failures = backoff.failures ∧ (backoff.next event).observed = backoff.observed ∧
      (backoff.next event).succeeded = backoff.succeeded) := by
  have after := EXP3State.counters_round backoff.state event
  simp only [EXP3State.counters, Prod.mk.injEq] at after
  obtain ⟨-, count, bans, -⟩ := after
  by_cases increased : backoff.state.lastTakenAction = some .increase
  · by_cases lossy : backoff.state.conf.hardLossThreshold < event.stats.lossRate
    · have fails : backoff.state.Fails event := ⟨increased, lossy⟩
      have unmet : ¬backoff.state.Succeeds event := fun succeeds => succeeds.2 lossy
      rw [if_pos fails] at count bans
      exact .inl ⟨fails, count, bans, if_pos fails, if_pos fails, if_neg unmet⟩
    · have succeeds : backoff.state.Succeeds event := ⟨increased, lossy⟩
      have unfailed : ¬backoff.state.Fails event := fun fails => lossy fails.2
      rw [if_neg unfailed, if_pos succeeds] at count bans
      have failures : (backoff.next event).failures = 0 := (if_neg unfailed).trans (if_pos succeeds)
      exact .inr (.inl ⟨succeeds, count, bans, failures, if_neg unfailed, if_pos succeeds⟩)
  · have unfailed : ¬backoff.state.Fails event := fun fails => increased fails.1
    have unmet : ¬backoff.state.Succeeds event := fun succeeds => increased succeeds.1
    rw [if_neg unfailed, if_neg unmet] at count bans
    have failures : (backoff.next event).failures = backoff.failures := (if_neg unfailed).trans (if_neg unmet)
    exact .inr (.inr ⟨increased, count, bans, failures, if_neg unfailed, if_neg unmet⟩)

/-- Failures were observed in rounds that are past. -/
theorem next_past (held : backoff.Held) (event : Round F) :
    ∀ ban ∈ (backoff.next event).observed, ban.1 < (backoff.next event).round := by
  intro ban member
  have later : (backoff.next event).round = backoff.round + 1 := rfl
  by_cases fails : backoff.state.Fails event
  · have observed : (backoff.next event).observed = (backoff.round, backoff.failures + 1) :: backoff.observed :=
      if_pos fails
    rw [observed] at member
    rcases List.mem_cons.mp member with rfl | member
    · exact Nat.lt_succ_self _
    · have past := held.past ban member
      omega
  · have observed : (backoff.next event).observed = backoff.observed := if_neg fails
    have past := held.past ban (observed ▸ member)
    omega

/-- So were the increases that did not fail. -/
theorem next_earlier (held : backoff.Held) (event : Round F) :
    ∀ success ∈ (backoff.next event).succeeded, success < (backoff.next event).round := by
  intro success member
  have later : (backoff.next event).round = backoff.round + 1 := rfl
  by_cases succeeds : backoff.state.Succeeds event
  · have succeeded : (backoff.next event).succeeded = backoff.round :: backoff.succeeded := if_pos succeeds
    rw [succeeded] at member
    rcases List.mem_cons.mp member with rfl | member
    · exact Nat.lt_succ_self _
    · have earlier := held.earlier success member
      omega
  · have succeeded : (backoff.next event).succeeded = backoff.succeeded := if_neg succeeds
    have earlier := held.earlier success (succeeded ▸ member)
    omega

theorem banIncreaseRounds_of_fails (held : backoff.Held)
    (bans : (backoff.next event).state.banIncreaseRounds = 2 ^ min (backoff.state.failedIncreaseCount + 1) 4 - 1) :
    (backoff.next event).state.banIncreaseRounds = roundsBanned (backoff.failures + 1) := by
  have count := held.count
  have both : min (backoff.state.failedIncreaseCount + 1) 4 = min (backoff.failures + 1) 4 := by omega
  rw [bans, both, roundsBanned]

/-- Every round leaves the right number of rounds. -/
theorem next_held (held : backoff.Held) (event : Round F) : (backoff.next event).Held := by
  have later : (backoff.next event).round = backoff.round + 1 := rfl
  have count := held.count
  have atMost := held.atMost
  have past := next_past held event
  have earlier := next_earlier held event
  rcases next_cases backoff event with ⟨-, failed, bans, failures, observed, succeeded⟩ |
    ⟨-, failed, bans, failures, observed, succeeded⟩ | ⟨-, failed, bans, failures, observed, succeeded⟩
  · have new := banIncreaseRounds_of_fails held bans
    refine ⟨by omega, past, earlier, fun ban member stands => ?_,
      .inr ⟨(backoff.round, backoff.failures + 1), ?_, fun success member => ?_, ?_⟩, ?_⟩
    · rw [observed] at member
      rw [Stands, succeeded] at stands
      rcases List.mem_cons.mp member with rfl | member
      · rw [new, later]
        exact Nat.add_lt_add_right (Nat.lt_succ_self _) _
      · -- The new failure bans increases for at least as long as any earlier one still does.
        have longer := roundsBanned_le_succ backoff.failures
        have enough := held.enough ban member stands
        omega
    · rw [observed]
      exact List.mem_cons_self
    · exact Nat.le_of_lt (held.earlier success (succeeded ▸ member))
    · rw [new, later]
      exact Nat.add_right_comm _ _ _
    · rw [new, failures]
  · refine ⟨by omega, past, earlier, fun ban member stands => ?_, .inl bans, by omega⟩
    -- No failure stands after a success.
    have before := held.past ban (observed ▸ member)
    rw [Stands, succeeded] at stands
    have since := stands backoff.round List.mem_cons_self
    omega
  · refine ⟨by omega, past, earlier, fun ban member stands => ?_, ?_, ?_⟩
    · rw [Stands, succeeded] at stands
      have enough := held.enough ban (observed ▸ member) stands
      omega
    -- One round more is past, and one less is left, so they end where they did.
    · rcases held.needed with none_ | ⟨ban, member, stands, ends⟩
      · exact .inl (by omega)
      · by_cases last : (backoff.next event).state.banIncreaseRounds = 0
        · exact .inl last
        · refine .inr ⟨ban, observed ▸ member, ?_, by omega⟩
          rw [Stands, succeeded]
          exact stands
    · rw [bans, failures]
      omega

/-- No increase is taken while there are rounds left, so those that are left after one are from its own round. -/
def Recent (backoff : Backoff F) : Prop :=
  backoff.state.lastTakenAction = some .increase → backoff.state.banIncreaseRounds = 0 ∨
    ∃ ban ∈ backoff.observed, ban.1 + 1 = backoff.round ∧ backoff.state.banIncreaseRounds = roundsBanned ban.2

theorem none_left (permitted : backoff.Permitted event) (increases : event.action = .increase) :
    backoff.state.banIncreaseRounds = 0 := by
  by_contra left
  have same := EXP3State.counters_updateInstances backoff.state event.announceData
  simp only [EXP3State.counters, Prod.mk.injEq] at same
  obtain ⟨-, -, bans, -⟩ := same
  apply permitted
  rw [increases]
  exact EXP3State.increase_mem_getBanned (.inl (by omega)) _

theorem next_recent (held : backoff.Held) (permitted : backoff.Permitted event) : (backoff.next event).Recent := by
  intro taken
  have left := none_left permitted (Option.some.inj taken)
  rcases next_cases backoff event with
    ⟨-, -, bans, -, observed, -⟩ | ⟨-, -, bans, -⟩ | ⟨-, -, bans, -⟩
  · refine .inr ⟨(backoff.round, backoff.failures + 1), ?_, rfl, banIncreaseRounds_of_fails held bans⟩
    rw [observed]
    exact List.mem_cons_self
  · exact .inl bans
  · exact .inl (by rw [bans, left])

/-- The rounds for which a failure bans increases are over when it does not stand any more. -/
def Settled (backoff : Backoff F) : Prop :=
  ∀ ban ∈ backoff.observed, ¬backoff.Stands ban → ban.1 + roundsBanned ban.2 < backoff.round

omit [Float64 F] in
theorem Settled.bans_iff (settled : backoff.Settled) (held : backoff.Held) : backoff.Bans ↔ backoff.Due := by
  rw [held.bans_iff]
  constructor
  · exact fun ⟨ban, member, _, due⟩ => ⟨ban, member, due⟩
  · rintro ⟨ban, member, past, within⟩
    refine ⟨ban, member, ?_, past, within⟩
    by_contra stopped
    have ended := settled ban member stopped
    omega

/-- A round cuts no ban short if the condition is met, and cuts one short if it is not. -/
theorem next_settled (event : Round F) (held : backoff.Held) (recent : backoff.Recent) (settled : backoff.Settled) :
    (backoff.Sound event → (backoff.next event).Settled) ∧
      (((backoff.next event).Bans ↔ (backoff.next event).Due) → backoff.Sound event) := by
  have later : (backoff.next event).round = backoff.round + 1 := rfl
  rcases next_cases backoff event with ⟨fails, -, -, -, observed, succeeded⟩ |
    ⟨succeeds, -, bans, -, observed, succeeded⟩ | ⟨neither, -, -, -, observed, succeeded⟩
  · refine ⟨fun _ ban member stopped => ?_, fun _ succeeds => absurd fails.2 succeeds.2⟩
    -- A new failure comes after every success, so it stands.
    rw [Stands, succeeded] at stopped
    rw [observed] at member
    rcases List.mem_cons.mp member with rfl | member
    · exact absurd (fun success member => Nat.le_of_lt (held.earlier success member)) stopped
    · have ended := settled ban member stopped
      omega
  · refine ⟨fun sound ban member _ => ?_, fun right _ ban member last => ?_⟩
    · rw [observed] at member
      -- The rounds that are left are those of the round before, which are one at most.
      by_cases stands : backoff.Stands ban
      · have enough := held.enough ban member stands
        rcases recent succeeds.1 with none_ | ⟨last, observed, ends, left⟩
        · omega
        · have few := (roundsBanned_le_one last.2).mpr (sound succeeds last observed ends)
          omega
      · have ended := settled ban member stands
        omega
    · by_contra many
      have long := (roundsBanned_le_one ban.2).not.mpr many
      have left := right.mpr ⟨ban, observed ▸ member, by omega, by omega⟩
      rw [Bans, bans] at left
      omega
  · refine ⟨fun _ ban member stopped => ?_, fun _ succeeds => absurd succeeds.1 neither⟩
    rw [Stands, succeeded] at stopped
    have ended := settled ban (observed ▸ member) stopped
    omega

theorem run_bans_iff (config : EXP3Conf F) (now : Nat) (events : List (Round F)) :
    (run next (new config now) events).Bans ↔ (run next (new config now) events).StillDue := by
  have held := @run_keeps _ _ next Held (fun _ event held => next_held held event) _ (new_held config now) events
  exact held.bans_iff

theorem always_due_iff (config : EXP3Conf F) (now : Nat) {events : List (Round F)}
    (permitted : Along next Permitted (new config now) events) :
    (∀ done, done <+: events → ((run next (new config now) done).Bans ↔ (run next (new config now) done).Due)) ↔
      Along next Sound (new config now) events := by
  refine @always_weak_iff_along _ _ next Permitted Sound (fun backoff => backoff.Held ∧ backoff.Recent) Settled
    (fun backoff => backoff.Bans ↔ backoff.Due) ?_ ?_ ?_ events _ ?_ ?_ permitted
  · exact fun _ event base permitted => ⟨next_held base.1 event, next_recent base.1 permitted⟩
  · exact fun _ base settled => settled.bans_iff base.1
  · exact fun _ event base settled _ => next_settled event base.1 base.2 settled
  · exact ⟨new_held config now, fun taken => (by cases taken)⟩
  · exact fun _ member => (by cases member)

/-- Increases are banned just in the rounds that follow a failure, until one is seen not to fail; and that cuts no ban
short just when it was not taken in a round that observed a second failure. -/
theorem bans_after_failures (config : EXP3Conf F) (now : Nat) {events : List (Round F)}
    (permitted : Along next Permitted (new config now) events) :
    (∀ done, done <+: events →
      ((run next (new config now) done).Bans ↔ (run next (new config now) done).StillDue)) ∧
    ((∀ done, done <+: events → ((run next (new config now) done).Bans ↔ (run next (new config now) done).Due)) ↔
      Along next Sound (new config now) events) :=
  ⟨fun done _ => run_bans_iff config now done, always_due_iff config now permitted⟩

instance (backoff : Backoff F) (event : Round F) : Decidable (backoff.Permitted event) :=
  inferInstanceAs (Decidable (backoff.state.Permitted event))

instance (backoff : Backoff F) : Decidable backoff.Bans := inferInstanceAs (Decidable (0 < _))

instance (backoff : Backoff F) : Decidable backoff.Due :=
  inferInstanceAs (Decidable (∃ ban ∈ backoff.observed, _))

instance (backoff : Backoff F) (event : Round F) : Decidable (backoff.Sound event) :=
  inferInstanceAs (Decidable (backoff.state.Succeeds event → ∀ ban ∈ backoff.observed, _))

/-- A round in one of three channels. -/
def roundOf (lossRate : Rat) (currentChannelIdx : Nat) (action : Action) : Round Rat where
  announceData := [Session.channelOf [1] 1000, Session.channelOf [2] 2000, Session.channelOf [3] 3000]
  stats := CongestionStats.default.setLossRate lossRate
  currentChannelIdx := currentChannelIdx
  action := action

/-- Two increases fail, and the receiver waits in its first channel until it may increase again. -/
def failTwice : List (Round Rat) :=
  [roundOf 0 0 .increase, roundOf (mkRat 20 100) 1 .decrease, roundOf 0 0 .stay, roundOf 0 0 .increase,
    roundOf (mkRat 20 100) 1 .decrease, roundOf 0 0 .stay, roundOf 0 0 .stay, roundOf 0 0 .stay, roundOf 0 0 .increase,
    roundOf 0 1 .stay]

/-- The three rounds after the second failure are banned, and the others are not. -/
theorem bans_after_failTwice :
    (run next (new Session.plainConf 0) failTwice).failures = 0 ∧ ∀ done, done <+: failTwice →
      ((run next (new Session.plainConf 0) done).Bans ↔ (run next (new Session.plainConf 0) done).Due) :=
  ⟨by decide +kernel, (bans_after_failures Session.plainConf 0 (by decide +kernel)).2.mpr (by decide +kernel)⟩

/-- A threshold that is below the losses of which a decrease is not expected to help. -/
def strictConf : EXP3Conf Rat := { Session.plainConf with hardLossThreshold := mkRat 1 1000 }

/-- Two increases fail, the second of which is followed by one that does not, and this one ends the bans. -/
def cutShort : List (Round Rat) :=
  [roundOf 0 0 .increase, roundOf (mkRat 2 1000) 1 .stay, roundOf (mkRat 10 1000) 1 .decrease,
    roundOf 0 0 .increase, roundOf (mkRat 2 1000) 1 .increase, roundOf 0 2 .stay]

/-- Not every run bans increases in all the rounds that follow its failures. -/
theorem success_ends_ban : ¬∀ (config : EXP3Conf Rat) (now : Nat) (events : List (Round Rat)),
    Along next Permitted (new config now) events → ∀ done, done <+: events →
      ((run next (new config now) done).Bans ↔ (run next (new config now) done).Due) := by
  intro every
  have permitted : Along next Permitted (new strictConf 0) cutShort := by decide +kernel
  have broken : ¬((run next (new strictConf 0) cutShort).Bans ↔ (run next (new strictConf 0) cutShort).Due) := by
    decide +kernel
  exact broken (every strictConf 0 cutShort permitted cutShort (List.prefix_refl _))

end Backoff

end Congestion

end Flexicast
