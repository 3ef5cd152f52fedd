import Flexicast.Congestion.Exp3
import Flexicast.Lib.Runs

/-! Runs of the EXP3 heuristic: every action is rewarded before the next one is taken. -/

namespace Flexicast

namespace Congestion

open Packing (McAnnounceData)
open Runs

variable {F : Type} [Float64 F]

section Instances

namespace EXP3

/-- An instance has three actions, with a weight and a probability each. -/
structure Sized (exp3 : EXP3 F) : Prop where
  k : exp3.k = 3
  weights : exp3.weights.length = 3
  probas : exp3.probas.length = 3

variable {exp3 : EXP3 F}

theorem computeProbas_sized (k : exp3.k = 3) (weights : exp3.weights.length = 3) : exp3.computeProbas.Sized :=
  ⟨k, weights, by simp [computeProbas, weights]⟩

theorem new_sized (gamma : Option F) : (new 3 gamma).Sized := computeProbas_sized rfl (by simp)

theorem length_weightedActions (exp3 : EXP3 F) (banned : List Nat) :
    (exp3.weightedActions banned).length = exp3.probas.length := by
  simp [weightedActions, normalize]

theorem foldlM_rewardedWeight (sized : exp3.Sized) (takenAction : Nat) (value : F) {indices : List Nat}
    (below : ∀ i ∈ indices, i < 3) : ∀ {weights : List F}, weights.length = 3 →
      ∃ after, indices.foldlM (exp3.rewardedWeight takenAction value) weights = some after ∧ after.length = 3 := by
  induction indices with
  | nil => exact fun length => ⟨_, rfl, length⟩
  | cons i rest ih =>
    intro weights length
    have inside : i < 3 := below i List.mem_cons_self
    have weight : weights[i]? = some weights[i] := List.getElem?_eq_getElem (by omega)
    have inProbas : i < exp3.probas.length := by rw [sized.probas]; exact inside
    have proba : exp3.probas[i]? = some exp3.probas[i] := List.getElem?_eq_getElem inProbas
    rw [List.foldlM_cons, rewardedWeight, weight, proba]
    exact ih (fun other member => below other (List.mem_cons_of_mem _ member)) (by simp [length])

theorem reward_pending (sized : exp3.Sized) (pending : exp3.takenAction.isSome) {value : F} (small : ¬1 < value)
    (positive : ¬value < 0) :
    ∃ after, exp3.reward value = some (.ok (), after) ∧ after.Sized ∧ after.takenAction = none := by
  obtain ⟨action, taken⟩ := Option.isSome_iff_exists.mp pending
  have below : ∀ i ∈ List.range exp3.k, i < 3 := fun i member => by
    rw [sized.k] at member
    exact List.mem_range.mp member
  obtain ⟨weights, rewarded, length⟩ := foldlM_rewardedWeight sized action value below sized.weights
  refine ⟨{ exp3 with weights := normalize weights, takenAction := none }, ?_, ⟨sized.k, ?_, sized.probas⟩, rfl⟩
  · simp [reward, small, positive, taken, rewarded]
  · simp [normalize, length]

theorem takeAction_idle (sized : exp3.Sized) (idle : exp3.takenAction = none) {banned : List Nat}
    {choose : ChooseWeighted F} {action : Nat}
    (drawn : choose (exp3.computeProbas.weightedActions banned) = some action) :
    ∃ after, exp3.takeAction banned choose = some (.ok action, after) ∧ after.Sized ∧
      after.takenAction = some action := by
  refine ⟨{ exp3.computeProbas with takenAction := some action }, ?_, ?_, rfl⟩
  · simp [takeAction, idle, drawn]
  · have recomputed := computeProbas_sized sized.k sized.weights
    exact ⟨recomputed.k, recomputed.weights, recomputed.probas⟩

end EXP3

end Instances

section States

namespace EXP3State

/-- Of all instances, only that of the pending channel waits for a reward. -/
structure Waits (state : EXP3State F) (pending : Option Bytes) : Prop where
  sized : ∀ channel exp3, state.instances channel = some exp3 → exp3.Sized
  waiting : ∀ channel exp3, state.instances channel = some exp3 → (exp3.takenAction.isSome ↔ pending = some channel)
  opened : ∀ channel, pending = some channel → (state.instances channel).isSome

/-- Every ordered channel has an instance. -/
def Ordered (state : EXP3State F) : Prop := ∀ channel ∈ state.orderedChannels, (state.instances channel).isSome

variable {state : EXP3State F} {channel : Bytes} {exp3 : EXP3 F} {rewarder : EXP3Rewarder F}
  {stats : CongestionStats F} {value : F}

variable {other : EXP3State F} {pending : Option Bytes} {prepared : Prepared F} {current : Bytes} {index : Nat}

omit [Float64 F] in
theorem Waits.congr (waits : state.Waits pending) (same : other.instances = state.instances) : other.Waits pending :=
  ⟨same ▸ waits.sized, same ▸ waits.waiting, same ▸ waits.opened⟩

omit [Float64 F] in
/-- Replacing the instance of one channel changes which channel waits, if the others did not and do not. -/
theorem Waits.update {before after : Option Bytes} (waits : state.Waits before)
    (same : other.instances = Function.update state.instances channel (some exp3)) (sized : exp3.Sized)
    (waiting : exp3.takenAction.isSome ↔ after = some channel) (only : before = none ∨ before = some channel)
    (next : after = none ∨ after = some channel) : other.Waits after := by
  refine ⟨fun probe held found => ?_, fun probe held found => ?_, fun probe pending => ?_⟩
  · by_cases own : probe = channel
    · subst own
      rw [same, Function.update_self, Option.some.injEq] at found
      exact found ▸ sized
    · rw [same, Function.update_of_ne own] at found
      exact waits.sized probe held found
  · by_cases own : probe = channel
    · subst own
      rw [same, Function.update_self, Option.some.injEq] at found
      exact found ▸ waiting
    · rw [same, Function.update_of_ne own] at found
      have idle : ¬before = some probe := by
        rcases only with rfl | rfl
        · simp
        · simpa using Ne.symm own
      have spared : ¬after = some probe := by
        rcases next with rfl | rfl
        · simp
        · simpa using Ne.symm own
      simp only [waits.waiting probe held found, idle, spared]
  · rcases next with rfl | rfl
    · cases pending
    · cases pending
      rw [same, Function.update_self]
      rfl

omit [Float64 F] in
theorem isSome_update (found : state.instances channel = some exp3) (after : EXP3 F) (probe : Bytes) :
    (Function.update state.instances channel (some after) probe).isSome = (state.instances probe).isSome := by
  by_cases own : probe = channel
  · subst own
    simp [found]
  · simp [own]

/-- Opening an instance changes nothing else. -/
theorem openInstance_eq (state : EXP3State F) (announce : McAnnounceData) :
    ∃ instances, openInstance state announce = { state with instances := instances } ∧
      (instances announce.channelId).isSome ∧
      ∀ channel, instances channel = state.instances channel ∨
        (state.instances channel = none ∧ channel = announce.channelId ∧
          instances channel = some (EXP3.new 3 state.conf.gamma)) := by
  rw [openInstance]
  split
  · rename_i opened
    exact ⟨state.instances, rfl, opened, fun channel => .inl rfl⟩
  · rename_i missing
    refine ⟨_, rfl, by simp, fun channel => ?_⟩
    by_cases same : channel = announce.channelId
    · subst same
      exact .inr ⟨Option.not_isSome_iff_eq_none.mp missing, rfl, by simp⟩
    · exact .inl (by simp [same])

/-- Opening the instances of announced channels keeps the others, and the new ones wait for nothing. -/
theorem foldl_openInstance (announceData : List McAnnounceData) (state : EXP3State F) :
    ∃ instances, announceData.foldl openInstance state = { state with instances := instances } ∧
      (∀ announce ∈ announceData, (instances announce.channelId).isSome) ∧
      ∀ channel, instances channel = state.instances channel ∨
        (state.instances channel = none ∧ instances channel = some (EXP3.new 3 state.conf.gamma)) := by
  induction announceData generalizing state with
  | nil => exact ⟨state.instances, rfl, by simp, fun channel => .inl rfl⟩
  | cons announce rest ih =>
    obtain ⟨first, opened, here, kept⟩ := openInstance_eq state announce
    obtain ⟨instances, folded, others, left⟩ := ih { state with instances := first }
    refine ⟨instances, by rw [List.foldl_cons, opened, folded], ?_, fun channel => ?_⟩
    · intro other member
      rcases List.mem_cons.mp member with rfl | member
      · rcases left other.channelId with same | ⟨missing, -⟩
        · rw [same]; exact here
        · have missing : first other.channelId = none := missing
          rw [missing] at here
          cases here
      · exact others other member
    · rcases left channel with same | ⟨missing, new⟩
      · rcases kept channel with unchanged | ⟨missing, -, new⟩
        · exact .inl (same.trans unchanged)
        · exact .inr ⟨missing, same.trans new⟩
      · rcases kept channel with unchanged | ⟨-, -, found⟩
        · exact .inr ⟨unchanged.symm.trans missing, new⟩
        · have missing : first channel = none := missing
          rw [missing] at found
          cases found

/-- What updating the instances leaves. -/
theorem updateInstances_waits (waits : state.Waits pending) (announceData : List McAnnounceData) :
    (state.updateInstances announceData).Waits pending ∧ (state.updateInstances announceData).Ordered ∧
      (state.updateInstances announceData).previousChannel = state.previousChannel ∧
      (state.updateInstances announceData).conf = state.conf := by
  obtain ⟨instances, folded, opened, left⟩ := foldl_openInstance announceData state
  have same : (state.updateInstances announceData).instances = instances := by rw [updateInstances, folded]
  refine ⟨⟨fun channel exp3 found => ?_, fun channel exp3 found => ?_, fun channel pending => ?_⟩, ?_, ?_, ?_⟩
  · rw [same] at found
    rcases left channel with kept | ⟨-, new⟩
    · exact waits.sized channel exp3 (kept.symm.trans found)
    · rw [new] at found
      cases found
      exact EXP3.new_sized _
  · rw [same] at found
    rcases left channel with kept | ⟨missing, new⟩
    · exact waits.waiting channel exp3 (kept.symm.trans found)
    · -- A new instance waits for nothing, and the pending channel already has one.
      rw [new] at found
      cases found
      refine ⟨fun waiting => (by cases waiting), fun isPending => ?_⟩
      have held := waits.opened channel isPending
      rw [missing] at held
      cases held
  · rw [same]
    rcases left channel with kept | ⟨-, new⟩
    · rw [kept]; exact waits.opened channel pending
    · rw [new]; rfl
  · intro channel member
    obtain ⟨announce, inOrder, rfl⟩ := List.mem_map.mp member
    rw [same]
    exact opened announce ((List.perm_insertionSort _ _).mem_iff.mp inOrder)
  · rw [updateInstances, folded]
  · rw [updateInstances, folded]

theorem rewardPrevious_none (previous : state.previousChannel = none) (rewarder : EXP3Rewarder F)
    (stats : CongestionStats F) : state.rewardPrevious rewarder stats = some (state, []) := by
  simp [rewardPrevious, previous]

theorem rewardPrevious_some (previous : state.previousChannel = some channel)
    (rewards : rewarder stats state.conf = some value) {after : EXP3 F} (found : state.instances channel = some exp3)
    (rewarded : exp3.reward value = some (.ok (), after)) :
    state.rewardPrevious rewarder stats =
      some ({ state with instances := Function.update state.instances channel (some after) }, [.reward channel]) := by
  simp [rewardPrevious, previous, rewards, found, rewarded]

theorem rewardPrevious_waits (waits : state.Waits state.previousChannel)
    (rewards : rewarder stats state.conf = some value) (small : ¬1 < value) (positive : ¬value < 0) :
    ∃ instances, state.rewardPrevious rewarder stats =
        some ({ state with instances := instances }, (state.previousChannel.map Call.reward).toList) ∧
      Waits { state with instances := instances } none ∧
      ∀ channel, (instances channel).isSome = (state.instances channel).isSome := by
  rcases Option.eq_none_or_eq_some state.previousChannel with previous | ⟨channel, previous⟩
  · rw [previous] at waits
    refine ⟨state.instances, ?_, ⟨waits.sized, waits.waiting, waits.opened⟩, fun _ => rfl⟩
    have calls : (state.previousChannel.map Call.reward).toList = [] := by rw [previous]; rfl
    rw [rewardPrevious_none previous, calls]
  · rw [previous] at waits
    obtain ⟨exp3, found⟩ := Option.isSome_iff_exists.mp (waits.opened channel rfl)
    obtain ⟨after, rewarded, sized, idle⟩ := EXP3.reward_pending (waits.sized channel exp3 found)
      ((waits.waiting channel exp3 found).mpr rfl) small positive
    have calls : (state.previousChannel.map Call.reward).toList = [.reward channel] := by rw [previous]; rfl
    refine ⟨_, by rw [rewardPrevious_some previous rewards found rewarded, calls], ?_, isSome_update found after⟩
    exact waits.update rfl sized (by simp [idle]) (.inr rfl) (.inl rfl)

theorem getBanned_state (state : EXP3State F) (stats : CongestionStats F) (currentChannelIdx : Nat) :
    ∃ rounds, (state.getBanned stats currentChannelIdx).1 = { state with banIncreaseRounds := rounds } := by
  simp only [getBanned, apply_ite Prod.fst, ite_self]
  split
  · exact ⟨_, rfl⟩
  · exact ⟨_, rfl⟩

theorem exists_not_mem_allowed {σ : Type} {banned : List Action} (nodup : banned.Nodup) (state : σ) :
    ∃ action, action ∉ (if .decrease ∈ banned ∧ .increase ∈ banned ∧ .stay ∈ banned then (state, banned.erase .stay)
      else (state, banned)).2 := by
  split
  · exact ⟨.stay, nodup.not_mem_erase⟩
  · rename_i some
    by_contra every
    simp only [not_exists, not_not] at every
    exact some ⟨every .decrease, every .increase, every .stay⟩

/-- The banned actions leave one that is not. -/
theorem getBanned_leaves (state : EXP3State F) (stats : CongestionStats F) (currentChannelIdx : Nat) :
    ∃ action, action ∉ (state.getBanned stats currentChannelIdx).2 := by
  have byLoss : (state.bannedByLoss stats).Nodup := by
    rw [bannedByLoss]
    split
    · decide
    · split
      · decide
      · decide
  -- Each ban is added to a set.
  have added : ∀ {banned : List Action} (cond : Prop) [Decidable cond] (action : Action), banned.Nodup →
      (if cond then banned.insert action else banned).Nodup := by
    intro banned cond _ action nodup
    split
    · exact nodup.insert
    · exact nodup
  simp only [getBanned]
  split
  · exact exists_not_mem_allowed (added _ _ (added _ _ byLoss.insert)) _
  · exact exists_not_mem_allowed (added _ _ (added _ _ byLoss)) _

theorem updateTrialCount_eq (state : EXP3State F) (stats : CongestionStats F) :
    ∃ count rounds, state.updateTrialCount stats =
      { state with failedIncreaseCount := count, banIncreaseRounds := rounds } := by
  rw [updateTrialCount]
  split
  · exact ⟨_, _, rfl⟩
  · exact ⟨_, _, rfl⟩

theorem exists_place {channels : List Bytes} (member : channel ∈ channels) :
    ∃ place, channels.findIdx? (· = channel) = some place ∧ channels[place]? = some channel := by
  have found : (channels.findIdx? (· = channel)).isSome := by
    rw [List.findIdx?_isSome, List.any_eq_true]
    exact ⟨channel, member, by simp⟩
  obtain ⟨place, position⟩ := Option.isSome_iff_exists.mp found
  obtain ⟨inside, here, -⟩ := List.findIdx?_eq_some_iff_getElem.mp position
  exact ⟨place, position, List.getElem?_eq_some_iff.mpr ⟨inside, of_decide_eq_true here⟩⟩

/-- A call comes to its draw: the current channel has its place, and no instance waits for a reward. -/
theorem prepare_waits (waits : state.Waits state.previousChannel) (rewards : rewarder stats state.conf = some value)
    (small : ¬1 < value) (positive : ¬value < 0) {announceData : List McAnnounceData} {current : McAnnounceData}
    (announced : current ∈ announceData) :
    ∃ prepared, state.prepare rewarder stats announceData current.channelId = some prepared ∧
      prepared.exp3State.Waits none ∧ prepared.exp3State.Ordered ∧
      prepared.exp3State.instances current.channelId = some prepared.exp3 ∧
      prepared.exp3State.orderedChannels = (byBitrate announceData).map (fun announce => announce.channelId) ∧
      prepared.exp3State.orderedChannels[prepared.currentChannelIdx]? = some current.channelId ∧
      (∃ action, action ∉ prepared.banned) ∧
      prepared.calls = (state.previousChannel.map Call.reward).toList := by
  obtain ⟨waits, ordered, previous, conf⟩ := updateInstances_waits waits announceData
  have channels : (state.updateInstances announceData).orderedChannels =
      (byBitrate announceData).map (fun announce => announce.channelId) := rfl
  rw [prepare]
  generalize state.updateInstances announceData = updated at waits ordered previous conf channels ⊢
  have listed : current.channelId ∈ updated.orderedChannels := by
    rw [channels]
    exact List.mem_map.mpr ⟨current, (List.perm_insertionSort _ _).mem_iff.mpr announced, rfl⟩
  obtain ⟨place, position, here⟩ := exists_place listed
  rw [← previous] at waits
  rw [← conf] at rewards
  obtain ⟨instances, rewarded, idle, kept⟩ := rewardPrevious_waits waits rewards small positive
  -- The bans and the counters leave the instances as they are.
  obtain ⟨rounds, bans⟩ := getBanned_state { updated with instances := instances } stats place
  obtain ⟨action, left⟩ := getBanned_leaves { updated with instances := instances } stats place
  obtain ⟨failed, trials, counted⟩ := updateTrialCount_eq
    { updated with instances := instances, banIncreaseRounds := rounds } stats
  obtain ⟨exp3, found⟩ := Option.isSome_iff_exists.mp ((kept current.channelId).trans (ordered _ listed))
  refine ⟨⟨{ updated with instances := instances, failedIncreaseCount := failed, banIncreaseRounds := trials }, place,
    _, exp3, (updated.previousChannel.map Call.reward).toList⟩, ?_, idle.congr rfl, ?_, found, channels, here,
    ⟨action, left⟩, by rw [previous]⟩
  · simp only [position, rewarded, bans, counted, found, bind, Option.bind, pure]
  · intro channel member
    rw [kept channel]
    exact ordered channel member

omit [Float64 F] in
/-- Every action leads to the current channel or to one that stands next to it. -/
theorem newChannel_place (here : prepared.exp3State.orderedChannels[prepared.currentChannelIdx]? = some current)
    (action : Action) :
    ∃ channel place, prepared.newChannel current action = some channel ∧
      prepared.exp3State.orderedChannels[place]? = some channel ∧
      (place = prepared.currentChannelIdx ∨ place = prepared.currentChannelIdx + 1 ∨
        place + 1 = prepared.currentChannelIdx) := by
  obtain ⟨inside, -⟩ := List.getElem?_eq_some_iff.mp here
  have stays : ∃ channel place, some current = some channel ∧
      prepared.exp3State.orderedChannels[place]? = some channel ∧
      (place = prepared.currentChannelIdx ∨ place = prepared.currentChannelIdx + 1 ∨
        place + 1 = prepared.currentChannelIdx) := ⟨current, _, rfl, here, .inl rfl⟩
  cases action with
  | increase =>
    simp only [Prepared.newChannel]
    split
    · rename_i above
      have next := List.getElem?_eq_getElem (l := prepared.exp3State.orderedChannels)
        (i := prepared.currentChannelIdx + 1) (by omega)
      exact ⟨_, _, next, next, .inr (.inl rfl)⟩
    · exact stays
  | decrease =>
    simp only [Prepared.newChannel]
    split
    · rename_i below
      have next := List.getElem?_eq_getElem (l := prepared.exp3State.orderedChannels)
        (i := prepared.currentChannelIdx - 1) (by omega)
      exact ⟨_, _, next, next, .inr (.inr (by omega))⟩
    · exact stays
  | stay => exact stays

theorem ofUsize_isSome (known : index < 3) : ∃ action, Action.ofUsize index = some action := by
  match index, known with
  | 0, _ => exact ⟨_, rfl⟩
  | 1, _ => exact ⟨_, rfl⟩
  | 2, _ => exact ⟨_, rfl⟩

/-- The action that was drawn is taken, and its instance is the one that waits for a reward. -/
theorem take_waits (waits : prepared.exp3State.Waits none)
    (found : prepared.exp3State.instances current = some prepared.exp3)
    (here : prepared.exp3State.orderedChannels[prepared.currentChannelIdx]? = some current)
    {choose : ChooseWeighted F} (drawn : choose prepared.weights = some index) (known : index < 3) :
    ∃ after channel, prepared.take current choose = some (after, channel) ∧ after.Waits (some current) ∧
      after.previousChannel = some current ∧
      after.orderedChannels = prepared.exp3State.orderedChannels ∧
      (∀ other, (after.instances other).isSome = (prepared.exp3State.instances other).isSome) ∧
      ∃ place, after.orderedChannels[place]? = some channel ∧
        (place = prepared.currentChannelIdx ∨ place = prepared.currentChannelIdx + 1 ∨
          place + 1 = prepared.currentChannelIdx) := by
  have idle : prepared.exp3.takenAction = none := by
    have none := waits.waiting current prepared.exp3 found
    simpa using none
  obtain ⟨exp3, took, sized, pending⟩ := EXP3.takeAction_idle (waits.sized _ _ found) idle drawn
  obtain ⟨action, isAction⟩ := ofUsize_isSome known
  obtain ⟨channel, place, leads, there, near⟩ := newChannel_place here action
  let after : EXP3State F := { prepared.exp3State with
    instances := Function.update prepared.exp3State.instances current (some exp3)
    previousChannel := some current
    lastTakenAction := some action
    takenAction := true }
  have taken : prepared.take current choose = some (after, channel) := by
    simp [Prepared.take, took, isAction, leads, after]
  exact ⟨after, channel, taken, waits.update rfl sized (by simp [pending]) (.inl rfl) (.inr rfl), rfl, rfl,
    isSome_update found exp3, place, there, near⟩

end EXP3State

end States

section Sessions

/-- The channel that waits for a reward after a call; a call out of turn leads nowhere. -/
def Call.next : Option Bytes → Call → Option (Option Bytes)
  | none, .take channel => some (some channel)
  | some pending, .reward channel => if pending = channel then some none else none
  | _, _ => none

/-- The channel that waits for a reward after some calls, if every action was rewarded before the next one. -/
def follow (calls : List Call) : Option (Option Bytes) := calls.foldlM Call.next none

theorem follow_round {calls : List Call} {pending : Option Bytes} (followed : follow calls = some pending)
    (channel : Bytes) :
    follow (calls ++ ((pending.map Call.reward).toList ++ [.take channel])) = some (some channel) := by
  rw [follow, List.foldlM_append, show calls.foldlM Call.next none = some pending from followed]
  cases pending with
  | none => rfl
  | some previous => simp [Call.next]

/-- A channel stands next to another one, or is the same, when all are listed by increasing bitrate. -/
def Neighbour (announceData : List McAnnounceData) (current channel : Bytes) : Prop :=
  ∃ order : List McAnnounceData, order.Perm announceData ∧
    order.Pairwise (fun a b => EXP3State.bitrate a ≤ EXP3State.bitrate b) ∧
    ∃ here there : Nat, (order[here]?.map fun announce => announce.channelId) = some current ∧
      (order[there]?.map fun announce => announce.channelId) = some channel ∧
      (there = here ∨ there = here + 1 ∨ there + 1 = here)

/-- A client, with the calls that its instances have seen. -/
structure Session (F : Type) where
  flexicast : FlexicastAttributes F
  calls : List Call

/-- What happens to a client. -/
inductive Event (F : Type)
  | announce (announceData : List McAnnounceData)
  /-- Another channel is the current one. -/
  | join (fcChanIdx : Option Nat)
  | lossRate (lossRate : F)
  | marked
  | notMarked
  | reset
  | shouldChangeChannel (now : Nat) (choose : ChooseWeighted F)
  | didChangeChannel (now : Nat)

namespace Session

/-- A client at its start. -/
def new (config : EXP3Conf F) (timeWindow now : Nat) : Session F :=
  ⟨⟨[], none, .new config now, .new timeWindow⟩, []⟩

/-- What an event does; it fails when an `expect` or an `unwrap` of the code fails. -/
def step (rewarder : EXP3Rewarder F) (session : Session F) : Event F → Option (Session F)
  | .announce announceData => some { session with flexicast.mcAnnounceData := announceData }
  | .join fcChanIdx => some { session with flexicast.fcChanIdx := fcChanIdx }
  | .lossRate lossRate =>
    some { session with flexicast.statistics := session.flexicast.statistics.setLossRate lossRate }
  | .marked => some { session with flexicast.statistics := session.flexicast.statistics.onMarked }
  | .notMarked => some { session with flexicast.statistics := session.flexicast.statistics.onNotMarked }
  | .reset => some { session with flexicast.statistics := .default }
  | .shouldChangeChannel now choose => do
    let turn ← session.flexicast.exp3ShouldChangeChannel rewarder now choose
    return ⟨turn.flexicast, session.calls ++ turn.calls⟩
  | .didChangeChannel now => some { session with flexicast := session.flexicast.exp3DidChangeChannel now }

/-- The draw that a call comes to, if it does. -/
def toDraw (rewarder : EXP3Rewarder F) (flexicast : FlexicastAttributes F) (now : Nat) :
    Option (EXP3State.Prepared F) := do
  let current ← flexicast.getMcAnnounceDataActive
  let flexicast ← flexicast.measured now current
  if flexicast.exp3State.waitTimeoutElapsed now then
    flexicast.exp3State.prepare rewarder flexicast.statistics flexicast.mcAnnounceData current.channelId
  else none

/-- The current channel is announced with a bitrate, and a draw returns an index of positive weight. -/
def Assumed (rewarder : EXP3Rewarder F) (session : Session F) : Event F → Prop
  | .shouldChangeChannel now choose =>
    (∃ current ∈ session.flexicast.getMcAnnounceDataActive, current.bitrate.isSome) ∧
      ∀ prepared ∈ toDraw rewarder session.flexicast now,
        ∃ index ∈ choose prepared.weights, ∃ weight ∈ prepared.weights[index]?, 0 < weight
  | _ => True

/-- Only the previous channel waits for a reward, after calls that took turns; every ordered channel has an instance. -/
structure TakesTurns (session : Session F) : Prop where
  pending : ∀ channel exp3, session.flexicast.exp3State.instances channel = some exp3 →
    (exp3.takenAction.isSome ↔ session.flexicast.exp3State.previousChannel = some channel)
  calls : follow session.calls = some session.flexicast.exp3State.previousChannel
  iterates : session.flexicast.exp3State.iterInstances.isSome

/-- What a session keeps. -/
structure Valid (session : Session F) : Prop where
  counted : session.flexicast.statistics.throughputWindow.Counted
  waits : session.flexicast.exp3State.Waits session.flexicast.exp3State.previousChannel
  ordered : session.flexicast.exp3State.Ordered
  followed : follow session.calls = some session.flexicast.exp3State.previousChannel

/-- What a call returned: it left an action that is not banned, and a channel next to the current one. -/
structure Sound (session : Session F) (turn : FlexicastAttributes.Turn F) : Prop where
  banned : ∃ action, action ∉ turn.banned
  neighbour : ∀ current ∈ session.flexicast.getMcAnnounceDataActive, ∀ channel ∈ turn.channel,
    Neighbour session.flexicast.mcAnnounceData current.channelId channel

/-- Rewards lie in the unit interval, and there is one once the window has a largest throughput. -/
def InUnit (rewarder : EXP3Rewarder F) : Prop :=
  ∀ stats conf, stats.maxThroughput.isSome → ∃ value, rewarder stats conf = some value ∧ ¬1 < value ∧ ¬value < 0

theorem valid_new (config : EXP3Conf F) (timeWindow now : Nat) : (new config timeWindow now).Valid where
  counted := MaxTimeWindow.counted_new timeWindow
  waits := ⟨fun _ _ found => (by cases found), fun _ _ found => (by cases found), fun _ pending => (by cases pending)⟩
  ordered := fun _ member => (by cases member)
  followed := rfl

theorem updateWindow_counted {stats : CongestionStats F} (counted : stats.throughputWindow.Counted)
    (now bitrate : Nat) :
    ∃ after, stats.updateWindow now bitrate = some after ∧ after.throughputWindow.Counted ∧
      after.maxThroughput.isSome := by
  obtain ⟨window, added, counted, largest⟩ := MaxTimeWindow.addDataWithin_counted counted now
    (Float64.toU64 (NatCast.natCast bitrate * (1 - stats.lossRate)))
  have updated : stats.updateWindow now bitrate = some { stats with
      throughput := Float64.toU64 (NatCast.natCast bitrate * (1 - stats.lossRate)), throughputWindow := window } := by
    simp [CongestionStats.updateWindow, added]
  exact ⟨_, updated, counted, largest⟩

theorem measured_counted {flexicast : FlexicastAttributes F} (counted : flexicast.statistics.throughputWindow.Counted)
    (now : Nat) {current : McAnnounceData} (rated : current.bitrate.isSome) :
    ∃ statistics, flexicast.measured now current = some { flexicast with statistics := statistics } ∧
      statistics.throughputWindow.Counted ∧ statistics.maxThroughput.isSome := by
  obtain ⟨bitrate, rate⟩ := Option.isSome_iff_exists.mp rated
  obtain ⟨after, updated, counted, largest⟩ := updateWindow_counted counted now bitrate.toNat
  exact ⟨after, by simp [FlexicastAttributes.measured, rate, updated], counted, largest⟩

theorem neighbour_byBitrate {announceData : List McAnnounceData} {current channel : Bytes} {here there : Nat}
    (atCurrent : ((EXP3State.byBitrate announceData).map fun announce => announce.channelId)[here]? = some current)
    (atChannel : ((EXP3State.byBitrate announceData).map fun announce => announce.channelId)[there]? = some channel)
    (near : there = here ∨ there = here + 1 ∨ there + 1 = here) : Neighbour announceData current channel := by
  rw [List.getElem?_map] at atCurrent atChannel
  have total : Std.Total fun a b => EXP3State.bitrate a ≤ EXP3State.bitrate b := ⟨fun a b => Nat.le_total _ _⟩
  have trans : IsTrans McAnnounceData fun a b => EXP3State.bitrate a ≤ EXP3State.bitrate b :=
    ⟨fun _ _ _ => Nat.le_trans⟩
  exact ⟨_, List.perm_insertionSort _ _, List.pairwise_insertionSort _ _, here, there, atCurrent, atChannel, near⟩

variable {rewarder : EXP3Rewarder F} {session : Session F}

/-- A call does not fail, keeps what a session keeps, and returns a channel next to the current one. -/
theorem shouldChangeChannel_valid (inUnit : InUnit rewarder) (valid : session.Valid) {now : Nat}
    {choose : ChooseWeighted F} (assumed : session.Assumed rewarder (.shouldChangeChannel now choose)) :
    ∃ turn, session.flexicast.exp3ShouldChangeChannel rewarder now choose = some turn ∧
      Valid ⟨turn.flexicast, session.calls ++ turn.calls⟩ ∧ session.Sound turn := by
  obtain ⟨⟨current, active, rated⟩, draws⟩ := assumed
  have active : session.flexicast.getMcAnnounceDataActive = some current := active
  obtain ⟨statistics, measured, counted, largest⟩ := measured_counted valid.counted now rated
  by_cases elapsed : session.flexicast.exp3State.waitTimeoutElapsed now
  · obtain ⟨value, rewards, small, positive⟩ := inUnit statistics session.flexicast.exp3State.conf largest
    have announced : current ∈ session.flexicast.mcAnnounceData := by
      obtain ⟨idx, -, at_⟩ := Option.bind_eq_some_iff.mp active
      exact List.mem_of_getElem? at_
    obtain ⟨prepared, done, waits, ordered, found, channels, here, left, calls⟩ :=
      EXP3State.prepare_waits valid.waits rewards small positive announced
    -- The draw is that of the weights which the call has come to.
    have draw : toDraw rewarder session.flexicast now = some prepared := by
      simp [toDraw, active, measured, elapsed, done]
    obtain ⟨index, drawn, weight, isWeight, -⟩ := draws prepared draw
    have known : index < 3 := by
      obtain ⟨inside, -⟩ := List.getElem?_eq_some_iff.mp isWeight
      have sized := EXP3.computeProbas_sized (waits.sized _ _ found).k (waits.sized _ _ found).weights
      rwa [EXP3State.Prepared.weights, EXP3.length_weightedActions, sized.probas] at inside
    obtain ⟨after, channel, taken, pending, previous, same, opened, place, there, near⟩ :=
      EXP3State.take_waits waits found here drawn known
    refine ⟨⟨{ session.flexicast with statistics := statistics, exp3State := after }, some channel, prepared.banned,
      prepared.calls ++ [.take current.channelId]⟩, ?_, ⟨counted, ?_, ?_, ?_⟩, left, ?_⟩
    · simp [FlexicastAttributes.exp3ShouldChangeChannel, active, measured, elapsed, done, taken]
    · rw [previous]
      exact pending
    · intro other member
      rw [opened other]
      exact ordered other (same ▸ member)
    · rw [calls, previous]
      exact follow_round valid.followed current.channelId
    · intro other isActive found isFound
      cases active.symm.trans isActive
      cases isFound
      rw [same, channels] at there
      rw [channels] at here
      exact neighbour_byBitrate here there near
  · refine ⟨⟨{ session.flexicast with statistics := statistics }, none, [], []⟩, ?_, ⟨counted, valid.waits,
      valid.ordered, by simpa using valid.followed⟩, ⟨.stay, by simp⟩, fun _ _ _ found => by cases found⟩
    simp [FlexicastAttributes.exp3ShouldChangeChannel, active, measured, elapsed]

/-- An event does not fail, and keeps what a session keeps. -/
theorem step_valid (inUnit : InUnit rewarder) (valid : session.Valid) {event : Event F}
    (assumed : session.Assumed rewarder event) : ∃ after, session.step rewarder event = some after ∧ after.Valid := by
  cases event with
  | announce announceData => exact ⟨_, rfl, valid.counted, valid.waits, valid.ordered, valid.followed⟩
  | join fcChanIdx => exact ⟨_, rfl, valid.counted, valid.waits, valid.ordered, valid.followed⟩
  | lossRate lossRate => exact ⟨_, rfl, valid.counted, valid.waits, valid.ordered, valid.followed⟩
  | marked => exact ⟨_, rfl, valid.counted, valid.waits, valid.ordered, valid.followed⟩
  | notMarked => exact ⟨_, rfl, valid.counted, valid.waits, valid.ordered, valid.followed⟩
  | reset => exact ⟨_, rfl, MaxTimeWindow.counted_new _, valid.waits, valid.ordered, valid.followed⟩
  | shouldChangeChannel now choose =>
    obtain ⟨turn, called, kept, -⟩ := shouldChangeChannel_valid inUnit valid assumed
    exact ⟨_, by rw [step, called]; rfl, kept⟩
  | didChangeChannel now =>
    exact ⟨_, rfl, valid.counted, valid.waits.congr rfl, valid.ordered, valid.followed⟩

theorem isSome_mapM {α : Type} {channels : List Bytes} {values : Bytes → Option α}
    (each : ∀ channel ∈ channels, (values channel).isSome) : (channels.mapM values).isSome := by
  induction channels with
  | nil => rfl
  | cons channel rest ih =>
    obtain ⟨value, found⟩ := Option.isSome_iff_exists.mp (each channel List.mem_cons_self)
    obtain ⟨others, mapped⟩ :=
      Option.isSome_iff_exists.mp (ih fun other member => each other (List.mem_cons_of_mem _ member))
    rw [List.mapM_cons, found, mapped]
    rfl

omit [Float64 F] in
theorem Valid.takesTurns (valid : session.Valid) : session.TakesTurns where
  pending := valid.waits.waiting
  calls := valid.followed
  iterates := isSome_mapM valid.ordered

/-- One step of a run, which ends where an `expect` or an `unwrap` fails. -/
def next (rewarder : EXP3Rewarder F) (state : Option (Session F)) (event : Event F) : Option (Session F) :=
  state.bind (step rewarder · event)

/-- An event meets the assumptions if the run has not ended. -/
def Met (rewarder : EXP3Rewarder F) (state : Option (Session F)) (event : Event F) : Prop :=
  ∀ session ∈ state, session.Assumed rewarder event

theorem run_valid (inUnit : InUnit rewarder) (config : EXP3Conf F) (timeWindow start : Nat) {events : List (Event F)}
    (met : Along (next rewarder) (Met rewarder) (some (new config timeWindow start)) events) :
    ∃ session, run (next rewarder) (some (new config timeWindow start)) events = some session ∧ session.Valid := by
  have keeps : ∀ (state : Option (Session F)) (event : Event F), (∃ session, state = some session ∧ session.Valid) →
      Met rewarder state event → ∃ session, next rewarder state event = some session ∧ session.Valid := by
    rintro _ event ⟨session, rfl, valid⟩ met
    exact step_valid inUnit valid (met session rfl)
  exact met.keeps keeps ⟨_, rfl, valid_new config timeWindow start⟩

/-- Rational numbers in the place of floats, with the powers of whole exponents. -/
instance rational : Float64 Rat where
  zero := 0
  one := 1
  add := (· + ·)
  sub := (· - ·)
  neg := (- ·)
  mul := (· * ·)
  div := (· / ·)
  natCast n := n
  lt := (· < ·)
  decidableLt := inferInstance
  e := mkRat 2718281828459045 1000000000000000
  powf base exponent := base ^ exponent.floor
  toU64 x := min x.floor.toNat (2 ^ 64 - 1)

/-- A channel with a bitrate. -/
def channelOf (channelId : Bytes) (bitrate : UInt64) : McAnnounceData :=
  { Packing.plainChannel with channelId := channelId, bitrate := some bitrate }

/-- A client that goes through two rounds, with a channel announced in between. -/
def twoRounds : List (Event Rat) :=
  let choose : ChooseWeighted Rat := fun weights => weights.findIdx? (0 < ·)
  [.announce [channelOf [1] 2000, channelOf [2] 1000], .join (some 0), .lossRate (mkRat 1 100), .didChangeChannel 0,
    .shouldChangeChannel 6000 choose, .announce [channelOf [1] 2000, channelOf [2] 1000, channelOf [3] 1500],
    .join (some 1), .didChangeChannel 6000, .shouldChangeChannel 12000 choose]

/-- The configuration at the start, in milliseconds. -/
def plainConf : EXP3Conf Rat where
  migrationTimeout := 5000
  lossThreshold := mkRat 5 100
  hardLossThreshold := mkRat 10 100
  k := 25
  gamma := some (mkRat 15 100)

instance decidableAssumed (rewarder : EXP3Rewarder F) (session : Session F) :
    (event : Event F) → Decidable (session.Assumed rewarder event)
  | .shouldChangeChannel now choose => inferInstanceAs (Decidable
      ((∃ current ∈ session.flexicast.getMcAnnounceDataActive, current.bitrate.isSome) ∧
        ∀ prepared ∈ toDraw rewarder session.flexicast now,
          ∃ index ∈ choose prepared.weights, ∃ weight ∈ prepared.weights[index]?, 0 < weight))
  | .announce _ | .join _ | .lossRate _ | .marked | .notMarked | .reset | .didChangeChannel _ => isTrue trivial

instance decidableMet (rewarder : EXP3Rewarder F) (state : Option (Session F)) (event : Event F) :
    Decidable (Met rewarder state event) :=
  inferInstanceAs (Decidable (∀ session ∈ state, session.Assumed rewarder event))

end Session

end Sessions

end Congestion

end Flexicast
