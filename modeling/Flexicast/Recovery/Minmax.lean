import Mathlib.Order.Lattice
import Mathlib.Order.Nat

/-! The smallest or largest value of the last time, estimated by three samples, of `minmax.rs`. -/

namespace Flexicast

/-- A measurement and its time. -/
structure MinmaxSample (α : Type) where
  time : Nat
  value : α
  deriving DecidableEq

/-- The best, the second best and the third best sample. -/
structure Minmax (α : Type) where
  first : MinmaxSample α
  second : MinmaxSample α
  third : MinmaxSample α
  deriving DecidableEq

namespace Minmax

variable {α : Type}

section Updates

/-- Three samples of one value. -/
def new (now : Nat) (value : α) : Minmax α := ⟨⟨now, value⟩, ⟨now, value⟩, ⟨now, value⟩⟩

/-- Sets all samples to a value, and gives it. -/
def reset (_ : Minmax α) (time : Nat) (meas : α) : α × Minmax α :=
  let val : MinmaxSample α := ⟨time, meas⟩
  let after : Minmax α := ⟨val, val, val⟩
  (after.first.value, after)

/-- Moves the samples on as time passes, with the rounded quarter and half of the window; gives the best value. -/
def subwinUpdate (quarter half : Nat → Nat) (filter : Minmax α) (win time : Nat) (meas : α) : α × Minmax α :=
  let val : MinmaxSample α := ⟨time, meas⟩
  let deltaTime := time - filter.first.time
  let after : Minmax α :=
    if win < deltaTime then
      let shifted : Minmax α := ⟨filter.second, filter.third, val⟩
      -- The second sample may be out of the window too.
      if win < time - shifted.first.time then ⟨shifted.second, shifted.third, val⟩ else shifted
    else if filter.second.time = filter.first.time ∧ quarter win < deltaTime then ⟨filter.first, val, val⟩
    else if filter.third.time = filter.second.time ∧ half win < deltaTime then ⟨filter.first, filter.second, val⟩
    else filter
  (after.first.value, after)

/-- Takes up a measurement, where a value may be as good as another; gives the best value. -/
def running (asGood : α → α → Prop) [DecidableRel asGood] (quarter half : Nat → Nat) (filter : Minmax α)
    (win time : Nat) (meas : α) : α × Minmax α :=
  let val : MinmaxSample α := ⟨time, meas⟩
  let deltaTime := time - filter.third.time
  -- Nothing is left in the window, or the value is a new best one.
  if asGood val.value filter.first.value ∨ win < deltaTime then filter.reset time meas
  else
    let taken : Minmax α :=
      if asGood val.value filter.second.value then ⟨filter.first, val, val⟩
      else if asGood val.value filter.third.value then ⟨filter.first, filter.second, val⟩
      else filter
    taken.subwinUpdate quarter half win time meas

variable [LinearOrder α]

/-- Takes up a measurement; gives the smallest value. -/
def runningMin (quarter half : Nat → Nat) (filter : Minmax α) (win time : Nat) (meas : α) : α × Minmax α :=
  @running α (· ≤ ·) LinearOrder.toDecidableLE quarter half filter win time meas

/-- Takes up a measurement; gives the largest value. -/
def runningMax (quarter half : Nat → Nat) (filter : Minmax α) (win time : Nat) (meas : α) : α × Minmax α :=
  @running α (· ≥ ·) (fun a b => LinearOrder.toDecidableLE b a) quarter half filter win time meas

end Updates

section Runs

/-- The filter after a reset and the measurements of a history, the latest first. -/
def afterCalls (update : Minmax α → Nat → α → α × Minmax α) (filter : Minmax α) (start : MinmaxSample α) :
    List (MinmaxSample α) → Minmax α
  | [] => (filter.reset start.time start.value).2
  | sample :: earlier => (update (afterCalls update filter start earlier) sample.time sample.value).2

/-- The samples of a filter are ordered by value and by time. -/
structure Ordered (asGood : α → α → Prop) (filter : Minmax α) : Prop where
  values : asGood filter.first.value filter.second.value ∧ asGood filter.second.value filter.third.value
  times : filter.first.time ≤ filter.second.time ∧ filter.second.time ≤ filter.third.time

/-- A filter whose samples were all taken, in order and not after some time. -/
structure Sound (asGood : α → α → Prop) (taken : List (MinmaxSample α)) (now : Nat) (filter : Minmax α) : Prop
    extends Ordered asGood filter where
  past : filter.third.time ≤ now
  first : filter.first ∈ taken
  second : filter.second ∈ taken
  third : filter.third ∈ taken

/-- What an update gives: a value as good as the new one, taken within the window, and ordered samples. -/
structure Tracks (asGood : α → α → Prop) (taken : List (MinmaxSample α)) (win : Nat) (latest : MinmaxSample α)
    (result : α × Minmax α) : Prop where
  ordered : result.2.Ordered asGood
  best : asGood result.1 latest.value
  within : ∃ sample ∈ taken, sample.value = result.1 ∧ sample.time ≤ latest.time ∧ latest.time - sample.time ≤ win

/-- A reset and the measurements behind it, the latest first, were made at times that never go back. -/
def Timely (history : List (MinmaxSample α)) : Prop :=
  history.Pairwise fun later earlier => earlier.time ≤ later.time

end Runs

section Laws

variable {asGood : α → α → Prop} {quarter half : Nat → Nat} {filter : Minmax α} {taken : List (MinmaxSample α)}
  {now win : Nat} {latest : MinmaxSample α}

theorem sound_reset (refl : ∀ value, asGood value value) (filter : Minmax α) :
    Sound asGood (latest :: taken) latest.time (filter.reset latest.time latest.value).2 where
  values := ⟨refl _, refl _⟩
  times := ⟨Nat.le_refl _, Nat.le_refl _⟩
  past := Nat.le_refl _
  first := List.mem_cons_self
  second := List.mem_cons_self
  third := List.mem_cons_self

/-- Moving the samples on keeps them in order, and the best one is within the window. -/
theorem Sound.subwinUpdate (refl : ∀ value, asGood value value)
    (sound : Sound asGood taken latest.time filter) (member : latest ∈ taken)
    (trans : ∀ a b c : α, asGood a b → asGood b c → asGood a c)
    (third : asGood filter.third.value latest.value) (near : latest.time - filter.third.time ≤ win) :
    Sound asGood taken latest.time (filter.subwinUpdate quarter half win latest.time latest.value).2 ∧
      Tracks asGood taken win latest (filter.subwinUpdate quarter half win latest.time latest.value) := by
  obtain ⟨ab, bc⟩ := sound.values
  obtain ⟨early, late⟩ := sound.times
  have past := sound.past
  have secondPast := Nat.le_trans late past
  have firstPast := Nat.le_trans early secondPast
  -- Every sample is as good as the new value, since the third one is.
  have second : asGood filter.second.value latest.value := trans _ _ _ bc third
  have first : asGood filter.first.value latest.value := trans _ _ _ ab second
  -- So whatever stays in order and in the window is what an update gives.
  have gives {after : Minmax α} (kept : Sound asGood taken latest.time after)
      (best : asGood after.first.value latest.value) (near : latest.time - after.first.time ≤ win) :
      Sound asGood taken latest.time after ∧ Tracks asGood taken win latest (after.first.value, after) :=
    have behind : after.first.time ≤ latest.time :=
      Nat.le_trans (Nat.le_trans kept.times.1 kept.times.2) kept.past
    ⟨kept, kept.toOrdered, best, _, kept.first, rfl, behind, near⟩
  unfold Minmax.subwinUpdate
  dsimp only
  split
  case isTrue expired =>
    split
    case isTrue alsoExpired =>
      -- The third sample, which is within the window, becomes the best one.
      exact gives ⟨⟨⟨third, refl _⟩, ⟨past, Nat.le_refl _⟩⟩, Nat.le_refl _, sound.third, member, member⟩ third near
    case isFalse inWindow =>
      exact gives ⟨⟨⟨bc, third⟩, ⟨late, past⟩⟩, Nat.le_refl _, sound.second, sound.third, member⟩ second
        (Nat.not_lt.mp inWindow)
  case isFalse inWindow =>
    have near := Nat.not_lt.mp inWindow
    split
    case isTrue =>
      exact gives ⟨⟨⟨first, refl _⟩, ⟨firstPast, Nat.le_refl _⟩⟩, Nat.le_refl _, sound.first, member, member⟩ first near
    case isFalse =>
      split
      case isTrue =>
        exact gives ⟨⟨⟨ab, second⟩, ⟨early, secondPast⟩⟩, Nat.le_refl _, sound.first, sound.second, member⟩ first near
      case isFalse => exact gives sound first near

/-- A measurement keeps the samples in order, and gives a best value that was taken within the window. -/
theorem Sound.running [DecidableRel asGood] (total : ∀ a b : α, asGood a b ∨ asGood b a)
    (trans : ∀ a b c : α, asGood a b → asGood b c → asGood a c) (sound : Sound asGood taken now filter)
    (later : now ≤ latest.time) :
    Sound asGood (latest :: taken) latest.time (filter.running asGood quarter half win latest.time latest.value).2 ∧
      Tracks asGood (latest :: taken) win latest (filter.running asGood quarter half win latest.time latest.value) := by
  have refl (value : α) : asGood value value := (total value value).elim id id
  have other {a b : α} (not : ¬ asGood a b) : asGood b a := (total a b).resolve_left not
  have member : latest ∈ latest :: taken := List.mem_cons_self
  unfold Minmax.running
  dsimp only
  split
  case isTrue =>
    have kept : Sound asGood (latest :: taken) latest.time _ := sound_reset refl filter
    exact ⟨kept, kept.toOrdered, refl _, latest, member, rfl, Nat.le_refl _, by omega⟩
  case isFalse neither =>
    obtain ⟨notBest, inWindow⟩ := not_or.mp neither
    have near := Nat.not_lt.mp inWindow
    have past := Nat.le_trans sound.past later
    have first := List.mem_cons_of_mem latest sound.first
    have second := List.mem_cons_of_mem latest sound.second
    have third := List.mem_cons_of_mem latest sound.third
    obtain ⟨early, late⟩ := sound.times
    have secondPast := Nat.le_trans late past
    have firstPast := Nat.le_trans early secondPast
    have none_ : latest.time - latest.time ≤ win := by omega
    -- The new sample takes the places of those it is as good as, and then the third one is as good as it.
    split
    case isTrue =>
      have kept : Sound asGood (latest :: taken) latest.time ⟨filter.first, latest, latest⟩ :=
        ⟨⟨⟨other notBest, refl _⟩, ⟨firstPast, Nat.le_refl _⟩⟩, Nat.le_refl _, first, member, member⟩
      exact kept.subwinUpdate refl member trans (refl _) none_
    case isFalse notSecond =>
      split
      case isTrue =>
        have kept : Sound asGood (latest :: taken) latest.time ⟨filter.first, filter.second, latest⟩ :=
          ⟨⟨⟨sound.values.1, other notSecond⟩, ⟨early, secondPast⟩⟩, Nat.le_refl _, first, second, member⟩
        exact kept.subwinUpdate refl member trans (refl _) none_
      case isFalse notThird =>
        have kept : Sound asGood (latest :: taken) latest.time filter :=
          ⟨sound.toOrdered, past, first, second, third⟩
        exact kept.subwinUpdate refl member trans (other notThird) near

theorem sound_afterCalls [DecidableRel asGood] (total : ∀ a b : α, asGood a b ∨ asGood b a)
    (trans : ∀ a b c : α, asGood a b → asGood b c → asGood a c) (filter : Minmax α) (start : MinmaxSample α)
    {history : List (MinmaxSample α)} (timely : Timely (history ++ [start])) :
    Sound asGood (history ++ [start]) ((history ++ [start]).head (by simp)).time
      (afterCalls (fun filter => filter.running asGood quarter half win) filter start history) := by
  -- Induction on the history, whose latest measurement is not before the others.
  induction history with
  | nil => exact sound_reset (fun value => (total value value).elim id id) filter
  | cons latest earlier ih =>
    obtain ⟨before, timely⟩ := List.pairwise_cons.mp timely
    exact ((ih timely).running total trans (before _ (List.head_mem _))).1

theorem tracks_afterCalls [DecidableRel asGood] (total : ∀ a b : α, asGood a b ∨ asGood b a)
    (trans : ∀ a b c : α, asGood a b → asGood b c → asGood a c) (filter : Minmax α) (start : MinmaxSample α)
    {earlier : List (MinmaxSample α)} (timely : Timely (latest :: earlier ++ [start])) :
    Tracks asGood (latest :: earlier ++ [start]) win latest
      ((afterCalls (fun filter => filter.running asGood quarter half win) filter start earlier).running
        asGood quarter half win latest.time latest.value) := by
  obtain ⟨before, timely⟩ := List.pairwise_cons.mp timely
  exact ((sound_afterCalls total trans filter start timely).running total trans (before _ (List.head_mem _))).2

/-- Both filters track the best value of the window, however its quarter and its half are rounded. -/
theorem running_tracks [LinearOrder α] (quarter half : Nat → Nat) (win : Nat) (filter : Minmax α)
    (start latest : MinmaxSample α) {earlier : List (MinmaxSample α)} (timely : Timely (latest :: earlier ++ [start])) :
    Tracks (· ≤ ·) (latest :: earlier ++ [start]) win latest
        ((afterCalls (fun filter => filter.runningMin quarter half win) filter start earlier).runningMin
          quarter half win latest.time latest.value) ∧
      Tracks (· ≥ ·) (latest :: earlier ++ [start]) win latest
        ((afterCalls (fun filter => filter.runningMax quarter half win) filter start earlier).runningMax
          quarter half win latest.time latest.value) := by
  constructor
  · exact tracks_afterCalls le_total (fun _ _ _ => le_trans) filter start timely
  · exact tracks_afterCalls (fun a b => le_total b a) (fun _ _ _ first second => le_trans second first) filter start
      timely

theorem running_tracks_thrice :
    let start : MinmaxSample Nat := ⟨0, 23⟩
    let earlier : List (MinmaxSample Nat) := [⟨600, 25⟩, ⟨300, 24⟩]
    let latest : MinmaxSample Nat := ⟨1100, 30⟩
    Tracks (· ≤ ·) (latest :: earlier ++ [start]) 1000 latest
        ((afterCalls (fun filter => filter.runningMin (· / 4) (· / 2) 1000) (new 0 0) start earlier).runningMin
          (· / 4) (· / 2) 1000 latest.time latest.value) ∧
      Tracks (· ≥ ·) (latest :: earlier ++ [start]) 1000 latest
        ((afterCalls (fun filter => filter.runningMax (· / 4) (· / 2) 1000) (new 0 0) start earlier).runningMax
          (· / 4) (· / 2) 1000 latest.time latest.value) :=
  running_tracks (· / 4) (· / 2) 1000 (new 0 0) ⟨0, 23⟩ ⟨1100, 30⟩ (by unfold Timely; decide)

end Laws

end Minmax

end Flexicast
