import Flexicast.Lib.OrdMap

/-! Weighted segments: step functions held as a map from a start to a length and a weight. -/

namespace Flexicast

/-- Half-open segments keyed by their start, each with a length and a weight. -/
abbrev Segments := OrdMap (Nat × Nat)

namespace Segments

/-- The weight of the first listed segment that contains a position, or zero. -/
def weightAt (map : Segments) (x : Nat) : Nat :=
  match map.entries.find? (fun entry => entry.1 ≤ x ∧ x < entry.1 + entry.2.1) with
  | some entry => entry.2.2
  | none => 0

/-- Segments that are non-empty, carry a positive weight, and do not overlap. -/
structure Disjoint (map : Segments) : Prop where
  /-- Every listed segment holds some position and counts for something. -/
  positive : ∀ {key len weight}, map.find? key = some (len, weight) → 0 < len ∧ 0 < weight
  /-- A segment ends before the next one starts. -/
  apart : ∀ {key len weight later entry}, map.find? key = some (len, weight) →
    map.find? later = some entry → key < later → key + len ≤ later

/-- No position of a range belongs to a listed segment. -/
def Free (map : Segments) (lo hi : Nat) : Prop :=
  ∀ key len weight, map.find? key = some (len, weight) → key + len ≤ lo ∨ hi ≤ key

variable {map : Segments}

theorem disjoint_empty : Disjoint OrdMap.empty :=
  ⟨by simp, by simp⟩

variable {key len weight x lo hi : Nat}

/-- Two segments of a disjoint map that share a position are the same segment. -/
theorem Disjoint.unique (disjoint : Disjoint map) {key' len' weight' : Nat}
    (here : map.find? key = some (len, weight)) (there : map.find? key' = some (len', weight')) (low : key ≤ x)
    (high : x < key + len) (low' : key' ≤ x) (high' : x < key' + len') : key = key' := by
  -- Were one of them to start first, it would have to end before the other.
  rcases Nat.lt_trichotomy key key' with before | same | after
  · have := disjoint.apart here there before
    omega
  · exact same
  · have := disjoint.apart there here after
    omega

/-- A position has the weight of the only segment around it. -/
theorem weightAt_of_only (here : map.find? key = some (len, weight)) (low : key ≤ x) (high : x < key + len)
    (only : ∀ {other len' weight'}, map.find? other = some (len', weight') → other ≤ x → x < other + len' →
      other = key) : weightAt map x = weight := by
  -- The search finds some segment around the position, and there is only one.
  unfold weightAt
  cases located : map.entries.find? (fun entry => entry.1 ≤ x ∧ x < entry.1 + entry.2.1) with
  | none =>
    have missed := List.find?_eq_none.mp located (key, (len, weight))
      (OrdMap.find?_eq_some_iff.mp here)
    simp at missed
    omega
  | some entry =>
    rcases entry with ⟨other, len', weight'⟩
    have there : map.find? other = some (len', weight') :=
      OrdMap.find?_eq_some_iff.mpr (List.mem_of_find?_eq_some located)
    have inside := List.find?_some located
    simp only [decide_eq_true_eq] at inside
    have same := only there inside.1 inside.2
    subst same
    rw [here] at there
    simp only [Option.some.injEq, Prod.mk.injEq] at there
    exact there.2.symm

/-- A position inside a segment of a disjoint map has that segment's weight. -/
theorem weightAt_of_mem (disjoint : Disjoint map) (here : map.find? key = some (len, weight)) (low : key ≤ x)
    (high : x < key + len) : weightAt map x = weight :=
  weightAt_of_only here low high fun there low' high' => (disjoint.unique here there low high low' high').symm

/-- A position outside every segment weighs nothing. -/
theorem weightAt_eq_zero (outside : ∀ key len weight, map.find? key = some (len, weight) → x < key ∨ key + len ≤ x) :
    weightAt map x = 0 := by
  -- Whatever the search found would be a segment around the position.
  unfold weightAt
  cases located : map.entries.find? (fun entry => entry.1 ≤ x ∧ x < entry.1 + entry.2.1) with
  | none => rfl
  | some entry =>
    rcases entry with ⟨key, len, weight⟩
    have here : map.find? key = some (len, weight) :=
      OrdMap.find?_eq_some_iff.mpr (List.mem_of_find?_eq_some located)
    have inside := List.find?_some located
    simp only [decide_eq_true_eq] at inside
    have := outside key len weight here
    omega

/-- A position with a weight lies in a listed segment. -/
theorem exists_of_weightAt_pos (positive : 0 < weightAt map x) :
    ∃ key len, map.find? key = some (len, weightAt map x) ∧ key ≤ x ∧ x < key + len := by
  -- The search found the segment whose weight it returned.
  cases located : map.entries.find? (fun entry => entry.1 ≤ x ∧ x < entry.1 + entry.2.1) with
  | none =>
    rw [weightAt, located] at positive
    exact absurd positive (Nat.lt_irrefl 0)
  | some entry =>
    rcases entry with ⟨key, len, weight⟩
    have inside := List.find?_some located
    simp only [decide_eq_true_eq] at inside
    have here : weightAt map x = weight := by rw [weightAt, located]
    rw [here]
    exact ⟨key, len, OrdMap.find?_eq_some_iff.mpr (List.mem_of_find?_eq_some located), inside⟩

/-- A range meeting no segment has weight zero throughout. -/
theorem Free.weightAt (free : Free map lo hi) (low : lo ≤ x) (high : x < hi) : weightAt map x = 0 :=
  weightAt_eq_zero fun key len weight here => by have := free key len weight here; omega

/-- A new segment over a free range keeps the map disjoint. -/
theorem Disjoint.insert (disjoint : Disjoint map) (some_ : 0 < len) (counted : 0 < weight)
    (free : Free map key (key + len)) : Disjoint (map.insert key (len, weight)) := by
  -- A pair of segments is an old pair, or one of them is new and the other keeps off its range.
  constructor
  · intro probe len' weight' found
    rw [OrdMap.find?_insert] at found
    split at found
    · simp only [Option.some.injEq, Prod.mk.injEq] at found
      omega
    · exact disjoint.positive found
  · intro left len' weight' right entry foundLeft foundRight before
    rw [OrdMap.find?_insert] at foundLeft foundRight
    rcases entry with ⟨lenRight, weightRight⟩
    split at foundLeft
    · simp only [Option.some.injEq, Prod.mk.injEq] at foundLeft
      rw [if_neg (by omega)] at foundRight
      have := free right lenRight weightRight foundRight
      omega
    · split at foundRight
      · have := free left len' weight' foundLeft
        omega
      · exact disjoint.apart foundLeft foundRight before

/-- A new segment over a free range sets the weight there and nowhere else. -/
theorem weightAt_insert (disjoint : Disjoint map) (some_ : 0 < len) (counted : 0 < weight)
    (free : Free map key (key + len)) (x : Nat) :
    weightAt (map.insert key (len, weight)) x =
      if key ≤ x ∧ x < key + len then weight else weightAt map x := by
  have grown := disjoint.insert some_ counted free
  split
  · rename_i inside
    exact weightAt_of_mem grown (by simp) inside.1 inside.2
  · rename_i outside
    -- Outside the new segment both maps list the same segment, or none.
    by_cases held : 0 < weightAt map x
    · obtain ⟨old, lenOld, here, low, high⟩ := exists_of_weightAt_pos held
      have other : old ≠ key := by
        rintro rfl
        have := free old lenOld _ here
        omega
      exact weightAt_of_mem grown (by simp [other, here]) low high
    · rw [Nat.eq_zero_of_not_pos held]
      refine weightAt_eq_zero ?_
      intro probe len' weight' found
      rw [OrdMap.find?_insert] at found
      split at found
      · simp only [Option.some.injEq, Prod.mk.injEq] at found
        omega
      · refine Decidable.byContradiction fun inside => held ?_
        have positive := (disjoint.positive found).2
        rw [weightAt_of_mem disjoint found (by omega) (by omega)]
        exact positive

/-- Removing a segment keeps the others disjoint. -/
theorem Disjoint.erase (disjoint : Disjoint map) (key : Nat) : Disjoint (map.erase key) := by
  -- Every segment that is left was there before.
  constructor
  · intro probe len weight found
    rw [OrdMap.find?_erase] at found
    split at found
    · simp at found
    · exact disjoint.positive found
  · intro left len weight right entry foundLeft foundRight before
    rw [OrdMap.find?_erase] at foundLeft foundRight
    split at foundLeft
    · simp at foundLeft
    · split at foundRight
      · simp at foundRight
      · exact disjoint.apart foundLeft foundRight before

/-- Removing a segment clears the weight of its positions and of no others. -/
theorem weightAt_erase (disjoint : Disjoint map) (here : map.find? key = some (len, weight)) (x : Nat) :
    weightAt (map.erase key) x = if key ≤ x ∧ x < key + len then 0 else weightAt map x := by
  -- No other segment reaches into the range of the removed one.
  have shrunk := disjoint.erase key
  by_cases inside : key ≤ x ∧ x < key + len
  · rw [if_pos inside]
    refine weightAt_eq_zero ?_
    intro probe len' weight' found
    rw [OrdMap.find?_erase] at found
    split at found
    · simp at found
    · rename_i other
      refine Decidable.byContradiction fun both => other ?_
      exact disjoint.unique found here (by omega) (by omega) inside.1 inside.2
  · rw [if_neg inside]
    by_cases held : 0 < weightAt map x
    · obtain ⟨old, lenOld, found, low, high⟩ := exists_of_weightAt_pos held
      have other : old ≠ key := by
        rintro rfl
        rw [here] at found
        simp only [Option.some.injEq, Prod.mk.injEq] at found
        omega
      exact weightAt_of_mem shrunk (by simp [other, found]) low high
    · rw [Nat.eq_zero_of_not_pos held]
      refine weightAt_eq_zero ?_
      intro probe len' weight' found
      rw [OrdMap.find?_erase] at found
      split at found
      · simp at found
      · refine Decidable.byContradiction fun both => held ?_
        have positive := (disjoint.positive found).2
        rw [weightAt_of_mem disjoint found (by omega) (by omega)]
        exact positive

/-- The range a removed segment occupied is free afterwards. -/
theorem Disjoint.free_erase (disjoint : Disjoint map) (here : map.find? key = some (len, weight)) :
    Free (map.erase key) key (key + len) := by
  -- The other segments lie on one side of the removed one or on the other.
  intro probe len' weight' found
  rw [OrdMap.find?_erase] at found
  split at found
  · simp at found
  · rename_i other
    have somewhere := (disjoint.positive found).1
    rcases Nat.lt_or_gt_of_ne other with before | after
    · left; exact disjoint.apart found here before
    · right; exact disjoint.apart here found after

/-- Part of a free range is free. -/
theorem Free.mono {lo' hi' : Nat} (free : Free map lo hi) (low : lo ≤ lo') (high : hi' ≤ hi) : Free map lo' hi' := by
  intro key len weight here
  have := free key len weight here
  omega

/-- A range apart from a new segment stays free when that segment is added. -/
theorem Free.insert (free : Free map lo hi) (apart : key + len ≤ lo ∨ hi ≤ key) :
    Free (map.insert key (len, weight)) lo hi := by
  intro probe len' weight' found
  rw [OrdMap.find?_insert] at found
  split at found
  · simp only [Option.some.injEq, Prod.mk.injEq] at found
    omega
  · exact free probe len' weight' found

/-- A listed key is not the start of a free range. -/
theorem Free.absent (disjoint : Disjoint map) (free : Free map lo hi) (some_ : lo < hi) : map.find? lo = none := by
  -- A segment at the start of the range would reach into it.
  cases found : map.find? lo with
  | none => rfl
  | some entry =>
    rcases entry with ⟨len, weight⟩
    have := (disjoint.positive found).1
    have := free lo len weight found
    omega

/-- Lists a segment over a range, unless the range is empty. -/
def place (map : Segments) (lo hi weight : Nat) : Segments :=
  if lo < hi then map.insert lo (hi - lo, weight) else map

/-- Keys outside the placed range are read as before. -/
theorem find?_place {probe : Nat} (outside : probe < lo ∨ hi ≤ probe) :
    (place map lo hi weight).find? probe = map.find? probe := by
  unfold place
  split
  · rw [OrdMap.find?_insert, if_neg (by omega)]
  · rfl

/-- A segment placed over a free range keeps the map disjoint. -/
theorem Disjoint.place (disjoint : Disjoint map) (counted : 0 < weight) (free : Free map lo hi) :
    Disjoint (place map lo hi weight) := by
  -- An empty range places nothing.
  unfold Segments.place
  split
  · rename_i some_
    refine disjoint.insert (by omega) counted ?_
    rw [Nat.add_sub_cancel' (by omega)]
    exact free
  · exact disjoint

/-- A segment placed over a free range sets the weight there and nowhere else. -/
theorem weightAt_place (disjoint : Disjoint map) (counted : 0 < weight) (free : Free map lo hi) (x : Nat) :
    weightAt (place map lo hi weight) x = if lo ≤ x ∧ x < hi then weight else weightAt map x := by
  unfold place
  split
  · rename_i some_
    have whole : lo + (hi - lo) = hi := by omega
    rw [weightAt_insert disjoint (by omega) counted (by rw [whole]; exact free), whole]
  · -- An empty range holds no position.
    rw [if_neg (by omega)]

/-- A range apart from a placed segment stays free. -/
theorem Free.place {from_ to_ : Nat} (free : Free map lo hi) (apart : to_ ≤ lo ∨ hi ≤ from_) :
    Free (place map from_ to_ weight) lo hi := by
  unfold Segments.place
  split
  · exact free.insert (by omega)
  · exact free

/-- Removing a segment frees no less than was free before. -/
theorem Free.erase (free : Free map lo hi) (key : Nat) : Free (map.erase key) lo hi := by
  intro probe len weight found
  rw [OrdMap.find?_erase] at found
  split at found
  · simp at found
  · exact free probe len weight found

/-- The listed segments that share a position with a range. -/
def meeting (map : Segments) (lo hi : Nat) : List (Nat × Nat × Nat) :=
  map.entries.filter fun entry => decide (entry.1 < hi ∧ lo < entry.1 + entry.2.1)

/-- A segment is among the meeting ones exactly when it is listed and shares a position. -/
theorem mem_meeting :
    (key, len, weight) ∈ meeting map lo hi ↔
      map.find? key = some (len, weight) ∧ key < hi ∧ lo < key + len := by
  rw [meeting, List.mem_filter, OrdMap.find?_eq_some_iff]
  simp

theorem meeting_sorted (map : Segments) (lo hi : Nat) :
    (meeting map lo hi).Pairwise fun left right => left.1 < right.1 :=
  map.sorted.filter _

/-- A range is free when no segment meets it. -/
theorem free_of_meeting_nil (none : meeting map lo hi = []) : Free map lo hi := by
  intro key len weight found
  refine Decidable.byContradiction fun shared => ?_
  have member : (key, len, weight) ∈ meeting map lo hi := mem_meeting.mpr ⟨found, by omega, by omega⟩
  rw [none] at member
  simp at member

end Segments

end Flexicast
