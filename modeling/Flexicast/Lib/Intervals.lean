/-! Sets of natural numbers held as increasing lists of half-open intervals that never touch. -/

namespace Flexicast

namespace Intervals

/-- Intervals in increasing order, each ending strictly before the next one starts. -/
structure Separated (list : List (Nat × Nat)) : Prop where
  /-- No interval runs backwards, though an empty one may be listed. -/
  forward : ∀ range ∈ list, range.1 ≤ range.2
  /-- A gap of at least one number stands between neighbours. -/
  apart : list.Pairwise (fun left right => left.2 < right.1)

/-- The numbers an interval list denotes. -/
def Covers (list : List (Nat × Nat)) (x : Nat) : Prop :=
  ∃ range ∈ list, range.1 ≤ x ∧ x < range.2

/-- Adding an interval absorbs every listed one that it overlaps or touches. -/
def merge (lo hi : Nat) : List (Nat × Nat) → List (Nat × Nat)
  | [] => [(lo, hi)]
  | (start, stop) :: rest =>
    if stop < lo then (start, stop) :: merge lo hi rest
    else if hi < start then (lo, hi) :: (start, stop) :: rest
    else merge (min lo start) (max hi stop) rest

theorem separated_nil : Separated [] :=
  ⟨by simp, List.Pairwise.nil⟩

theorem separated_cons {range : Nat × Nat} {rest : List (Nat × Nat)} :
    Separated (range :: rest) ↔
      range.1 ≤ range.2 ∧ (∀ later ∈ rest, range.2 < later.1) ∧ Separated rest := by
  -- The head is ordered and lies before the rest, which is separated by itself.
  constructor
  · intro given
    obtain ⟨forward, apart⟩ := given
    obtain ⟨gap, tail⟩ := List.pairwise_cons.mp apart
    exact ⟨forward range List.mem_cons_self, gap,
      fun later member => forward later (List.mem_cons_of_mem _ member), tail⟩
  · intro given
    obtain ⟨forward, gap, tail⟩ := given
    refine ⟨?_, List.pairwise_cons.mpr ⟨gap, tail.apart⟩⟩
    intro later member
    rcases List.mem_cons.mp member with same | member
    · subst same; exact forward
    · exact tail.forward later member

@[simp] theorem covers_nil (x : Nat) : Covers [] x ↔ False := by
  simp [Covers]

@[simp] theorem covers_cons (range : Nat × Nat) (rest : List (Nat × Nat)) (x : Nat) :
    Covers (range :: rest) x ↔ (range.1 ≤ x ∧ x < range.2) ∨ Covers rest x := by
  simp [Covers]

variable {lo hi : Nat} {list : List (Nat × Nat)}

/-- Every interval of a merge starts at the new interval or where an old one started. -/
theorem merge_starts {bound : Nat} (low : bound < lo) (above : ∀ range ∈ list, bound < range.1) :
    ∀ range ∈ merge lo hi list, bound < range.1 := by
  -- The merged interval starts at the smaller of two starts, both above the bound.
  induction list generalizing lo hi with
  | nil => intro range member; simp [merge] at member; subst member; exact low
  | cons head rest ih =>
    have headAbove := above head List.mem_cons_self
    have restAbove : ∀ range ∈ rest, bound < range.1 := fun range member =>
      above range (List.mem_cons_of_mem _ member)
    simp only [merge]
    split
    · intro range member
      rcases List.mem_cons.mp member with same | member
      · subst same; exact headAbove
      · exact ih low restAbove range member
    · split
      · intro range member
        rcases List.mem_cons.mp member with same | member
        · subst same; exact low
        · exact above range member
      · exact ih (by omega) restAbove

/-- Merging keeps the list increasing and separated. -/
theorem merge_separated (forward : lo ≤ hi) (separated : Separated list) : Separated (merge lo hi list) := by
  -- The absorbed interval grows, so its bounds stay quantified over.
  induction list generalizing lo hi with
  | nil => exact separated_cons.mpr ⟨forward, by simp, separated_nil⟩
  | cons head rest ih =>
    obtain ⟨headForward, gap, tail⟩ := separated_cons.mp separated
    simp only [merge]
    split
    · rename_i before
      exact separated_cons.mpr ⟨headForward, merge_starts before gap, ih forward tail⟩
    · split
      · rename_i after
        refine separated_cons.mpr ⟨forward, ?_, separated⟩
        intro later member
        rcases List.mem_cons.mp member with same | member
        · subst same; exact after
        · have := gap later member
          show hi < later.1
          omega
      · exact ih (by omega) tail

/-- Merging adds exactly the numbers of the new interval. -/
@[simp] theorem covers_merge (lo hi : Nat) (list : List (Nat × Nat)) (x : Nat) :
    Covers (merge lo hi list) x ↔ (lo ≤ x ∧ x < hi) ∨ Covers list x := by
  induction list generalizing lo hi with
  | nil => simp [merge]
  | cons head rest ih =>
    rcases head with ⟨start, stop⟩
    simp only [merge]
    split
    · simp only [covers_cons, ih]
      exact or_left_comm
    · split
      · simp
      · -- Two touching intervals have no number strictly between them.
        simp only [ih, covers_cons]
        constructor
        · intro either
          rcases either with inside | member
          · by_cases old : start ≤ x ∧ x < stop
            · right; left; exact old
            · left; omega
          · right; right; exact member
        · intro either
          rcases either with fresh | old | member
          · left; omega
          · left; omega
          · right; exact member

/-- Merging below every listed interval just lists the new one first. -/
theorem merge_before (forward : lo ≤ hi) (separated : Separated list) (above : ∀ range ∈ list, hi < range.1) :
    merge lo hi list = (lo, hi) :: list := by
  -- The first interval does not touch the new one, so the loop ends there.
  cases list with
  | nil => rfl
  | cons head rest =>
    have headForward := separated.forward head List.mem_cons_self
    have headAbove := above head List.mem_cons_self
    simp only [merge]
    rw [if_neg (by omega), if_pos headAbove]

end Intervals

end Flexicast
