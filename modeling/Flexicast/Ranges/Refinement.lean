import Flexicast.Lib.Runs
import Flexicast.Ranges.Laws
import Mathlib.Data.Set.Basic

/-! A range set refines the set of numbers that the same insertions and removals give. -/

namespace Flexicast

namespace Intervals

/-- No interval of the list is empty. -/
def Positive (list : List (Nat × Nat)) : Prop := ∀ range ∈ list, range.1 < range.2

theorem positive_cons {range : Nat × Nat} {rest : List (Nat × Nat)} :
    Positive (range :: rest) ↔ range.1 < range.2 ∧ Positive rest := List.forall_mem_cons

theorem merge_positive {lo hi : Nat} (some_ : lo < hi) {list : List (Nat × Nat)} (positive : Positive list) :
    Positive (merge lo hi list) := by
  -- The absorbed interval only grows, so it never becomes empty.
  induction list generalizing lo hi with
  | nil => exact positive_cons.mpr ⟨some_, fun _ member => by cases member⟩
  | cons head rest ih =>
    obtain ⟨here, later⟩ := positive_cons.mp positive
    simp only [merge]
    split
    · exact positive_cons.mpr ⟨here, ih some_ later⟩
    · split
      · exact positive_cons.mpr ⟨some_, positive⟩
      · exact ih (by omega) later

end Intervals

open Intervals

section Removal

variable {largest : Nat} {list : List (Nat × Nat)}

theorem removeLoop_separated (separated : Separated list) (positive : Positive list) :
    Separated (InlineRangeSet.removeLoop largest list) ∧
      Positive (InlineRangeSet.removeLoop largest list) := by
  -- The loop drops intervals from the front and cuts the first one that reaches further.
  induction list with
  | nil => exact ⟨separated, positive⟩
  | cons head rest ih =>
    obtain ⟨forward, gap, tail⟩ := separated_cons.mp separated
    obtain ⟨here, later⟩ := positive_cons.mp positive
    simp only [InlineRangeSet.removeLoop]
    split
    · exact ih tail later
    · rename_i reaches
      split
      · exact ⟨tail, later⟩
      · rename_i left
        have short : max (largest + 1) head.1 < head.2 := by omega
        exact ⟨separated_cons.mpr ⟨Nat.le_of_lt short, gap, tail⟩, positive_cons.mpr ⟨short, later⟩⟩

/-- Removal takes out exactly the numbers up to the largest one. -/
theorem covers_removeLoop (separated : Separated list) (x : Nat) :
    Covers (InlineRangeSet.removeLoop largest list) x ↔ Covers list x ∧ largest < x := by
  induction list with
  | nil => simp [InlineRangeSet.removeLoop]
  | cons head rest ih =>
    obtain ⟨forward, gap, tail⟩ := separated_cons.mp separated
    -- The intervals behind the first one that reaches beyond the largest number lie above it.
    have above : largest < head.2 → Covers rest x → largest < x := by
      intro reaches covered
      obtain ⟨later, member, low, -⟩ := covered
      have := gap later member
      omega
    simp only [InlineRangeSet.removeLoop, covers_cons]
    split
    · rw [ih tail]
      constructor
      · intro both
        exact ⟨Or.inr both.1, both.2⟩
      · intro both
        exact ⟨both.1.resolve_left (by omega), both.2⟩
    · rename_i reaches
      have behind := above (by omega)
      split
      · constructor
        · intro covered
          exact ⟨Or.inr covered, behind covered⟩
        · intro both
          exact both.1.resolve_left (by omega)
      · simp only [covers_cons]
        constructor
        · intro either
          rcases either with inside | covered
          · exact ⟨Or.inl (by omega), by omega⟩
          · exact ⟨Or.inr covered, behind covered⟩
        · intro both
          exact both.1.imp_left (by omega)

theorem removeLoop_above (positive : Positive list) (above : ∀ range ∈ list, largest < range.1) :
    InlineRangeSet.removeLoop largest list = list := by
  -- The first interval stops the loop, and is cut nowhere.
  cases list with
  | nil => rfl
  | cons head rest =>
    have here := (positive_cons.mp positive).1
    have low := above head List.mem_cons_self
    simp only [InlineRangeSet.removeLoop]
    rw [if_neg (by omega), if_neg (by omega), Nat.max_eq_right (by omega)]

theorem split_starts (separated : Separated list) (value : Nat) :
    ∃ front back, list = front ++ back ∧ (∀ range ∈ front, range.1 ≤ value) ∧
      ∀ range ∈ back, value < range.1 := by
  induction list with
  | nil => exact ⟨[], [], rfl, by simp, by simp⟩
  | cons head rest ih =>
    obtain ⟨forward, gap, tail⟩ := separated_cons.mp separated
    by_cases low : head.1 ≤ value
    · obtain ⟨front, back, listed, below, above⟩ := ih tail
      exact ⟨head :: front, back, by rw [listed]; rfl, List.forall_mem_cons.mpr ⟨low, below⟩, above⟩
    · -- The first interval lies above the number, and so do the later ones.
      refine ⟨[], head :: rest, rfl, by simp, List.forall_mem_cons.mpr ⟨by omega, ?_⟩⟩
      intro range member
      have := gap range member
      omega

/-- A tree without the ranges that start up to the largest number is what the inline form computes. -/
theorem foldl_removeRange (front : List (Nat × Nat)) {back : List (Nat × Nat)}
    (above : ∀ range ∈ back, largest < range.1) :
    ∀ {set : BTreeRangeSet}, set.capacity = none → set.inner.entries = front ++ back →
      Separated (front ++ back) → Positive (front ++ back) → (∀ range ∈ front, range.1 ≤ largest) →
      (front.foldl (BTreeRangeSet.removeRange largest) set).inner.entries =
          InlineRangeSet.removeLoop largest (front ++ back) ∧
        (front.foldl (BTreeRangeSet.removeRange largest) set).capacity = none := by
  induction front with
  | nil =>
    intro set unbounded listed _ positive _
    exact ⟨listed.trans (removeLoop_above positive above).symm, unbounded⟩
  | cons head rest ih =>
    intro set unbounded listed separated positive below
    rcases head with ⟨start, stop⟩
    obtain ⟨forward, gap, tail⟩ := separated_cons.mp separated
    obtain ⟨here, later⟩ := positive_cons.mp positive
    have low : start ≤ largest := below (start, stop) List.mem_cons_self
    have below' : ∀ range ∈ rest, range.1 ≤ largest := fun range member =>
      below range (List.mem_cons_of_mem _ member)
    have erased : (set.inner.erase start).entries = rest ++ back :=
      @OrdMap.entries_erase _ _ _ set.inner [] (rest ++ back) listed
    simp only at here forward gap
    rw [List.cons_append, InlineRangeSet.removeLoop]
    simp only [List.foldl_cons, BTreeRangeSet.removeRange]
    by_cases done : stop ≤ largest
    · -- All of the range goes, and the loop turns to the next one.
      rw [if_pos done, if_neg (by omega)]
      exact ih unbounded erased tail later below'
    · -- The range reaches beyond the largest number, so no later one starts up to it.
      have last : rest = [] := by
        cases rest with
        | nil => rfl
        | cons next others =>
          have := gap next List.mem_cons_self
          have := below' next List.mem_cons_self
          omega
      subst last
      rw [if_neg done, Nat.max_eq_left (by omega)]
      by_cases left : largest + 1 < stop
      · rw [if_pos left, if_neg (by omega)]
        have stored := @btree_insert_eq_merge (largest + 1) stop { set with inner := set.inner.erase start } unbounded
          (by simp only [erased]; exact tail) (by omega)
        refine ⟨?_, unbounded⟩
        rw [List.foldl_nil, stored]
        simp only [erased]
        exact merge_before (by omega) tail gap
      · rw [if_neg left, if_pos (by omega)]
        exact ⟨erased, unbounded⟩

/-- The tree removes what the inline form removes. -/
theorem btree_removeUntil {set : BTreeRangeSet} (unbounded : set.capacity = none)
    (separated : Separated set.inner.entries) (positive : Positive set.inner.entries) :
    (set.removeUntil largest).inner.entries = InlineRangeSet.removeLoop largest set.inner.entries ∧
      (set.removeUntil largest).capacity = none := by
  -- The tree collects the ranges that start early, and removes them one by one.
  obtain ⟨front, back, listed, below, above⟩ := split_starts separated largest
  have taken : set.inner.entries.filter (fun range => range.1 ≤ largest) = front := by
    rw [listed, List.filter_append, List.filter_eq_self.mpr fun range member => by simpa using below range member,
      List.filter_eq_nil_iff.mpr fun range member => by simpa using above range member, List.append_nil]
  unfold BTreeRangeSet.removeUntil
  rw [taken, listed]
  exact foldl_removeRange front above unbounded listed (by rw [← listed]; exact separated)
    (by rw [← listed]; exact positive) below

end Removal

namespace RangeSet

theorem iter_removeUntil {set : RangeSet} (wf : set.Wf) (positive : Positive set.iter) (largest : Nat) :
    (set.removeUntil largest).iter = InlineRangeSet.removeLoop largest set.iter ∧
      (set.removeUntil largest).capacity = none := by
  -- Either form lists what the loop leaves, and switching the form lists the same.
  have separated := (@removeLoop_separated largest set.iter wf.separated positive).1
  cases set with
  | inline set =>
    exact ⟨@iter_fixup (.inline (set.removeUntil largest)) separated,
      by rw [RangeSet.removeUntil, capacity_fixup]; exact wf.unbounded⟩
  | btree set =>
    obtain ⟨entries, unbounded⟩ := @btree_removeUntil largest set wf.unbounded wf.separated positive
    refine ⟨?_, by rw [RangeSet.removeUntil, capacity_fixup]; exact unbounded⟩
    rw [RangeSet.removeUntil, iter_fixup (by rw [RangeSet.iter, entries]; exact separated)]
    exact entries

end RangeSet

/-- What is done to a range set. -/
inductive RangeOp where
  | insert (start stop : Nat)
  /-- All numbers up to and including one are removed. -/
  | removeUntil (largest : Nat)
  deriving DecidableEq

namespace RangeOp

/-- An insertion is of a range that is not empty. -/
def Valid : RangeOp → Prop
  | .insert start stop => start < stop
  | .removeUntil _ => True

/-- What the operation does to a set of numbers. -/
def denote (numbers : Set Nat) : RangeOp → Set Nat
  | .insert start stop => numbers ∪ {x | start ≤ x ∧ x < stop}
  | .removeUntil largest => numbers \ {x | x ≤ largest}

/-- What the operation does to a range set; no result means that the call panics. -/
def apply (set : Option RangeSet) : RangeOp → Option RangeSet
  | .insert start stop => set.bind fun set => set.insert? start stop
  | .removeUntil largest => set.bind fun set => set.removeUntil? largest

/-- The number behind the largest one to remove has 64 bits, or the set is in its inline form. -/
def Fits (set : Option RangeSet) : RangeOp → Prop
  | .insert _ _ => True
  | .removeUntil largest => largest < maxU64 ∨
      ∀ tree, set ≠ some (RangeSet.btree tree)

end RangeOp

/-- A range set stands for a set of numbers, as separate ranges of which none is empty. -/
structure Represents (set : RangeSet) (numbers : Set Nat) : Prop where
  wf : set.Wf
  positive : Positive set.iter
  covers : ∀ x, set.Contains x ↔ x ∈ numbers

variable {set : RangeSet} {numbers : Set Nat}

/-- An insertion returns, and adds the numbers of its range. -/
theorem Represents.insert (represents : Represents set numbers) {start stop : Nat} (some_ : start < stop) :
    ∃ after, set.insert? start stop = some after ∧
      Represents after (RangeOp.denote numbers (.insert start stop)) := by
  -- Merging adds the numbers of the range, and capacity is no limit here.
  obtain ⟨after, ran, listed, unbounded⟩ := RangeSet.insert?_eq represents.wf (Nat.le_of_lt some_)
  refine ⟨after, ran, ⟨?_, unbounded⟩, ?_, fun x => ?_⟩
  · rw [listed]
    exact merge_separated (Nat.le_of_lt some_) represents.wf.separated
  · rw [listed]
    exact merge_positive some_ represents.positive
  · rw [RangeSet.Contains, listed, covers_merge]
    exact (or_congr_right (represents.covers x)).trans or_comm

/-- What is left after a removal stands for the numbers above the largest one removed. -/
theorem Represents.removed (represents : Represents set numbers) (largest : Nat) :
    Represents (set.removeUntil largest) (RangeOp.denote numbers (.removeUntil largest)) := by
  obtain ⟨listed, unbounded⟩ := RangeSet.iter_removeUntil represents.wf represents.positive largest
  obtain ⟨separated, positive⟩ := @removeLoop_separated largest set.iter represents.wf.separated
    represents.positive
  refine ⟨⟨by rw [listed]; exact separated, unbounded⟩, by rw [listed]; exact positive, fun x => ?_⟩
  rw [RangeSet.Contains, listed, covers_removeLoop represents.wf.separated]
  show set.Contains x ∧ largest < x ↔ x ∈ numbers ∧ ¬ x ≤ largest
  rw [represents.covers x, Nat.not_le]

theorem Represents.removeUntil (represents : Represents set numbers) {largest : Nat}
    (fits : RangeOp.Fits (some set) (.removeUntil largest)) :
    ∃ after, set.removeUntil? largest = some after ∧
      Represents after (RangeOp.denote numbers (.removeUntil largest)) := by
  -- Only a tree computes the number behind the largest one, and that number fits.
  have returns : set.removeUntil? largest = some (set.removeUntil largest) := by
    cases set with
    | inline set => rfl
    | btree tree =>
      rcases fits with small | inline
      · exact if_neg (by simp only [Bool.and_eq_true, decide_eq_true_eq]; omega)
      · exact absurd rfl (inline tree)
  exact ⟨_, returns, represents.removed largest⟩

theorem represents_default : Represents RangeSet.default ∅ :=
  ⟨RangeSet.wf_default, fun range member => absurd member List.not_mem_nil, fun x => by simp⟩

/-- Every operation that fits keeps a range set and the numbers that it stands for together. -/
theorem represents_run (ops : List RangeOp) :
    ∀ {set : RangeSet} {numbers : Set Nat}, Represents set numbers → (∀ op ∈ ops, op.Valid) →
      Runs.Along RangeOp.apply RangeOp.Fits (some set) ops →
      ∃ after, Runs.run RangeOp.apply (some set) ops = some after ∧
        Represents after (Runs.run RangeOp.denote numbers ops) := by
  -- Each operation returns a set that stands for the numbers after it, from which the others go on.
  induction ops with
  | nil => exact fun represents _ _ => ⟨_, rfl, represents⟩
  | cons op rest ih =>
    intro set numbers represents valid fits
    have here := valid op List.mem_cons_self
    have later : ∀ op ∈ rest, op.Valid := fun next member => valid next (List.mem_cons_of_mem _ member)
    have step : ∃ after, RangeOp.apply (some set) op = some after ∧
        Represents after (RangeOp.denote numbers op) := by
      cases op with
      | insert start stop => exact represents.insert here
      | removeUntil largest => exact represents.removeUntil fits.1
    obtain ⟨middle, ran, represents'⟩ := step
    have fits' := fits.2
    rw [ran] at fits'
    obtain ⟨after, returned, final⟩ := ih represents' later fits'
    exact ⟨after, by rw [Runs.run_cons, ran]; exact returned, final⟩

namespace RangeSet

/--
From the default set, any operations that fit return a set whose ranges are not empty,
increase with gaps between them, and hold exactly the numbers that the same operations give.
-/
theorem iter_refines (ops : List RangeOp) (valid : ∀ op ∈ ops, op.Valid)
    (fits : Runs.Along RangeOp.apply RangeOp.Fits (some RangeSet.default) ops) :
    ∃ set, Runs.run RangeOp.apply (some RangeSet.default) ops = some set ∧
      (∀ range ∈ set.iter, range.1 < range.2) ∧
      set.iter.Pairwise (fun left right => left.2 < right.1) ∧
      {x | ∃ range ∈ set.iter, range.1 ≤ x ∧ x < range.2} = Runs.run RangeOp.denote ∅ ops := by
  -- The run of the set represents the run on plain sets of numbers.
  obtain ⟨set, ran, represents⟩ := represents_run ops represents_default valid fits
  refine ⟨set, ran, represents.positive, represents.wf.separated.apart, ?_⟩
  ext x
  exact represents.covers x

/-- Four ranges, which are kept in a tree. -/
def fourRanges : List RangeOp := [.insert 0 1, .insert 2 3, .insert 4 5, .insert 6 9]

/-- Removing from a tree leaves the numbers above. -/
theorem iter_refines_tree :
    ∃ set, Runs.run RangeOp.apply (some RangeSet.default) (fourRanges ++ [.removeUntil 6]) = some set ∧
      (∀ range ∈ set.iter, range.1 < range.2) ∧
      set.iter.Pairwise (fun left right => left.2 < right.1) ∧
      {x | ∃ range ∈ set.iter, range.1 ≤ x ∧ x < range.2} =
        Runs.run RangeOp.denote ∅ (fourRanges ++ [.removeUntil 6]) :=
  iter_refines (fourRanges ++ [.removeUntil 6])
    (by simp [fourRanges, RangeOp.Valid])
    (by
      unfold fourRanges
      exact ⟨trivial, trivial, trivial, trivial, Or.inl (by decide), trivial⟩)

/-- Removing all numbers from a tree panics, though it returns in the inline form. -/
theorem remove_all_panics :
    (∀ op ∈ fourRanges ++ [.removeUntil maxU64], op.Valid) ∧
      Runs.run RangeOp.apply (some RangeSet.default) (fourRanges ++ [.removeUntil maxU64]) = none ∧
      (Runs.run RangeOp.apply (some RangeSet.default) [.insert 0 1, .removeUntil maxU64]).map RangeSet.iter =
        some [] :=
  ⟨by simp [fourRanges, RangeOp.Valid], by decide, by decide⟩

end RangeSet

end Flexicast
