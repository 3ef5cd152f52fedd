import Flexicast.Ranges.Refinement

/-! Range sets of a bounded number of ranges, which give up the smallest range for a new one. -/

namespace Flexicast

namespace Intervals

theorem length_merge_le (lo hi : Nat) (list : List (Nat × Nat)) :
    (merge lo hi list).length ≤ list.length + 1 := by
  induction list generalizing lo hi with
  | nil => simp [merge]
  | cons head rest ih =>
    simp only [merge, List.length_cons]
    split
    · simpa using ih lo hi
    · split
      · simp
      · exact Nat.le_succ_of_le (ih _ _)

end Intervals

open Intervals

section Inserting

variable {capacity start stop : Nat} {list : List (Nat × Nat)}

/-- A list that lost its smallest range if it was too long. -/
def evict (capacity : Nat) (list : List (Nat × Nat)) : List (Nat × Nat) :=
  if capacity < list.length then list.tail else list

/-- A list is full, and a new range lies strictly before all of its ranges. -/
def FullBehind (capacity stop : Nat) (list : List (Nat × Nat)) : Prop :=
  list.length = capacity ∧ ∀ range, list.head? = some range → stop < range.1

instance decidableFullBehind (capacity stop : Nat) (list : List (Nat × Nat)) :
    Decidable (FullBehind capacity stop list) :=
  inferInstanceAs (Decidable (list.length = capacity ∧ ∀ range ∈ list.head?, stop < range.1))

/-- A new range strictly before all others makes a full list too long. -/
theorem FullBehind.overflows (behind : FullBehind capacity stop list) (forward : start ≤ stop)
    (separated : Separated list) : merge start stop list = (start, stop) :: list := by
  cases list with
  | nil => rfl
  | cons head rest =>
    have first := behind.2 head rfl
    have ordered := (separated_cons.mp separated).1
    simp only [merge]
    rw [if_neg (by omega), if_pos first]

/-- The search of the inline form fails just for a new range before all others of a full list, and otherwise merges
and gives up the smallest range. -/
theorem insertLoop_bounded (forward : start ≤ stop) {passed : List (Nat × Nat)} (separated : Separated list)
    (room : passed.length + list.length ≤ capacity) :
    InlineRangeSet.insertLoop (some capacity) start stop passed list =
      if passed = [] ∧ FullBehind capacity stop list then none
      else some (evict capacity (passed ++ merge start stop list)) := by
  -- Induction on the list; the ranges that were passed pile up in front of it.
  induction list generalizing passed with
  | nil =>
    simp only [InlineRangeSet.insertLoop, merge, Option.some.injEq]
    cases passed with
    | nil =>
      by_cases full : capacity = 0
      · simp [FullBehind, full]
      · have other : ¬ 0 = capacity := fun same => full same.symm
        have fits : ¬ capacity < 1 := by omega
        simp [FullBehind, evict, full, other, fits]
    | cons first kept =>
      simp only [List.length_cons, List.length_nil] at room
      by_cases full : capacity = kept.length + 1
      · simp [evict, full]
      · have fits : ¬ capacity < kept.length + 1 + 1 := by omega
        simp [evict, full, fits]
  | cons head rest ih =>
    rcases head with ⟨held, heldStop⟩
    obtain ⟨ordered, gap, tail⟩ := separated_cons.mp separated
    have ordered : held ≤ heldStop := ordered
    simp only [List.length_cons] at room
    simp only [InlineRangeSet.insertLoop, merge]
    split
    · -- The head lies strictly before the new range, so the list does not start behind it.
      rename_i before
      have notBehind : ¬ FullBehind capacity stop ((held, heldStop) :: rest) := by
        intro behind
        have := behind.2 _ rfl
        simp only at this
        omega
      rw [ih tail (by simp only [List.length_append, List.length_cons, List.length_nil]; omega)]
      simp [notBehind]
    · split
      · rename_i past
        have first : ∀ range, ((held, heldStop) :: rest).head? = some range → stop < range.1 := by
          intro range same
          cases same
          exact past
        cases passed with
        | nil =>
          by_cases full : capacity = rest.length + 1
          · simp [FullBehind, full, past]
          · have other : ¬ rest.length + 1 = capacity := fun same => full same.symm
            have fits : ¬ capacity < rest.length + 1 + 1 := by
              simp only [List.length_nil] at room
              omega
            simp [FullBehind, evict, full, other, fits]
        | cons front kept =>
          simp only [List.length_cons] at room
          by_cases full : capacity = kept.length + 1 + (rest.length + 1)
          · have excess : capacity < kept.length + (rest.length + 1 + 1) + 1 := by omega
            simp [evict, full]
            omega
          · have fits : ¬ capacity < kept.length + (rest.length + 1 + 1) + 1 := by omega
            simp [evict, full, fits]
      · -- The new range reaches the head, so the list gets no longer.
        rename_i reaches near
        have notBehind : ¬ FullBehind capacity stop ((held, heldStop) :: rest) := fun behind =>
          near (behind.2 _ rfl)
        have shorter := length_merge_le (min start held) (max stop heldStop) rest
        have fits : ¬ capacity < (passed ++ merge (min start held) (max stop heldStop) rest).length := by
          rw [List.length_append]
          omega
        have unbroken : ¬ (passed = [] ∧ FullBehind capacity stop ((held, heldStop) :: rest)) :=
          fun both => notBehind both.2
        rw [if_neg unbroken, evict, if_neg fits]
        split
        · rename_i longer
          rw [absorb_eq_merge tail.forward, Nat.max_eq_left (by omega)]
          intro range member
          have := gap range member
          omega
        · rename_i ends
          rw [Nat.max_eq_right (by omega), merge_before (by omega) tail gap]

/-- A tree at its capacity gives up its smallest range before it stores the new one. -/
theorem BTreeRangeSet.Grown.stored {grownTo : Nat × Nat × OrdMap Nat} {front back rest : List (Nat × Nat)}
    (grown : BTreeRangeSet.Grown list start stop grownTo front back rest) (separated : Separated list)
    (room : list.length ≤ capacity) (forward : start ≤ stop) :
    ((BTreeRangeSet.makeRoom (some capacity) grownTo.2.2).insert grownTo.1 grownTo.2.1).entries =
      if FullBehind capacity stop list then (start, stop) :: list.tail
      else evict capacity (merge start stop list) := by
  have whole : merge start stop list = front ++ (grownTo.1, grownTo.2.1) :: rest := by
    rw [grown.split, merge_append grown.before, grown.merged]
  have shorter := length_merge_le start stop list
  simp only [BTreeRangeSet.makeRoom, OrdMap.insert]
  by_cases pops : capacity ≤ (front ++ rest).length
  · -- The set is full and the new range touches none of its ranges.
    rw [whole] at shorter
    simp only [List.length_append, List.length_cons] at shorter pops
    have full : list.length = capacity := by omega
    rw [if_pos (by rw [grown.kept, List.length_append]; omega)]
    simp only [OrdMap.popFirst, grown.kept]
    cases front with
    | nil =>
      have behind : FullBehind capacity stop list := by
        refine ⟨full, fun range first => ?_⟩
        by_contra near
        have same : list = back := grown.split
        rw [same] at first full
        cases back with
        | nil => cases first
        | cons head later =>
          have named : head = range := Option.some.inj first
          rw [← named] at near
          -- A range that is reached is merged, and then there are no more than before.
          have reached := grown.reaches _ rfl
          have merged := grown.merged
          simp only [merge] at merged
          rw [if_neg (by omega), if_neg near] at merged
          have count := length_merge_le (min start head.1) (max stop head.2) later
          rw [merged] at count
          simp only [List.length_cons, List.length_nil] at count full pops
          omega
      rw [if_pos behind]
      have alone := behind.overflows forward separated
      rw [whole, List.nil_append, List.cons.injEq] at alone
      obtain ⟨new, others⟩ := alone
      rw [Prod.mk.injEq] at new
      rw [new.1, new.2, others, List.nil_append]
      have placed := OrdMap.store_between [] list.tail start stop (by simp) (by
        intro range member
        have above := grown.above range (others ▸ List.mem_of_mem_tail member)
        omega)
      exact placed
    | cons first kept =>
      have ahead := grown.before first List.mem_cons_self
      have notBehind : ¬ FullBehind capacity stop list := by
        intro behind
        have := behind.2 first (by rw [grown.split]; rfl)
        have ordered := separated.forward first (by rw [grown.split]; exact List.mem_cons_self)
        omega
      have excess : capacity < ((first :: kept) ++ (grownTo.1, grownTo.2.1) :: rest).length := by
        simp only [List.length_append, List.length_cons] at pops ⊢
        omega
      rw [if_neg notBehind, evict, whole, if_pos excess]
      exact OrdMap.store_between kept rest _ _ (fun range member => grown.below range (List.mem_cons_of_mem _ member))
        grown.above
  · -- There is room for the new range.
    have notBehind : ¬ FullBehind capacity stop list := by
      intro behind
      have alone := congrArg List.length (behind.overflows forward separated)
      rw [whole] at alone
      simp only [List.length_append, List.length_cons, behind.1] at alone pops
      omega
    rw [if_neg (by rw [grown.kept]; exact pops), if_neg notBehind, evict, whole,
      if_neg (by simp only [List.length_append, List.length_cons] at pops ⊢; omega)]
    simp only [grown.kept]
    exact OrdMap.store_between front rest _ _ grown.below grown.above

/-- The tree merges the new range and gives up the smallest one, but for a new range before all others of a full
set, which it keeps in the place of the smallest of the others. -/
theorem btree_insert_bounded {set : BTreeRangeSet} (bounded : set.capacity = some capacity)
    (separated : Separated set.inner.entries) (room : set.inner.entries.length ≤ capacity)
    (forward : start ≤ stop) :
    (set.insert start stop).inner.entries =
      if FullBehind capacity stop set.inner.entries then (start, stop) :: set.inner.entries.tail
      else evict capacity (merge start stop set.inner.entries) := by
  obtain ⟨front, back, rest, grown⟩ := btree_grown separated forward
  simp only [BTreeRangeSet.insert, bounded]
  exact grown.stored separated room forward

end Inserting

namespace RangeSet

section Capacities

/-- A set that holds its ranges separated, none of them empty, and no more than its capacity. -/
structure Bounded (capacity : Nat) (set : RangeSet) : Prop where
  separated : Separated set.iter
  positive : Positive set.iter
  room : set.iter.length ≤ capacity
  bounded : set.capacity = some capacity

/-- What an insertion into a set of bounded capacity should do: the set holds the union, but for the smallest range of
the union when there are more than the capacity. -/
structure Inserts (capacity start stop : Nat) (before after : RangeSet) : Prop where
  room : after.len ≤ capacity
  content : ∃ union, Separated union ∧ Positive union ∧
    (∀ x, Covers union x ↔ before.Contains x ∨ (start ≤ x ∧ x < stop)) ∧
    after.iter = if capacity < union.length then union.tail else union

variable {capacity start stop : Nat} {set : RangeSet}

theorem bounded_new (capacity : Nat) : Bounded capacity (RangeSet.new capacity) :=
  ⟨separated_nil, fun _ member => (List.not_mem_nil member).elim, Nat.zero_le _, rfl⟩

theorem length_evict_le {list : List (Nat × Nat)} (near : list.length ≤ capacity + 1) :
    (evict capacity list).length ≤ capacity := by
  unfold evict
  split
  · rw [List.length_tail]
    omega
  · omega

theorem separated_sublist {part list : List (Nat × Nat)} (sub : part.Sublist list) (separated : Separated list) :
    Separated part :=
  ⟨fun range member => separated.forward range (sub.subset member), separated.apart.sublist sub⟩

theorem evict_sublist (capacity : Nat) (list : List (Nat × Nat)) : (evict capacity list).Sublist list := by
  unfold evict
  split
  · exact List.tail_sublist _
  · exact List.Sublist.refl _

theorem Bounded.of_union (bounded : Bounded capacity set) (some_ : start < stop) {after : RangeSet}
    (sub : after.iter.Sublist (merge start stop set.iter)) (room : after.iter.length ≤ capacity)
    (kept : after.capacity = some capacity) : Bounded capacity after where
  separated := separated_sublist sub (merge_separated (Nat.le_of_lt some_) bounded.separated)
  positive := fun range member => merge_positive some_ bounded.positive range (sub.subset member)
  room := room
  bounded := kept

/-- An insertion does what it should unless the set is full and the new range lies before all others. -/
theorem Bounded.insert (bounded : Bounded capacity set) (some_ : start < stop)
    (spare : ¬ FullBehind capacity stop set.iter) :
    ∃ after, set.insert? start stop = some after ∧ Bounded capacity after ∧ Inserts capacity start stop set after := by
  have forward := Nat.le_of_lt some_
  have merged := merge_separated forward bounded.separated
  have short : (evict capacity (merge start stop set.iter)).length ≤ capacity :=
    length_evict_le (Nat.le_trans (length_merge_le start stop set.iter) (Nat.succ_le_succ bounded.room))
  have sub := evict_sublist capacity (merge start stop set.iter)
  -- Both forms list the union without what is too much.
  obtain ⟨after, ran, listed, kept⟩ : ∃ after, set.insert? start stop = some after ∧
      after.iter = evict capacity (merge start stop set.iter) ∧ after.capacity = some capacity := by
    cases set with
    | inline set =>
      have ran := @insertLoop_bounded capacity start stop _ forward [] bounded.separated
        (by simpa using bounded.room)
      rw [if_neg (fun both => spare both.2), List.nil_append] at ran
      have limit : set.capacity = some capacity := bounded.bounded
      refine ⟨(RangeSet.inline { set with inner := evict capacity (merge start stop set.inner) }).fixup, ?_, ?_, ?_⟩
      · simp only [insert?, InlineRangeSet.insert?, limit]
        simp only [iter] at ran
        simp [ran]
      · exact iter_fixup (separated_sublist sub merged)
      · rw [capacity_fixup]
        exact limit
    | btree set =>
      have ran := btree_insert_bounded bounded.bounded bounded.separated bounded.room forward
      have spare : ¬ FullBehind capacity stop set.inner.entries := spare
      rw [if_neg spare] at ran
      refine ⟨(RangeSet.btree (set.insert start stop)).fixup, rfl, ?_, ?_⟩
      · rw [iter_fixup (by simpa [iter, ran] using separated_sublist sub merged)]
        exact ran
      · rw [capacity_fixup]
        exact bounded.bounded
  have short : after.iter.length ≤ capacity := listed ▸ short
  refine ⟨after, ran, bounded.of_union some_ (listed ▸ sub) short kept, short, ?_⟩
  refine ⟨_, merged, merge_positive some_ bounded.positive, fun x => ?_, listed⟩
  rw [covers_merge]
  exact or_comm

/-- Before all ranges of a full set the inline form panics, and the tree gives up the smallest of the others. -/
theorem Bounded.insert_behind (bounded : Bounded capacity set) (holds : 1 ≤ capacity) (some_ : start < stop)
    (behind : FullBehind capacity stop set.iter) :
    set.insert? start stop = none ∨ ∃ after, set.insert? start stop = some after ∧ Bounded capacity after ∧
      after.iter = (start, stop) :: set.iter.tail := by
  have forward := Nat.le_of_lt some_
  have overflows := behind.overflows forward bounded.separated
  cases set with
  | inline set =>
    left
    have ran := @insertLoop_bounded capacity start stop _ forward [] bounded.separated
      (by simpa using bounded.room)
    rw [if_pos ⟨rfl, behind⟩] at ran
    have limit : set.capacity = some capacity := bounded.bounded
    simp only [insert?, InlineRangeSet.insert?, limit]
    simp only [iter] at ran
    simp [ran]
  | btree set =>
    right
    have ran := btree_insert_bounded bounded.bounded bounded.separated bounded.room forward
    have behind : FullBehind capacity stop set.inner.entries := behind
    rw [if_pos behind] at ran
    have sub : ((start, stop) :: set.inner.entries.tail).Sublist (merge start stop set.inner.entries) := by
      have overflows : merge start stop set.inner.entries = (start, stop) :: set.inner.entries := overflows
      rw [overflows]
      exact (List.tail_sublist _).cons_cons _
    have listed : (RangeSet.btree (set.insert start stop)).fixup.iter = (start, stop) :: set.inner.entries.tail := by
      rw [iter_fixup]
      · exact ran
      · simp only [iter, ran]
        exact separated_sublist sub (merge_separated forward bounded.separated)
    refine ⟨_, rfl, bounded.of_union some_ (listed ▸ sub) ?_ ?_, listed⟩
    · have full := behind.1
      rw [listed, List.length_cons, List.length_tail]
      omega
    · rw [capacity_fixup]
      exact bounded.bounded

/-- Where the new range took the place of another one, the set is not what it should be. -/
theorem not_inserts_behind {after : RangeSet} (bounded : Bounded capacity set) (holds : 1 ≤ capacity)
    (some_ : start < stop) (behind : FullBehind capacity stop set.iter)
    (listed : after.iter = (start, stop) :: set.iter.tail) : ¬ Inserts capacity start stop set after := by
  rintro ⟨-, union, separated, positive, covers, content⟩
  have full := behind.1
  -- The smallest range of the set, behind the new one.
  cases held : set.iter with
  | nil =>
    rw [held] at full
    simp only [List.length_nil] at full
    omega
  | cons head rest =>
    have first := behind.2 head (by rw [held]; rfl)
    have some' := bounded.positive head (by rw [held]; exact List.mem_cons_self)
    have above := (separated_cons.mp (held ▸ bounded.separated)).2.1
    rw [held, List.tail_cons] at listed
    -- Its first number is in the union, but not in the set any more.
    have lost : ¬ Covers after.iter head.1 := by
      rw [listed, covers_cons]
      rintro (inside | ⟨range, member, inside⟩)
      · simp only at inside
        omega
      · have := above range member
        omega
    have inUnion : Covers union head.1 := by
      rw [covers]
      left
      rw [Contains, held, covers_cons]
      exact .inl ⟨Nat.le_refl _, some'⟩
    split at content
    · -- So the smallest range of the union was given up, but the new one is the smallest.
      cases union with
      | nil => exact absurd inUnion (by simp)
      | cons least others =>
        obtain ⟨-, gap, -⟩ := separated_cons.mp separated
        rw [List.tail_cons] at content
        have kept : Covers others start := by
          rw [← content, listed, covers_cons]
          exact .inl ⟨Nat.le_refl _, some_⟩
        obtain ⟨range, member, inside⟩ := kept
        have beyond := gap range member
        have filled := positive least List.mem_cons_self
        have before : Covers (least :: others) least.1 := by
          rw [covers_cons]
          exact .inl ⟨Nat.le_refl _, filled⟩
        rw [covers, Contains, held, covers_cons] at before
        rcases before with (inside' | ⟨other, member', inside'⟩) | inside'
        · omega
        · have := above other member'
          omega
        · omega
    · rw [content] at lost
      exact lost inUnion

end Capacities

section Runs

/-- A range that is not empty. -/
abbrev SomeRange := { range : Nat × Nat // range.1 < range.2 }

/-- One insertion, after which there is no set once the program has panicked. -/
def insertNext (state : Option RangeSet) (range : SomeRange) : Option RangeSet :=
  state.bind fun set => set.insert? range.1.1 range.1.2

/-- An insertion does not panic, and does what it should. -/
def InsertsWell (capacity : Nat) (state : Option RangeSet) (range : SomeRange) : Prop :=
  ∃ before after, state = some before ∧ before.insert? range.1.1 range.1.2 = some after ∧
    Inserts capacity range.1.1 range.1.2 before after

/-- The set is not full, or the new range does not lie strictly before all of its ranges. -/
def HasPlace (capacity : Nat) (state : Option RangeSet) (range : SomeRange) : Prop :=
  ∃ set, state = some set ∧ ¬ FullBehind capacity range.1.2 set.iter

/-- The insertions of a run do what they should just when none puts a new smallest range into a full set. -/
theorem insertsWell_iff_hasPlace {capacity : Nat} (holds : 1 ≤ capacity) (ranges : List SomeRange) :
    Runs.Along insertNext (InsertsWell capacity) (some (RangeSet.new capacity)) ranges ↔
      Runs.Along insertNext (HasPlace capacity) (some (RangeSet.new capacity)) ranges := by
  let inv : Option RangeSet → Prop := fun state => ∀ set, state = some set → Bounded capacity set
  have step : ∀ state range, inv state → inv (insertNext state range) := by
    intro state range kept after reached
    obtain ⟨set, same, inserted⟩ := Option.bind_eq_some_iff.mp reached
    have bounded := kept set same
    by_cases behind : FullBehind capacity range.1.2 set.iter
    · rcases bounded.insert_behind holds range.2 behind with panics | ⟨result, ran, good, -⟩
      · rw [panics] at inserted
        nomatch inserted
      · rw [ran] at inserted
        exact Option.some.inj inserted ▸ good
    · obtain ⟨result, ran, good, -⟩ := bounded.insert range.2 behind
      rw [ran] at inserted
      exact Option.some.inj inserted ▸ good
  have same : ∀ state range, inv state → (InsertsWell capacity state range ↔ HasPlace capacity state range) := by
    intro state range kept
    constructor
    · rintro ⟨before, after, here, inserted, inserts⟩
      refine ⟨before, here, fun behind => ?_⟩
      have bounded := kept before here
      rcases bounded.insert_behind holds range.2 behind with panics | ⟨result, ran, -, listed⟩
      · rw [panics] at inserted
        nomatch inserted
      · rw [ran] at inserted
        cases inserted
        exact not_inserts_behind bounded holds range.2 behind listed inserts
    · rintro ⟨set, here, place⟩
      obtain ⟨after, ran, -, inserts⟩ := (kept set here).insert range.2 place
      exact ⟨set, after, here, ran, inserts⟩
  have start : inv (some (RangeSet.new capacity)) := by
    intro set here
    cases here
    exact bounded_new capacity
  exact Runs.along_congr step same ranges start

/-- A run that fills a set of two ranges and then gives up the smallest one. -/
theorem insertsWell_iff_hasPlace_two :
    Runs.Along insertNext (InsertsWell 2) (some (RangeSet.new 2)) [⟨(5, 6), by decide⟩, ⟨(1, 2), by decide⟩,
      ⟨(8, 9), by decide⟩] := by
  apply (insertsWell_iff_hasPlace (by decide) _).mpr
  exact ⟨⟨_, rfl, by decide⟩, ⟨_, rfl, by decide⟩, ⟨_, rfl, by decide⟩, trivial⟩

/-- A set of one range does not take a smaller one. -/
theorem smaller_range_panics :
    ¬ ∀ (capacity : Nat) (ranges : List SomeRange), 1 ≤ capacity →
      Runs.Along insertNext (InsertsWell capacity) (some (RangeSet.new capacity)) ranges := by
  intro always
  obtain ⟨-, ⟨before, after, here, inserted, -⟩, -⟩ :=
    always 1 [⟨(5, 6), by decide⟩, ⟨(1, 2), by decide⟩] (by decide)
  cases here
  nomatch inserted

end Runs

end RangeSet

end Flexicast
