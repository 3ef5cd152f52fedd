import Flexicast.Ranges.RangeSet
import Mathlib.Algebra.Ring.Nat

/-! Both representations of a range set insert by merging into one separated interval list. -/

namespace Flexicast

open Intervals

variable {start stop : Nat} {front back : List (Nat × Nat)} {inner : OrdMap Nat}

variable {rest list : List (Nat × Nat)} {item first : Nat}

theorem absorb_eq_merge (forward : ∀ range ∈ rest, range.1 ≤ range.2) (behind : ∀ range ∈ rest, start ≤ range.1) :
    InlineRangeSet.absorb start stop rest = merge start stop rest := by
  -- Only the end of the grown range changes from turn to turn.
  induction rest generalizing stop with
  | nil => rfl
  | cons head rest ih =>
    rcases head with ⟨nextStart, nextStop⟩
    have low : start ≤ nextStart := behind (nextStart, nextStop) List.mem_cons_self
    have ordered : nextStart ≤ nextStop := forward (nextStart, nextStop) List.mem_cons_self
    simp only [InlineRangeSet.absorb, merge]
    rw [if_neg (by omega : ¬ nextStop < start)]
    split
    · rfl
    · -- The next range is absorbed by both loops, and its start changes nothing.
      rw [ih (fun range member => forward range (List.mem_cons_of_mem _ member))
        (fun range member => behind range (List.mem_cons_of_mem _ member)),
        Nat.min_eq_left low, Nat.max_comm]

/-- Without a capacity limit the inline search loop merges the new range into the list. -/
theorem insertLoop_eq_merge (start stop : Nat) (separated : Separated list) (passed : List (Nat × Nat)) :
    InlineRangeSet.insertLoop none start stop passed list =
      some (passed ++ merge start stop list) := by
  -- The ranges already passed pile up in front and are never looked at again.
  induction list generalizing passed with
  | nil => simp [InlineRangeSet.insertLoop, merge]
  | cons head rest ih =>
    rcases head with ⟨held, heldStop⟩
    obtain ⟨ordered, gap, tail⟩ := separated_cons.mp separated
    simp only [InlineRangeSet.insertLoop, merge]
    split
    · -- The head lies strictly before the new range.
      rw [ih tail]
      simp
    · split
      · -- The new range lies strictly before the head.
        simp
      · split
        · -- The new range ends later, so it may reach the ranges that follow.
          rename_i longer
          rw [absorb_eq_merge tail.forward, Nat.max_eq_left (by omega)]
          intro range member
          have := gap range member
          omega
        · -- The head already ends later, and the next range is out of reach.
          rename_i shorter
          rw [Nat.max_eq_right (by omega), merge_before (by omega) tail gap]

theorem merge_append (before : ∀ range ∈ front, range.2 < start) (back : List (Nat × Nat)) :
    merge start stop (front ++ back) = front ++ merge start stop back := by
  induction front with
  | nil => rfl
  | cons head rest ih =>
    simp only [List.cons_append, merge]
    rw [if_pos (before head List.mem_cons_self),
      ih fun range member => before range (List.mem_cons_of_mem _ member)]

theorem nextTo_append (listed : inner.entries = front ++ back) (below : ∀ range ∈ front, range.1 < item)
    (above : ∀ range ∈ back, item ≤ range.1) : BTreeRangeSet.nextTo inner item = back.head? := by
  -- The search rejects the whole front and accepts whatever comes first behind it.
  have skipped : front.find? (fun range => decide (item ≤ range.1)) = none := by
    refine List.find?_eq_none.mpr fun range member => ?_
    have := below range member
    simp only [decide_eq_true_eq]
    omega
  simp only [BTreeRangeSet.nextTo, listed, List.find?_append, skipped, Option.none_or]
  cases back with
  | nil => rfl
  | cons head rest => simp [above head List.mem_cons_self]

/--
The tree's absorbing loop merges the ranges that follow.

The loop compares with the range as it was given, so the invariant ties the grown end to it:
either nothing has extended the range yet, or whatever did lies strictly before the rest.
-/
theorem absorbLoop_eq_merge (item : Nat × Nat) (last fuel : Nat) (listed : inner.entries = front ++ back)
    (below : ∀ range ∈ front, range.1 < first) (separated : Separated back)
    (above : ∀ range ∈ back, first ≤ range.1 ∧ item.1 < range.1) (reached : item.2 ≤ last)
    (grown : last = item.2 ∨ ∀ range ∈ back, last < range.1) (enough : back.length ≤ fuel) :
    ∃ last' inner' back', BTreeRangeSet.absorbLoop item fuel first last inner = (first, last', inner') ∧
      inner'.entries = front ++ back' ∧ merge first last back = (first, last') :: back' := by
  induction back generalizing fuel last inner with
  | nil =>
    refine ⟨last, inner, [], ?_, listed, rfl⟩
    -- With nothing behind the new range the loop stops at once.
    have stopped := nextTo_append listed below (fun range member => (above range member).1)
    cases fuel with
    | zero => rfl
    | succ fuel => simp [BTreeRangeSet.absorbLoop, stopped]
  | cons head rest ih =>
    rcases head with ⟨start, stop⟩
    obtain ⟨headForward, gap, tail⟩ := separated_cons.mp separated
    obtain ⟨low, lowItem⟩ := above (start, stop) List.mem_cons_self
    have restAbove : ∀ range ∈ rest, first ≤ range.1 ∧ item.1 < range.1 :=
      fun range member => above range (List.mem_cons_of_mem _ member)
    have found := nextTo_append listed below (fun range member => (above range member).1)
    have erased := OrdMap.entries_erase listed
    obtain ⟨fuel, rfl⟩ : ∃ fewer, fuel = fewer + 1 := ⟨fuel - 1, by
      simp only [List.length_cons] at enough
      omega⟩
    have enough' : rest.length ≤ fuel := by simpa using enough
    have headForward : start ≤ stop := headForward
    have low : first ≤ start := low
    have lowItem : item.1 < start := lowItem
    simp only [BTreeRangeSet.absorbLoop, found, List.head?_cons, merge]
    rw [if_neg (by omega : ¬ stop < first)]
    by_cases past : last < start
    · -- The next range is out of reach, and the comparison with the given range agrees.
      have apart : rangeOverlaps (start, stop) item = false := by
        simp only [rangeOverlaps, Bool.or_eq_false_iff, Bool.and_eq_false_iff, decide_eq_false_iff_not]
        omega
      have outside : ¬ (item.1 ≤ start ∧ start < item.2) := by omega
      refine ⟨last, inner, (start, stop) :: rest, ?_, listed, by rw [if_pos past]⟩
      simp [apart, outside]
    · rw [if_neg past]
      -- Something already extended the range only if nothing is left within reach.
      have same : last = item.2 := by
        rcases grown with same | beyond
        · exact same
        · exact absurd (beyond (start, stop) List.mem_cons_self) past
      by_cases inside : stop < item.2
      · -- The next range lies strictly inside and is dropped.
        obtain ⟨last', inner', back', ran, kept, merged⟩ :=
          ih last fuel erased tail restAbove reached (Or.inl same) enough'
        refine ⟨last', inner', back', ?_, kept, ?_⟩
        · have contained : item.1 ≤ start ∧ start < item.2 ∧ item.1 ≤ stop ∧ stop < item.2 := by omega
          simpa [contained] using ran
        · rw [Nat.min_eq_left low, Nat.max_eq_left (by omega)]
          exact merged
      · -- The next range reaches at least as far, so its end becomes the new one.
        have overlap : rangeOverlaps (start, stop) item = true := by
          simp only [rangeOverlaps, Bool.or_eq_true, Bool.and_eq_true, decide_eq_true_eq]
          omega
        have farther : max last stop = stop := by omega
        obtain ⟨last', inner', back', ran, kept, merged⟩ :=
          ih stop fuel erased tail restAbove (by omega)
            (Or.inr fun range member => gap range member) enough'
        refine ⟨last', inner', back', ?_, kept, ?_⟩
        · simpa [overlap, inside, Nat.min_eq_left low, farther] using ran
        · rw [Nat.min_eq_left low, farther]
          exact merged

theorem split_at (list : List (Nat × Nat)) (value : Nat) :
    ∃ front back, list = front ++ back ∧ (∀ range ∈ front, range.2 < value) ∧
      ∀ range, back.head? = some range → value ≤ range.2 := by
  induction list with
  | nil => exact ⟨[], [], rfl, by simp, by simp⟩
  | cons head rest ih =>
    by_cases before : head.2 < value
    · obtain ⟨front, back, same, lower, upper⟩ := ih
      refine ⟨head :: front, back, by simp [same], ?_, upper⟩
      intro range member
      rcases List.mem_cons.mp member with isHead | member
      · subst isHead; exact before
      · exact lower range member
    · exact ⟨[], head :: rest, rfl, by simp, by simp; omega⟩

theorem prevTo_append (listed : inner.entries = front ++ back) (below : ∀ range ∈ front, range.1 ≤ item)
    (above : ∀ range ∈ back, item < range.1) : BTreeRangeSet.prevTo inner item = front.getLast? := by
  have kept : front.filter (fun range => decide (range.1 ≤ item)) = front :=
    List.filter_eq_self.mpr fun range member => by simpa using below range member
  have dropped : back.filter (fun range => decide (range.1 ≤ item)) = [] :=
    List.filter_eq_nil_iff.mpr fun range member => by simpa using above range member
  simp [BTreeRangeSet.prevTo, listed, kept, dropped]

theorem mergePrevious_apart {item : Nat × Nat} (listed : inner.entries = front ++ back)
    (before : ∀ range ∈ front, range.2 < item.1) (ordered : ∀ range ∈ front, range.1 ≤ range.2)
    (forward : item.1 ≤ item.2) (above : ∀ range ∈ back, item.1 < range.1) :
    BTreeRangeSet.mergePrevious item inner = (item.1, item.2, inner) := by
  have below : ∀ range ∈ front, range.1 ≤ item.1 := by
    intro range member
    have := before range member
    have := ordered range member
    omega
  simp only [BTreeRangeSet.mergePrevious, prevTo_append listed below above]
  cases previous : front.getLast? with
  | none => rfl
  | some range =>
    -- Both ends of the new range lie behind the preceding one.
    have ended := before range (List.mem_of_getLast? previous)
    have apart : rangeOverlaps range item = false := by
      simp only [rangeOverlaps, Bool.or_eq_false_iff, Bool.and_eq_false_iff, decide_eq_false_iff_not]
      omega
    simp [apart]

theorem mergePrevious_touching {range item : Nat × Nat} (listed : inner.entries = front ++ range :: back)
    (below : ∀ earlier ∈ front, earlier.1 ≤ item.1) (starts : range.1 ≤ item.1) (reaches : item.1 ≤ range.2)
    (above : ∀ later ∈ back, item.1 < later.1) :
    BTreeRangeSet.mergePrevious item inner =
      (range.1, max item.2 range.2, inner.erase range.1) := by
  have regrouped : inner.entries = (front ++ [range]) ++ back := by simp [listed]
  have belowAll : ∀ earlier ∈ front ++ [range], earlier.1 ≤ item.1 := by
    intro earlier member
    rcases List.mem_append.mp member with member | member
    · exact below earlier member
    · rw [List.mem_singleton.mp member]; exact starts
  have overlap : rangeOverlaps range item = true := by
    simp only [rangeOverlaps, Bool.or_eq_true, Bool.and_eq_true, decide_eq_true_eq]
    omega
  simp [BTreeRangeSet.mergePrevious, prevTo_append regrouped belowAll above, overlap,
    Nat.min_eq_right starts]

/-- The ranges of a tree around a new one, once those that it reaches were taken out. -/
structure BTreeRangeSet.Grown (list : List (Nat × Nat)) (start stop : Nat)
    (grown : Nat × Nat × OrdMap Nat) (front back rest : List (Nat × Nat)) : Prop where
  split : list = front ++ back
  before : ∀ range ∈ front, range.2 < start
  reaches : ∀ range, back.head? = some range → start ≤ range.2
  kept : grown.2.2.entries = front ++ rest
  merged : merge start stop back = (grown.1, grown.2.1) :: rest
  below : ∀ range ∈ front, range.1 < grown.1
  above : ∀ range ∈ rest, grown.1 < range.1

theorem above_of_merged {lo hi last : Nat} (forward : lo ≤ hi) (separated : Separated back)
    (merged : merge lo hi back = (first, last) :: rest) : ∀ range ∈ rest, first < range.1 := by
  have result := merge_separated forward separated
  rw [merged] at result
  obtain ⟨grownForward, gap, -⟩ := separated_cons.mp result
  intro range member
  exact Nat.lt_of_le_of_lt grownForward (gap range member)

/-- The tree takes out the ranges that the new one reaches, and grows it to cover them. -/
theorem btree_grown {inner : OrdMap Nat} (separated : Separated inner.entries) {start stop : Nat}
    (forward : start ≤ stop) :
    let merged := BTreeRangeSet.mergePrevious (start, stop) inner
    ∃ front back rest, BTreeRangeSet.Grown inner.entries start stop
      (BTreeRangeSet.absorbLoop (start, stop) merged.2.2.entries.length merged.1 merged.2.1 merged.2.2)
      front back rest := by
  intro merged
  -- The ranges split into those strictly before the new one and those from there on.
  obtain ⟨front, back, listed, before, reaches⟩ := split_at inner.entries start
  have apart := separated
  rw [listed] at apart
  have ordered : ∀ range ∈ front, range.1 ≤ range.2 := fun range member =>
    apart.forward range (List.mem_append_left _ member)
  obtain ⟨-, backApart, between⟩ := List.pairwise_append.mp apart.apart
  have backSeparated : Separated back :=
    ⟨fun range member => apart.forward range (List.mem_append_right _ member), backApart⟩
  have below : ∀ range ∈ front, range.1 < start := fun range member =>
    Nat.lt_of_le_of_lt (ordered range member) (before range member)
  refine ⟨front, back, ?_⟩
  cases back with
  | nil =>
    -- Every range lies strictly before the new one.
    have whole : merged = (start, stop, inner) := mergePrevious_apart listed before ordered forward (by simp)
    obtain ⟨last', inner', rest, ran, kept, grown⟩ :=
      absorbLoop_eq_merge (start, stop) stop inner.entries.length listed below separated_nil (by simp)
        (Nat.le_refl _) (Or.inl rfl) (by simp)
    rw [whole, ran]
    exact ⟨rest, listed, before, reaches, kept, grown, below, above_of_merged forward separated_nil grown⟩
  | cons head later =>
    obtain ⟨headForward, gap, tail⟩ := separated_cons.mp backSeparated
    have reached : start ≤ head.2 := reaches head rfl
    have behind : ∀ range ∈ later, start < range.1 := fun range member =>
      Nat.lt_of_le_of_lt reached (gap range member)
    by_cases starts : head.1 ≤ start
    · -- The head is the preceding range, and it reaches the new one.
      have whole : merged = (head.1, max stop head.2, inner.erase head.1) :=
        mergePrevious_touching listed (fun range member => Nat.le_of_lt (below range member)) starts reached behind
      have low : ∀ range ∈ front, range.1 < head.1 := fun range member =>
        Nat.lt_of_le_of_lt (ordered range member) (between range member head List.mem_cons_self)
      have above : ∀ range ∈ later, head.1 ≤ range.1 ∧ start < range.1 := fun range member =>
        ⟨Nat.le_trans starts (Nat.le_of_lt (behind range member)), behind range member⟩
      have grown : max stop head.2 = stop ∨ ∀ range ∈ later, max stop head.2 < range.1 := by
        by_cases inside : head.2 ≤ stop
        · left; omega
        · right
          intro range member
          have := gap range member
          omega
      have erased := OrdMap.entries_erase listed
      obtain ⟨last', inner', rest, ran, kept, swept⟩ :=
        absorbLoop_eq_merge (start, stop) (max stop head.2) (inner.erase head.1).entries.length erased low tail
          above (by simp only; omega) grown (by simp [erased])
      have same : merge start stop (head :: later) = merge head.1 (max stop head.2) later := by
        simp only [merge]
        rw [if_neg (by omega : ¬ head.2 < start), if_neg (by omega : ¬ stop < head.1), Nat.min_eq_right starts]
      rw [whole, ran]
      exact ⟨rest, listed, before, reaches, kept, same.trans swept, low,
        above_of_merged (by omega : head.1 ≤ max stop head.2) tail swept⟩
    · -- The head starts behind the new range, so no preceding range reaches it.
      have above : ∀ range ∈ head :: later, start < range.1 := by
        intro range member
        rcases List.mem_cons.mp member with same | member
        · subst same; omega
        · exact behind range member
      have whole : merged = (start, stop, inner) := mergePrevious_apart listed before ordered forward above
      obtain ⟨last', inner', rest, ran, kept, grown⟩ :=
        absorbLoop_eq_merge (start, stop) stop inner.entries.length listed below backSeparated
          (fun range member => ⟨Nat.le_of_lt (above range member), above range member⟩)
          (Nat.le_refl _) (Or.inl rfl) (by simp [listed])
      rw [whole, ran]
      exact ⟨rest, listed, before, reaches, kept, grown, below, above_of_merged forward backSeparated grown⟩

theorem btree_insert_eq_merge {set : BTreeRangeSet} (unbounded : set.capacity = none)
    (separated : Separated set.inner.entries) (forward : start ≤ stop) :
    (set.insert start stop).inner.entries = merge start stop set.inner.entries := by
  obtain ⟨front, back, rest, grown⟩ := btree_grown separated forward
  rw [grown.split, merge_append grown.before, grown.merged]
  simp only [BTreeRangeSet.insert, unbounded, BTreeRangeSet.makeRoom, OrdMap.insert]
  -- The new key stands between the front and the rest.
  simp only [grown.kept]
  exact OrdMap.store_between front rest _ _ grown.below grown.above

theorem foldl_insert_entries :
    ∀ map : OrdMap Nat, (map.entries ++ list).Pairwise (fun left right => left.1 < right.1) →
      (list.foldl (fun map range => map.insert range.1 range.2) map).entries = map.entries ++ list := by
  induction list with
  | nil => simp
  | cons head rest ih =>
    intro map sorted
    -- The head is larger than every key so far, so it is stored last.
    have last : (map.insert head.1 head.2).entries = map.entries ++ [head] := by
      have stored := OrdMap.store_between map.entries [] head.1 head.2
        (fun entry member =>
          (List.pairwise_append.mp sorted).2.2 entry member head List.mem_cons_self) (by simp)
      simpa [OrdMap.insert] using stored
    simp only [List.foldl_cons]
    rw [ih (map.insert head.1 head.2) (by simpa [last] using sorted), last]
    simp

namespace RangeSet

/-- A set that holds its ranges separated and never reaches a capacity limit. -/
structure Wf (set : RangeSet) : Prop where
  /-- Ranges are listed in increasing order with gaps between them. -/
  separated : Separated set.iter
  /-- The set was made by `RangeSet::default()`. -/
  unbounded : set.capacity = none

/-- The values a range set holds. -/
def Contains (set : RangeSet) (x : Nat) : Prop := Covers set.iter x

instance (set : RangeSet) (x : Nat) : Decidable (set.Contains x) :=
  inferInstanceAs (Decidable (∃ range ∈ set.iter, range.1 ≤ x ∧ x < range.2))

variable {set : RangeSet} {start stop : Nat}

/-- Changing the representation keeps the ranges. -/
theorem iter_fixup (separated : Separated set.iter) : set.fixup.iter = set.iter := by
  cases set with
  | inline set =>
    simp only [fixup]
    split
    · -- Separated ranges have increasing starts, so the tree lists them as they were.
      have starts : set.inner.Pairwise (fun left right => left.1 < right.1) := by
        refine List.Pairwise.imp_of_mem ?_ separated.apart
        intro left right member _ gap
        exact Nat.lt_of_le_of_lt (separated.forward left member) gap
      simpa [iter, OrdMap.empty] using foldl_insert_entries OrdMap.empty
        (by simpa [OrdMap.empty] using starts)
    · rfl
  | btree set =>
    simp only [fixup]
    split <;> rfl

@[simp] theorem capacity_fixup (set : RangeSet) : set.fixup.capacity = set.capacity := by
  cases set <;> simp only [fixup] <;> split <;> rfl

theorem wf_default : Wf RangeSet.default := ⟨separated_nil, rfl⟩

@[simp] theorem contains_default (x : Nat) : RangeSet.default.Contains x ↔ False := covers_nil x

/-- Inserting into a well-formed set never panics and merges the new range. -/
theorem insert?_eq (wf : set.Wf) (forward : start ≤ stop) :
    ∃ result, set.insert? start stop = some result ∧
      result.iter = merge start stop set.iter ∧ result.capacity = none := by
  have merged := merge_separated forward wf.separated
  cases set with
  | inline set =>
    have unbounded : set.capacity = none := wf.unbounded
    have ran := insertLoop_eq_merge start stop wf.separated []
    refine ⟨(RangeSet.inline { set with inner := merge start stop set.inner }).fixup, ?_, ?_, ?_⟩
    · simp only [insert?, InlineRangeSet.insert?, unbounded]
      simp only [iter] at ran
      simp [ran]
    · exact iter_fixup merged
    · rw [capacity_fixup]
      exact unbounded
  | btree set =>
    have ran := btree_insert_eq_merge wf.unbounded wf.separated forward
    refine ⟨(RangeSet.btree (set.insert start stop)).fixup, rfl, ?_, ?_⟩
    · rw [iter_fixup (by simpa [iter, ran] using merged)]
      exact ran
    · rw [capacity_fixup]
      exact wf.unbounded

theorem iter_insert (wf : set.Wf) (forward : start ≤ stop) :
    (set.insert start stop).iter = merge start stop set.iter := by
  obtain ⟨result, ran, listed, -⟩ := insert?_eq wf forward
  simp [insert, ran, listed]

/-- Insertion keeps a set well formed. -/
theorem Wf.insert (wf : set.Wf) (forward : start ≤ stop) : (set.insert start stop).Wf := by
  refine ⟨by rw [iter_insert wf forward]; exact merge_separated forward wf.separated, ?_⟩
  obtain ⟨result, ran, -, unbounded⟩ := insert?_eq wf forward
  simp [RangeSet.insert, ran, unbounded]

theorem contains_insert (wf : set.Wf) (forward : start ≤ stop) (x : Nat) :
    (set.insert start stop).Contains x ↔ (start ≤ x ∧ x < stop) ∨ set.Contains x := by
  unfold Contains
  rw [iter_insert wf forward]
  exact covers_merge start stop set.iter x

theorem mem_flatten {x : Nat} : x ∈ set.flatten ↔ set.Contains x := by
  simp only [flatten, Contains, Covers, List.mem_flatMap, List.mem_range'_1]
  constructor
  · intro listed
    obtain ⟨range, member, low, high⟩ := listed
    exact ⟨range, member, low, by omega⟩
  · intro covered
    obtain ⟨range, member, low, high⟩ := covered
    exact ⟨range, member, low, by omega⟩

theorem flatten_increasing {list : List (Nat × Nat)} (separated : Separated list) :
    (list.flatMap fun range => List.range' range.1 (range.2 - range.1)).Pairwise (· < ·) := by
  induction list with
  | nil => exact List.Pairwise.nil
  | cons range rest ih =>
    obtain ⟨forward, gap, tail⟩ := separated_cons.mp separated
    rw [List.flatMap_cons]
    refine List.pairwise_append.mpr ⟨List.pairwise_lt_range', ih tail, ?_⟩
    -- A value of the first range stands below every later range.
    intro x inside y later
    obtain ⟨other, member, held⟩ := List.mem_flatMap.mp later
    have := gap other member
    simp only [List.mem_range'_1] at inside held
    omega

theorem flatten_nodup (separated : Separated set.iter) : set.flatten.Nodup :=
  (flatten_increasing separated).imp Nat.ne_of_lt

/-- Inserting ranges one after the other adds all their values. -/
theorem foldl_insert {list : List (Nat × Nat)} :
    ∀ {set : RangeSet}, set.Wf → (∀ range ∈ list, range.1 ≤ range.2) →
      (list.foldl (fun set range => set.insert range.1 range.2) set).Wf ∧
        ∀ x, (list.foldl (fun set range => set.insert range.1 range.2) set).Contains x ↔
          set.Contains x ∨ Covers list x := by
  -- Induction on the ranges, for whatever the set holds before them.
  induction list with
  | nil => exact fun wf _ => ⟨wf, by simp⟩
  | cons range rest ih =>
    intro set wf forward
    obtain ⟨first, others⟩ := List.forall_mem_cons.mp forward
    obtain ⟨wf', contains⟩ := ih (wf.insert first) others
    refine ⟨wf', fun x => ?_⟩
    rw [List.foldl_cons, contains, contains_insert wf first, covers_cons, or_assoc]
    exact or_left_comm

/-- Pushing numbers one after the other adds them all. -/
theorem foldl_pushItem {nums : List Nat} :
    ∀ {set : RangeSet}, set.Wf →
      (nums.foldl pushItem set).Wf ∧ ∀ x, (nums.foldl pushItem set).Contains x ↔ set.Contains x ∨ x ∈ nums := by
  -- A number is a range of length one.
  induction nums with
  | nil => exact fun wf => ⟨wf, by simp⟩
  | cons num rest ih =>
    intro set wf
    obtain ⟨wf', contains⟩ := ih (wf.insert (Nat.le_succ num))
    refine ⟨wf', fun x => ?_⟩
    have alone : num ≤ x ∧ x < num + 1 ↔ x = num := by omega
    rw [List.foldl_cons, pushItem, contains, contains_insert wf (Nat.le_succ num), alone, List.mem_cons, or_assoc]
    exact or_left_comm

end RangeSet

end Flexicast
