import Flexicast.Lib.OrdMap
import Flexicast.Lib.Intervals
import Flexicast.Lib.Words

/-! The `RangeSet` of `ranges.rs`, with its inline and its tree representation. -/

namespace Flexicast

/-- Ranges kept in a small vector of pairs. -/
structure InlineRangeSet where
  /-- The ranges, each a start and an exclusive end. -/
  inner : List (Nat × Nat)
  /-- How many ranges may be held; `none` is `usize::MAX`, more than there are disjoint ranges. -/
  capacity : Option Nat
  deriving DecidableEq

/-- Ranges kept in an ordered tree from start to exclusive end. -/
structure BTreeRangeSet where
  /-- The ranges, keyed by their start. -/
  inner : OrdMap Nat
  /-- How many ranges may be held, as for the inline form. -/
  capacity : Option Nat
  deriving DecidableEq

/-- A sorted collection of non overlapping ranges, in one of two representations. -/
inductive RangeSet where
  | inline (set : InlineRangeSet)
  | btree (set : BTreeRangeSet)
  deriving DecidableEq

/-- More ranges than this many never stay inline. -/
def maxInlineCapacity : Nat := 4

/-- No more ranges than this many never stay in a tree. -/
def minToInline : Nat := 2

/-- Whether two ranges share a value or touch. -/
def rangeOverlaps (range other : Nat × Nat) : Bool :=
  (range.1 ≤ other.1 && other.1 ≤ range.2) || (range.1 ≤ other.2 && other.2 ≤ range.2)

namespace InlineRangeSet

/-- The closing loop of `insert`: the grown range absorbs the ranges it now reaches. -/
def absorb (start stop : Nat) : List (Nat × Nat) → List (Nat × Nat)
  | [] => [(start, stop)]
  | (nextStart, nextStop) :: rest =>
    if stop < nextStart then (start, stop) :: (nextStart, nextStop) :: rest
    else absorb start (max nextStop stop) rest

/--
The search loop of `insert`, with the ranges already passed in front.

No result means that the position underflows, or that an empty vector has no first range to remove.
-/
def insertLoop (capacity : Option Nat) (start stop : Nat) (passed : List (Nat × Nat)) :
    List (Nat × Nat) → Option (List (Nat × Nat))
  | [] =>
    if capacity = some passed.length then
      match passed with
      | [] => none
      | _ :: kept => some (kept ++ [(start, stop)])
    else some (passed ++ [(start, stop)])
  | (held, heldStop) :: rest =>
    if heldStop < start then insertLoop capacity start stop (passed ++ [(held, heldStop)]) rest
    else if stop < held then
      if capacity = some (passed.length + (rest.length + 1)) then
        match passed with
        | [] => none
        | _ :: kept => some (kept ++ (start, stop) :: (held, heldStop) :: rest)
      else some (passed ++ (start, stop) :: (held, heldStop) :: rest)
    else if heldStop < stop then some (passed ++ absorb (min start held) stop rest)
    else some (passed ++ (min start held, heldStop) :: rest)

/-- Inserts a range, merging it with the ranges it overlaps or touches. -/
def insert? (set : InlineRangeSet) (start stop : Nat) : Option InlineRangeSet :=
  (insertLoop set.capacity start stop [] set.inner).map fun inner => { set with inner }

/-- Drops the values up to `largest` from the front of the ranges. -/
def removeLoop (largest : Nat) : List (Nat × Nat) → List (Nat × Nat)
  | [] => []
  | (start, stop) :: rest =>
    if stop ≤ largest then removeLoop largest rest
    else if max (largest + 1) start = stop then rest
    else (max (largest + 1) start, stop) :: rest

/-- Removes every value up to and including `largest`. -/
def removeUntil (set : InlineRangeSet) (largest : Nat) : InlineRangeSet :=
  { set with inner := removeLoop largest set.inner }

end InlineRangeSet

namespace BTreeRangeSet

/-- The last range starting at or before a value. -/
def prevTo (inner : OrdMap Nat) (item : Nat) : Option (Nat × Nat) :=
  (inner.entries.filter fun range => range.1 ≤ item).getLast?

/-- The first range starting at or after a value. -/
def nextTo (inner : OrdMap Nat) (item : Nat) : Option (Nat × Nat) :=
  inner.entries.find? fun range => item ≤ range.1

/-- The loop of `insert` over the ranges that follow, which removes one range at each turn. -/
def absorbLoop (item : Nat × Nat) : Nat → Nat → Nat → OrdMap Nat → Nat × Nat × OrdMap Nat
  | 0, start, stop, inner => (start, stop, inner)
  | fuel + 1, start, stop, inner =>
    match nextTo inner start with
    | none => (start, stop, inner)
    | some range =>
      -- An existing range strictly inside the new one is dropped.
      if (item.1 ≤ range.1 && range.1 < item.2) && (item.1 ≤ range.2 && range.2 < item.2) then
        absorbLoop item fuel start stop (inner.erase range.1)
      else if !rangeOverlaps range item then (start, stop, inner)
      else absorbLoop item fuel (min start range.1) (max stop range.2) (inner.erase range.1)

/-- The opening of `insert`: the preceding range is merged when it reaches the new one. -/
def mergePrevious (item : Nat × Nat) (inner : OrdMap Nat) : Nat × Nat × OrdMap Nat :=
  match prevTo inner item.1 with
  | some range =>
    if rangeOverlaps range item then
      (min item.1 range.1, max item.2 range.2, inner.erase range.1)
    else (item.1, item.2, inner)
  | none => (item.1, item.2, inner)

/-- A set at its capacity gives up its smallest range. -/
def makeRoom (capacity : Option Nat) (inner : OrdMap Nat) : OrdMap Nat :=
  match capacity with
  | some capacity => if capacity ≤ inner.entries.length then inner.popFirst else inner
  | none => inner

/-- Inserts a range, merging it with the ranges it overlaps or touches. -/
def insert (set : BTreeRangeSet) (start stop : Nat) : BTreeRangeSet :=
  let merged := mergePrevious (start, stop) set.inner
  let grown := absorbLoop (start, stop) merged.2.2.entries.length merged.1 merged.2.1 merged.2.2
  { set with inner := (makeRoom set.capacity grown.2.2).insert grown.1 grown.2.1 }

/-- Takes out a range that starts at or below `largest`, and puts back what it holds above it. -/
def removeRange (largest : Nat) (set : BTreeRangeSet) (range : Nat × Nat) : BTreeRangeSet :=
  let set := { set with inner := set.inner.erase range.1 }
  if largest + 1 < range.2 then set.insert (largest + 1) range.2 else set

/-- Removes the ranges that start at or below `largest`, keeping what they hold above it. -/
def removeUntil (set : BTreeRangeSet) (largest : Nat) : BTreeRangeSet :=
  (set.inner.entries.filter fun range => range.1 ≤ largest).foldl (removeRange largest) set

end BTreeRangeSet

namespace RangeSet

/-- A set that holds at most the given number of ranges. -/
def new (capacity : Nat) : RangeSet := .inline { inner := [], capacity := some capacity }

/-- `RangeSet::default()`, whose capacity is never reached. -/
def default : RangeSet := .inline { inner := [], capacity := none }

/-- The ranges in increasing order, as `iter` returns them. -/
def iter : RangeSet → List (Nat × Nat)
  | .inline set => set.inner
  | .btree set => set.inner.entries

/-- The number of ranges. -/
def len (set : RangeSet) : Nat := set.iter.length

/-- Moves between the two representations when the number of ranges asks for it. -/
def fixup : RangeSet → RangeSet
  | .inline set =>
    if set.inner.length = maxInlineCapacity then
      .btree { inner := set.inner.foldl (fun map range => map.insert range.1 range.2) OrdMap.empty
               capacity := set.capacity }
    else .inline set
  | .btree set =>
    if set.inner.entries.length ≤ minToInline then
      .inline { inner := set.inner.entries, capacity := set.capacity }
    else .btree set

/-- Inserts a range; no result means that the call panics. -/
def insert? (set : RangeSet) (start stop : Nat) : Option RangeSet :=
  match set with
  | .inline set => (set.insert? start stop).map fun set => (RangeSet.inline set).fixup
  | .btree set => some (RangeSet.btree (set.insert start stop)).fixup

/-- Inserts a range into a set for which the call does not panic. -/
def insert (set : RangeSet) (start stop : Nat) : RangeSet :=
  (set.insert? start stop).getD set

/-- Inserts a single value. -/
def pushItem (set : RangeSet) (item : Nat) : RangeSet := set.insert item (item + 1)

/-- Removes every value up to and including `largest`. -/
def removeUntil (set : RangeSet) (largest : Nat) : RangeSet :=
  match set with
  | .inline set => (RangeSet.inline (set.removeUntil largest)).fixup
  | .btree set => (RangeSet.btree (set.removeUntil largest)).fixup

/--
Removes every value up to and including `largest`; no result means that the call panics.

The tree computes the number behind `largest` for every range that it takes out,
which overflows for the largest number. The inline form compares before it computes.
-/
def removeUntil? (set : RangeSet) (largest : Nat) : Option RangeSet :=
  match set with
  | .inline _ => some (set.removeUntil largest)
  | .btree tree =>
    if maxU64 ≤ largest && tree.inner.entries.any (fun range => range.1 ≤ largest) then none
    else some (set.removeUntil largest)

/-- Every value of the ranges in increasing order. -/
def flatten (set : RangeSet) : List Nat :=
  set.iter.flatMap fun range => List.range' range.1 (range.2 - range.1)

/-- The largest value. -/
def last (set : RangeSet) : Option Nat := set.iter.getLast?.map fun range => range.2 - 1

/-- Comparison with a plain range: the set holds that range and nothing else. -/
def eqRange (set : RangeSet) (start stop : Nat) : Bool := set.iter == [(start, stop)]

/-- The capacity chosen when the set was made. -/
def capacity : RangeSet → Option Nat
  | .inline set => set.capacity
  | .btree set => set.capacity

end RangeSet

end Flexicast
