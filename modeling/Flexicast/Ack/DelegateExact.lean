import Flexicast.Ack.DelegateLaws

/-! The condition under which `delegate` counts its range once is needed as well. -/

namespace Flexicast

namespace McAck

open Segments

section Overlap

variable {newOff newLen offset len nb : Nat} {stream : McStream}

theorem find?_left {probe : Nat} (apart : probe ≠ max offset newOff) :
    OrdMap.find?
        (if offset < newOff then (stream.erase offset).insert offset (newOff - offset, nb)
        else if newOff < offset then (stream.erase offset).insert newOff (offset - newOff, nb)
        else stream.erase offset) probe =
      if probe = min offset newOff then some (max offset newOff - min offset newOff, nb)
      else stream.find? probe := by
  -- The segment that is erased comes back as the left part, or its offset is that of the overlap.
  rcases Nat.lt_trichotomy offset newOff with left | same | right
  · rw [if_pos left, OrdMap.find?_insert, OrdMap.find?_erase, Nat.min_eq_left (by omega), Nat.max_eq_right (by omega)]
    split
    · rfl
    · rfl
  · subst same
    rw [if_neg (Nat.lt_irrefl _), if_neg (Nat.lt_irrefl _), OrdMap.find?_erase, if_neg (by omega), if_neg (by omega)]
  · rw [if_neg (by omega), if_pos right, OrdMap.find?_insert, OrdMap.find?_erase, Nat.min_eq_right (by omega),
      Nat.max_eq_left (by omega), if_neg (show ¬ probe = offset by omega)]

/-- What is listed after a segment was cut up: the overlap, the parts beside it, and the other segments. -/
theorem find?_delegateOverlap (probe : Nat) :
    (delegateOverlap newOff newLen offset len nb stream).find? probe =
      if probe = max offset newOff then
        some (min (offset + len) (newOff + newLen) - max offset newOff, nb + 1)
      else if probe = newOff + newLen ∧ newOff + newLen < offset + len then
        some (offset + len - (newOff + newLen), nb)
      else if probe = min offset newOff then some (max offset newOff - min offset newOff, nb)
      else stream.find? probe := by
  rw [delegateOverlap, OrdMap.find?_insert]
  split
  · rfl
  · rename_i apart
    by_cases longer : newOff + newLen < offset + len
    · rw [if_pos longer, OrdMap.find?_insert, find?_left apart]
      simp only [longer, and_true]
    · rw [if_neg longer, find?_left apart]
      simp only [longer, and_false, if_false]

end Overlap

/-- The last segment that starts before the end of a range, with where it ends and how often it is counted. -/
structure Last (stream : McStream) (stop key segEnd nb : Nat) : Prop where
  found : stream.find? key = some (segEnd - key, nb)
  some_ : key < segEnd
  /-- It starts before the end of the range. -/
  below : key < stop
  /-- The segments before it end where it starts, or earlier. -/
  before : ∀ {other len nb'}, stream.find? other = some (len, nb') → other < key → other + len ≤ key
  behind : ∀ {other entry}, stream.find? other = some entry → key < other → stop ≤ other

section Last

variable {stream : McStream} {key segEnd nb : Nat}

variable {stop offset len nb' : Nat}

/-- A last segment that reaches the end of the range holds its last offset alone. -/
theorem Last.weightAt_covered (last : Last stream stop key segEnd nb) (covers : stop ≤ segEnd) :
    weightAt stream (stop - 1) = nb := by
  have some_ := last.some_
  have below := last.below
  refine weightAt_of_only last.found (by omega) (by omega) fun {other len nb'} there low high => ?_
  rcases Nat.lt_trichotomy other key with earlier | same | later
  · have := last.before there earlier
    omega
  · exact same
  · have := last.behind there later
    omega

/-- A last segment that ends earlier leaves the last offset of the range out. -/
theorem Last.weightAt_short (last : Last stream stop key segEnd nb) (short : segEnd < stop) :
    weightAt stream (stop - 1) = 0 := by
  have below := last.below
  refine weightAt_eq_zero fun other len nb' there => ?_
  rcases Nat.lt_trichotomy other key with earlier | same | later
  · have := last.before there earlier
    omega
  · rw [same, last.found] at there
    simp only [Option.some.injEq, Prod.mk.injEq] at there
    have := last.some_
    omega
  · have := last.behind there later
    omega

variable {newOff newLen : Nat}

/-- Cutting up an earlier segment leaves the last one alone. -/
theorem Last.visit_before (last : Last stream (newOff + newLen) key segEnd nb)
    (listed : stream.find? offset = some (len, nb')) (earlier : offset < key) (meets : newOff < offset + len) :
    Last (delegateOverlap newOff newLen offset len nb' stream) (newOff + newLen) key segEnd nb := by
  have some_ := last.some_
  have below := last.below
  have ends := last.before listed earlier
  refine ⟨?_, some_, below, ?_, ?_⟩
  · rw [find?_delegateOverlap, if_neg (by omega), if_neg (by omega), if_neg (by omega)]
    exact last.found
  · -- The parts end where the cut segment did, or earlier.
    intro other len' nb'' found before
    rw [find?_delegateOverlap] at found
    split at found
    · simp only [Option.some.injEq, Prod.mk.injEq] at found
      omega
    · rw [if_neg (by omega)] at found
      split at found
      · simp only [Option.some.injEq, Prod.mk.injEq] at found
        omega
      · exact last.before found before
  · intro other entry found after
    rw [find?_delegateOverlap, if_neg (by omega), if_neg (by omega), if_neg (by omega)] at found
    exact last.behind found after

/-- Cutting up the last segment counts its overlap, which is the last segment then. -/
theorem Last.visit (last : Last stream (newOff + newLen) key segEnd nb) (some_ : 0 < newLen)
    (meets : newOff < segEnd) :
    Last (delegateOverlap newOff newLen key (segEnd - key) nb stream) (newOff + newLen) (max key newOff)
      (min segEnd (newOff + newLen)) (nb + 1) := by
  have room := last.some_
  have below := last.below
  have whole : key + (segEnd - key) = segEnd := by omega
  refine ⟨?_, by omega, by omega, ?_, ?_⟩
  · rw [find?_delegateOverlap, if_pos rfl, whole]
  · intro other len nb' found before
    rw [find?_delegateOverlap, whole, if_neg (by omega), if_neg (by omega)] at found
    split at found
    · simp only [Option.some.injEq, Prod.mk.injEq] at found
      omega
    · rcases Nat.lt_or_ge other key with earlier | later
      · have := last.before found earlier
        omega
      · have := last.behind found (by omega)
        omega
  · intro other entry found after
    rw [find?_delegateOverlap, whole, if_neg (by omega)] at found
    split at found
    · rename_i right
      omega
    · rw [if_neg (by omega)] at found
      exact last.behind found (by omega)

/-- A pass that meets the last segment counts it, and queues what lies behind it. -/
theorem Last.pass (some_ : 0 < newLen) (meets : newOff < segEnd) (offsets : List Nat) :
    ∀ {stream : McStream}, Last stream (newOff + newLen) key segEnd nb → offsets.Pairwise (· < ·) →
      key ∈ offsets → (∀ offset ∈ offsets, ∃ entry, stream.find? offset = some entry) →
      ∃ after pushed, delegateOffsets newOff newLen offsets stream = .next after pushed ∧
        Last after (newOff + newLen) (max key newOff) (min segEnd (newOff + newLen)) (nb + 1) ∧
        after.contains newOff = true ∧
        (∀ range ∈ pushed, Ends (newOff + newLen) range ∧ range.1 ≤ segEnd) ∧
        (segEnd < newOff + newLen → 1 ≤ pushed.length) := by
  -- Induction on the offsets still to be visited, among which the last segment is.
  induction offsets with
  | nil => exact fun _ _ among _ => absurd among List.not_mem_nil
  | cons offset rest ih =>
    intro stream last sorted among listed
    obtain ⟨above, tail⟩ := List.pairwise_cons.mp sorted
    have room := last.some_
    have below := last.below
    by_cases here : offset = key
    · -- The offsets that follow lie behind the range.
      subst here
      have stops : ∀ other ∈ rest, newOff + newLen ≤ other := by
        intro other member
        obtain ⟨entry, found⟩ := listed other (List.mem_cons_of_mem _ member)
        exact last.behind found (above other member)
      have whole : offset + (segEnd - offset) = segEnd := by omega
      simp only [delegateOffsets, last.found]
      rw [if_neg (by omega), if_neg (by omega), delegateOffsets_stop stops]
      refine ⟨_, _, rfl, last.visit some_ meets, delegateOverlap_start, ?_, ?_⟩
      · intro range member
        rw [List.append_nil] at member
        refine ⟨(remainder_ends (by omega) range member).1, ?_⟩
        rw [remainder_start member]
        omega
      · intro short
        rw [remainder, if_pos (by omega)]
        exact Nat.le_refl 1
    · have later : key ∈ rest := (List.mem_cons.mp among).resolve_left fun same => here same.symm
      have earlier := above key later
      obtain ⟨⟨len, nb'⟩, found⟩ := listed offset List.mem_cons_self
      have ends := last.before found earlier
      simp only [delegateOffsets, found]
      rw [if_neg (by omega)]
      by_cases apart : offset + len ≤ newOff
      · rw [if_pos apart]
        exact ih last tail later fun other member => listed other (List.mem_cons_of_mem _ member)
      · -- An earlier segment that meets the range is cut up, and queues a remainder of its own.
        rw [if_neg apart]
        obtain ⟨after, pushed, ran, final, contains, queued, more⟩ :=
          ih (last.visit_before found earlier (by omega)) tail later fun other member =>
            delegateOverlap_contains (listed other (List.mem_cons_of_mem _ member))
        refine ⟨after, _, by rw [ran]; rfl, final, contains, ?_, fun short => ?_⟩
        · intro range member
          rcases List.mem_append.mp member with own | other
          · refine ⟨(remainder_ends (by omega) range own).1, ?_⟩
            rw [remainder_start own]
            omega
          · exact queued range other
        · have := more short
          rw [List.length_append]
          omega

/-- A pass that meets an earlier segment as well queues a remainder for it. -/
theorem Last.pass_several {front back : List Nat} (some_ : 0 < newLen) (meets : newOff < segEnd)
    (last : Last stream (newOff + newLen) key segEnd nb) (visited : stream.keys = front ++ offset :: back)
    (ended : ∀ other ∈ front, ∃ len nb, stream.find? other = some (len, nb) ∧
      other + len ≤ newOff ∧ other < newOff + newLen) (found : stream.find? offset = some (len, nb'))
    (earlier : offset < key) (reaches : newOff < offset + len) :
    ∃ after pushed, delegateOffsets newOff newLen stream.keys stream = .next after pushed ∧
      Last after (newOff + newLen) (max key newOff) (min segEnd (newOff + newLen)) (nb + 1) ∧
      after.contains newOff = true ∧
      (∀ range ∈ pushed, Ends (newOff + newLen) range ∧ range.1 ≤ segEnd) ∧
      1 ≤ pushed.length ∧ (segEnd < newOff + newLen → 2 ≤ pushed.length) := by
  have below := last.below
  have ends := last.before found earlier
  have sorted := stream.keys_sorted
  have listed : ∀ other ∈ stream.keys, ∃ entry, stream.find? other = some entry :=
    fun other member => OrdMap.mem_keys_iff.mp member
  have among := OrdMap.mem_keys_iff.mpr ⟨_, last.found⟩
  rw [visited] at sorted listed among
  -- The last segment is behind the earlier one, so the rest of the pass meets it.
  obtain ⟨-, behind, before⟩ := List.pairwise_append.mp sorted
  have later : key ∈ back := by
    rcases List.mem_append.mp among with inFront | there
    · have := before key inFront offset List.mem_cons_self
      omega
    · exact (List.mem_cons.mp there).resolve_left (by omega)
  rw [visited, delegateOffsets_skip ended]
  simp only [delegateOffsets, found]
  rw [if_neg (by omega), if_neg (by omega)]
  obtain ⟨after, pushed, ran, final, contains, queued, more⟩ :=
    Last.pass some_ meets back (last.visit_before found earlier reaches) (List.pairwise_cons.mp behind).2 later
      fun other member => delegateOverlap_contains
        (listed other (List.mem_append_right _ (List.mem_cons_of_mem _ member)))
  have own : remainder newOff newLen offset len =
      [(offset + len, newOff + newLen - (offset + len))] := by
    rw [remainder, if_pos (by omega)]
  refine ⟨after, _, by rw [ran]; rfl, final, contains, ?_, ?_, fun short => ?_⟩
  · intro range member
    rcases List.mem_append.mp member with left | other
    · refine ⟨(remainder_ends reaches range left).1, ?_⟩
      rw [remainder_start left]
      have := last.some_
      omega
    · exact queued range other
  · rw [own]
    exact Nat.le_add_left 1 _
  · have := more short
    rw [own, List.length_append]
    exact Nat.add_le_add (Nat.le_refl 1) this

theorem delegateTurn_of_pass {after : McStream} {pushed : List (Nat × Nat)}
    (ran : delegateOffsets newOff newLen stream.keys stream = .next after pushed)
    (contains : after.contains newOff = true) : delegateTurn (newOff, newLen) stream = .next after pushed := by
  simp [delegateTurn, ran, Turn.finish, delegateFresh, contains]

/-- A turn that starts behind the last segment lists its range, unless its offset equals its length. -/
theorem Last.fresh (last : Last stream (newOff + newLen) key segEnd nb) (some_ : 0 < newLen)
    (behind : segEnd ≤ newOff) :
    delegateTurn (newOff, newLen) stream =
      .next (if newOff ≠ newLen then stream.insert newOff (newLen, 1) else stream) [] := by
  have room := last.some_
  have free : Free stream newOff (newOff + newLen) := by
    intro other len nb' found
    rcases Nat.lt_trichotomy other key with earlier | same | later
    · have := last.before found earlier
      omega
    · rw [same, last.found] at found
      simp only [Option.some.injEq, Prod.mk.injEq] at found
      omega
    · exact Or.inr (last.behind found later)
  have absent : stream.contains newOff = false := by
    by_cases none_ : stream.contains newOff = true
    · obtain ⟨entry, found⟩ := Option.isSome_iff_exists.mp none_
      have := last.behind found (by omega)
      omega
    · simpa using none_
  have pass : delegateOffsets newOff newLen stream.keys stream = .next stream [] :=
    delegateOffsets_free free fun offset member => OrdMap.mem_keys_iff.mp member
  simp only [delegateTurn, pass, Turn.finish, delegateFresh, absent, and_true]

end Last

/--
The last offset of a range will have been counted a number of times when the loop ends, or not at all.

It is not counted at all if the only range that could list it has its offset equal to its length.
-/
def Overcounts (stop count : Nat) (queue : List (Nat × Nat)) (stream : McStream) : Prop :=
  (∀ range ∈ queue, Ends stop range) ∧ ∃ key segEnd nb, Last stream stop key segEnd nb ∧
    (stop ≤ segEnd ∧ count ≤ nb + queue.length ∨
      segEnd < stop ∧ (∀ range ∈ queue, range.1 ≤ segEnd) ∧ (stop = 2 * segEnd ∨ count ≤ queue.length))

section Several

variable {stop count : Nat} {queue : List (Nat × Nat)} {stream : McStream}

/-- A turn that takes a range from the queue counts the last offset, or queues another range for it. -/
theorem Overcounts.turn {range : Nat × Nat} (exceeds : Overcounts stop count (range :: queue) stream) :
    ∃ after pushed, delegateTurn range stream = .next after pushed ∧
      Overcounts stop count (queue ++ pushed) after := by
  obtain ⟨ends, key, segEnd, nb, last, phase⟩ := exceeds
  rcases range with ⟨newOff, newLen⟩
  obtain ⟨some_, same⟩ := ends _ List.mem_cons_self
  simp only at some_ same
  subst same
  have others : ∀ range ∈ queue, Ends (newOff + newLen) range := fun range member =>
    ends range (List.mem_cons_of_mem _ member)
  rw [List.length_cons] at phase
  by_cases meets : newOff < segEnd
  · -- The range meets the last segment.
    obtain ⟨after, pushed, passed, last', contains, queued, more⟩ :=
      Last.pass some_ meets stream.keys last stream.keys_sorted (OrdMap.mem_keys_iff.mpr ⟨_, last.found⟩)
        fun offset member => OrdMap.mem_keys_iff.mp member
    refine ⟨after, pushed, delegateTurn_of_pass passed contains,
      fun range member => (List.mem_append.mp member).elim (others range) fun new => (queued range new).1,
      _, _, _, last', ?_⟩
    rw [List.length_append]
    rcases phase with ⟨covers, enough⟩ | ⟨short, starts, open_⟩
    · exact Or.inl ⟨by omega, by omega⟩
    · have := more short
      refine Or.inr ⟨by omega, fun range member => ?_, by omega⟩
      rcases List.mem_append.mp member with old | new
      · have := starts range (List.mem_cons_of_mem _ old)
        omega
      · have := (queued range new).2
        omega
  · -- The range starts behind the last segment, which ends before the last offset.
    refine ⟨_, _, last.fresh some_ (by omega), ?_⟩
    rw [List.append_nil]
    have below := last.below
    have room := last.some_
    rcases phase with ⟨covers, -⟩ | ⟨short, starts, open_⟩
    · omega
    · have here := starts _ List.mem_cons_self
      simp only at here
      by_cases dropped : newOff = newLen
      · -- Nothing is listed for it, now and later.
        rw [if_neg (fun different => different dropped)]
        exact ⟨others, key, segEnd, nb, last, Or.inr ⟨short,
          fun range member => starts range (List.mem_cons_of_mem _ member), Or.inl (by omega)⟩⟩
      · rw [if_pos dropped]
        refine ⟨others, newOff, newOff + newLen, 1, ⟨?_, by omega, by omega, ?_, ?_⟩, Or.inl ⟨by omega, by omega⟩⟩
        · rw [OrdMap.find?_insert, if_pos rfl, Nat.add_sub_cancel_left]
        · intro other len nb' found before
          rw [OrdMap.find?_insert, if_neg (by omega)] at found
          rcases Nat.lt_trichotomy other key with earlier | same | later
          · have := last.before found earlier
            omega
          · rw [same, last.found] at found
            simp only [Option.some.injEq, Prod.mk.injEq] at found
            omega
          · have := last.behind found later
            omega
        · intro other entry found after
          rw [OrdMap.find?_insert, if_neg (by omega)] at found
          exact last.behind found (by omega)

/-- When the loop ends the last offset was counted that often, or not at all. -/
theorem Overcounts.weightAt (exceeds : Overcounts stop count [] stream) :
    weightAt stream (stop - 1) = 0 ∨ count ≤ weightAt stream (stop - 1) := by
  obtain ⟨-, key, segEnd, nb, last, ⟨covers, enough⟩ | ⟨short, -, -⟩⟩ := exceeds
  · rw [last.weightAt_covered covers]
    exact Or.inr enough
  · exact Or.inl (last.weightAt_short short)

end Several

section Exact

variable {stream : McStream} {off len : Nat}

/-- The last of the segments that meet a range is the last one before the end of the range. -/
theorem Last.of_meeting {front : List (Nat × Nat × Nat)} {key segLen nb : Nat} (disjoint : Disjoint stream)
    (met : meeting stream off (off + len) = front ++ [(key, segLen, nb)]) :
    Last stream (off + len) key (key + segLen) nb ∧ off < key + segLen := by
  have there : (key, segLen, nb) ∈ meeting stream off (off + len) := by
    rw [met]
    exact List.mem_append_right _ List.mem_cons_self
  obtain ⟨found, below, meets⟩ := mem_meeting.mp there
  refine ⟨⟨by rw [Nat.add_sub_cancel_left]; exact found, ?_, below, ?_, ?_⟩, meets⟩
  · have := (disjoint.positive found).1
    omega
  · exact fun listed before => disjoint.apart listed found before
  · -- A later segment that starts in the range would meet it as well.
    intro other entry listed after
    refine Decidable.byContradiction fun inside => ?_
    have := disjoint.apart found listed after
    have := (disjoint.positive listed).1
    have also : (other, entry.1, entry.2) ∈ meeting stream off (off + len) :=
      mem_meeting.mpr ⟨listed, by omega, by omega⟩
    have sorted := meeting_sorted stream off (off + len)
    rw [met] at also sorted
    rcases List.mem_append.mp also with earlier | same
    · have := (List.pairwise_append.mp sorted).2.2 _ earlier _ List.mem_cons_self
      simp only at this
      omega
    · simp only [List.mem_singleton, Prod.mk.injEq] at same
      omega

/-- A range that meets several segments is not counted once at its last offset. -/
theorem delegateStream_several {offset segLen' nb' key segLen nb : Nat} {middle : List (Nat × Nat × Nat)}
    (disjoint : Disjoint stream) (some_ : 0 < len)
    (met : meeting stream off (off + len) = (offset, segLen', nb') :: middle ++ [(key, segLen, nb)]) :
    weightAt (delegateStream off len stream) (off + len - 1) ≠ weightAt stream (off + len - 1) + 1 := by
  obtain ⟨last, meets⟩ := Last.of_meeting disjoint met
  have sorted := meeting_sorted stream off (off + len)
  have there : (offset, segLen', nb') ∈ meeting stream off (off + len) := by
    rw [met]
    exact List.mem_cons_self
  obtain ⟨found, below, reaches⟩ := mem_meeting.mp there
  rw [met, List.cons_append] at sorted
  obtain ⟨above, -⟩ := List.pairwise_cons.mp sorted
  have earlier : offset < key := above (key, segLen, nb) (List.mem_append_right _ List.mem_cons_self)
  -- The segments before the first one that meets the range end before it.
  obtain ⟨front, back, visited⟩ := List.append_of_mem (OrdMap.mem_keys_iff.mpr ⟨_, found⟩)
  have ended : ∀ other ∈ front, ∃ len' nb', stream.find? other = some (len', nb') ∧
      other + len' ≤ off ∧ other < off + len := by
    intro other member
    have ordered := stream.keys_sorted
    rw [visited] at ordered
    have smaller := (List.pairwise_append.mp ordered).2.2 other member offset List.mem_cons_self
    obtain ⟨⟨len', nb'⟩, listed⟩ := OrdMap.mem_keys_iff.mp
      (show other ∈ stream.keys by rw [visited]; exact List.mem_append_left _ member)
    refine ⟨len', nb', listed, Nat.le_of_not_lt fun inside => ?_, by omega⟩
    have also : (other, len', nb') ∈ meeting stream off (off + len) :=
      mem_meeting.mpr ⟨listed, by omega, inside⟩
    rw [met, List.cons_append] at also
    rcases List.mem_cons.mp also with same | later
    · simp only [Prod.mk.injEq] at same
      omega
    · have := above _ later
      simp only at this
      omega
  -- The first turn counts the last segment, and leaves a remainder of each of the others to be handled.
  obtain ⟨after, pushed, passed, last', contains, queued, some_', two⟩ :=
    Last.pass_several some_ meets last visited ended found earlier reaches
  have first := delegateTurn_of_pass passed contains
  obtain ⟨fuel, enough⟩ := turns_two off len some_
  obtain ⟨final, drained⟩ := delegate_returns off len stream some_
  have exceeds : Overcounts (off + len) (weightAt stream (off + len - 1) + 2) pushed after := by
    refine ⟨fun range member => (queued range member).1, _, _, _, last', ?_⟩
    rcases Nat.lt_or_ge (key + segLen) (off + len) with short | covers
    · rw [last.weightAt_short short]
      have := two short
      exact Or.inr ⟨by omega, fun range member => by have := (queued range member).2; omega, Or.inr (by omega)⟩
    · rw [last.weightAt_covered covers]
      exact Or.inl ⟨by omega, by omega⟩
  have result : delegateStream off len stream = final := by rw [delegateStream, drained, Option.getD_some]
  rw [enough, WorkQueue.drain_next first] at drained
  have done := WorkQueue.drain_some
    (fun _ _ _ _ _ held ran => by
      obtain ⟨after, pushed, same, next⟩ := Overcounts.turn held
      rw [ran] at same
      cases same
      exact next)
    (fun _ _ _ _ held ran => by
      obtain ⟨after, pushed, same, -⟩ := Overcounts.turn held
      rw [ran] at same
      cases same) _ _ _ _ exceeds drained
  rw [result]
  have := done.weightAt
  omega

/-- A range that meets one segment, and is counted once, meets the conditions for it. -/
theorem delegateStream_alone_exact {offset segLen nb : Nat} (disjoint : Disjoint stream) (some_ : 0 < len)
    (alone : Alone stream off len offset segLen nb)
    (exact_ : ∀ x, weightAt (delegateStream off len stream) x = weightAt stream x + within off len x) :
    (offset ≤ off ∨ nb = 1) ∧ (off + len ≤ offset + segLen ∨ off + len ≠ 2 * (offset + segLen)) := by
  have below := alone.below
  have meets := alone.meets
  obtain ⟨cut, weights⟩ := delegateOverlap_disjoint disjoint alone.found below meets some_ alone.gap
  rw [delegateStream_alone disjoint some_ alone] at exact_
  constructor
  · -- The first offset of the range is in the gap before the segment, and takes over its count.
    refine Decidable.or_iff_not_imp_left.mpr fun gap => ?_
    have here := exact_ off
    have inside : within off len off = 1 := if_pos ⟨Nat.le_refl _, by omega⟩
    rw [alone.gap.weightAt (Nat.le_refl _) (by omega), inside] at here
    have first : weightAt (delegateOverlap off len offset segLen nb stream) off = nb := by
      rw [weights, if_neg (by omega), if_pos ⟨Nat.le_refl _, by omega⟩]
    split at here
    · rename_i longer
      have whole : offset + segLen + (off + len - (offset + segLen)) = off + len := by omega
      have free := delegateOverlap_free disjoint alone.found below meets some_ alone.behind
      rw [weightAt_insert cut (by omega) Nat.one_pos (by rw [whole]; exact free), if_neg (by omega), first] at here
      omega
    · omega
  · -- The offset behind the segment belongs to a remainder that is forgotten.
    refine Decidable.or_iff_not_imp_left.mpr fun longer same => ?_
    have here := exact_ (offset + segLen)
    rw [if_neg (fun both => both.2 same), weights, if_neg (by omega), if_neg (by omega), within,
      if_pos (by omega)] at here
    omega

/-- One delegation counts every offset of its range once exactly when it is clean. -/
theorem delegateStream_exact_iff (disjoint : Disjoint stream) (some_ : 0 < len) :
    (∀ x, weightAt (delegateStream off len stream) x = weightAt stream x + within off len x) ↔
      CleanDelegation stream off len := by
  refine ⟨fun exact_ => ?_, fun clean => (delegateStream_clean disjoint some_ clean).2⟩
  unfold CleanDelegation
  cases met : meeting stream off (off + len) with
  | nil =>
    -- A range that is forgotten does not count its first offset.
    intro same
    have here := exact_ off
    rw [delegateStream_free disjoint (free_of_meeting_nil met) some_, if_neg (fun apart => apart same), within,
      if_pos ⟨Nat.le_refl _, by omega⟩] at here
    omega
  | cons segment others =>
    rcases segment with ⟨offset, segLen, nb⟩
    rcases List.eq_nil_or_concat others with none_ | ⟨middle, ⟨key, segLen', nb'⟩, several⟩
    · subst none_
      exact delegateStream_alone_exact disjoint some_ (alone_of_meeting met) exact_
    · exfalso
      rw [several, List.concat_eq_append, ← List.cons_append] at met
      refine delegateStream_several disjoint some_ met ?_
      rw [exact_, within, if_pos (by omega)]

/-- One delegation is counted once exactly when it is clean. -/
theorem countsOnce_iff {mcAck : McAck} {call : Nat × Nat × Nat}
    (disjoint : 0 < call.2.2 → Disjoint (mcAck.streamOf call.1)) :
    CountsOnce mcAck (delegatePiece mcAck call) call ↔ CleanCall mcAck call := by
  refine ⟨fun once => Decidable.or_iff_not_imp_left.mpr fun some_ => ?_,
    fun clean => (delegatePiece_clean disjoint clean).2⟩
  have some_ : 0 < call.2.2 := by omega
  refine (delegateStream_exact_iff (disjoint some_) some_).mp fun x => ?_
  have here := once call.1 x
  rw [if_pos rfl, counter, delegatePiece, streamOf_delegate _ _ _ _ some_, if_pos rfl] at here
  exact here

end Exact

end McAck

end Flexicast
