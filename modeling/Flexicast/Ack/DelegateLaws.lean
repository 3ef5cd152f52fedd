import Flexicast.Ack.Turns
import Flexicast.Lib.Runs

/-! Laws of `delegate`: it always returns, and when its counters count the covering calls. -/

namespace Flexicast

namespace McAck

open Segments

variable {newOff newLen offset len nb : Nat} {mcAck : McAck} {call : Nat × Nat × Nat}

/-- No key is lost when a segment is cut up. -/
theorem delegateOverlap_contains {key : Nat} {stream : McStream} (listed : ∃ entry, stream.find? key = some entry) :
    ∃ entry, (delegateOverlap newOff newLen offset len nb stream).find? key = some entry := by
  obtain ⟨entry, found⟩ := listed
  unfold delegateOverlap
  by_cases same : key = offset
  · -- The visited key comes back as the left part or as the overlap itself.
    subst same
    simp only [OrdMap.find?_insert]
    by_cases left : key < newOff
    · rw [if_pos left, if_neg (by omega)]
      split
      · exact ⟨_, by rw [OrdMap.find?_insert, if_neg (by omega), OrdMap.find?_insert, if_pos rfl]⟩
      · exact ⟨_, by rw [OrdMap.find?_insert, if_pos rfl]⟩
    · exact ⟨_, if_pos (by omega)⟩
  · -- Any other key is kept or overwritten.
    rw [OrdMap.find?_insert]
    split
    · exact ⟨_, rfl⟩
    · repeat' split
      all_goals simp only [OrdMap.find?_insert, OrdMap.find?_erase, if_neg same, found]
      all_goals repeat' split
      all_goals exact ⟨_, rfl⟩

/-- A pass of `delegate` never looks up a missing offset, and queues proper remainders only. -/
theorem delegateOffsets_next (newOff newLen : Nat) (offsets : List Nat) :
    ∀ (stream : McStream) (low : Nat), offsets.Pairwise (· < ·) → (∀ offset ∈ offsets, low ≤ offset) →
      (∀ offset ∈ offsets, ∃ entry, stream.find? offset = some entry) →
      ∃ stream' pushed, delegateOffsets newOff newLen offsets stream = .next stream' pushed ∧
        Queues newOff newLen low pushed := by
  -- The pass removes no key, so every offset of the snapshot is still listed when it is visited.
  induction offsets with
  | nil => exact fun stream low _ _ _ => ⟨stream, [], rfl, Queues.nil ..⟩
  | cons offset rest ih =>
    intro stream low sorted ahead listed
    obtain ⟨above, tail⟩ := List.pairwise_cons.mp sorted
    have here := ahead offset List.mem_cons_self
    simp only [delegateOffsets]
    split
    · exact ⟨stream, [], rfl, Queues.nil ..⟩
    · rename_i below
      obtain ⟨⟨len, nb⟩, found⟩ := listed offset List.mem_cons_self
      simp only [found]
      split
      · -- The segment ends before the range.
        obtain ⟨stream', pushed, ran, queues⟩ := ih stream (offset + 1) tail above
          (fun later member => listed later (List.mem_cons_of_mem _ member))
        exact ⟨stream', pushed, ran, queues.skip here⟩
      · -- The segment meets the range and is cut up.
        obtain ⟨stream', pushed, ran, queues⟩ :=
          ih (delegateOverlap newOff newLen offset len nb stream) (offset + 1) tail above
            (fun later member =>
              delegateOverlap_contains (listed later (List.mem_cons_of_mem _ member)))
        exact ⟨stream', _, by rw [ran]; rfl, queues.visit here (by omega) (by omega)⟩

theorem delegateTurn_settles (stop : Nat) :
    WorkQueue.Settles delegateTurn (Ends stop) (fun _ => True) (effort stop) := by
  intro range stream ends _
  right
  obtain ⟨stream', pushed, ran, queues⟩ := delegateOffsets_next range.1 range.2 stream.keys stream 0
    stream.keys_sorted (fun _ _ => Nat.zero_le _) (fun _ member => OrdMap.mem_keys_iff.mp member)
  obtain ⟨later, lighter⟩ := queues.settles range ends
  exact ⟨_, pushed, by rw [delegateTurn, ran]; rfl, trivial, later, lighter⟩

/-- The loop of `delegate` returns on every map, within the bound given to it. -/
theorem delegate_returns (off len : Nat) (stream : McStream) (some_ : 0 < len) :
    ∃ final, WorkQueue.drain delegateTurn (turns off len) [(off, len)] stream = some final := by
  obtain ⟨final, drained, -⟩ := WorkQueue.drain_returns (delegateTurn_settles (off + len))
    (fun range _ => effort_pos (off + len) range) (turns off len) [(off, len)] stream
    (by simp [Ends, some_]) trivial (by simp [effort, turns])
  exact ⟨final, drained⟩

theorem delegateOverlap_eq (stream : McStream) (below : offset < newOff + newLen) (meets : newOff < offset + len)
    (some_ : 0 < newLen) (room : 0 < len) :
    delegateOverlap newOff newLen offset len nb stream =
      place (place (place (stream.erase offset) (min offset newOff) (max offset newOff) nb)
        (newOff + newLen) (offset + len) nb)
        (max offset newOff) (min (offset + len) (newOff + newLen)) (nb + 1) := by
  have overlap : max offset newOff < min (offset + len) (newOff + newLen) := by omega
  simp only [delegateOverlap, place]
  rw [if_pos overlap]
  -- At most one of the two branches for the left part is taken.
  rcases Nat.lt_trichotomy offset newOff with left | same | right
  · have low : min offset newOff = offset := by omega
    have high : max offset newOff = newOff := by omega
    simp only [low, high, if_pos left]
  · subst same
    simp
  · have low : min offset newOff = newOff := by omega
    have high : max offset newOff = offset := by omega
    have other : ¬ offset < newOff := by omega
    simp only [low, high, if_pos right, if_neg other]

section Overlap

variable {stream : McStream} {newOff newLen offset len nb : Nat}

/-- The pieces of a cut segment do not overlap when nothing else meets the gap before it. -/
theorem delegateOverlap_disjoint (disjoint : Disjoint stream)
    (found : stream.find? offset = some (len, nb)) (below : offset < newOff + newLen)
    (meets : newOff < offset + len) (some_ : 0 < newLen) (gap : Free stream newOff offset) :
    Disjoint (delegateOverlap newOff newLen offset len nb stream) ∧
      ∀ x, weightAt (delegateOverlap newOff newLen offset len nb stream) x =
        if max offset newOff ≤ x ∧ x < min (offset + len) (newOff + newLen) then nb + 1
        else if newOff ≤ x ∧ x < offset then nb else weightAt stream x := by
  obtain ⟨room, counted⟩ := disjoint.positive found
  rw [delegateOverlap_eq stream below meets some_ room]
  -- Everything from the start of the range or of the segment to the segment's end is free.
  have whole := disjoint.free_erase found
  have before := gap.erase offset
  have base := disjoint.erase offset
  have left : Free (stream.erase offset) (min offset newOff) (max offset newOff) := by
    intro key len' weight listed
    have := whole key len' weight listed
    have := before key len' weight listed
    omega
  have withLeft := base.place counted left
  have right : Free (place (stream.erase offset) (min offset newOff) (max offset newOff) nb)
      (newOff + newLen) (offset + len) :=
    Free.place (whole.mono (by omega) (by omega)) (by omega)
  have withRight := withLeft.place counted right
  have middle : Free (place (place (stream.erase offset) (min offset newOff) (max offset newOff) nb)
      (newOff + newLen) (offset + len) nb)
      (max offset newOff) (min (offset + len) (newOff + newLen)) :=
    Free.place (Free.place (whole.mono (by omega) (by omega)) (by omega)) (by omega)
  refine ⟨withRight.place (Nat.succ_pos nb) middle, ?_⟩
  intro x
  rw [weightAt_place withRight (Nat.succ_pos nb) middle, weightAt_place withLeft counted right,
    weightAt_place base counted left, weightAt_erase disjoint found]
  -- Outside the overlap and the gap, a position of the segment keeps the segment's weight.
  have inside : offset ≤ x → x < offset + len → weightAt stream x = nb :=
    weightAt_of_mem disjoint found
  by_cases low : offset ≤ x
  · by_cases high : x < offset + len
    · rw [inside low high]
      repeat' split
      all_goals omega
    · repeat' split
      all_goals omega
  · repeat' split
    all_goals first | rfl | omega

theorem delegateOverlap_free (disjoint : Disjoint stream)
    (found : stream.find? offset = some (len, nb)) (below : offset < newOff + newLen)
    (meets : newOff < offset + len) (some_ : 0 < newLen)
    (behind : Free stream (offset + len) (newOff + newLen)) :
    Free (delegateOverlap newOff newLen offset len nb stream) (offset + len) (newOff + newLen) := by
  obtain ⟨room, -⟩ := disjoint.positive found
  rw [delegateOverlap_eq stream below meets some_ room]
  refine Free.place (Free.place (Free.place (behind.erase offset) ?_) ?_) ?_ <;> omega

theorem delegateOverlap_start :
    (delegateOverlap newOff newLen offset len nb stream).contains newOff = true := by
  rw [OrdMap.contains, delegateOverlap]
  simp only [OrdMap.find?_insert]
  split
  · rfl
  · -- The range starts before the segment, so the left part was listed under it.
    have right : newOff < offset := by omega
    have other : ¬ offset < newOff := by omega
    rw [if_neg other, if_pos right]
    split
    · simp only [OrdMap.find?_insert]
      split <;> rfl
    · simp only [OrdMap.find?_insert]
      rfl

end Overlap

section Pass

variable {stream : McStream} {newOff newLen : Nat}

theorem delegateOffsets_skip {front rest : List Nat}
    (ended : ∀ offset ∈ front, ∃ len nb, stream.find? offset = some (len, nb) ∧
      offset + len ≤ newOff ∧ offset < newOff + newLen) :
    delegateOffsets newOff newLen (front ++ rest) stream =
      delegateOffsets newOff newLen rest stream := by
  induction front with
  | nil => rfl
  | cons offset front ih =>
    obtain ⟨len, nb, found, before, below⟩ := ended offset List.mem_cons_self
    simp only [List.cons_append, delegateOffsets, found]
    rw [if_neg (by omega), if_pos before]
    exact ih fun other member => ended other (List.mem_cons_of_mem _ member)

theorem delegateOffsets_stop {rest : List Nat} (behind : ∀ offset ∈ rest, newOff + newLen ≤ offset) :
    delegateOffsets newOff newLen rest stream = .next stream [] := by
  cases rest with
  | nil => rfl
  | cons offset rest =>
    simp only [delegateOffsets]
    rw [if_pos (behind offset List.mem_cons_self)]

/-- A pass over a free range changes nothing. -/
theorem delegateOffsets_free {offsets : List Nat} (free : Free stream newOff (newOff + newLen))
    (listed : ∀ offset ∈ offsets, ∃ entry, stream.find? offset = some entry) :
    delegateOffsets newOff newLen offsets stream = .next stream [] := by
  induction offsets with
  | nil => rfl
  | cons offset rest ih =>
    obtain ⟨⟨len, nb⟩, found⟩ := listed offset List.mem_cons_self
    simp only [delegateOffsets, found]
    split
    · rfl
    · rw [if_pos ((free offset len nb found).resolve_right ‹_›)]
      exact ih fun other member => listed other (List.mem_cons_of_mem _ member)

theorem delegateTurn_free (disjoint : Disjoint stream) (free : Free stream newOff (newOff + newLen))
    (some_ : 0 < newLen) :
    delegateTurn (newOff, newLen) stream =
      .next (if newOff ≠ newLen then stream.insert newOff (newLen, 1) else stream) [] := by
  have absent : stream.contains newOff = false := by
    rw [OrdMap.contains, free.absent disjoint (by omega)]
    rfl
  have pass : delegateOffsets newOff newLen stream.keys stream = .next stream [] :=
    delegateOffsets_free free fun offset member => OrdMap.mem_keys_iff.mp member
  simp only [delegateTurn, pass, Turn.finish, delegateFresh, absent, and_true]

/-- A segment that meets the range, and the only one to do so. -/
structure Alone (stream : McStream) (newOff newLen offset len nb : Nat) : Prop where
  found : stream.find? offset = some (len, nb)
  below : offset < newOff + newLen
  meets : newOff < offset + len
  others : ∀ key len' nb', stream.find? key = some (len', nb') → key ≠ offset →
    key + len' ≤ newOff ∨ newOff + newLen ≤ key

variable {offset len nb : Nat}

/-- A single meeting segment is alone. -/
theorem alone_of_meeting (only : meeting stream newOff (newOff + newLen) = [(offset, len, nb)]) :
    Alone stream newOff newLen offset len nb := by
  have member : (offset, len, nb) ∈ meeting stream newOff (newOff + newLen) := by
    rw [only]
    exact List.mem_cons_self
  obtain ⟨found, below, meets⟩ := mem_meeting.mp member
  refine ⟨found, below, meets, ?_⟩
  intro key len' nb' listed other
  refine Decidable.byContradiction fun shared => other ?_
  have also : (key, len', nb') ∈ meeting stream newOff (newOff + newLen) :=
    mem_meeting.mpr ⟨listed, by omega, by omega⟩
  rw [only] at also
  simp only [List.mem_singleton, Prod.mk.injEq] at also
  exact also.1

/-- Nothing lies between the start of the range and the segment it meets alone. -/
theorem Alone.gap (alone : Alone stream newOff newLen offset len nb) : Free stream newOff offset := by
  intro key len' nb' listed
  have below := alone.below
  by_cases same : key = offset
  · omega
  · have := alone.others key len' nb' listed same
    omega

/-- Nothing lies between the segment met alone and the end of the range. -/
theorem Alone.behind (alone : Alone stream newOff newLen offset len nb) :
    Free stream (offset + len) (newOff + newLen) := by
  intro key len' nb' listed
  have meets := alone.meets
  by_cases same : key = offset
  · -- The segment itself ends where the free range starts.
    subst same
    have same := alone.found
    rw [listed] at same
    simp only [Option.some.injEq, Prod.mk.injEq] at same
    omega
  · have := alone.others key len' nb' listed same
    omega

/-- A turn that meets one segment cuts it up and queues what lies behind it. -/
theorem delegateTurn_alone (disjoint : Disjoint stream) (alone : Alone stream newOff newLen offset len nb) :
    delegateTurn (newOff, newLen) stream =
      .next (delegateOverlap newOff newLen offset len nb stream)
        (remainder newOff newLen offset len) := by
  obtain ⟨found, below, meets, others⟩ := alone
  -- The snapshot lists the segments before this one, the segment, and those behind it.
  obtain ⟨front, back, split⟩ := List.append_of_mem (OrdMap.mem_keys_iff.mpr ⟨_, found⟩)
  have sorted := stream.keys_sorted
  rw [split] at sorted
  obtain ⟨-, behind, before⟩ := List.pairwise_append.mp sorted
  obtain ⟨above, -⟩ := List.pairwise_cons.mp behind
  have listed : ∀ key ∈ front ++ offset :: back, ∃ entry, stream.find? key = some entry := by
    intro key member
    rw [← split] at member
    exact OrdMap.mem_keys_iff.mp member
  have ended : ∀ key ∈ front, ∃ len' nb', stream.find? key = some (len', nb') ∧
      key + len' ≤ newOff ∧ key < newOff + newLen := by
    intro key member
    have smaller := before key member offset List.mem_cons_self
    obtain ⟨⟨len', nb'⟩, there⟩ := listed key (List.mem_append_left _ member)
    have := others key len' nb' there (by omega)
    exact ⟨len', nb', there, by omega, by omega⟩
  have past : ∀ key ∈ back, newOff + newLen ≤ key := by
    intro key member
    have larger := above key member
    obtain ⟨⟨len', nb'⟩, there⟩ :=
      listed key (List.mem_append_right _ (List.mem_cons_of_mem _ member))
    have := disjoint.apart found there larger
    have := others key len' nb' there (by omega)
    omega
  -- Only the segment itself does anything in the pass, and it lists the start of the range.
  have pass : delegateOffsets newOff newLen stream.keys stream =
      .next (delegateOverlap newOff newLen offset len nb stream)
        (remainder newOff newLen offset len) := by
    rw [split, delegateOffsets_skip ended]
    simp only [delegateOffsets, found]
    rw [if_neg (by omega), if_neg (by omega), delegateOffsets_stop past]
    simp [Turn.queueFirst]
  simp only [delegateTurn, pass, Turn.finish, delegateFresh, delegateOverlap_start]
  simp

end Pass

/-- The weight a range adds at a position. -/
def within (off len x : Nat) : Nat := if off ≤ x ∧ x < off + len then 1 else 0

/-- What the segments that meet a range must be like for `delegate` to count the range once. -/
def CleanMeeting (off len : Nat) : List (Nat × Nat × Nat) → Prop
  -- A range that meets nothing is forgotten when its offset equals its length.
  | [] => off ≠ len
  -- Its left part takes over the count of the one segment it meets,
  -- and its remainder behind that segment is forgotten under the same coincidence.
  | [(offset, segLen, nb)] =>
    (offset ≤ off ∨ nb = 1) ∧ (off + len ≤ offset + segLen ∨ off + len ≠ 2 * (offset + segLen))
  -- The last of several segments is visited again for the remainder of each of the others.
  | _ :: _ :: _ => False

instance decidableCleanMeeting (off len : Nat) :
    (segments : List (Nat × Nat × Nat)) → Decidable (CleanMeeting off len segments)
  | [] => inferInstanceAs (Decidable (off ≠ len))
  | [(offset, segLen, nb)] =>
    inferInstanceAs (Decidable ((offset ≤ off ∨ nb = 1) ∧
      (off + len ≤ offset + segLen ∨ off + len ≠ 2 * (offset + segLen))))
  | _ :: _ :: _ => inferInstanceAs (Decidable False)

/-- When `delegate` counts its range exactly once. -/
def CleanDelegation (stream : McStream) (off len : Nat) : Prop :=
  CleanMeeting off len (meeting stream off (off + len))

instance (stream : McStream) (off len : Nat) : Decidable (CleanDelegation stream off len) :=
  decidableCleanMeeting off len (meeting stream off (off + len))

theorem turns_two (off len : Nat) (some_ : 0 < len) : ∃ fuel, turns off len = fuel + 2 := by
  have large : off + len + 1 ≤ turns off len := Nat.le_self_pow (by omega) _
  exact ⟨turns off len - 2, by omega⟩

section Clean

variable {stream : McStream} {off len : Nat}

theorem insert_counts (disjoint : Disjoint stream) (free : Free stream off (off + len))
    (some_ : 0 < len) :
    Disjoint (stream.insert off (len, 1)) ∧
      ∀ x, weightAt (stream.insert off (len, 1)) x = weightAt stream x + within off len x := by
  refine ⟨disjoint.insert some_ Nat.one_pos free, ?_⟩
  intro x
  rw [weightAt_insert disjoint some_ Nat.one_pos free, within]
  split
  · rename_i inside
    rw [free.weightAt inside.1 inside.2]
  · rfl

theorem delegateStream_free (disjoint : Disjoint stream) (free : Free stream off (off + len))
    (some_ : 0 < len) :
    delegateStream off len stream = if off ≠ len then stream.insert off (len, 1) else stream := by
  obtain ⟨fuel, enough⟩ := turns_two off len some_
  rw [delegateStream, enough, WorkQueue.drain, delegateTurn_free disjoint free some_]
  simp

/-- A delegation that meets one segment cuts it up, and then lists what lies behind it. -/
theorem delegateStream_alone {offset segLen nb : Nat} (disjoint : Disjoint stream) (some_ : 0 < len)
    (alone : Alone stream off len offset segLen nb) :
    delegateStream off len stream =
      if offset + segLen < off + len ∧ off + len ≠ 2 * (offset + segLen) then
        (delegateOverlap off len offset segLen nb stream).insert (offset + segLen)
          (off + len - (offset + segLen), 1)
      else delegateOverlap off len offset segLen nb stream := by
  obtain ⟨fuel, enough⟩ := turns_two off len some_
  rw [delegateStream, enough, WorkQueue.drain, delegateTurn_alone disjoint alone]
  simp only [List.nil_append, remainder]
  by_cases longer : offset + segLen < off + len
  · -- The remainder is handled in a second turn, which meets nothing.
    have cut := (delegateOverlap_disjoint disjoint alone.found alone.below alone.meets some_
      alone.gap).1
    have whole : offset + segLen + (off + len - (offset + segLen)) = off + len := by omega
    have free := delegateOverlap_free disjoint alone.found alone.below alone.meets some_ alone.behind
    rw [if_pos longer, WorkQueue.drain,
      delegateTurn_free cut (by rw [whole]; exact free) (by omega)]
    simp only [List.append_nil, WorkQueue.drain_nil, Option.getD_some]
    by_cases kept : off + len ≠ 2 * (offset + segLen)
    · rw [if_pos (by omega), if_pos ⟨longer, kept⟩]
    · rw [if_neg (by omega), if_neg (fun both => kept both.2)]
  · rw [if_neg longer, if_neg (fun both => longer both.1)]
    simp

/-- A clean delegation that meets one segment counts every offset of its range once. -/
theorem delegateStream_alone_counts {offset segLen nb : Nat} (disjoint : Disjoint stream)
    (some_ : 0 < len) (alone : Alone stream off len offset segLen nb) (counted : offset ≤ off ∨ nb = 1)
    (kept : off + len ≤ offset + segLen ∨ off + len ≠ 2 * (offset + segLen)) :
    Disjoint (delegateStream off len stream) ∧
      ∀ x, weightAt (delegateStream off len stream) x = weightAt stream x + within off len x := by
  have below := alone.below
  have meets := alone.meets
  obtain ⟨cut, weights⟩ := delegateOverlap_disjoint disjoint alone.found below meets some_ alone.gap
  -- The overlap counts one more, and the gap before the segment counts one.
  have upTo : ∀ x, weightAt (delegateOverlap off len offset segLen nb stream) x =
      weightAt stream x + if off ≤ x ∧ x < min (offset + segLen) (off + len) then 1 else 0 := by
    intro x
    rw [weights]
    by_cases overlap : max offset off ≤ x ∧ x < min (offset + segLen) (off + len)
    · rw [if_pos overlap, if_pos (by omega), weightAt_of_mem disjoint alone.found (by omega) (by omega)]
    · rw [if_neg overlap]
      by_cases before : off ≤ x ∧ x < offset
      · rw [if_pos before, if_pos (by omega), alone.gap.weightAt before.1 before.2]
        omega
      · rw [if_neg before, if_neg (by omega)]
        rfl
  rw [delegateStream_alone disjoint some_ alone]
  by_cases longer : offset + segLen < off + len
  · -- What lies behind the segment is listed in the second turn.
    have whole : offset + segLen + (off + len - (offset + segLen)) = off + len := by omega
    have free := delegateOverlap_free disjoint alone.found below meets some_ alone.behind
    rw [if_pos ⟨longer, kept.resolve_left (by omega)⟩]
    obtain ⟨listed, counts⟩ := insert_counts cut (by rw [whole]; exact free)
      (show 0 < off + len - (offset + segLen) by omega)
    refine ⟨listed, fun x => ?_⟩
    rw [counts, upTo, within, within, whole]
    repeat' split
    all_goals omega
  · rw [if_neg (fun both => longer both.1)]
    refine ⟨cut, fun x => ?_⟩
    rw [upTo, within, Nat.min_eq_right (by omega)]

theorem delegateStream_clean (disjoint : Disjoint stream) (some_ : 0 < len)
    (clean : CleanDelegation stream off len) :
    Disjoint (delegateStream off len stream) ∧
      ∀ x, weightAt (delegateStream off len stream) x = weightAt stream x + within off len x := by
  unfold CleanDelegation at clean
  cases met : meeting stream off (off + len) with
  | nil =>
    rw [met] at clean
    have apart : off ≠ len := clean
    have free := free_of_meeting_nil met
    rw [delegateStream_free disjoint free some_, if_pos apart]
    exact insert_counts disjoint free some_
  | cons segment others =>
    rw [met] at clean
    cases others with
    | cons second rest => exact clean.elim
    | nil =>
      rcases segment with ⟨offset, segLen, nb⟩
      exact delegateStream_alone_counts disjoint some_ (alone_of_meeting met) clean.1 clean.2

end Clean

/-- The delegation counter of an offset of a stream. -/
def counter (mcAck : McAck) (streamId x : Nat) : Nat := weightAt (mcAck.streamOf streamId) x

theorem streamOf_delegate (mcAck : McAck) (streamId off len : Nat) (some_ : 0 < len) (other : Nat) :
    (mcAck.delegate streamId off len).streamOf other =
      if other = streamId then delegateStream off len (mcAck.streamOf streamId)
      else mcAck.streamOf other := by
  rw [delegate, if_neg (by omega), streamOf, OrdMap.find?_insert]
  split
  · rfl
  · rfl

/-- One delegation of a stream, given by an offset and a length. -/
def delegateCall (streamId : Nat) (mcAck : McAck) (call : Nat × Nat) : McAck :=
  mcAck.delegate streamId call.1 call.2

/-- Makes a sequence of delegations of one stream. -/
def delegateAll (mcAck : McAck) (streamId : Nat) (calls : List (Nat × Nat)) : McAck :=
  Runs.run (delegateCall streamId) mcAck calls

/-- How many calls have a range that contains an offset. -/
def covering (calls : List (Nat × Nat)) (x : Nat) : Nat :=
  calls.countP fun call => decide (call.1 ≤ x ∧ x < call.1 + call.2)

theorem covering_cons (call : Nat × Nat) (rest : List (Nat × Nat)) (x : Nat) :
    covering (call :: rest) x = covering rest x + within call.1 call.2 x := by
  rw [covering, List.countP_cons, ← covering, within]
  simp only [decide_eq_true_eq]

/-- One delegation, given by a stream, an offset and a length. -/
def delegatePiece (mcAck : McAck) (call : Nat × Nat × Nat) : McAck := mcAck.delegate call.1 call.2.1 call.2.2

/-- A delegation is clean, or has nothing to count. -/
def CleanCall (mcAck : McAck) (call : Nat × Nat × Nat) : Prop :=
  call.2.2 = 0 ∨ CleanDelegation (mcAck.streamOf call.1) call.2.1 call.2.2

instance (mcAck : McAck) (call : Nat × Nat × Nat) : Decidable (CleanCall mcAck call) :=
  inferInstanceAs (Decidable (_ ∨ _))

/-- How many delegations of a stream have a range that contains an offset. -/
def coveringOf (calls : List (Nat × Nat × Nat)) (streamId x : Nat) : Nat :=
  calls.countP fun call => decide (call.1 = streamId ∧ call.2.1 ≤ x ∧ x < call.2.1 + call.2.2)

theorem coveringOf_cons (call : Nat × Nat × Nat) (rest : List (Nat × Nat × Nat)) (streamId x : Nat) :
    coveringOf (call :: rest) streamId x =
      coveringOf rest streamId x + if call.1 = streamId then within call.2.1 call.2.2 x else 0 := by
  rw [coveringOf, List.countP_cons, ← coveringOf, within]
  simp only [decide_eq_true_eq]
  by_cases same : call.1 = streamId
  · simp [same]
  · simp [same]

/-- A delegation is counted once: each offset of its range has one more receiver, and no other offset has. -/
def CountsOnce (mcAck after : McAck) (call : Nat × Nat × Nat) : Prop :=
  ∀ streamId x, counter after streamId x =
    counter mcAck streamId x + if call.1 = streamId then within call.2.1 call.2.2 x else 0

/-- A delegation of nothing changes nothing. -/
theorem delegatePiece_nothing (none_ : call.2.2 = 0) :
    delegatePiece mcAck call = mcAck ∧ CountsOnce mcAck mcAck call := by
  have nothing : ∀ x, within call.2.1 call.2.2 x = 0 := fun x => if_neg (by omega)
  refine ⟨by rw [delegatePiece, delegate, if_pos none_], fun streamId x => ?_⟩
  rw [nothing, ite_self, Nat.add_zero]

/-- A clean delegation of a stream with disjoint segments is counted once, and keeps segments disjoint. -/
theorem delegatePiece_clean (disjoint : 0 < call.2.2 → Disjoint (mcAck.streamOf call.1))
    (clean : CleanCall mcAck call) :
    (∀ streamId, Disjoint (mcAck.streamOf streamId) → Disjoint ((delegatePiece mcAck call).streamOf streamId)) ∧
      CountsOnce mcAck (delegatePiece mcAck call) call := by
  rcases Nat.eq_zero_or_pos call.2.2 with none_ | some_
  · obtain ⟨same, once⟩ := @delegatePiece_nothing mcAck call none_
    rw [same]
    exact ⟨fun _ held => held, once⟩
  · obtain ⟨kept, counts⟩ := delegateStream_clean (disjoint some_) some_ (clean.resolve_left (by omega))
    have after := streamOf_delegate mcAck call.1 call.2.1 call.2.2 some_
    rw [← delegatePiece] at after
    refine ⟨fun streamId held => ?_, fun streamId x => ?_⟩
    · rw [after]
      split
      · exact kept
      · exact held
    · rw [counter, after]
      by_cases same : streamId = call.1
      · rw [if_pos same, if_pos same.symm, counts, same]
        rfl
      · rw [if_neg same, if_neg (fun this => same this.symm)]
        rfl

/-- Clean delegations count every offset once for each of them whose range contains it. -/
theorem counter_delegatePieces (calls : List (Nat × Nat × Nat)) :
    ∀ mcAck : McAck, (∀ call ∈ calls, 0 < call.2.2 → Disjoint (mcAck.streamOf call.1)) →
      Runs.Along delegatePiece CleanCall mcAck calls → ∀ streamId,
      (Disjoint (mcAck.streamOf streamId) → Disjoint ((Runs.run delegatePiece mcAck calls).streamOf streamId)) ∧
        ∀ x, counter (Runs.run delegatePiece mcAck calls) streamId x =
          counter mcAck streamId x + coveringOf calls streamId x := by
  -- Each clean call counts its own range, and leaves the segments disjoint for the next one.
  induction calls with
  | nil => exact fun mcAck _ _ streamId => ⟨id, fun x => rfl⟩
  | cons call rest ih =>
    intro mcAck disjoint clean streamId
    obtain ⟨here, once⟩ := delegatePiece_clean (disjoint call List.mem_cons_self) clean.1
    obtain ⟨kept, later⟩ := ih (delegatePiece mcAck call)
      (fun other member some_ => here _ (disjoint other (List.mem_cons_of_mem _ member) some_)) clean.2 streamId
    refine ⟨fun held => kept (here streamId held), fun x => ?_⟩
    rw [Runs.run_cons, later, once, coveringOf_cons]
    omega

theorem delegatePieces_full (calls : List (Nat × Nat × Nat)) :
    ∀ mcAck : McAck, (Runs.run delegatePiece mcAck calls).streamFull = mcAck.streamFull := by
  induction calls with
  | nil => exact fun _ => rfl
  | cons call rest ih =>
    intro mcAck
    rw [Runs.run_cons, ih, delegatePiece, delegate]
    split
    · rfl
    · rfl

/-- Every call is clean in the state it is made in. -/
def CleanRun (streamId : Nat) : McAck → List (Nat × Nat) → Prop :=
  Runs.Along (delegateCall streamId) fun mcAck call =>
    CleanDelegation (mcAck.streamOf streamId) call.1 call.2

/-- A clean run keeps the segments disjoint and counts at each offset the calls that cover it. -/
theorem counter_delegateAll {streamId : Nat} (calls : List (Nat × Nat)) :
    ∀ mcAck : McAck, Disjoint (mcAck.streamOf streamId) → (∀ call ∈ calls, 0 < call.2) →
      CleanRun streamId mcAck calls →
      Disjoint ((delegateAll mcAck streamId calls).streamOf streamId) ∧
        ∀ x, counter (delegateAll mcAck streamId calls) streamId x =
          counter mcAck streamId x + covering calls x := by
  -- Disjointness is the invariant, and each clean call counts its own range once.
  induction calls with
  | nil => exact fun mcAck disjoint _ _ => ⟨disjoint, fun x => rfl⟩
  | cons call rest ih =>
    intro mcAck disjoint positive clean
    have some_ := positive call List.mem_cons_self
    obtain ⟨kept, counts⟩ := delegateStream_clean disjoint some_ clean.1
    have after := streamOf_delegate mcAck streamId call.1 call.2 some_ streamId
    rw [if_pos rfl] at after
    obtain ⟨still, later⟩ := ih (delegateCall streamId mcAck call)
      (by rw [delegateCall, after]; exact kept)
      (fun other member => positive other (List.mem_cons_of_mem _ member)) clean.2
    refine ⟨still, fun x => ?_⟩
    have here : counter (delegateCall streamId mcAck call) streamId x =
        counter mcAck streamId x + within call.1 call.2 x := by
      rw [counter, delegateCall, after, counts]
      rfl
    rw [delegateAll, Runs.run_cons, ← delegateAll, later, here, covering_cons]
    omega

/--
In a run of clean delegations from a fresh structure, the counter of every offset
is at each moment the number of calls made so far whose range contains it.
-/
theorem counter_eq_covering (streamId : Nat) (done rest : List (Nat × Nat))
    (positive : ∀ call ∈ done ++ rest, 0 < call.2)
    (clean : CleanRun streamId McAck.new (done ++ rest)) (x : Nat) :
    counter (delegateAll McAck.new streamId done) streamId x = covering done x := by
  have fresh : counter McAck.new streamId x = 0 := rfl
  have counts := (counter_delegateAll done McAck.new disjoint_empty
    (fun call member => positive call (List.mem_append_left _ member))
    (Runs.along_append.mp clean).1).2 x
  rw [counts, fresh, Nat.zero_add]

/-- Two receivers with overlapping losses, counted as twice in the overlap. -/
theorem counter_eq_covering_overlap :
    counter (delegateAll McAck.new 3 [(0, 10), (4, 10)]) 3 7 = covering [(0, 10), (4, 10)] 7 :=
  counter_eq_covering 3 [(0, 10), (4, 10)] [] (by decide)
    ⟨by decide, by decide, trivial⟩ 7

/-- A piece whose offset equals its length is not counted at all. -/
theorem counter_misses_call :
    counter (delegateAll McAck.new 3 [(0, 10), (10, 10)]) 3 12 = 0 ∧
      covering [(0, 10), (10, 10)] 12 = 1 := by
  decide

end McAck

end Flexicast
