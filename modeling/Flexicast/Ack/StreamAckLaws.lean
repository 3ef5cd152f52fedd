import Flexicast.Ack.DelegateLaws
import Flexicast.Ranges.Laws

/-! Laws of `on_stream_ack_received`: when one acknowledgment takes exactly one receiver off. -/

namespace Flexicast

namespace McAck

open Segments

/-- An offset of a stream was released to the source and not yet collected by it. -/
def Released (streamFull : OrdMap RangeSet) (streamId x : Nat) : Prop :=
  ((streamFull.find? streamId).getD RangeSet.default).Contains x

/-- The released offsets of a stream are well-formed ranges. -/
def FullWf (streamFull : OrdMap RangeSet) (streamId : Nat) : Prop :=
  ((streamFull.find? streamId).getD RangeSet.default).Wf

variable {streamId stop len off : Nat} {acked : Nat → Prop} {before middle after : McStream × OrdMap RangeSet}
  {mcAck : McAck}

variable {streamFull : OrdMap RangeSet} {start ackOff ackLen : Nat} {state : McStream × OrdMap RangeSet}

theorem FullWf.releaseRange (wf : FullWf streamFull streamId) (forward : start ≤ stop) :
    FullWf (releaseRange streamFull streamId start stop) streamId := by
  unfold FullWf McAck.releaseRange
  rw [OrdMap.find?_insert, if_pos rfl]
  exact RangeSet.Wf.insert wf forward

theorem released_releaseRange (wf : FullWf streamFull streamId) (forward : start ≤ stop) (x : Nat) :
    Released (releaseRange streamFull streamId start stop) streamId x ↔
      Released streamFull streamId x ∨ (start ≤ x ∧ x < stop) := by
  unfold Released releaseRange
  rw [OrdMap.find?_insert, if_pos rfl]
  exact (RangeSet.contains_insert wf forward x).trans or_comm

section Overlap

variable {stream : McStream} {ackOff ackLen offset len nb : Nat}

/-- What remains of a segment outside the acknowledged range. -/
def kept (ackOff ackLen offset len nb : Nat) (stream : McStream) : McStream :=
  place (place (stream.erase offset) offset ackOff nb) (ackOff + ackLen) (offset + len) nb

/-- Taking the acknowledged range out of a segment clears it there and nowhere else. -/
theorem kept_disjoint (disjoint : Disjoint stream) (found : stream.find? offset = some (len, nb))
    (below : offset < ackOff + ackLen) (meets : ackOff < offset + len) :
    Disjoint (kept ackOff ackLen offset len nb stream) ∧
      Free (kept ackOff ackLen offset len nb stream) (max offset ackOff)
        (min (offset + len) (ackOff + ackLen)) ∧
      ∀ x, weightAt (kept ackOff ackLen offset len nb stream) x =
        if max offset ackOff ≤ x ∧ x < min (offset + len) (ackOff + ackLen) then 0
        else weightAt stream x := by
  obtain ⟨room, counted⟩ := disjoint.positive found
  have whole := disjoint.free_erase found
  have base := disjoint.erase offset
  have left : Free (stream.erase offset) offset ackOff := whole.mono (by omega) (by omega)
  have withLeft := base.place counted left
  have right : Free (place (stream.erase offset) offset ackOff nb) (ackOff + ackLen) (offset + len) :=
    Free.place (whole.mono (by omega) (by omega)) (by omega)
  refine ⟨withLeft.place counted right, ?_, ?_⟩
  · exact Free.place (Free.place (whole.mono (by omega) (by omega)) (by omega)) (by omega)
  · intro x
    unfold kept
    rw [weightAt_place withLeft counted right, weightAt_place base counted left,
      weightAt_erase disjoint found]
    -- The two outer parts keep the weight of the segment they come from.
    have inside : offset ≤ x → x < offset + len → weightAt stream x = nb :=
      weightAt_of_mem disjoint found
    by_cases low : offset ≤ x
    · by_cases high : x < offset + len
      · rw [inside low high]
        repeat' split
        all_goals omega
      · repeat' split
        all_goals omega
    · repeat' split
      all_goals first | rfl | omega

theorem find?_kept {probe : Nat} (room : 0 < len) (behind : offset + len ≤ probe)
    (meets : ackOff < offset + len) :
    (kept ackOff ackLen offset len nb stream).find? probe = stream.find? probe := by
  unfold kept
  rw [find?_place (by omega), find?_place (by omega), OrdMap.find?_erase, if_neg (by omega)]

end Overlap

/-- What acknowledging some offsets once does to the counters and to the released offsets. -/
structure AckedOnce (streamId : Nat) (acked : Nat → Prop) (before after : McStream × OrdMap RangeSet) :
    Prop where
  disjoint : Disjoint after.1
  /-- Released ranges stay well formed. -/
  full : FullWf after.2 streamId
  /-- An acknowledged offset loses one receiver. -/
  fewer : ∀ x, acked x → weightAt after.1 x = weightAt before.1 x - 1
  /-- Any other offset keeps its receivers. -/
  same : ∀ x, ¬ acked x → weightAt after.1 x = weightAt before.1 x
  /-- An acknowledged offset is released with its last receiver. -/
  released : ∀ x, Released after.2 streamId x ↔
    Released before.2 streamId x ∨ (acked x ∧ weightAt before.1 x = 1)

/-- Acknowledging nothing changes nothing. -/
theorem AckedOnce.refl (disjoint : Disjoint state.1) (full : FullWf state.2 streamId)
    (light : ∀ x, acked x → weightAt state.1 x = 0) : AckedOnce streamId acked state state := by
  -- Offsets without receivers lose none and are not released.
  refine ⟨disjoint, full, ?_, fun _ _ => rfl, ?_⟩
  · intro x hit
    rw [light x hit]
  · intro x
    constructor
    · exact Or.inl
    · intro either
      rcases either with already | ⟨hit, one⟩
      · exact already
      · rw [light x hit] at one
        omega

/-- Acknowledging two sets of offsets without a common one is acknowledging their union. -/
theorem AckedOnce.trans {first second : Nat → Prop} (one : AckedOnce streamId first before middle)
    (two : AckedOnce streamId second middle after) (apart : ∀ x, first x → ¬ second x) :
    AckedOnce streamId (fun x => first x ∨ second x) before after := by
  -- The second step finds its offsets as they were before the first, which did not touch them.
  have middleSame : ∀ x, second x → weightAt middle.1 x = weightAt before.1 x := fun x hit =>
    one.same x fun earlier => apart x earlier hit
  refine ⟨two.disjoint, two.full, ?_, ?_, ?_⟩
  · intro x either
    rcases either with hit | hit
    · rw [two.same x (apart x hit), one.fewer x hit]
    · rw [two.fewer x hit, middleSame x hit]
  · intro x miss
    rw [two.same x fun hit => miss (Or.inr hit), one.same x fun hit => miss (Or.inl hit)]
  · intro x
    rw [two.released x, one.released x]
    constructor
    · intro either
      rcases either with (already | ⟨hit, last⟩) | ⟨hit, last⟩
      · exact Or.inl already
      · exact Or.inr ⟨Or.inl hit, last⟩
      · exact Or.inr ⟨Or.inr hit, by rw [← middleSame x hit]; exact last⟩
    · intro either
      rcases either with already | ⟨hit | hit, last⟩
      · exact Or.inl (Or.inl already)
      · exact Or.inl (Or.inr ⟨hit, last⟩)
      · exact Or.inr ⟨hit, by rw [middleSame x hit]; exact last⟩

theorem AckedOnce.congr {acked' : Nat → Prop} (once : AckedOnce streamId acked before after)
    (equal : ∀ x, acked x ↔ acked' x) : AckedOnce streamId acked' before after := by
  have same : acked = acked' := funext fun x => propext (equal x)
  rw [← same]
  exact once

/-- A segment that meets the range loses one receiver over what they share. -/
theorem ackOverlap_acks {offset nb : Nat} (disjoint : Disjoint state.1) (full : FullWf state.2 streamId)
    (found : state.1.find? offset = some (len, nb)) (below : offset < ackOff + ackLen) (meets : ackOff < offset + len)
    (some_ : 0 < ackLen) :
    AckedOnce streamId
        (fun x => max offset ackOff ≤ x ∧ x < min (offset + len) (ackOff + ackLen))
        state (ackOverlap streamId ackOff ackLen offset len nb state) ∧
      ∀ probe, offset + len ≤ probe →
        (ackOverlap streamId ackOff ackLen offset len nb state).1.find? probe =
          state.1.find? probe := by
  obtain ⟨room, counted⟩ := disjoint.positive found
  obtain ⟨outer, middle, weights⟩ := kept_disjoint disjoint found below meets
  have overlap : max offset ackOff < min (offset + len) (ackOff + ackLen) := by omega
  have inside : ∀ x, max offset ackOff ≤ x ∧ x < min (offset + len) (ackOff + ackLen) →
      weightAt state.1 x = nb := fun x hit =>
    weightAt_of_mem disjoint found (by omega) (by omega)
  -- The two outer parts are those of the cut segment.
  have outerEq : (if ackOff + ackLen < offset + len then
      (if offset < ackOff then (state.1.erase offset).insert offset (ackOff - offset, nb)
        else state.1.erase offset).insert (ackOff + ackLen)
          (offset + len - (ackOff + ackLen), nb)
      else if offset < ackOff then (state.1.erase offset).insert offset (ackOff - offset, nb)
        else state.1.erase offset) = kept ackOff ackLen offset len nb state.1 := by
    simp only [kept, place]
  simp only [ackOverlap, outerEq]
  by_cases more : 0 < nb - 1
  · -- Other receivers are still expected.
    have placed : (kept ackOff ackLen offset len nb state.1).insert (max offset ackOff)
        (min (offset + len) (ackOff + ackLen) - max offset ackOff, nb - 1) =
        place (kept ackOff ackLen offset len nb state.1) (max offset ackOff)
          (min (offset + len) (ackOff + ackLen)) (nb - 1) := by
      rw [place, if_pos overlap]
    rw [if_pos more, placed]
    refine ⟨⟨outer.place more middle, full, ?_, ?_, ?_⟩, ?_⟩
    · intro x hit
      rw [weightAt_place outer more middle, if_pos hit, inside x hit]
    · intro x miss
      rw [weightAt_place outer more middle, if_neg miss, weights, if_neg miss]
    · intro x
      constructor
      · exact Or.inl
      · intro either
        rcases either with already | ⟨hit, last⟩
        · exact already
        · rw [inside x hit] at last
          omega
    · intro probe behind
      rw [find?_place (by omega), find?_kept room behind meets]
  · -- This was the last receiver, so the part is released and not listed again.
    have last : nb = 1 := by omega
    rw [if_neg more, OrdMap.erase_absent (middle.absent outer overlap)]
    refine ⟨⟨outer, full.releaseRange (by omega), ?_, ?_, ?_⟩, ?_⟩
    · intro x hit
      rw [weights, if_pos hit, inside x hit, last]
    · intro x miss
      rw [weights, if_neg miss]
    · intro x
      rw [released_releaseRange full (by omega)]
      constructor
      · intro either
        rcases either with already | hit
        · exact Or.inl already
        · exact Or.inr ⟨hit, by rw [inside x hit, last]⟩
      · intro either
        rcases either with already | ⟨hit, -⟩
        · exact Or.inl already
        · exact Or.inr hit
    · intro probe behind
      exact find?_kept room behind meets

section Pass

variable {streamId ackOff ackLen : Nat}

/-- The offsets of the range that lie in one of the listed segments. -/
def hits (ackOff ackLen : Nat) (segments : List (Nat × Nat × Nat)) (x : Nat) : Prop :=
  (ackOff ≤ x ∧ x < ackOff + ackLen) ∧
    ∃ segment ∈ segments, segment.1 ≤ x ∧ x < segment.1 + segment.2.1

/-- What a pass over the listed segments queues. -/
def leftovers (ackOff ackLen : Nat) (segments : List (Nat × Nat × Nat)) : List (Nat × Nat) :=
  (segments.filter fun segment =>
    decide (segment.1 < ackOff + ackLen ∧ ackOff < segment.1 + segment.2.1)).flatMap
      fun segment => remainder ackOff ackLen segment.1 segment.2.1

theorem hits_cons (offset len nb : Nat) (rest : List (Nat × Nat × Nat)) (x : Nat) :
    hits ackOff ackLen ((offset, len, nb) :: rest) x ↔
      (max offset ackOff ≤ x ∧ x < min (offset + len) (ackOff + ackLen)) ∨
        hits ackOff ackLen rest x := by
  -- A hit lies in one of the segments, either the first or a later one.
  unfold hits
  constructor
  · intro given
    obtain ⟨inside, segment, member, low, high⟩ := given
    rcases List.mem_cons.mp member with same | member
    · subst same
      left
      simp only at low high
      omega
    · right
      exact ⟨inside, segment, member, low, high⟩
  · intro either
    rcases either with both | ⟨inside, segment, member, low, high⟩
    · exact ⟨by omega, _, List.mem_cons_self, by simp only; omega, by simp only; omega⟩
    · exact ⟨inside, segment, List.mem_cons_of_mem _ member, low, high⟩

theorem leftovers_queues {segments : List (Nat × Nat × Nat)} :
    ∀ {low : Nat}, segments.Pairwise (fun left right => left.1 < right.1) →
      (∀ segment ∈ segments, low ≤ segment.1) →
      Queues ackOff ackLen low (leftovers ackOff ackLen segments) := by
  -- A segment that does not meet the range leaves nothing over.
  induction segments with
  | nil => exact fun _ _ => Queues.nil ..
  | cons segment rest ih =>
    intro low sorted ahead
    obtain ⟨above, tail⟩ := List.pairwise_cons.mp sorted
    have here := ahead segment List.mem_cons_self
    have later : Queues ackOff ackLen (segment.1 + 1) (leftovers ackOff ackLen rest) := ih tail above
    unfold leftovers
    rw [List.filter_cons]
    split
    · rename_i meets
      simp only [decide_eq_true_eq] at meets
      rw [List.flatMap_cons]
      exact later.visit here meets.1 meets.2
    · exact later.skip here

/--
One pass takes one receiver off every offset that its range shares with the listed segments.

It returns from the whole function when it meets a segment behind the range.
-/
theorem ackOffsets_pass (some_ : 0 < ackLen) (segments : List (Nat × Nat × Nat)) :
    ∀ state : McStream × OrdMap RangeSet, Disjoint state.1 → FullWf state.2 streamId →
      segments.Pairwise (fun left right => left.1 < right.1) →
      (∀ segment ∈ segments, state.1.find? segment.1 = some segment.2) →
      ∃ state', AckedOnce streamId (hits ackOff ackLen segments) state state' ∧
        ((ackOffsets streamId ackOff ackLen (segments.map Prod.fst) state = .halt state' ∧
            ∃ segment ∈ segments, ackOff + ackLen ≤ segment.1) ∨
          (ackOffsets streamId ackOff ackLen (segments.map Prod.fst) state =
              .next state' (leftovers ackOff ackLen segments) ∧
            ∀ segment ∈ segments, segment.1 < ackOff + ackLen)) := by
  -- The segments still to be visited are untouched by the visits before them.
  induction segments with
  | nil =>
    intro state disjoint full _ _
    refine ⟨state, AckedOnce.refl disjoint full ?_, Or.inr ⟨rfl, by simp⟩⟩
    intro x given
    obtain ⟨-, segment, member, -⟩ := given
    simp at member
  | cons segment rest ih =>
    intro state disjoint full sorted listed
    rcases segment with ⟨offset, len, nb⟩
    obtain ⟨above, tail⟩ := List.pairwise_cons.mp sorted
    have found : state.1.find? offset = some (len, nb) := listed _ List.mem_cons_self
    obtain ⟨room, -⟩ := disjoint.positive found
    simp only [List.map_cons, ackOffsets, found]
    by_cases behind : ackOff + ackLen ≤ offset
    · -- Every segment that is left lies behind the range.
      rw [if_pos behind]
      refine ⟨state, AckedOnce.refl disjoint full ?_, Or.inl ⟨rfl, _, List.mem_cons_self, behind⟩⟩
      intro x given
      obtain ⟨inside, segment, member, low, -⟩ := given
      rcases List.mem_cons.mp member with same | member
      · subst same
        simp only at low
        omega
      · have := above segment member
        simp only at this
        omega
    · rw [if_neg behind]
      by_cases ended : offset + len ≤ ackOff
      · -- The segment ends before the range and is skipped.
        rw [if_pos ended]
        obtain ⟨state', once, outcome⟩ := ih state disjoint full tail
          (fun other member => listed other (List.mem_cons_of_mem _ member))
        refine ⟨state', once.congr ?_, ?_⟩
        · intro x
          rw [hits_cons]
          constructor
          · exact Or.inr
          · intro either
            rcases either with both | hit
            · omega
            · exact hit
        · have same : leftovers ackOff ackLen ((offset, len, nb) :: rest) =
              leftovers ackOff ackLen rest := by
            unfold leftovers
            rw [List.filter_cons, if_neg (by simp only [decide_eq_true_eq]; omega)]
          rw [same]
          rcases outcome with ⟨ran, later, member, far⟩ | ⟨ran, near⟩
          · exact Or.inl ⟨ran, later, List.mem_cons_of_mem _ member, far⟩
          · refine Or.inr ⟨ran, ?_⟩
            intro other member
            rcases List.mem_cons.mp member with same | member
            · subst same
              simp only
              omega
            · exact near other member
      · -- The segment meets the range, and what it shares with the range loses a receiver.
        rw [if_neg ended]
        obtain ⟨here, untouched⟩ := ackOverlap_acks disjoint full found
          (show offset < ackOff + ackLen by omega) (by omega) some_
        have after : ∀ other ∈ rest, offset + len ≤ other.1 := fun other member =>
          disjoint.apart found (listed other (List.mem_cons_of_mem _ member)) (above other member)
        obtain ⟨state', once, outcome⟩ :=
          ih (ackOverlap streamId ackOff ackLen offset len nb state) here.disjoint here.full tail
            (fun other member => by
              rw [untouched other.1 (after other member)]
              exact listed other (List.mem_cons_of_mem _ member))
        refine ⟨state', (here.trans once ?_).congr fun x => (hits_cons offset len nb rest x).symm, ?_⟩
        · intro x both given
          obtain ⟨-, other, member, low, -⟩ := given
          have := after other member
          omega
        · have queued : leftovers ackOff ackLen ((offset, len, nb) :: rest) =
              remainder ackOff ackLen offset len ++ leftovers ackOff ackLen rest := by
            unfold leftovers
            rw [List.filter_cons, if_pos (by simp only [decide_eq_true_eq]; omega),
              List.flatMap_cons]
          rw [queued]
          rcases outcome with ⟨ran, later, member, far⟩ | ⟨ran, near⟩
          · rw [ran]
            exact Or.inl ⟨rfl, later, List.mem_cons_of_mem _ member, far⟩
          · rw [ran]
            refine Or.inr ⟨rfl, ?_⟩
            intro other member
            rcases List.mem_cons.mp member with same | member
            · subst same
              simp only
              omega
            · exact near other member

end Pass

/-- An offset lies in the range that an acknowledgment covers. -/
def InRange (range : Nat × Nat) (x : Nat) : Prop := range.1 ≤ x ∧ x < range.1 + range.2

/-- A turn takes one receiver off every offset of its range that still has one. -/
theorem ackTurn_acks (range : Nat × Nat) (state : McStream × OrdMap RangeSet) (disjoint : Disjoint state.1)
    (full : FullWf state.2 streamId) (some_ : 0 < range.2) :
    ∃ state', AckedOnce streamId (InRange range) state state' ∧
      ((ackTurn streamId range state = .halt state' ∧
          ∃ segment ∈ state.1.entries, range.1 + range.2 ≤ segment.1) ∨
        (ackTurn streamId range state =
            .next state' (leftovers range.1 range.2 state.1.entries) ∧
          ∀ segment ∈ state.1.entries, segment.1 < range.1 + range.2)) := by
  obtain ⟨state', once, outcome⟩ := ackOffsets_pass some_ state.1.entries state disjoint full
    state.1.sorted (fun segment member => OrdMap.find?_eq_some_iff.mpr member)
  refine ⟨state', ?_, outcome⟩
  -- An offset of the range outside every segment has no receiver to lose.
  have missed : ∀ x, InRange range x → ¬ hits range.1 range.2 state.1.entries x →
      weightAt state.1 x = 0 := by
    intro x inside miss
    refine weightAt_eq_zero fun key len weight found => ?_
    refine Decidable.byContradiction fun covered => miss ?_
    exact ⟨inside, _, OrdMap.find?_eq_some_iff.mp found, by simp only; omega, by simp only; omega⟩
  have within_ : ∀ x, hits range.1 range.2 state.1.entries x → InRange range x := fun x hit => hit.1
  refine ⟨once.disjoint, once.full, ?_, ?_, ?_⟩
  · intro x inside
    by_cases hit : hits range.1 range.2 state.1.entries x
    · exact once.fewer x hit
    · rw [once.same x hit, missed x inside hit]
  · exact fun x outside => once.same x fun hit => outside (within_ x hit)
  · intro x
    rw [once.released x]
    constructor
    · intro either
      rcases either with already | ⟨hit, last⟩
      · exact Or.inl already
      · exact Or.inr ⟨within_ x hit, last⟩
    · intro either
      rcases either with already | ⟨inside, last⟩
      · exact Or.inl already
      · refine Or.inr ⟨Classical.byContradiction fun miss => ?_, last⟩
        rw [missed x inside miss] at last
        omega

/-- A turn over offsets without receivers changes nothing that can be observed. -/
theorem AckedOnce.idle {range : Nat × Nat} (once : AckedOnce streamId acked before middle)
    (turn : AckedOnce streamId (InRange range) middle after) (light : ∀ x, InRange range x → weightAt middle.1 x = 0) :
    AckedOnce streamId acked before after ∧ ∀ x, weightAt after.1 x = weightAt middle.1 x := by
  -- Nothing is taken off offsets that no receiver is counted for.
  have same : ∀ x, weightAt after.1 x = weightAt middle.1 x := by
    intro x
    by_cases inside : InRange range x
    · rw [turn.fewer x inside, light x inside]
    · exact turn.same x inside
  refine ⟨⟨turn.disjoint, turn.full, ?_, ?_, ?_⟩, same⟩
  · intro x hit
    rw [same, once.fewer x hit]
  · intro x miss
    rw [same, once.same x miss]
  · intro x
    rw [turn.released x, once.released x]
    constructor
    · intro either
      rcases either with earlier | ⟨inside, last⟩
      · exact earlier
      · rw [light x inside] at last
        omega
    · exact Or.inl

/-- Turns over offsets without receivers settle. -/
theorem ackTurn_settles_idle (low stop : Nat) :
    WorkQueue.Settles (ackTurn streamId) (fun range => Ends stop range ∧ low ≤ range.1)
      (fun state => AckedOnce streamId acked before state ∧
        ∀ x, low ≤ x → x < stop → weightAt state.1 x = 0)
      (effort stop) := by
  -- What is queued again ends where the range did, so the offsets behind stay without receivers.
  intro range state given given₂
  obtain ⟨ends, ahead⟩ := given
  obtain ⟨once, light⟩ := given₂
  obtain ⟨state', turn, outcome⟩ := ackTurn_acks range state once.disjoint once.full ends.1
  have whole := ends.2
  obtain ⟨kept, same⟩ := once.idle turn fun x inside =>
    light x (Nat.le_trans ahead inside.1) (by rw [← whole]; exact inside.2)
  have stays : ∀ x, low ≤ x → x < stop → weightAt state'.1 x = 0 := by
    intro x above below
    rw [same]
    exact light x above below
  rcases outcome with ⟨ran, -⟩ | ⟨ran, -⟩
  · exact Or.inl ⟨state', ran, kept, stays⟩
  · have queues : Queues range.1 range.2 0 (leftovers range.1 range.2 state.1.entries) :=
      leftovers_queues state.1.sorted fun _ _ => Nat.zero_le _
    obtain ⟨later, lighter⟩ := queues.settles range ends
    refine Or.inr ⟨state', _, ran, ⟨kept, stays⟩, ?_, lighter⟩
    intro other member
    have shorter := (queues.ends other member).2
    have sameEnd := (later other member).2
    exact ⟨later other member, by omega⟩

/-- No turn gives an offset its receivers back. -/
theorem ackTurn_settles_bounded (bound x : Nat) :
    WorkQueue.Settles (ackTurn streamId) (Ends stop)
      (fun state => (Disjoint state.1 ∧ FullWf state.2 streamId) ∧ weightAt state.1 x ≤ bound)
      (effort stop) := by
  -- Each turn takes one receiver off an offset, or none.
  intro range state ends given
  obtain ⟨⟨disjoint, full⟩, below⟩ := given
  obtain ⟨state', turn, outcome⟩ := ackTurn_acks range state disjoint full ends.1
  have bounded : weightAt state'.1 x ≤ bound := by
    by_cases inside : InRange range x
    · rw [turn.fewer x inside]
      omega
    · rw [turn.same x inside]
      exact below
  rcases outcome with ⟨ran, -⟩ | ⟨ran, -⟩
  · exact Or.inl ⟨state', ran, ⟨turn.disjoint, turn.full⟩, bounded⟩
  · have queues : Queues range.1 range.2 0 (leftovers range.1 range.2 state.1.entries) :=
      leftovers_queues state.1.sorted fun _ _ => Nat.zero_le _
    obtain ⟨later, lighter⟩ := queues.settles range ends
    exact Or.inr ⟨state', _, ran, ⟨⟨turn.disjoint, turn.full⟩, bounded⟩, later, lighter⟩

/-- A pass touches the released offsets of its own stream only. -/
theorem ackOffsets_other {other : Nat} (different : other ≠ streamId) (offsets : List Nat) :
    ∀ (state after : McStream × OrdMap RangeSet),
      (ackOffsets streamId ackOff ackLen offsets state).left = some after →
      after.2.find? other = state.2.find? other := by
  induction offsets with
  | nil =>
    intro state after ended
    cases ended
    rfl
  | cons offset rest ih =>
    intro state after ended
    simp only [ackOffsets] at ended
    split at ended
    · cases ended
      rfl
    · split at ended
      · cases ended
      · rename_i len nb _
        split at ended
        · exact ih state after ended
        · -- An overlap releases a range of the stream, or nothing.
          have here : (ackOverlap streamId ackOff ackLen offset len nb state).2.find? other =
              state.2.find? other := by
            unfold ackOverlap
            simp only
            split
            · rfl
            · rw [releaseRange, OrdMap.find?_insert, if_neg different]
          rw [Turn.left_queueFirst] at ended
          exact (ih _ after ended).trans here

/-- What any acknowledgment does, clean or not: an offset loses its last receiver only to be released. -/
structure Accounted (streamId : Nat) (before after : McStream × OrdMap RangeSet) : Prop where
  disjoint : Disjoint after.1
  /-- Released ranges stay well formed. -/
  full : FullWf after.2 streamId
  fewer : ∀ x, weightAt after.1 x ≤ weightAt before.1 x
  released : ∀ x, Released after.2 streamId x → Released before.2 streamId x ∨ 0 < weightAt before.1 x
  /-- An offset with a receiver keeps one, or is released. -/
  kept : ∀ x, Released before.2 streamId x ∨ 0 < weightAt before.1 x →
    Released after.2 streamId x ∨ 0 < weightAt after.1 x
  others : ∀ other, other ≠ streamId → after.2.find? other = before.2.find? other

/-- One more acknowledgment still loses no offset. -/
theorem Accounted.step (accounted : Accounted streamId before middle) (once : AckedOnce streamId acked middle after)
    (others : ∀ other, other ≠ streamId → after.2.find? other = middle.2.find? other) :
    Accounted streamId before after := by
  -- An offset that loses its last receiver in this step is released by it.
  have fewer : ∀ x, weightAt after.1 x ≤ weightAt middle.1 x := by
    intro x
    by_cases hit : acked x
    · rw [once.fewer x hit]
      exact Nat.sub_le _ _
    · exact Nat.le_of_eq (once.same x hit)
  refine ⟨once.disjoint, once.full, fun x => Nat.le_trans (fewer x) (accounted.fewer x), fun x out => ?_,
    fun x there => ?_, fun other different => (others other different).trans (accounted.others other different)⟩
  · rcases (once.released x).mp out with earlier | ⟨-, last⟩
    · exact accounted.released x earlier
    · have := accounted.fewer x
      exact Or.inr (by omega)
  · rcases accounted.kept x there with earlier | counted
    · exact Or.inl ((once.released x).mpr (Or.inl earlier))
    · by_cases hit : acked x
      · by_cases last : weightAt middle.1 x = 1
        · exact Or.inl ((once.released x).mpr (Or.inr ⟨hit, last⟩))
        · refine Or.inr ?_
          rw [once.fewer x hit]
          omega
      · rw [← once.same x hit] at counted
        exact Or.inr counted

/-- No turn loses an offset. -/
theorem ackTurn_settles_accounted :
    WorkQueue.Settles (ackTurn streamId) (Ends stop) (Accounted streamId before) (effort stop) := by
  -- A turn acknowledges one range, and may queue a shorter one.
  intro range state ends accounted
  obtain ⟨state', turn, outcome⟩ := ackTurn_acks range state accounted.disjoint accounted.full ends.1
  rcases outcome with ⟨ran, -⟩ | ⟨ran, -⟩
  · refine Or.inl ⟨state', ran, accounted.step turn fun other different => ?_⟩
    exact ackOffsets_other different _ _ _ (congrArg Turn.left ran)
  · have queues : Queues range.1 range.2 0 (leftovers range.1 range.2 state.1.entries) :=
      leftovers_queues state.1.sorted fun _ _ => Nat.zero_le _
    obtain ⟨later, lighter⟩ := queues.settles range ends
    refine Or.inr ⟨state', _, ran, accounted.step turn fun other different => ?_, later, lighter⟩
    exact ackOffsets_other different _ _ _ (congrArg Turn.left ran)

/--
When one acknowledgment takes exactly one receiver off every offset of its range.

Either a segment lies behind the range, and the function returns after its first turn.
Or every segment met after the first one has a single receiver,
since the remainder behind the first segment makes the loop visit all the others again.
-/
def CleanStreamAck (stream : McStream) (off len : Nat) : Prop :=
  (∃ segment ∈ stream.entries, off + len ≤ segment.1) ∨
    ∀ segment ∈ (meeting stream off (off + len)).tail, segment.2.2 = 1

instance (stream : McStream) (off len : Nat) : Decidable (CleanStreamAck stream off len) :=
  inferInstanceAs (Decidable (_ ∨ _))

section Drain

variable {streamId off len : Nat} {stream : McStream} {streamFull : OrdMap RangeSet}

theorem leftovers_entries :
    leftovers off len stream.entries =
      (meeting stream off (off + len)).flatMap fun segment =>
        remainder off len segment.1 segment.2.1 := rfl

variable {first : Nat × Nat × Nat} {others : List (Nat × Nat × Nat)}

theorem meeting_behind (disjoint : Disjoint stream) (met : meeting stream off (off + len) = first :: others) :
    ∀ segment ∈ others, first.1 + first.2.1 ≤ segment.1 := by
  -- The segments are disjoint and listed in ascending order.
  intro segment member
  have sorted : (meeting stream off (off + len)).Pairwise (fun left right => left.1 < right.1) :=
    stream.sorted.filter _
  rw [met] at sorted
  have before := (List.pairwise_cons.mp sorted).1 segment member
  have listed : ∀ entry ∈ first :: others, stream.find? entry.1 = some entry.2 := by
    intro entry among
    rw [← met] at among
    exact (mem_meeting.mp among).1
  exact disjoint.apart (listed first List.mem_cons_self)
    (listed segment (List.mem_cons_of_mem _ member)) before

theorem meeting_ends (met : meeting stream off (off + len) = first :: others) : off < first.1 + first.2.1 := by
  have member : first ∈ meeting stream off (off + len) := by
    rw [met]
    exact List.mem_cons_self
  exact (mem_meeting.mp member).2.2

theorem weightAt_behind (met : meeting stream off (off + len) = first :: others)
    (single : ∀ segment ∈ others, segment.2.2 = 1) {x : Nat} (behind : first.1 + first.2.1 ≤ x)
    (below : x < off + len) : weightAt stream x ≤ 1 := by
  -- An offset with receivers lies in a segment, which meets the range and is not the first.
  by_cases counted : 0 < weightAt stream x
  · obtain ⟨key, segLen, found, low, high⟩ := exists_of_weightAt_pos counted
    have starts := meeting_ends met
    have member : (key, segLen, weightAt stream x) ∈ first :: others := by
      rw [← met]
      exact mem_meeting.mpr ⟨found, by omega, by omega⟩
    rcases List.mem_cons.mp member with same | among
    · rw [← same] at behind
      simp only at behind
      omega
    · exact Nat.le_of_eq (single _ among)
  · omega

/-- A clean acknowledgment ends with every offset of its range acknowledged once. -/
theorem ackDrain_clean (disjoint : Disjoint stream) (full : FullWf streamFull streamId)
    (some_ : 0 < len) (clean : CleanStreamAck stream off len) :
    ∃ final, WorkQueue.drain (ackTurn streamId) (turns off len) [(off, len)] (stream, streamFull) =
        some final ∧
      AckedOnce streamId (InRange (off, len)) (stream, streamFull) final := by
  obtain ⟨fuel, enough⟩ := turns_two off len some_
  rw [enough]
  obtain ⟨state', once, outcome⟩ := ackTurn_acks (off, len) (stream, streamFull) disjoint full some_
  rcases outcome with ⟨ran, -⟩ | ⟨ran, near⟩
  · exact ⟨state', WorkQueue.drain_halt ran _, once⟩
  · -- No segment lies behind the range, so the segments after the first have one receiver each.
    rw [WorkQueue.drain_next ran, List.nil_append]
    have single := clean.resolve_left fun ⟨segment, member, far⟩ =>
      absurd (near segment member) (by simp only; omega)
    have queues : Queues off len 0 (leftovers off len stream.entries) :=
      leftovers_queues stream.sorted fun _ _ => Nat.zero_le _
    have cheaper : WorkQueue.load (effort (off + len)) (leftovers off len stream.entries) <
        turns off len := (queues.settles (off, len) ⟨some_, rfl⟩).2
    simp only
    cases met : meeting stream off (off + len) with
    | nil =>
      rw [leftovers_entries, met]
      exact ⟨state', by simp, once⟩
    | cons first others =>
      rw [met, List.tail_cons] at single
      have idle : ∀ x, first.1 + first.2.1 ≤ x → x < off + len → weightAt state'.1 x = 0 := by
        intro x behind below
        have most := weightAt_behind met single behind below
        have starts := meeting_ends met
        rw [once.fewer x ⟨by simp only; omega, below⟩]
        simp only
        omega
      have tasks : ∀ range ∈ leftovers off len stream.entries,
          Ends (off + len) range ∧ first.1 + first.2.1 ≤ range.1 := by
        intro range member
        refine ⟨(queues.ends range member).1, ?_⟩
        -- A remainder starts where its segment ends, and the others start behind the first.
        rw [leftovers_entries, met] at member
        obtain ⟨segment, among, left⟩ := List.mem_flatMap.mp member
        have starts := remainder_start left
        rcases List.mem_cons.mp among with same | among
        · exact Nat.le_of_eq (by rw [starts, same])
        · have := meeting_behind disjoint met segment among
          omega
      obtain ⟨final, drained, kept, -⟩ := WorkQueue.drain_returns
        (ackTurn_settles_idle (first.1 + first.2.1) (off + len))
        (fun range _ => effort_pos (off + len) range) (fuel + 1) (leftovers off len stream.entries)
        state' tasks ⟨once, idle⟩ (by omega)
      exact ⟨final, drained, kept⟩

/-- Any other acknowledgment takes a second receiver off some offset of its range. -/
theorem ackDrain_unclean (disjoint : Disjoint stream) (full : FullWf streamFull streamId)
    (some_ : 0 < len) (unclean : ¬ CleanStreamAck stream off len) :
    ∃ final x, WorkQueue.drain (ackTurn streamId) (turns off len) [(off, len)]
        (stream, streamFull) = some final ∧
      InRange (off, len) x ∧ weightAt final.1 x ≠ weightAt stream x - 1 := by
  obtain ⟨fuel, enough⟩ := turns_two off len some_
  have none_ : ∀ segment ∈ stream.entries, ¬ off + len ≤ segment.1 := fun segment member far =>
    unclean (Or.inl ⟨segment, member, far⟩)
  have several : ∃ segment ∈ (meeting stream off (off + len)).tail, segment.2.2 ≠ 1 :=
    Classical.byContradiction fun all => unclean (Or.inr fun segment member =>
      Classical.byContradiction fun more => all ⟨segment, member, more⟩)
  obtain ⟨⟨key, segLen, nb⟩, among, more⟩ := several
  cases met : meeting stream off (off + len) with
  | nil =>
    rw [met] at among
    simp at among
  | cons first others =>
    rw [met, List.tail_cons] at among
    -- The segment has at least two receivers, and lies behind the first one.
    have member : (key, segLen, nb) ∈ meeting stream off (off + len) := by
      rw [met]
      exact List.mem_cons_of_mem _ among
    obtain ⟨found, below, -⟩ := mem_meeting.mp member
    obtain ⟨room, counted⟩ := disjoint.positive found
    have several : nb ≠ 1 := more
    have behind : first.1 + first.2.1 ≤ key := meeting_behind disjoint met _ among
    have starts := meeting_ends met
    have weighs : weightAt stream key = nb :=
      weightAt_of_mem disjoint found (Nat.le_refl _) (by omega)
    -- The first turn takes one receiver off, and queues what lies behind the first segment.
    obtain ⟨state', once, outcome⟩ := ackTurn_acks (off, len) (stream, streamFull) disjoint full some_
    have queues : Queues off len 0 (leftovers off len stream.entries) :=
      leftovers_queues stream.sorted fun _ _ => Nat.zero_le _
    have cheaper : WorkQueue.load (effort (off + len)) (leftovers off len stream.entries) <
        turns off len := (queues.settles (off, len) ⟨some_, rfl⟩).2
    rcases outcome with ⟨-, segment, member, far⟩ | ⟨ran, -⟩
    · exact absurd far (none_ segment member)
    · have again : leftovers off len stream.entries =
          (first.1 + first.2.1, off + len - (first.1 + first.2.1)) ::
            others.flatMap fun segment => remainder off len segment.1 segment.2.1 := by
        rw [leftovers_entries, met, List.flatMap_cons, remainder, if_pos (by omega)]
        rfl
      rw [again, WorkQueue.load_cons] at cheaper
      rw [enough, WorkQueue.drain_next ran, List.nil_append]
      simp only [again]
      have inside : InRange (off, len) key := ⟨by simp only; omega, below⟩
      -- The second turn takes another one off.
      have ends : Ends (off + len) (first.1 + first.2.1, off + len - (first.1 + first.2.1)) :=
        ⟨by simp only; omega, by simp only; omega⟩
      obtain ⟨state'', twice, outcome⟩ :=
        ackTurn_acks (first.1 + first.2.1, off + len - (first.1 + first.2.1)) state' once.disjoint
          once.full ends.1
      have least : weightAt state''.1 key ≤ nb - 2 := by
        rw [twice.fewer key ⟨behind, by simp only; omega⟩, once.fewer key inside]
        simp only [weighs]
        omega
      rcases outcome with ⟨ran', -⟩ | ⟨ran', -⟩
      · refine ⟨state'', key, WorkQueue.drain_halt ran' _, inside, ?_⟩
        rw [weighs]
        omega
      · have queues' : Queues (first.1 + first.2.1) (off + len - (first.1 + first.2.1)) 0
            (leftovers (first.1 + first.2.1) (off + len - (first.1 + first.2.1)) state'.1.entries) :=
          leftovers_queues state'.1.sorted fun _ _ => Nat.zero_le _
        obtain ⟨later, cheaper'⟩ := queues'.settles
          (first.1 + first.2.1, off + len - (first.1 + first.2.1)) ends
        rw [WorkQueue.drain_next ran']
        have tasks : ∀ range ∈ (others.flatMap fun segment =>
              remainder off len segment.1 segment.2.1) ++
            leftovers (first.1 + first.2.1) (off + len - (first.1 + first.2.1)) state'.1.entries,
            Ends (off + len) range := by
          intro range member
          rcases List.mem_append.mp member with old | new
          · refine (queues.ends range ?_).1
            rw [again]
            exact List.mem_cons_of_mem _ old
          · exact later range new
        obtain ⟨final, drained, -, bounded⟩ := WorkQueue.drain_returns
          (ackTurn_settles_bounded (nb - 2) key)
          (fun range _ => effort_pos (off + len) range) fuel _ state'' tasks
          ⟨⟨twice.disjoint, twice.full⟩, least⟩
          (by rw [WorkQueue.load_append]; omega)
        refine ⟨final, key, drained, inside, ?_⟩
        rw [weighs]
        omega

end Drain

/-- What a call of `on_stream_ack_received` is meant to do. -/
structure AckExact (mcAck after : McAck) (streamId off len : Nat) : Prop where
  /-- Every offset of the range that had a receiver has one less. -/
  fewer : ∀ x, off ≤ x ∧ x < off + len → 0 < counter mcAck streamId x →
    counter after streamId x = counter mcAck streamId x - 1
  same : ∀ x, ¬ (off ≤ x ∧ x < off + len ∧ 0 < counter mcAck streamId x) →
    counter after streamId x = counter mcAck streamId x
  /-- The released offsets grow by those of the range whose counter went from one to zero. -/
  released : ∀ x, Released after.streamFull streamId x ↔
    Released mcAck.streamFull streamId x ∨
      (off ≤ x ∧ x < off + len ∧ counter mcAck streamId x = 1 ∧ counter after streamId x = 0)

/-- The result of a call that finds segments for its stream, in terms of its loop. -/
theorem onStreamAckReceived_eq (some_ : 0 < len) {final : McStream × OrdMap RangeSet}
    (drained : WorkQueue.drain (ackTurn streamId) (turns off len) [(off, len)]
      (mcAck.streamOf streamId, mcAck.streamFull) = some final) :
    ∃ after, mcAck.onStreamAckReceived streamId off len = some after ∧
      after.streamFull = final.2 ∧ after.streamOf streamId = final.1 ∧
      ∀ other, other ≠ streamId → after.streamOf other = mcAck.streamOf other := by
  rw [onStreamAckReceived, if_neg (by omega)]
  unfold streamOf at drained
  cases found : mcAck.streamMap.find? streamId with
  | none =>
    -- Without segments the loop ends after a turn that does nothing.
    rw [found] at drained
    obtain ⟨fuel, enough⟩ := turns_two off len some_
    rw [enough, WorkQueue.drain] at drained
    have idle : ackTurn streamId (off, len) ((none : Option McStream).getD OrdMap.empty, mcAck.streamFull) =
        .next (OrdMap.empty, mcAck.streamFull) [] := rfl
    rw [idle] at drained
    simp only [List.append_nil, WorkQueue.drain_nil, Option.some.injEq] at drained
    refine ⟨mcAck, rfl, by rw [← drained], ?_, fun _ _ => rfl⟩
    rw [← drained, streamOf, found]
    rfl
  | some stream =>
    rw [found, Option.getD_some] at drained
    simp only [drained]
    refine ⟨_, rfl, rfl, ?_, fun other different => ?_⟩
    · rw [streamOf]
      by_cases empty : final.1.isEmpty
      · -- A stream without segments is dropped from the map.
        rw [if_pos empty, OrdMap.find?_erase, if_pos rfl]
        exact (OrdMap.eq_empty_of_isEmpty empty).symm
      · rw [if_neg empty, OrdMap.find?_insert, if_pos rfl]
        rfl
    · rw [streamOf, streamOf]
      by_cases empty : final.1.isEmpty
      · rw [if_pos empty, OrdMap.find?_erase, if_neg different]
      · rw [if_neg empty, OrdMap.find?_insert, if_neg different]

/-- An aggregator whose segments are disjoint and whose released ranges are well formed. -/
structure Formed (mcAck : McAck) : Prop where
  disjoint : ∀ streamId, Disjoint (mcAck.streamOf streamId)
  /-- The released ranges of every stream are well formed. -/
  full : ∀ streamId, FullWf mcAck.streamFull streamId

/-- No offset of any stream gets lost: it keeps a receiver, or was released. -/
structure Accounts (before after : McAck) : Prop where
  fewer : ∀ streamId x, counter after streamId x ≤ counter before streamId x
  released : ∀ streamId x, Released after.streamFull streamId x →
    Released before.streamFull streamId x ∨ 0 < counter before streamId x
  /-- An offset with a receiver keeps one, or is released. -/
  kept : ∀ streamId x, Released before.streamFull streamId x ∨ 0 < counter before streamId x →
    Released after.streamFull streamId x ∨ 0 < counter after streamId x

theorem Accounts.refl (mcAck : McAck) : Accounts mcAck mcAck :=
  ⟨fun _ _ => Nat.le_refl _, fun _ _ out => Or.inl out, fun _ _ there => there⟩

theorem Accounts.trans {before middle after : McAck} (one : Accounts before middle) (two : Accounts middle after) :
    Accounts before after := by
  refine ⟨fun streamId x => Nat.le_trans (two.fewer streamId x) (one.fewer streamId x), fun streamId x out => ?_,
    fun streamId x there => two.kept streamId x (one.kept streamId x there)⟩
  rcases two.released streamId x out with earlier | counted
  · exact one.released streamId x earlier
  · exact Or.inr (Nat.lt_of_lt_of_le counted (one.fewer streamId x))

/-- An acknowledgment always returns, and loses no offset. -/
theorem Formed.onStreamAckReceived (formed : Formed mcAck) (streamId off len : Nat) :
    ∃ after, mcAck.onStreamAckReceived streamId off len = some after ∧ Formed after ∧ Accounts mcAck after := by
  rcases Nat.eq_zero_or_pos len with none_ | some_
  · exact ⟨mcAck, by rw [McAck.onStreamAckReceived, if_pos none_], formed, Accounts.refl mcAck⟩
  · have start : Accounted streamId (mcAck.streamOf streamId, mcAck.streamFull)
        (mcAck.streamOf streamId, mcAck.streamFull) :=
      ⟨formed.disjoint streamId, formed.full streamId, fun _ => Nat.le_refl _, fun _ out => Or.inl out,
        fun _ there => there, fun _ _ => rfl⟩
    obtain ⟨final, drained, accounted⟩ := WorkQueue.drain_returns ackTurn_settles_accounted
      (fun range _ => effort_pos (off + len) range) (turns off len) [(off, len)] _
      (fun range member => by rw [List.mem_singleton] at member; rw [member]; exact ⟨some_, rfl⟩) start
      (by simp [effort, turns])
    obtain ⟨after, returned, released, streams, others⟩ := onStreamAckReceived_eq some_ drained
    -- What holds of the stream holds of all streams, since the call leaves the others alone.
    have same : ∀ other, other ≠ streamId → after.streamFull.find? other = mcAck.streamFull.find? other := by
      intro other different
      rw [released]
      exact accounted.others other different
    refine ⟨after, returned, ⟨fun other => ?_, fun other => ?_⟩, ⟨fun other x => ?_, fun other x => ?_,
      fun other x => ?_⟩⟩
    · by_cases this : other = streamId
      · rw [this, streams]
        exact accounted.disjoint
      · rw [others other this]
        exact formed.disjoint other
    · by_cases this : other = streamId
      · rw [this, released]
        exact accounted.full
      · rw [FullWf, same other this]
        exact formed.full other
    · by_cases this : other = streamId
      · rw [this, counter, counter, streams]
        exact accounted.fewer x
      · exact Nat.le_of_eq (by rw [counter, counter, others other this])
    · by_cases this : other = streamId
      · rw [this, released]
        exact accounted.released x
      · rw [Released, same other this]
        exact Or.inl
    · by_cases this : other = streamId
      · rw [this, released, counter, counter, streams]
        exact accounted.kept x
      · rw [Released, Released, same other this, counter, counter, others other this]
        exact fun there => there

/-- A clean acknowledgment is exact, and leaves a structure on which the next one can be. -/
theorem onStreamAckReceived_clean (disjoint : Disjoint (mcAck.streamOf streamId))
    (full : FullWf mcAck.streamFull streamId) (some_ : 0 < len)
    (clean : CleanStreamAck (mcAck.streamOf streamId) off len) :
    ∃ after, mcAck.onStreamAckReceived streamId off len = some after ∧
      AckExact mcAck after streamId off len ∧
      Disjoint (after.streamOf streamId) ∧ FullWf after.streamFull streamId := by
  obtain ⟨final, drained, once⟩ := ackDrain_clean disjoint full some_ clean
  obtain ⟨after, returned, released, streams, -⟩ := onStreamAckReceived_eq some_ drained
  have before : ∀ x, counter mcAck streamId x = weightAt (mcAck.streamOf streamId) x := fun _ => rfl
  have counters : ∀ x, counter after streamId x = weightAt final.1 x := by
    intro x
    rw [counter, streams]
  refine ⟨after, returned, ⟨?_, ?_, ?_⟩, by rw [streams]; exact once.disjoint,
    by rw [released]; exact once.full⟩
  · intro x inside counted
    rw [counters, once.fewer x inside]
    rfl
  · intro x outside
    rw [counters]
    by_cases inside : InRange (off, len) x
    · -- An offset of the range that keeps its counter had none.
      have none_ : weightAt (mcAck.streamOf streamId) x = 0 := by
        refine Nat.eq_zero_of_not_pos fun counted => outside ?_
        exact ⟨inside.1, inside.2, counted⟩
      rw [once.fewer x inside, before, none_]
    · exact once.same x inside
  · intro x
    rw [released, once.released x, counters]
    constructor
    · intro either
      rcases either with already | ⟨inside, last⟩
      · exact Or.inl already
      · refine Or.inr ⟨inside.1, inside.2, last, ?_⟩
        rw [once.fewer x inside, last]
    · intro either
      rcases either with already | ⟨low, high, last, -⟩
      · exact Or.inl already
      · exact Or.inr ⟨⟨low, high⟩, last⟩

/--
On disjoint segments with positive counters, one acknowledgment takes exactly one receiver
off every offset of its range, and releases those that had one left, if and only if
some segment lies behind the range or every segment it meets after the first has one receiver.
-/
theorem onStreamAckReceived_exact_iff (mcAck : McAck) (streamId off len : Nat) (some_ : 0 < len)
    (disjoint : Disjoint (mcAck.streamOf streamId)) (full : FullWf mcAck.streamFull streamId) :
    (∃ after, mcAck.onStreamAckReceived streamId off len = some after ∧
      AckExact mcAck after streamId off len) ↔
    CleanStreamAck (mcAck.streamOf streamId) off len := by
  -- An acknowledgment that is not clean leaves one offset with a wrong counter.
  constructor
  · intro given
    obtain ⟨after, returned, exact_⟩ := given
    refine Classical.byContradiction fun unclean => ?_
    obtain ⟨final, x, drained, inside, wrong⟩ := ackDrain_unclean disjoint full some_ unclean
    obtain ⟨after', returned', -, streams, -⟩ := onStreamAckReceived_eq some_ drained
    rw [returned, Option.some.injEq] at returned'
    subst returned'
    have before : counter mcAck streamId x = weightAt (mcAck.streamOf streamId) x := rfl
    have counts : counter after streamId x = weightAt final.1 x := by rw [counter, streams]
    by_cases counted : 0 < counter mcAck streamId x
    · exact wrong (counts.symm.trans (exact_.fewer x inside counted))
    · have := exact_.same x fun both => counted both.2.2
      omega
  · intro clean
    obtain ⟨after, returned, exact_, -⟩ := onStreamAckReceived_clean disjoint full some_ clean
    exact ⟨after, returned, exact_⟩

/-- Two receivers share one piece, and one of them acknowledges its head. -/
theorem onStreamAckReceived_exact_shared :
    ∃ after, (delegateAll McAck.new 3 [(0, 10), (0, 10)]).onStreamAckReceived 3 0 4 = some after ∧
      AckExact (delegateAll McAck.new 3 [(0, 10), (0, 10)]) after 3 0 4 :=
  (onStreamAckReceived_exact_iff (delegateAll McAck.new 3 [(0, 10), (0, 10)]) 3 0 4 (by decide)
    (counter_delegateAll [(0, 10), (0, 10)] McAck.new disjoint_empty (by decide)
      ⟨by decide, by decide, trivial⟩).1
    RangeSet.wf_default).mpr (by decide)

/-- One acknowledgment of two shared pieces takes both receivers off the second one. -/
theorem onStreamAckReceived_counts_twice :
    Disjoint ((delegateAll McAck.new 3 [(0, 10), (0, 10), (20, 9), (20, 9)]).streamOf 3) ∧
      counter (delegateAll McAck.new 3 [(0, 10), (0, 10), (20, 9), (20, 9)]) 3 20 = 2 ∧
      ((delegateAll McAck.new 3 [(0, 10), (0, 10), (20, 9), (20, 9)]).onStreamAckReceived
        3 0 29).map (fun after => (counter after 3 20, (after.fullOf 3).iter)) =
          some (0, [(20, 29)]) := by
  refine ⟨?_, by decide, by decide⟩
  exact (counter_delegateAll [(0, 10), (0, 10), (20, 9), (20, 9)] McAck.new disjoint_empty (by decide)
    ⟨by decide, by decide, by decide, by decide, trivial⟩).1

/-- Receives a sequence of acknowledgments of one stream, each given by an offset and a length. -/
def ackAll (streamId : Nat) : McAck → List (Nat × Nat) → Option McAck
  | mcAck, [] => some mcAck
  | mcAck, call :: rest =>
    match mcAck.onStreamAckReceived streamId call.1 call.2 with
    | none => none
    | some after => ackAll streamId after rest

/-- Every acknowledgment is clean in the state it is received in. -/
def CleanAckRun (streamId : Nat) : McAck → List (Nat × Nat) → Prop
  | _, [] => True
  | mcAck, call :: rest =>
    (0 < call.2 ∧ CleanStreamAck (mcAck.streamOf streamId) call.1 call.2) ∧
      ∀ after, mcAck.onStreamAckReceived streamId call.1 call.2 = some after →
        CleanAckRun streamId after rest

/-- An exact acknowledgment releases the offsets that it covers and that had one receiver left. -/
theorem AckExact.counts {after : McAck} (exact_ : AckExact mcAck after streamId off len) (x : Nat) :
    counter after streamId x = counter mcAck streamId x - within off len x ∧
      (Released after.streamFull streamId x ↔ Released mcAck.streamFull streamId x ∨
        (0 < counter mcAck streamId x ∧ counter mcAck streamId x ≤ within off len x)) := by
  rw [exact_.released x]
  unfold within
  by_cases hit : off ≤ x ∧ x < off + len ∧ 0 < counter mcAck streamId x
  · have fewer := exact_.fewer x ⟨hit.1, hit.2.1⟩ hit.2.2
    rw [if_pos ⟨hit.1, hit.2.1⟩]
    exact ⟨fewer, or_congr_right (by omega)⟩
  · -- The call leaves this offset alone, or finds no receiver there.
    have same := exact_.same x hit
    by_cases inside : off ≤ x ∧ x < off + len
    · rw [if_pos inside]
      exact ⟨by omega, or_congr_right (by omega)⟩
    · rw [if_neg inside]
      exact ⟨by omega, or_congr_right (by omega)⟩

/-- In a clean run an offset is released exactly when all its receivers acknowledged it. -/
theorem released_iff_covered {streamId : Nat} (calls : List (Nat × Nat)) :
    ∀ mcAck : McAck, Disjoint (mcAck.streamOf streamId) → FullWf mcAck.streamFull streamId →
      CleanAckRun streamId mcAck calls →
      ∃ after, ackAll streamId mcAck calls = some after ∧ ∀ x,
        counter after streamId x = counter mcAck streamId x - covering calls x ∧
        (Released after.streamFull streamId x ↔ Released mcAck.streamFull streamId x ∨
          (0 < counter mcAck streamId x ∧ counter mcAck streamId x ≤ covering calls x)) := by
  -- Each call is exact, and leaves the segments disjoint for the next one.
  induction calls with
  | nil =>
    intro mcAck _ _ _
    refine ⟨mcAck, rfl, fun x => ⟨rfl, (or_iff_left ?_).symm⟩⟩
    simp only [covering, List.countP_nil]
    omega
  | cons call rest ih =>
    intro mcAck disjoint full clean
    obtain ⟨middle, returned, exact_, disjoint', full'⟩ :=
      onStreamAckReceived_clean disjoint full clean.1.1 clean.1.2
    obtain ⟨after, ran, later⟩ := ih middle disjoint' full' (clean.2 middle returned)
    refine ⟨after, by rw [ackAll, returned]; exact ran, fun x => ?_⟩
    obtain ⟨counts, released⟩ := later x
    obtain ⟨first, freed⟩ := exact_.counts x
    rw [covering_cons]
    refine ⟨by omega, ?_⟩
    -- The last receiver of an offset acknowledges it in this call, or in a later one.
    rw [released, freed, first, or_assoc]
    exact or_congr_right (by omega)

/-- Two receivers share one piece; its head is released once both of them acknowledged it. -/
theorem released_iff_covered_shared :
    ∃ after, ackAll 3 (delegateAll McAck.new 3 [(0, 10), (0, 10)]) [(0, 4), (0, 4)] = some after ∧
      Released after.streamFull 3 2 ∧ ¬ Released after.streamFull 3 4 := by
  have clean : CleanAckRun 3 (delegateAll McAck.new 3 [(0, 10), (0, 10)]) [(0, 4), (0, 4)] := by
    refine ⟨by decide, fun after returned => ⟨?_, fun _ _ => trivial⟩⟩
    have same : after = ((delegateAll McAck.new 3 [(0, 10), (0, 10)]).onStreamAckReceived 3 0 4).getD McAck.new := by
      rw [returned]
      rfl
    subst same
    decide
  have disjoint : Disjoint ((delegateAll McAck.new 3 [(0, 10), (0, 10)]).streamOf 3) :=
    (counter_delegateAll [(0, 10), (0, 10)] McAck.new disjoint_empty (by decide) ⟨by decide, by decide, trivial⟩).1
  obtain ⟨after, ran, exact_⟩ := released_iff_covered [(0, 4), (0, 4)] _ disjoint RangeSet.wf_default clean
  refine ⟨after, ran, (exact_ 2).2.mpr (.inr (by decide)), fun released => ?_⟩
  rcases (exact_ 4).2.mp released with already | covered
  · unfold Released at already
    exact absurd already (by decide)
  · exact absurd covered (by decide)

end McAck

end Flexicast
