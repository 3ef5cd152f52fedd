import Flexicast.Ack.McAck
import Flexicast.Ranges.Laws

/-! What one call does to the packet counters of the aggregator, packet by packet. -/

namespace Flexicast

namespace McAck

/-- The fully acknowledged packets that the source has not collected yet. -/
def waiting (mcAck : McAck) : RangeSet := mcAck.ackedFull.getD RangeSet.default

/-- Crediting adds one to the counters below the bound and leaves the others. -/
theorem lookup_creditBelow (firstPn p : Nat) {list : List (Nat × Nat)}
    (sorted : list.Pairwise (fun left right => left.1 < right.1)) :
    OrdMap.lookup p (creditBelow firstPn list) =
      (OrdMap.lookup p list).map fun nb => if p < firstPn then nb + 1 else nb := by
  -- The loop goes through the counters in ascending order, and stops at the bound.
  induction list with
  | nil => rfl
  | cons head rest ih =>
    rcases head with ⟨pn, nb⟩
    obtain ⟨above, tail⟩ := List.pairwise_cons.mp sorted
    simp only [creditBelow]
    split
    · -- The loop stops, and every packet that is left has a larger number.
      rename_i stop
      cases found : OrdMap.lookup p ((pn, nb) :: rest) with
      | none => rfl
      | some held =>
        have listed := (OrdMap.lookup_eq_some_iff sorted).mp found
        have beyond : firstPn ≤ p := by
          rcases List.mem_cons.mp listed with same | member
          · simp only [Prod.mk.injEq] at same
            omega
          · have := above _ member
            simp only at this
            omega
        rw [Option.map_some, if_neg (by omega)]
    · -- The loop has not reached the bound, so this counter is credited.
      rename_i below
      simp only [OrdMap.lookup]
      split
      · rename_i same
        rw [Option.map_some, if_pos (by omega)]
      · exact ih tail

theorem find?_newRecv (mcAck : McAck) (firstPn p : Nat) :
    (mcAck.newRecv firstPn).acked.find? p =
      (mcAck.acked.find? p).map fun nb => if p < firstPn then nb + 1 else nb :=
  lookup_creditBelow firstPn p mcAck.acked.sorted

/-- How often a packet was acknowledged since its counter was opened. -/
def tally (mcAck : McAck) (p : Nat) : Nat := (mcAck.acked.find? p).getD 0

theorem ackPacket_eq (state : McAck × RangeSet) (recvPn : Nat) :
    ackPacket state recvPn =
      if tally state.1 recvPn + 1 = state.1.nbRecv then
        ({ state.1 with
            acked := (state.1.acked.insert recvPn (tally state.1 recvPn + 1)).erase recvPn },
          state.2.insert recvPn (recvPn + 1))
      else
        ({ state.1 with acked := state.1.acked.insert recvPn (tally state.1 recvPn + 1) },
          state.2) := by
  -- A packet without a counter is counted from zero.
  unfold ackPacket tally
  cases state.1.acked.find? recvPn with
  | none => rfl
  | some nb => rfl

/-- One acknowledged packet raises its own counter, which is closed when all receivers are counted. -/
theorem ackPacket_spec {state : McAck × RangeSet} (wf : state.2.Wf) (recvPn : Nat) :
    ((ackPacket state recvPn).1.nbRecv = state.1.nbRecv ∧
        (ackPacket state recvPn).1.ackedFull = state.1.ackedFull) ∧
      (ackPacket state recvPn).2.Wf ∧
      ∀ p, (ackPacket state recvPn).1.acked.find? p =
          (if p = recvPn then
            if tally state.1 p + 1 = state.1.nbRecv then none else some (tally state.1 p + 1)
          else state.1.acked.find? p) ∧
        ((ackPacket state recvPn).2.Contains p ↔
          state.2.Contains p ∨ (p = recvPn ∧ tally state.1 p + 1 = state.1.nbRecv)) := by
  -- The two branches differ in whether the counter now reaches the number of receivers.
  rw [ackPacket_eq]
  split
  · rename_i complete
    refine ⟨⟨rfl, rfl⟩, wf.insert (Nat.le_succ _), fun p => ⟨?_, ?_⟩⟩
    · rw [OrdMap.find?_erase]
      by_cases same : p = recvPn
      · subst same
        rw [if_pos rfl, if_pos rfl, if_pos complete]
      · rw [if_neg same, if_neg same, OrdMap.find?_insert, if_neg same]
    · rw [RangeSet.contains_insert wf (Nat.le_succ _)]
      constructor
      · intro either
        rcases either with inside | already
        · have same : p = recvPn := by omega
          exact Or.inr ⟨same, by rw [same]; exact complete⟩
        · exact Or.inl already
      · intro either
        rcases either with already | ⟨same, -⟩
        · exact Or.inr already
        · exact Or.inl (by omega)
  · rename_i partial_
    refine ⟨⟨rfl, rfl⟩, wf, fun p => ⟨?_, ?_⟩⟩
    · rw [OrdMap.find?_insert]
      by_cases same : p = recvPn
      · subst same
        rw [if_pos rfl, if_pos rfl, if_neg partial_]
      · rw [if_neg same, if_neg same]
    · constructor
      · exact Or.inl
      · intro either
        rcases either with already | ⟨same, complete⟩
        · exact already
        · subst same
          exact absurd complete partial_

/-- The loop of `on_ack_received` handles each packet of distinct ones by itself. -/
theorem foldl_ackPacket (packets : List Nat) :
    ∀ state : McAck × RangeSet, state.2.Wf → packets.Nodup →
      ((packets.foldl ackPacket state).1.nbRecv = state.1.nbRecv ∧
        (packets.foldl ackPacket state).1.ackedFull = state.1.ackedFull) ∧
      (packets.foldl ackPacket state).2.Wf ∧
      ∀ p, (packets.foldl ackPacket state).1.acked.find? p =
          (if p ∈ packets then
            if tally state.1 p + 1 = state.1.nbRecv then none else some (tally state.1 p + 1)
          else state.1.acked.find? p) ∧
        ((packets.foldl ackPacket state).2.Contains p ↔
          state.2.Contains p ∨ (p ∈ packets ∧ tally state.1 p + 1 = state.1.nbRecv)) := by
  -- Induction on the packets; since they are distinct, each is counted by one turn only.
  induction packets with
  | nil => intro state wf _; simp [wf]
  | cons packet rest ih =>
    intro state wf distinct
    obtain ⟨absent, tail⟩ := List.nodup_cons.mp distinct
    obtain ⟨⟨size, full⟩, wf', here⟩ := ackPacket_spec wf packet
    obtain ⟨⟨size', full'⟩, wf'', later⟩ := ih (ackPacket state packet) wf' tail
    refine ⟨⟨by rw [List.foldl_cons, size', size], by rw [List.foldl_cons, full', full]⟩,
      by rw [List.foldl_cons]; exact wf'', fun p => ?_⟩
    rw [List.foldl_cons]
    obtain ⟨counts, reports⟩ := later p
    obtain ⟨counted, reported⟩ := here p
    rw [counts, reports, size]
    by_cases same : p = packet
    · -- The packet does not occur again, so the rest of the loop leaves it alone.
      subst same
      rw [if_neg absent, counted, reported]
      simp [absent]
    · have untouched : tally (ackPacket state packet).1 p = tally state.1 p := by
        rw [tally, counted, if_neg same, tally]
      rw [untouched, counted, if_neg same, reported]
      simp [same]

/-- The closing of `on_ack_received`, which stores the complete packets unless there are none. -/
def putBack (result : McAck × RangeSet) : McAck :=
  if 0 < result.2.len then { result.1 with ackedFull := some result.2 } else result.1

/-- Storing no packets and not storing them read the same. -/
theorem putBack_spec {result : McAck × RangeSet} (taken : result.1.ackedFull = none)
    (wf : result.2.Wf) :
    (putBack result).nbRecv = result.1.nbRecv ∧ (putBack result).acked = result.1.acked ∧
      (putBack result).waiting.Wf ∧
      ∀ p, (putBack result).waiting.Contains p ↔ result.2.Contains p := by
  unfold putBack
  split
  · exact ⟨rfl, rfl, wf, fun p => Iff.rfl⟩
  · rename_i none
    have empty : result.2.iter = [] := List.eq_nil_of_length_eq_zero (Nat.eq_zero_of_not_pos none)
    refine ⟨rfl, rfl, by rw [waiting, taken]; exact RangeSet.wf_default, fun p => ?_⟩
    rw [waiting, taken, Option.getD_none, RangeSet.contains_default, RangeSet.Contains, empty,
      Intervals.covers_nil]

/-- What an acknowledgment does to each packet: its counter rises by one, or it is complete. -/
theorem onAckReceived_spec {mcAck : McAck} {ranges : RangeSet} (wf : mcAck.waiting.Wf)
    (separated : Intervals.Separated ranges.iter) :
    (mcAck.onAckReceived ranges).nbRecv = mcAck.nbRecv ∧
      (mcAck.onAckReceived ranges).waiting.Wf ∧
      ∀ p, (mcAck.onAckReceived ranges).acked.find? p =
          (if p ∈ ranges.flatten then
            if mcAck.tally p + 1 = mcAck.nbRecv then none else some (mcAck.tally p + 1)
          else mcAck.acked.find? p) ∧
        ((mcAck.onAckReceived ranges).waiting.Contains p ↔
          mcAck.waiting.Contains p ∨ (p ∈ ranges.flatten ∧ mcAck.tally p + 1 = mcAck.nbRecv)) := by
  -- The complete packets are taken out before the loop, extended in it, and put back behind it.
  obtain ⟨⟨size, taken⟩, wf', each⟩ := foldl_ackPacket ranges.flatten
    ({ mcAck with ackedFull := none }, mcAck.waiting) wf (RangeSet.flatten_nodup separated)
  have shape : mcAck.onAckReceived ranges = putBack (ranges.flatten.foldl ackPacket
    ({ mcAck with ackedFull := none }, mcAck.waiting)) := rfl
  obtain ⟨kept, counters, stored, same⟩ := putBack_spec taken wf'
  rw [shape]
  refine ⟨kept.trans size, stored, fun p => ⟨?_, ?_⟩⟩
  · rw [counters]
    exact (each p).1
  · rw [same]
    exact (each p).2

end McAck

end Flexicast
