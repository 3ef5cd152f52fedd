import Flexicast.Ack.McAck
import Flexicast.Recovery.Accounting

/-! Draining the acknowledgment aggregator after the source has processed aggregated acknowledgments. -/

namespace Flexicast

open Loss

section Source

/-- The lowest packet number still in the sending queue of the application epoch. -/
def Loss.Recovery.getLowestPnAppEpoch (self : Recovery) : Option Nat :=
  ((self.epochs .application).sentPackets.map Sent.pktNum).head?

/-- Gives the packets that all receivers acknowledged to the source, and drains the aggregator. -/
def Loss.Recovery.fcOnAckReceived (search : List Nat → Nat → Nat) (source : Recovery) (mcAck : Option McAck)
    (ranges : RangeSet) (before after : Timing) (now : Int) : Option (Recovery × Option McAck) := do
  let source ← source.onAckReceived search ranges .application before after now
  match mcAck with
  | some mcAck => return (source, some (← mcAck.drainPackets source.getLowestPnAppEpoch))
  | none => return (source, none)

end Source

namespace McAck

section Draining

/-- The largest packet number that is known to be finished when packets from a number on are still out. -/
def finished (mcAck : McAck) : Option Nat → Option Nat
  | some lowest => if lowest = 0 then none else some (lowest - 1)
  | none => mcAck.acked.keys.getLast?

/-- Draining keeps the counters that are not below the bound, and none without one. -/
structure Drained (bound : Option Nat) (before after : McAck) : Prop where
  counters : ∀ pn, after.acked.find? pn = if bound.any (· ≤ pn) then before.acked.find? pn else none
  largest : after.largestPn = before.finished bound

theorem drainPackets_some {mcAck after : McAck} {bound : Nat}
    (done : mcAck.drainPackets (some bound) = some after) : 0 < bound ∧ Drained (some bound) mcAck after := by
  cases bound with
  | zero => nomatch done
  | succ largest =>
    cases done
    exact ⟨Nat.succ_pos _, fun pn => by simp, rfl⟩

theorem drainPackets_none {mcAck after : McAck} (done : mcAck.drainPackets none = some after) :
    (∀ pn, after.acked.find? pn = none) ∧ after.largestPn = mcAck.acked.entries.getLast?.map Prod.snd := by
  cases done
  exact ⟨fun pn => OrdMap.find?_empty pn, rfl⟩

/-- Draining does what it should just when the first packet is not still out, and without a bound the last packet was
acknowledged as often as its number says. -/
theorem drains_iff (mcAck : McAck) (bound : Option Nat) :
    (∃ after, mcAck.drainPackets bound = some after ∧ Drained bound mcAck after) ↔
      bound ≠ some 0 ∧ (bound = none → ∀ last, mcAck.acked.entries.getLast? = some last → last.2 = last.1) := by
  cases bound with
  | some lowest =>
    constructor
    · rintro ⟨after, done, -⟩
      have positive := (drainPackets_some done).1
      refine ⟨fun same => ?_, fun missing => nomatch missing⟩
      cases same
      exact absurd positive (Nat.lt_irrefl 0)
    · rintro ⟨positive, -⟩
      cases lowest with
      | zero => exact absurd rfl positive
      | succ largest => exact ⟨_, rfl, (drainPackets_some rfl).2⟩
  | none =>
    have keys : mcAck.acked.keys.getLast? = mcAck.acked.entries.getLast?.map Prod.fst := List.getLast?_map
    constructor
    · rintro ⟨after, done, drained⟩
      refine ⟨nofun, fun _ last found => ?_⟩
      -- What should be left is the number of the last packet; what is left is its counter.
      have left := (drainPackets_none done).2
      rw [drained.largest, finished, keys, found] at left
      exact (Option.some.inj left).symm
    · rintro ⟨-, same⟩
      refine ⟨_, rfl, fun pn => OrdMap.find?_empty pn, ?_⟩
      show mcAck.acked.entries.getLast?.map Prod.snd = mcAck.acked.keys.getLast?
      rw [keys]
      cases found : mcAck.acked.entries.getLast? with
      | none => rfl
      | some last => exact congrArg some (same rfl last found)

/-- The source has sent two packets. -/
def twoOut : Recovery :=
  ((Connection.new none .serverFlexicast true).recovery.onPacketSent (flightPacket 0) .application 0).onPacketSent
    (flightPacket 1) .application 1

/-- Its only receiver acknowledges the second packet, while the first one is still out. -/
theorem first_packet_out :
    ¬ ∀ (search : List Nat → Nat → Nat) (source after : Recovery) (mcAck : McAck) (ranges : AckRanges)
      (before later : Timing) (now : Int),
      source.onAckReceived search ranges.1 .application before later now = some after →
      ∃ drained, source.fcOnAckReceived search (some mcAck) ranges.1 before later now = some (after, some drained) ∧
        Drained after.getLowestPnAppEpoch mcAck drained := by
  intro always
  have lowest : (twoOut.onAckReceived firstAtLeast (ackOf 1).1 .application secondTiming secondTiming 10).map
      Recovery.getLowestPnAppEpoch = some (some 0) := by decide
  obtain ⟨after, done, zero⟩ := Option.map_eq_some_iff.mp lowest
  obtain ⟨drained, drains, -⟩ := always firstAtLeast twoOut after (McAck.new.newRecv 0) (ackOf 1) secondTiming
    secondTiming 10 done
  unfold Recovery.fcOnAckReceived at drains
  rw [done] at drains
  simp only [Option.bind_eq_bind, Option.bind_some, zero] at drains
  nomatch drains

end Draining

end McAck

end Flexicast
