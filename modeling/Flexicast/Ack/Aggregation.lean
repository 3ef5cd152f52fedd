import Flexicast.Ack.PacketLaws
import Flexicast.Lib.Runs

/-! A group of receivers behind one aggregator: when its reports can be trusted. -/

namespace Flexicast

/-- What can happen to the aggregator of a group. -/
inductive GroupEvent where
  /-- A receiver registers, and will see packets from a first number on. -/
  | join (recv firstPn : Nat)
  /-- A receiver acknowledges packets. -/
  | ack (recv : Nat) (ranges : RangeSet)
  /-- The source collects the fully acknowledged packets. -/
  | collect
  | leave (recv : Nat)

/-- An aggregator with the history that it does not keep itself. -/
structure Group where
  mcAck : McAck
  /-- The registered receivers, each with its first packet number. -/
  members : List (Nat × Nat)
  /-- Every receiver that ever registered. -/
  joined : List Nat
  /-- The receivers that acknowledged a packet. -/
  seen : Nat → List Nat
  /-- The receivers that the open counter of a packet stands for. -/
  counted : Nat → List Nat
  /-- The packets reported so far, in order. -/
  reported : List Nat

namespace Group

open McAck

/-- A group before anyone joined. -/
def start : Group := ⟨McAck.new, [], [], fun _ => [], fun _ => [], []⟩

/-- The packets that a call of `full_ack` reports. -/
def report (group : Group) : List Nat := (group.mcAck.fullAck.1.getD RangeSet.default).flatten

/-- One step of the group. -/
def next (group : Group) : GroupEvent → Group
  | .join recv firstPn =>
    { group with
      mcAck := group.mcAck.newRecv firstPn
      members := (recv, firstPn) :: group.members
      joined := recv :: group.joined
      -- The open packets before its first one are credited to the new receiver.
      counted := fun p =>
        if group.mcAck.acked.contains p && decide (p < firstPn) then recv :: group.counted p
        else group.counted p }
  | .ack recv ranges =>
    { group with
      mcAck := group.mcAck.onAckReceived ranges
      seen := fun p => if p ∈ ranges.flatten then recv :: group.seen p else group.seen p
      -- A packet whose counter was closed counts nobody any more.
      counted := fun p =>
        if p ∈ ranges.flatten then
          if (group.mcAck.onAckReceived ranges).acked.contains p then recv :: group.counted p else []
        else group.counted p }
  | .collect =>
    { group with
      mcAck := group.mcAck.fullAck.2
      reported := group.reported ++ group.report }
  | .leave recv =>
    { group with
      mcAck := group.mcAck.removeRecv.getD group.mcAck
      members := group.members.filter fun member => decide (member.1 ≠ recv) }

/-- What the callers of the aggregator promise: a receiver registers once and acknowledges a packet once. -/
def Allowed (group : Group) : GroupEvent → Prop
  | .join recv _ => recv ∉ group.joined
  | .ack recv ranges =>
    Intervals.Separated ranges.iter ∧
      ∃ firstPn, (recv, firstPn) ∈ group.members ∧
        ∀ p ∈ ranges.flatten, firstPn ≤ p ∧ recv ∉ group.seen p
  | .collect => True
  | .leave recv => ∃ firstPn, (recv, firstPn) ∈ group.members

/-- A packet was moved to the fully acknowledged ones, and perhaps already reported. -/
def Moved (group : Group) (p : Nat) : Prop := p ∈ group.reported ∨ group.mcAck.waiting.Contains p

/--
When a step leaves the counters able to tell who acknowledged.

A receiver that joins is credited for open packets only, so no packet may wait for collection
that it must still see, and no packet may be opened later that it will not see.
A receiver that leaves stays in the counters, so it may not be counted in any,
and nothing is reported when it leaves, so it may not be the last one missing.
-/
def Clean (group : Group) : GroupEvent → Prop
  | .join _ firstPn => ∀ p, group.mcAck.waiting.Contains p → p < firstPn
  | .ack _ ranges =>
    ∀ p ∈ ranges.flatten, ¬ group.Moved p → group.mcAck.acked.find? p = none →
      ∀ member ∈ group.members, member.2 ≤ p
  | .collect => True
  | .leave recv =>
    ∀ p, group.mcAck.acked.contains p = true →
      recv ∉ group.counted p ∧ (¬ group.Moved p → group.mcAck.tally p + 1 < group.mcAck.nbRecv)

/-- A receiver has nothing left to do for a packet: it acknowledged it, or will never see it. -/
def Done (group : Group) (member : Nat × Nat) (p : Nat) : Prop :=
  member.1 ∈ group.seen p ∨ p < member.2

/-- What holds of one packet in a group that is run cleanly. -/
structure PacketInv (group : Group) (p : Nat) : Prop where
  /-- The counter is the number of receivers it stands for. -/
  tally : group.mcAck.tally p = (group.counted p).length
  /-- An open counter stands for someone. -/
  opened : group.mcAck.acked.find? p ≠ none → group.counted p ≠ []
  distinct : (group.counted p).Nodup
  /-- Only registered receivers with nothing left to do are counted. -/
  done : ∀ recv ∈ group.counted p, ∃ firstPn, (recv, firstPn) ∈ group.members ∧
    group.Done (recv, firstPn) p
  /-- Until a packet is moved, some receiver is missing from its counter. -/
  missing : ¬ group.Moved p → group.counted p ≠ [] → (group.counted p).length < group.members.length
  /-- Until a packet has a counter or is moved, nobody acknowledged it. -/
  unopened : ¬ group.Moved p → group.counted p = [] → ∀ member ∈ group.members, member.1 ∉ group.seen p
  /-- Until a packet is moved, its counter stands for everyone with nothing left to do. -/
  everyone : ¬ group.Moved p → group.counted p ≠ [] → ∀ member ∈ group.members,
    group.Done member p → member.1 ∈ group.counted p
  /-- A packet that waits for collection needs nothing from anyone. -/
  complete : group.mcAck.waiting.Contains p → ∀ member ∈ group.members, group.Done member p

/-- What holds of a group that is run cleanly. -/
structure Inv (group : Group) : Prop where
  /-- The aggregator knows how many receivers there are. -/
  size : group.mcAck.nbRecv = group.members.length
  distinct : (group.members.map Prod.fst).Nodup
  /-- Every registered receiver has joined, and so has everyone who acknowledged. -/
  joined : (∀ member ∈ group.members, member.1 ∈ group.joined) ∧
    ∀ p, ∀ recv ∈ group.seen p, recv ∈ group.joined
  /-- The waiting packets are held as well-formed ranges. -/
  waiting : group.mcAck.waiting.Wf
  packets : ∀ p, PacketInv group p

variable {recv p firstPn : Nat} {group : Group}

/-- Pairs with distinct first components are determined by them. -/
theorem snd_unique {members : List (Nat × Nat)} (distinct : (members.map Prod.fst).Nodup) {first first' : Nat}
    (here : (recv, first) ∈ members) (there : (recv, first') ∈ members) : first = first' := by
  -- The first component cannot occur a second time behind the pair in which it occurs first.
  induction members with
  | nil => simp at here
  | cons member rest ih =>
    rw [List.map_cons, List.nodup_cons] at distinct
    obtain ⟨absent, tail⟩ := distinct
    have listed : ∀ {first}, (recv, first) ∈ rest → recv ∈ rest.map Prod.fst := fun inside =>
      List.mem_map_of_mem inside
    rcases List.mem_cons.mp here with same | inside
    · rcases List.mem_cons.mp there with same' | inside'
      · rw [← same', Prod.mk.injEq] at same
        exact same.2
      · rw [← same] at absent
        exact absurd (listed inside') absent
    · rcases List.mem_cons.mp there with same' | inside'
      · rw [← same'] at absent
        exact absurd (listed inside) absent
      · exact ih tail inside inside'

theorem PacketInv.counted_subset (packet : PacketInv group p) : group.counted p ⊆ group.members.map Prod.fst := by
  intro recv member
  obtain ⟨firstPn, registered, -⟩ := packet.done recv member
  exact List.mem_map_of_mem registered

theorem inv_start : Inv start := by
  have idle : ∀ p, ¬ start.mcAck.waiting.Contains p := fun p => by
    show ¬ RangeSet.default.Contains p
    simp
  refine ⟨rfl, List.nodup_nil, ⟨by simp [start], by simp [start]⟩, RangeSet.wf_default, fun p => ?_⟩
  exact ⟨rfl, fun opened => absurd rfl opened, List.nodup_nil, by simp [start], fun _ some_ => absurd rfl some_,
    by simp [start], fun _ some_ => absurd rfl some_, fun waits => absurd waits (idle p)⟩

section Join

variable {group : Group} {recv firstPn : Nat}

/-- A newcomer has not been seen or counted anywhere. -/
theorem Inv.newcomer (inv : Inv group) (fresh : recv ∉ group.joined) (p : Nat) :
    recv ∉ group.seen p ∧ recv ∉ group.counted p ∧ recv ∉ group.members.map Prod.fst := by
  have unregistered : recv ∉ group.members.map Prod.fst := by
    intro listed
    obtain ⟨member, inside, same⟩ := List.mem_map.mp listed
    exact fresh (same ▸ inv.joined.1 member inside)
  exact ⟨fun seen => fresh (inv.joined.2 p recv seen),
    fun counted => unregistered ((inv.packets p).counted_subset counted), unregistered⟩

/-- A counter stands for someone exactly when it is open. -/
theorem PacketInv.open_iff {p : Nat} (packet : PacketInv group p) :
    group.mcAck.acked.contains p = true ↔ group.counted p ≠ [] := by
  -- The counter says how many it stands for, and an open one stands for someone.
  have tally := packet.tally
  have opened := packet.opened
  unfold McAck.tally at tally
  rw [OrdMap.contains]
  cases found : group.mcAck.acked.find? p with
  | none =>
    rw [found] at tally
    have none_ : group.counted p = [] := List.eq_nil_of_length_eq_zero tally.symm
    simp [none_]
  | some nb =>
    rw [found] at opened
    simpa using opened (by simp)

/-- The credit of a newcomer keeps every packet accounted for. -/
theorem PacketInv.join {p : Nat} (inv : Inv group) (fresh : recv ∉ group.joined)
    (early : group.mcAck.waiting.Contains p → p < firstPn) :
    PacketInv (group.next (.join recv firstPn)) p := by
  have packet := inv.packets p
  obtain ⟨unseen, uncounted, unregistered⟩ := inv.newcomer fresh p
  have counters := find?_newRecv group.mcAck firstPn p
  have tallies : (group.mcAck.newRecv firstPn).tally p =
      ((group.mcAck.acked.find? p).map fun nb => if p < firstPn then nb + 1 else nb).getD 0 := by
    rw [McAck.tally, counters]
  have old := packet.tally
  unfold McAck.tally at old
  have complete : group.mcAck.waiting.Contains p → ∀ member ∈ (recv, firstPn) :: group.members,
      group.Done member p := by
    intro waits member listed
    rcases List.mem_cons.mp listed with same | before
    · rw [same]
      exact Or.inr (early waits)
    · exact packet.complete waits member before
  by_cases credited : group.mcAck.acked.contains p = true ∧ p < firstPn
  · -- The packet is open, and the newcomer is credited for it.
    have counted : (group.next (.join recv firstPn)).counted p = recv :: group.counted p :=
      if_pos (by simp [credited])
    have someone := packet.open_iff.mp credited.1
    obtain ⟨nb, found⟩ := Option.isSome_iff_exists.mp credited.1
    rw [found] at tallies old
    rw [Option.map_some, if_pos credited.2, Option.getD_some] at tallies
    rw [Option.getD_some] at old
    refine ⟨?_, fun _ => by rw [counted]; simp, ?_, ?_, ?_, ?_, ?_, complete⟩
    · rw [counted, List.length_cons, ← old]
      exact tallies
    · rw [counted]
      exact List.nodup_cons.mpr ⟨uncounted, packet.distinct⟩
    · intro other listed
      rw [counted] at listed
      rcases List.mem_cons.mp listed with same | before
      · rw [same]
        exact ⟨firstPn, List.mem_cons_self, Or.inr credited.2⟩
      · obtain ⟨first, registered, done⟩ := packet.done other before
        exact ⟨first, List.mem_cons_of_mem _ registered, done⟩
    · intro unmoved _
      rw [counted]
      exact Nat.succ_lt_succ (packet.missing unmoved someone)
    · intro _ none_
      rw [counted] at none_
      simp at none_
    · intro unmoved _ member listed done
      rw [counted]
      rcases List.mem_cons.mp listed with same | before
      · rw [same]
        exact List.mem_cons_self
      · exact List.mem_cons_of_mem _ (packet.everyone unmoved someone member before done)
  · -- The packet is not open, or the newcomer must still see it.
    have counted : (group.next (.join recv firstPn)).counted p = group.counted p :=
      if_neg (by simpa using credited)
    have same : (group.mcAck.newRecv firstPn).acked.find? p = group.mcAck.acked.find? p := by
      rw [counters]
      cases found : group.mcAck.acked.find? p with
      | none => rfl
      | some nb =>
        rw [Option.map_some, if_neg fun below => credited ⟨by simp [OrdMap.contains, found], below⟩]
    refine ⟨?_, ?_, ?_, ?_, ?_, ?_, ?_, complete⟩
    · rw [counted, ← packet.tally, McAck.tally, McAck.tally]
      exact congrArg (·.getD 0) same
    · rw [counted]
      exact fun opened => packet.opened (same ▸ opened)
    · rw [counted]
      exact packet.distinct
    · intro other listed
      rw [counted] at listed
      obtain ⟨first, registered, done⟩ := packet.done other listed
      exact ⟨first, List.mem_cons_of_mem _ registered, done⟩
    · intro unmoved someone
      rw [counted] at someone ⊢
      exact Nat.lt_succ_of_lt (packet.missing unmoved someone)
    · intro unmoved none_ member listed
      rw [counted] at none_
      rcases List.mem_cons.mp listed with new | before
      · rw [new]
        exact unseen
      · exact packet.unopened unmoved none_ member before
    · intro unmoved someone member listed done
      rw [counted] at someone ⊢
      rcases List.mem_cons.mp listed with new | before
      · -- Were the newcomer done with an open packet, it would have been credited.
        rw [new] at done
        exact absurd ⟨packet.open_iff.mpr someone, done.resolve_left unseen⟩ credited
      · exact packet.everyone unmoved someone member before done

/-- A receiver that joins keeps the group accounted for. -/
theorem Inv.join (inv : Inv group) (allowed : group.Allowed (.join recv firstPn))
    (clean : group.Clean (.join recv firstPn)) : Inv (group.next (.join recv firstPn)) := by
  -- The newcomer is new to all lists, and what it does to each packet is a lemma of its own.
  have fresh : recv ∉ group.joined := allowed
  refine ⟨?_, ?_, ⟨?_, ?_⟩, inv.waiting, fun p => PacketInv.join inv fresh (clean p)⟩
  · exact congrArg (· + 1) inv.size
  · exact List.nodup_cons.mpr ⟨(inv.newcomer fresh 0).2.2, inv.distinct⟩
  · intro member listed
    rcases List.mem_cons.mp listed with new | before
    · rw [new]
      exact List.mem_cons_self
    · exact List.mem_cons_of_mem _ (inv.joined.1 member before)
  · exact fun p other seen => List.mem_cons_of_mem _ (inv.joined.2 p other seen)

end Join

/-- A packet that a step leaves alone stays accounted for. -/
theorem PacketInv.congr {group' : Group} (packet : PacketInv group p)
    (counter : group'.mcAck.acked.find? p = group.mcAck.acked.find? p) (counted : group'.counted p = group.counted p)
    (seen : group'.seen p = group.seen p) (members : group'.members = group.members)
    (moved : group'.Moved p ↔ group.Moved p)
    (waits : group'.mcAck.waiting.Contains p → group.mcAck.waiting.Contains p) : PacketInv group' p := by
  -- Every clause speaks of the things that are assumed to be the same.
  have same : ∀ member, group'.Done member p ↔ group.Done member p := by
    intro member
    rw [Done, Done, seen]
  refine ⟨?_, ?_, ?_, ?_, ?_, ?_, ?_, ?_⟩
  · rw [McAck.tally, counter, counted]
    exact packet.tally
  · rw [counter, counted]
    exact packet.opened
  · rw [counted]
    exact packet.distinct
  · intro recv listed
    rw [counted] at listed
    obtain ⟨first, registered, done⟩ := packet.done recv listed
    exact ⟨first, by rw [members]; exact registered, (same _).mpr done⟩
  · rw [moved, counted, members]
    exact packet.missing
  · rw [moved, counted, members, seen]
    exact packet.unopened
  · intro unmoved someone member listed done
    rw [counted] at someone ⊢
    rw [members] at listed
    exact packet.everyone (fun was => unmoved (moved.mpr was)) someone member listed ((same _).mp done)
  · intro waiting member listed
    rw [members] at listed
    exact (same _).mpr (packet.complete (waits waiting) member listed)

section Ack

variable {group : Group} {recv firstPn : Nat} {ranges : RangeSet}

theorem Inv.uncounted {p : Nat} (inv : Inv group) (registered : (recv, firstPn) ∈ group.members)
    (expected : firstPn ≤ p) (unseen : recv ∉ group.seen p) : recv ∉ group.counted p := by
  -- Whoever is counted has acknowledged the packet, or does not expect it.
  intro counted
  obtain ⟨first, listed, done⟩ := (inv.packets p).done recv counted
  have same := snd_unique inv.distinct registered listed
  rcases done with seen | before
  · exact unseen seen
  · simp only at before
    omega

/-- A counter that reaches the number of receivers stands for all of them. -/
theorem Inv.everyone_counted {p : Nat} (inv : Inv group) (registered : (recv, firstPn) ∈ group.members)
    (uncounted : recv ∉ group.counted p)
    (full : (group.counted p).length + 1 = group.members.length) :
    ∀ member ∈ group.members, member.1 ∈ recv :: group.counted p := by
  intro member listed
  refine Decidable.byContradiction fun absent => ?_
  -- The counted receivers and the absent one would be more than there are members.
  have distinct : (member.1 :: recv :: group.counted p).Nodup :=
    List.nodup_cons.mpr ⟨absent, List.nodup_cons.mpr ⟨uncounted, (inv.packets p).distinct⟩⟩
  have inside : member.1 :: recv :: group.counted p ⊆ group.members.map Prod.fst := by
    intro other among
    rcases List.mem_cons.mp among with same | among
    · rw [same]
      exact List.mem_map_of_mem listed
    · rcases List.mem_cons.mp among with same | among
      · rw [same]
        exact List.mem_map_of_mem registered
      · exact (inv.packets p).counted_subset among
  have most := distinct.length_le_of_subset inside
  simp only [List.length_cons, List.length_map] at most
  omega

theorem seen_ack {p : Nat} (acked : p ∈ ranges.flatten) :
    (group.next (.ack recv ranges)).seen p = recv :: group.seen p := if_pos acked

/-- A receiver that is done with a packet stays so. -/
theorem Done.ack {p : Nat} (acked : p ∈ ranges.flatten) {member : Nat × Nat} (done : group.Done member p) :
    (group.next (.ack recv ranges)).Done member p := by
  rcases done with before | never
  · exact Or.inl (by rw [seen_ack acked]; exact List.mem_cons_of_mem _ before)
  · exact Or.inr never

/-- The last receiver that acknowledges a packet closes its counter, and the packet is moved. -/
theorem PacketInv.ack_last {p : Nat} (inv : Inv group) (registered : (recv, firstPn) ∈ group.members)
    (uncounted : recv ∉ group.counted p) (acked : p ∈ ranges.flatten)
    (full : group.mcAck.tally p + 1 = group.mcAck.nbRecv)
    (counter : (group.mcAck.onAckReceived ranges).acked.find? p = none)
    (moved : (group.next (.ack recv ranges)).Moved p) : PacketInv (group.next (.ack recv ranges)) p := by
  have packet := inv.packets p
  have size := inv.size
  have tally := packet.tally
  have counted : (group.next (.ack recv ranges)).counted p = [] := by
    show (if p ∈ ranges.flatten then _ else _) = _
    rw [if_pos acked, OrdMap.contains, counter]
    rfl
  refine ⟨?_, fun opened => absurd counter opened, by rw [counted]; exact List.nodup_nil, ?_,
    fun unmoved => absurd moved unmoved, fun unmoved => absurd moved unmoved,
    fun unmoved => absurd moved unmoved, ?_⟩
  · show ((group.mcAck.onAckReceived ranges).acked.find? p).getD 0 = _
    rw [counter, counted]
    rfl
  · intro other listed
    rw [counted] at listed
    simp at listed
  · intro _ member listed
    have among := inv.everyone_counted registered uncounted (by omega) member listed
    rcases List.mem_cons.mp among with same | before
    · exact Or.inl (by rw [seen_ack acked, same]; exact List.mem_cons_self)
    · obtain ⟨first, also, done⟩ := packet.done member.1 before
      have same := snd_unique inv.distinct also (show (member.1, member.2) ∈ _ from listed)
      rw [same] at done
      exact Done.ack acked done

/-- A receiver is added to the counter of a packet that others are still to acknowledge. -/
theorem PacketInv.ack_more {p : Nat} (inv : Inv group) (registered : (recv, firstPn) ∈ group.members)
    (uncounted : recv ∉ group.counted p) (acked : p ∈ ranges.flatten)
    (full : ¬ group.mcAck.tally p + 1 = group.mcAck.nbRecv)
    (counter : (group.mcAck.onAckReceived ranges).acked.find? p = some (group.mcAck.tally p + 1))
    (waits : (group.mcAck.onAckReceived ranges).waiting.Contains p ↔ group.mcAck.waiting.Contains p)
    (clean : ¬ group.Moved p → group.mcAck.acked.find? p = none → ∀ member ∈ group.members, member.2 ≤ p) :
    PacketInv (group.next (.ack recv ranges)) p := by
  have packet := inv.packets p
  have size := inv.size
  have tally := packet.tally
  have seen := @seen_ack group recv ranges p acked
  have counted : (group.next (.ack recv ranges)).counted p = recv :: group.counted p := by
    show (if p ∈ ranges.flatten then _ else _) = _
    rw [if_pos acked, OrdMap.contains, counter]
    rfl
  have unmoves : ¬ (group.next (.ack recv ranges)).Moved p → ¬ group.Moved p := by
    intro unmoved either
    rcases either with reported | waited
    · exact unmoved (Or.inl reported)
    · exact unmoved (Or.inr (waits.mpr waited))
  have some_ : 0 < group.members.length := List.length_pos_of_mem registered
  refine ⟨?_, fun _ => by rw [counted]; simp, ?_, ?_, ?_, ?_, ?_, ?_⟩
  · show ((group.mcAck.onAckReceived ranges).acked.find? p).getD 0 = _
    rw [counter, counted, Option.getD_some, List.length_cons, tally]
  · rw [counted]
    exact List.nodup_cons.mpr ⟨uncounted, packet.distinct⟩
  · intro other listed
    rw [counted] at listed
    rcases List.mem_cons.mp listed with same | before
    · rw [same]
      exact ⟨firstPn, registered, Or.inl (by rw [seen]; exact List.mem_cons_self)⟩
    · obtain ⟨first, also, done⟩ := packet.done other before
      exact ⟨first, also, Done.ack acked done⟩
  · intro unmoved _
    rw [counted, List.length_cons]
    show _ < group.members.length
    by_cases none_ : group.counted p = []
    · rw [none_] at tally ⊢
      simp only [List.length_nil] at tally ⊢
      omega
    · have := packet.missing (unmoves unmoved) none_
      omega
  · intro _ none_
    rw [counted] at none_
    simp at none_
  · intro unmoved _ member listed done
    rw [counted]
    by_cases none_ : group.counted p = []
    · -- The counter is opened here, so nobody else acknowledged, and everyone must still see it.
      have closed : group.mcAck.acked.find? p = none :=
        Classical.byContradiction fun opened => packet.opened opened none_
      rcases done with now | never
      · rw [seen] at now
        rcases List.mem_cons.mp now with same | before
        · rw [same]
          exact List.mem_cons_self
        · exact absurd before (packet.unopened (unmoves unmoved) none_ member listed)
      · have := clean (unmoves unmoved) closed member listed
        omega
    · by_cases ourselves : member.1 = recv
      · rw [ourselves]
        exact List.mem_cons_self
      · refine List.mem_cons_of_mem _
          (packet.everyone (unmoves unmoved) none_ member listed ?_)
        rcases done with now | never
        · rw [seen] at now
          exact Or.inl ((List.mem_cons.mp now).resolve_left ourselves)
        · exact Or.inr never
  · exact fun now member listed => Done.ack acked (packet.complete (waits.mp now) member listed)

/-- An acknowledgment keeps every packet accounted for. -/
theorem PacketInv.ack {p : Nat} (inv : Inv group) (registered : (recv, firstPn) ∈ group.members)
    (separated : Intervals.Separated ranges.iter)
    (once : p ∈ ranges.flatten → firstPn ≤ p ∧ recv ∉ group.seen p)
    (clean : p ∈ ranges.flatten → ¬ group.Moved p → group.mcAck.acked.find? p = none →
      ∀ member ∈ group.members, member.2 ≤ p) :
    PacketInv (group.next (.ack recv ranges)) p := by
  obtain ⟨-, -, each⟩ := onAckReceived_spec inv.waiting separated
  obtain ⟨counter, waits⟩ := each p
  by_cases acked : p ∈ ranges.flatten
  · obtain ⟨expected, unseen⟩ := once acked
    have uncounted := inv.uncounted registered expected unseen
    rw [if_pos acked] at counter
    by_cases full : group.mcAck.tally p + 1 = group.mcAck.nbRecv
    · rw [if_pos full] at counter
      have moved : (group.next (.ack recv ranges)).Moved p := Or.inr (waits.mpr (Or.inr ⟨acked, full⟩))
      exact PacketInv.ack_last inv registered uncounted acked full counter moved
    · rw [if_neg full] at counter
      have still := waits.trans (or_iff_left fun both => full both.2)
      exact PacketInv.ack_more inv registered uncounted acked full counter still (clean acked)
  · -- The acknowledgment says nothing about this packet.
    rw [if_neg acked] at counter
    refine (inv.packets p).congr counter (if_neg acked) (if_neg acked) rfl ?_ ?_
    · exact or_congr_right (waits.trans ⟨fun either => either.resolve_right fun both => acked both.1,
        Or.inl⟩)
    · exact fun now => (waits.mp now).resolve_right fun both => acked both.1

/-- An acknowledgment keeps the group accounted for. -/
theorem Inv.ack (inv : Inv group) (allowed : group.Allowed (.ack recv ranges))
    (clean : group.Clean (.ack recv ranges)) : Inv (group.next (.ack recv ranges)) := by
  -- Each packet is handled by itself; what is left is that the receiver has joined before.
  obtain ⟨separated, firstPn, registered, once⟩ := allowed
  obtain ⟨size, wf, -⟩ := onAckReceived_spec inv.waiting separated
  refine ⟨size.trans inv.size, inv.distinct, ⟨inv.joined.1, ?_⟩, wf, fun p =>
    PacketInv.ack inv registered separated (once p) (clean p)⟩
  intro p other seen
  by_cases acked : p ∈ ranges.flatten
  · rw [show (group.next (.ack recv ranges)).seen p = recv :: group.seen p from if_pos acked] at seen
    rcases List.mem_cons.mp seen with same | before
    · rw [same]
      exact inv.joined.1 _ registered
    · exact inv.joined.2 p other before
  · rw [show (group.next (.ack recv ranges)).seen p = group.seen p from if_neg acked] at seen
    exact inv.joined.2 p other seen

end Ack

/-- Collecting the reported packets keeps the group accounted for. -/
theorem Inv.collect (inv : Inv group) : Inv (group.next .collect) := by
  have emptied : ∀ p, ¬ (group.next .collect).mcAck.waiting.Contains p := by
    intro p
    show ¬ RangeSet.default.Contains p
    simp
  refine ⟨inv.size, inv.distinct, inv.joined, RangeSet.wf_default, fun p => ?_⟩
  refine (inv.packets p).congr rfl rfl rfl rfl ?_ fun now => absurd now (emptied p)
  -- What was waiting is now reported.
  have moved : (group.next .collect).Moved p ↔
      p ∈ group.reported ++ group.mcAck.waiting.flatten ∨ RangeSet.default.Contains p := Iff.rfl
  rw [moved, List.mem_append, RangeSet.mem_flatten, RangeSet.contains_default, or_false]
  exact Iff.rfl

/-- One receiver less is registered after one has left. -/
theorem length_leave {members : List (Nat × Nat)} (distinct : (members.map Prod.fst).Nodup)
    (registered : (recv, firstPn) ∈ members) :
    (members.filter fun member => decide (member.1 ≠ recv)).length + 1 = members.length := by
  induction members with
  | nil => simp at registered
  | cons member rest ih =>
    rw [List.map_cons, List.nodup_cons] at distinct
    obtain ⟨absent, tail⟩ := distinct
    rw [List.filter_cons]
    by_cases same : member.1 = recv
    · -- Nobody behind the receiver has its name.
      have kept : rest.filter (fun member => decide (member.1 ≠ recv)) = rest := by
        refine List.filter_eq_self.mpr fun other among => decide_eq_true fun also => absent ?_
        rw [same, ← also]
        exact List.mem_map_of_mem among
      rw [if_neg (by simpa using same), kept, List.length_cons]
    · rw [if_pos (by simpa using same)]
      have among := (List.mem_cons.mp registered).resolve_left fun this => same (by rw [← this])
      simp only [List.length_cons]
      rw [ih tail among]

/-- A receiver that leaves keeps the group accounted for. -/
theorem Inv.leave (inv : Inv group) (allowed : group.Allowed (.leave recv)) (clean : group.Clean (.leave recv)) :
    Inv (group.next (.leave recv)) := by
  obtain ⟨firstPn, registered⟩ := allowed
  have size := inv.size
  have fewer := length_leave inv.distinct registered
  have some_ : group.mcAck.nbRecv ≠ 0 := by
    have := List.length_pos_of_mem registered
    omega
  -- The aggregator only lowers its number of receivers.
  have removed : (group.next (.leave recv)).mcAck =
      { group.mcAck with nbRecv := group.mcAck.nbRecv - 1 } := by
    show group.mcAck.removeRecv.getD group.mcAck = _
    rw [removeRecv, if_neg some_, Option.getD_some]
  have stay : ∀ member, member ∈ (group.next (.leave recv)).members ↔
      member ∈ group.members ∧ member.1 ≠ recv := by
    intro member
    show member ∈ group.members.filter _ ↔ _
    rw [List.mem_filter, decide_eq_true_eq]
  have remaining : (group.next (.leave recv)).members.length + 1 = group.members.length := fewer
  refine ⟨?_, ?_, ⟨fun member listed => inv.joined.1 member ((stay member).mp listed).1, inv.joined.2⟩,
    ?_, fun p => ?_⟩
  · rw [removed]
    show group.mcAck.nbRecv - 1 = _
    omega
  · exact inv.distinct.sublist (List.filter_sublist.map _)
  · rw [removed]
    exact inv.waiting
  · have packet := inv.packets p
    have counter : (group.next (.leave recv)).mcAck.acked.find? p = group.mcAck.acked.find? p := by
      rw [removed]
    have waits : (group.next (.leave recv)).mcAck.waiting = group.mcAck.waiting := by
      rw [removed]
      rfl
    have moved : (group.next (.leave recv)).Moved p ↔ group.Moved p := by
      rw [Moved, waits]
      exact Iff.rfl
    refine ⟨?_, ?_, packet.distinct, ?_, ?_, ?_, ?_, ?_⟩
    · rw [McAck.tally, counter]
      exact packet.tally
    · rw [counter]
      exact packet.opened
    · intro other listed
      obtain ⟨first, also, done⟩ := packet.done other listed
      have someone : group.counted p ≠ [] := List.ne_nil_of_mem listed
      refine ⟨first, (stay _).mpr ⟨also, fun same => ?_⟩, done⟩
      rw [show other = recv from same] at listed
      exact (clean p (packet.open_iff.mpr someone)).1 listed
    · intro unmoved someone
      have room := (clean p (packet.open_iff.mpr someone)).2 fun was => unmoved (moved.mpr was)
      have tally := packet.tally
      show (group.counted p).length < _
      omega
    · exact fun unmoved none_ member listed =>
        packet.unopened (fun was => unmoved (moved.mpr was)) none_ member ((stay member).mp listed).1
    · exact fun unmoved someone member listed done =>
        packet.everyone (fun was => unmoved (moved.mpr was)) someone member
          ((stay member).mp listed).1 done
    · intro now member listed
      rw [waits] at now
      exact packet.complete now member ((stay member).mp listed).1

/-- Every clean step keeps the group accounted for. -/
theorem Inv.next (inv : Inv group) (event : GroupEvent) (ok : group.Allowed event ∧ group.Clean event) :
    Inv (group.next event) := by
  cases event with
  | join recv firstPn => exact inv.join ok.1 ok.2
  | ack recv ranges => exact inv.ack ok.1 ok.2
  | collect => exact inv.collect
  | leave recv => exact inv.leave ok.1 ok.2

/-- In a group that is accounted for, a report is about packets that nobody is missing. -/
theorem Inv.sound (inv : Inv group) (reports : p ∈ group.report) :
    ∀ member ∈ group.members, member.2 ≤ p → member.1 ∈ group.seen p := by
  intro member listed expected
  have waits : group.mcAck.waiting.Contains p := RangeSet.mem_flatten.mp reports
  refine ((inv.packets p).complete waits member listed).resolve_right fun never => ?_
  omega

/-- In a group that is accounted for, a packet nobody is missing has been moved. -/
theorem Inv.complete (inv : Inv group) (someone : ∃ member ∈ group.members, member.1 ∈ group.seen p)
    (everyone : ∀ member ∈ group.members, member.2 ≤ p → member.1 ∈ group.seen p) : group.Moved p := by
  refine Classical.byContradiction fun unmoved => ?_
  have packet := inv.packets p
  obtain ⟨first, listed, seen⟩ := someone
  have counted : group.counted p ≠ [] := fun none_ => packet.unopened unmoved none_ first listed seen
  -- Everyone is done with the packet and thus counted, but its counter is short of someone.
  have all : group.members.map Prod.fst ⊆ group.counted p := by
    intro recv among
    obtain ⟨member, inside, same⟩ := List.mem_map.mp among
    rw [← same]
    refine packet.everyone unmoved counted member inside ?_
    by_cases expected : member.2 ≤ p
    · exact Or.inl (everyone member inside expected)
    · exact Or.inr (by omega)
  have most := inv.distinct.length_le_of_subset all
  have short := packet.missing unmoved counted
  rw [List.length_map] at most
  omega

/-- What keeps a packet from being moved a second time while nobody leaves. -/
structure OnceInv (group : Group) : Prop where
  /-- Someone who acknowledged a moved packet is not in its counter, and never will be. -/
  settled : ∀ p, group.Moved p → ∃ member ∈ group.members,
    member.1 ∈ group.seen p ∧ member.1 ∉ group.counted p
  /-- No packet is reported twice, or waits after it was reported. -/
  distinct : (group.reported ++ group.mcAck.waiting.flatten).Nodup

/-- A newcomer does not enter the counter in place of someone who acknowledged before. -/
theorem OnceInv.join (inv : Inv group) (once : OnceInv group) (allowed : group.Allowed (.join recv firstPn)) :
    OnceInv (group.next (.join recv firstPn)) := by
  -- The member that settled a packet before settles it still, and is not the newcomer.
  have fresh : recv ∉ group.joined := allowed
  refine ⟨?_, once.distinct⟩
  intro p moved
  obtain ⟨member, listed, seen, uncounted⟩ := once.settled p moved
  refine ⟨member, List.mem_cons_of_mem _ listed, seen, ?_⟩
  show member.1 ∉ if _ then _ else _
  split
  · intro counted
    rcases List.mem_cons.mp counted with same | before
    · exact fresh (same ▸ inv.joined.1 member listed)
    · exact uncounted before
  · exact uncounted

/-- A packet that was moved is not completed again. -/
theorem OnceInv.not_completed (inv : Inv group) (once : OnceInv group) (registered : (recv, firstPn) ∈ group.members)
    (expected : firstPn ≤ p) (unseen : recv ∉ group.seen p) (moved : group.Moved p) :
    group.mcAck.tally p + 1 ≠ group.mcAck.nbRecv := by
  -- A complete counter would hold the member that is known not to be in it.
  intro full
  obtain ⟨member, listed, seen, uncounted⟩ := once.settled p moved
  have tally := (inv.packets p).tally
  have size := inv.size
  have among := inv.everyone_counted registered (inv.uncounted registered expected unseen) (by omega)
    member listed
  rcases List.mem_cons.mp among with same | before
  · exact unseen (same ▸ seen)
  · exact uncounted before

/-- An acknowledgment moves only packets that were not moved before. -/
theorem OnceInv.ack {ranges : RangeSet} (inv : Inv group) (once : OnceInv group)
    (allowed : group.Allowed (.ack recv ranges)) : OnceInv (group.next (.ack recv ranges)) := by
  obtain ⟨separated, firstPn, registered, expected⟩ := allowed
  obtain ⟨-, wf, each⟩ := onAckReceived_spec inv.waiting separated
  constructor
  · intro p moved
    by_cases acked : p ∈ ranges.flatten
    · have seen : (group.next (.ack recv ranges)).seen p = recv :: group.seen p := if_pos acked
      have counted : (group.next (.ack recv ranges)).counted p =
          if (group.mcAck.onAckReceived ranges).acked.contains p then recv :: group.counted p
          else [] := if_pos acked
      by_cases before : group.Moved p
      · obtain ⟨member, listed, already, uncounted⟩ := once.settled p before
        refine ⟨member, listed, by rw [seen]; exact List.mem_cons_of_mem _ already, ?_⟩
        rw [counted]
        split
        · intro now
          rcases List.mem_cons.mp now with same | still
          · exact (expected p acked).2 (same ▸ already)
          · exact uncounted still
        · simp
      · -- The packet is completed by this acknowledgment, which closes its counter.
        have completed : group.mcAck.tally p + 1 = group.mcAck.nbRecv := by
          rcases moved with reported | waits
          · exact absurd (Or.inl reported) before
          · rcases (each p).2.mp waits with waited | ⟨-, full⟩
            · exact absurd (Or.inr waited) before
            · exact full
        refine ⟨(recv, firstPn), registered, by rw [seen]; exact List.mem_cons_self, ?_⟩
        rw [counted, OrdMap.contains, (each p).1, if_pos acked, if_pos completed]
        simp
    · have before : group.Moved p := by
        rcases moved with reported | waits
        · exact Or.inl reported
        · exact Or.inr (((each p).2.mp waits).resolve_right fun both => acked both.1)
      obtain ⟨member, listed, already, uncounted⟩ := once.settled p before
      refine ⟨member, listed, ?_, ?_⟩
      · rw [show (group.next (.ack recv ranges)).seen p = group.seen p from if_neg acked]
        exact already
      · rw [show (group.next (.ack recv ranges)).counted p = group.counted p from if_neg acked]
        exact uncounted
  · obtain ⟨reportedOnce, -, apart⟩ := List.nodup_append.mp once.distinct
    refine List.nodup_append.mpr ⟨reportedOnce, RangeSet.flatten_nodup wf.separated, ?_⟩
    intro p reported q waits same
    rw [← same] at waits
    rcases (each p).2.mp (RangeSet.mem_flatten.mp waits) with waited | ⟨acked, full⟩
    · exact apart p reported p (RangeSet.mem_flatten.mpr waited) rfl
    · exact once.not_completed inv registered (expected p acked).1 (expected p acked).2
        (Or.inl reported) full

/-- Collecting turns waiting packets into reported ones. -/
theorem OnceInv.collect (once : OnceInv group) : OnceInv (group.next .collect) := by
  -- What was waiting is reported afterwards, so the same packets are moved.
  constructor
  · intro p moved
    refine once.settled p ?_
    rcases moved with reported | waits
    · rcases List.mem_append.mp reported with before | now
      · exact Or.inl before
      · exact Or.inr (RangeSet.mem_flatten.mp now)
    · exact absurd waits (by show ¬ RangeSet.default.Contains p; simp)
  · show ((group.reported ++ group.report) ++ []).Nodup
    rw [List.append_nil]
    exact once.distinct

/-- What the reports of an aggregator are good for. -/
structure Aggregates (group : Group) : Prop where
  /-- A report names only packets that every registered receiver acknowledged or will never see. -/
  sound : ∀ p ∈ group.report, ∀ member ∈ group.members, member.2 ≤ p → member.1 ∈ group.seen p
  /-- A packet that someone acknowledged and nobody is missing has been moved. -/
  complete : ∀ p, (∃ member ∈ group.members, member.1 ∈ group.seen p) →
    (∀ member ∈ group.members, member.2 ≤ p → member.1 ∈ group.seen p) → group.Moved p

theorem Inv.aggregates (inv : Inv group) : Aggregates group :=
  ⟨fun _ reports => inv.sound reports, fun _ => inv.complete⟩

/-- A step of a clean run. -/
def Steps (group : Group) (event : GroupEvent) : Prop := group.Allowed event ∧ group.Clean event

/--
In every clean run in which nobody leaves, the reports aggregate the acknowledgments
of the registered receivers, and no packet is reported twice.
-/
theorem aggregates_while_nobody_leaves (events : List GroupEvent)
    (stay : ∀ recv, GroupEvent.leave recv ∉ events) (clean : Runs.Along next Steps start events) :
    Aggregates (Runs.run next start events) ∧
      ((Runs.run next start events).reported ++ (Runs.run next start events).report).Nodup := by
  have held : ∀ (events : List GroupEvent) (group : Group), (∀ recv, GroupEvent.leave recv ∉ events) →
      Inv group → OnceInv group → Runs.Along next Steps group events →
      Inv (Runs.run next group events) ∧ OnceInv (Runs.run next group events) := by
    intro events
    -- Induction on the events, each of which keeps both invariants, except for a departure.
    induction events with
    | nil => exact fun group _ inv once _ => ⟨inv, once⟩
    | cons event rest ih =>
      intro group stay inv once clean
      refine ih (group.next event) (fun recv among => stay recv (List.mem_cons_of_mem _ among))
        (inv.next event clean.1) ?_ clean.2
      cases event with
      | join recv firstPn => exact once.join inv clean.1.1
      | ack recv ranges => exact once.ack inv clean.1.1
      | collect => exact once.collect
      | leave recv => exact absurd List.mem_cons_self (stay recv)
  have fresh : OnceInv start := by
    refine ⟨fun p moved => ?_, List.nodup_nil⟩
    rcases moved with reported | waits
    · simp [start] at reported
    · exact absurd waits (by show ¬ RangeSet.default.Contains p; simp)
  obtain ⟨inv, once⟩ := held events start stay inv_start fresh clean
  exact ⟨inv.aggregates, once.distinct⟩

/-- In every clean run, whoever leaves, the reports aggregate the acknowledgments. -/
theorem aggregates_with_departures (events : List GroupEvent)
    (clean : Runs.Along next Steps start events) : Aggregates (Runs.run next start events) := by
  have step : ∀ group event, Inv group → Steps group event → Inv (group.next event) :=
    fun _ event inv ok => inv.next event ok
  exact (Runs.Along.keeps step inv_start clean).aggregates

theorem clean_join (idle : group.mcAck.ackedFull = none) (recv firstPn : Nat) : group.Clean (.join recv firstPn) := by
  intro p waits
  rw [waiting, idle, Option.getD_none, RangeSet.contains_default] at waits
  exact waits.elim

theorem flatten_single (p : Nat) : (RangeSet.default.insert p (p + 1)).flatten = [p] := by
  rw [RangeSet.flatten, RangeSet.iter_insert RangeSet.wf_default (Nat.le_succ p)]
  show List.flatMap _ [(p, p + 1)] = _
  simp

theorem allowed_single (recv firstPn p : Nat) (registered : (recv, firstPn) ∈ group.members) (expected : firstPn ≤ p)
    (unseen : recv ∉ group.seen p) : group.Allowed (.ack recv (RangeSet.default.insert p (p + 1))) := by
  refine ⟨(RangeSet.wf_default.insert (Nat.le_succ p)).separated, firstPn, registered, ?_⟩
  intro q acked
  rw [flatten_single, List.mem_singleton] at acked
  rw [acked]
  exact ⟨expected, unseen⟩

theorem clean_single (recv p : Nat) (all : ∀ member ∈ group.members, member.2 ≤ p) :
    group.Clean (.ack recv (RangeSet.default.insert p (p + 1))) := by
  intro q acked _ _
  rw [flatten_single, List.mem_singleton] at acked
  rw [acked]
  exact all

theorem allowed_join (recv firstPn : Nat) (fresh : recv ∉ group.joined) : group.Allowed (.join recv firstPn) := fresh

/-- Two receivers acknowledge the same packet. -/
def pairEvents : List GroupEvent :=
  [.join 1 0, .join 2 3, .ack 1 (RangeSet.default.insert 5 6), .ack 2 (RangeSet.default.insert 5 6)]

/-- The two receivers run cleanly, and their common packet is up for report. -/
theorem aggregates_while_nobody_leaves_pair :
    (Runs.run next start pairEvents).report = [5] ∧ Aggregates (Runs.run next start pairEvents) := by
  refine ⟨by decide, (aggregates_while_nobody_leaves pairEvents (by simp [pairEvents]) ?_).1⟩
  exact ⟨⟨allowed_join 1 0 (by decide), clean_join rfl 1 0⟩,
    ⟨allowed_join 2 3 (by decide), clean_join rfl 2 3⟩,
    ⟨allowed_single 1 0 5 (by decide) (by decide) (by decide), clean_single 1 5 (by decide)⟩,
    ⟨allowed_single 2 3 5 (by decide) (by decide) (by decide),
      clean_single 2 5 (by decide)⟩, trivial⟩

/-- A receiver joins before anyone acknowledged a packet that it will never see. -/
def lateEvents : List GroupEvent :=
  [.join 1 0, .join 2 10, .ack 1 (RangeSet.default.insert 5 6)]

/-- The one receiver that must see the packet acknowledged it, and it is not moved. -/
theorem late_receiver_not_credited :
    Runs.Along next Allowed start lateEvents ∧
      (∃ member ∈ (Runs.run next start lateEvents).members,
        member.1 ∈ (Runs.run next start lateEvents).seen 5) ∧
      (∀ member ∈ (Runs.run next start lateEvents).members, member.2 ≤ 5 →
        member.1 ∈ (Runs.run next start lateEvents).seen 5) ∧
      ¬ (Runs.run next start lateEvents).Moved 5 := by
  refine ⟨⟨allowed_join 1 0 (by decide), allowed_join 2 10 (by decide),
    allowed_single 1 0 5 (by decide) (by decide) (by decide), trivial⟩,
    ⟨(1, 0), by decide, by decide⟩, by decide, ?_⟩
  intro either
  rcases either with reported | waits
  · exact absurd reported (by decide)
  · exact absurd (RangeSet.mem_flatten.mpr waits) (by decide)

/-- One of three receivers leaves before the others acknowledge. -/
def departureEvents : List GroupEvent :=
  [.join 1 0, .join 2 0, .join 3 0, .leave 3, .ack 1 (RangeSet.default.insert 5 6),
    .ack 2 (RangeSet.default.insert 5 6)]

/-- The remaining receivers run cleanly, and their common packet is up for report. -/
theorem aggregates_with_departures_early :
    (Runs.run next start departureEvents).report = [5] ∧
      Aggregates (Runs.run next start departureEvents) := by
  refine ⟨by decide, aggregates_with_departures departureEvents ?_⟩
  refine ⟨⟨allowed_join 1 0 (by decide), clean_join rfl 1 0⟩,
    ⟨allowed_join 2 0 (by decide), clean_join rfl 2 0⟩,
    ⟨allowed_join 3 0 (by decide), clean_join rfl 3 0⟩, ⟨⟨0, by decide⟩, ?_⟩,
    ⟨allowed_single 1 0 5 (by decide) (by decide) (by decide), clean_single 1 5 (by decide)⟩,
    ⟨allowed_single 2 0 5 (by decide) (by decide) (by decide), clean_single 2 5 (by decide)⟩,
    trivial⟩
  -- No counter is open when the receiver leaves.
  intro p opened
  exact absurd opened (by simp [Group.next, start, newRecv, McAck.new, creditBelow, OrdMap.empty,
    OrdMap.contains, OrdMap.find?, OrdMap.lookup])

/-- One of three receivers acknowledges a packet and leaves, and another acknowledges it. -/
def countedEvents : List GroupEvent :=
  [.join 1 0, .join 2 0, .join 3 0, .ack 1 (RangeSet.default.insert 5 6), .leave 1,
    .ack 2 (RangeSet.default.insert 5 6)]

/-- The packet is reported although a registered receiver has not acknowledged it. -/
theorem departed_receiver_still_counted :
    Runs.Along next Allowed start countedEvents ∧
      5 ∈ (Runs.run next start countedEvents).report ∧
      (3, 0) ∈ (Runs.run next start countedEvents).members ∧
      3 ∉ (Runs.run next start countedEvents).seen 5 := by
  refine ⟨⟨allowed_join 1 0 (by decide), allowed_join 2 0 (by decide), allowed_join 3 0 (by decide),
    allowed_single 1 0 5 (by decide) (by decide) (by decide), ⟨0, by decide⟩,
    allowed_single 2 0 5 (by decide) (by decide) (by decide), trivial⟩,
    by decide, by decide, by decide⟩

end Group

end Flexicast
