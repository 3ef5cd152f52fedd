import Flexicast.Recovery.Notification
import Mathlib.Data.List.Forall2
import Mathlib.Data.List.Nodup

/-! What acknowledgments and passes do to the queue of sent packets, packet by packet. -/

namespace Flexicast

namespace Loss

section Relations

/-- What an acknowledgment may do to a packet: mark it, and take its frames unless it was lost. -/
structure Sent.AckedInto (before after : Sent) : Prop where
  pktNum : after.pktNum = before.pktNum
  timeLost : after.timeLost = before.timeLost
  isFcDelegated : after.isFcDelegated = before.isFcDelegated
  frames : before.timeLost.isSome = true → after.frames = before.frames
  acked : before.timeAcked.isSome = true → after.timeAcked.isSome = true
  kept : after.timeAcked.isNone = true → after = before

/-- What a pass may do to a packet: declare it lost, and take its frames unless the source still delegates them. -/
structure Sent.LostInto (isFcSource : Bool) (before after : Sent) : Prop where
  pktNum : after.pktNum = before.pktNum
  timeAcked : after.timeAcked = before.timeAcked
  isFcDelegated : after.isFcDelegated = before.isFcDelegated
  frames : isFcSource = true → before.isFcDelegated = false → after.frames = before.frames
  fresh : after = before ∨ before.unmarked = true
  kept : after.timeLost.isNone = true → after = before

theorem Sent.AckedInto.refl (pkt : Sent) : pkt.AckedInto pkt := ⟨rfl, rfl, rfl, fun _ => rfl, id, fun _ => rfl⟩

/-- Acknowledging twice. -/
theorem Sent.AckedInto.trans {first second third : Sent} (left : first.AckedInto second)
    (right : second.AckedInto third) : first.AckedInto third where
  pktNum := right.pktNum.trans left.pktNum
  timeLost := right.timeLost.trans left.timeLost
  isFcDelegated := right.isFcDelegated.trans left.isFcDelegated
  frames := by
    intro lost
    rw [right.frames (by rw [left.timeLost]; exact lost), left.frames lost]
  acked := fun acked => right.acked (left.acked acked)
  kept := by
    intro unacked
    have same := right.kept unacked
    rw [same] at unacked ⊢
    exact left.kept unacked

theorem Sent.LostInto.refl (isFcSource : Bool) (pkt : Sent) : pkt.LostInto isFcSource pkt :=
  ⟨rfl, rfl, rfl, fun _ _ => rfl, .inl rfl, fun _ => rfl⟩

/-- An acknowledgment marks no packet anew as unmarked. -/
theorem Sent.AckedInto.unmarked {before after : Sent} (acked : before.AckedInto after)
    (unmarked : after.unmarked = true) : after = before := by
  simp only [Sent.unmarked, Bool.and_eq_true] at unmarked
  exact acked.kept unmarked.1

theorem forall₂_origin {α β : Type} {related : α → β → Prop} {left : List α} {right : List β}
    (each : List.Forall₂ related left right) : ∀ after ∈ right, ∃ before ∈ left, related before after := by
  induction each with
  | nil => simp
  | cons first _ ih =>
    rw [List.forall_mem_cons]
    refine ⟨⟨_, List.mem_cons_self, first⟩, fun after member => ?_⟩
    obtain ⟨before, there, same⟩ := ih after member
    exact ⟨before, List.mem_cons_of_mem _ there, same⟩

/-- The numbers of the packets that are neither acknowledged nor lost. -/
def unmarkedNums (packets : List Sent) : List Nat := (packets.filter Sent.unmarked).map Sent.pktNum

@[simp] theorem unmarkedNums_nil : unmarkedNums [] = [] := rfl

theorem unmarkedNums_cons (pkt : Sent) (rest : List Sent) :
    unmarkedNums (pkt :: rest) = (if pkt.unmarked then [pkt.pktNum] else []) ++ unmarkedNums rest := by
  simp only [unmarkedNums, List.filter_cons]
  split <;> rfl

@[simp] theorem unmarkedNums_append (front back : List Sent) :
    unmarkedNums (front ++ back) = unmarkedNums front ++ unmarkedNums back := by
  simp [unmarkedNums]

theorem mem_unmarkedNums {packets : List Sent} {num : Nat} :
    num ∈ unmarkedNums packets ↔ ∃ pkt ∈ packets, pkt.unmarked = true ∧ pkt.pktNum = num := by
  simp [unmarkedNums, and_assoc]

end Relations

section Acking

variable {now : Int} {largestAcked : Nat}

variable {loop : AckLoop} {search : List Nat → Nat → Nat}

/-- Acknowledging a packet marks it, and notes its number if nothing had marked it before. -/
theorem ackPacket_marks {unacked : Sent} {result : Sent × AckLoop}
    (done : ackPacket now largestAcked unacked loop = some result) :
    unacked.AckedInto result.1 ∧ result.1.timeAcked.isSome = true ∧
      result.2.newlyAcked.map Acked.pktNum = loop.newlyAcked.map Acked.pktNum ++ unmarkedNums [unacked] := by
  unfold ackPacket at done
  split at done
  case isTrue acked =>
    -- Already acknowledged.
    cases done
    exact ⟨.refl _, acked, by simp [unmarkedNums_cons, Sent.unmarked_eq, acked]⟩
  case isFalse unacked_ =>
    split at done
    case isTrue lost =>
      -- Lost before: the number is not noted.
      obtain ⟨distance, -, stored⟩ := Option.bind_eq_some_iff.mp done
      cases stored
      refine ⟨⟨rfl, rfl, rfl, fun _ => rfl, fun _ => rfl, fun none_ => absurd none_ (by simp)⟩, rfl, ?_⟩
      simp [unmarkedNums_cons, Sent.unmarked_eq, lost]
    case isFalse present =>
      obtain ⟨count, -, stored⟩ := Option.bind_eq_some_iff.mp done
      cases stored
      refine ⟨⟨rfl, rfl, rfl, fun lost => absurd lost present, fun _ => rfl, fun none_ => absurd none_ (by simp)⟩,
        rfl, ?_⟩
      have unmarked : unacked.unmarked = true := by
        rw [Sent.unmarked_eq]
        simp [unacked_, present]
      simp [unmarkedNums_cons, unmarked]

/-- A range acknowledges the packets up to its end. -/
theorem ackRange_marks (stop : Nat) : ∀ {packets : List Sent} {loop : AckLoop} {result : List Sent × AckLoop},
    ackRange now largestAcked stop packets loop = some result →
      List.Forall₂ Sent.AckedInto packets result.1 ∧
        result.2.newlyAcked.map Acked.pktNum =
          loop.newlyAcked.map Acked.pktNum ++ unmarkedNums (packets.takeWhile (·.pktNum < stop)) ∧
        unmarkedNums result.1 = unmarkedNums (packets.dropWhile (·.pktNum < stop)) := by
  -- Induction along the packets, up to the first one past the range.
  intro packets
  induction packets with
  | nil =>
    intro loop result done
    cases done
    exact ⟨.nil, by simp, rfl⟩
  | cons unacked rest ih =>
    intro loop result done
    unfold ackRange at done
    split at done
    case isTrue past =>
      cases done
      have stops : ¬ unacked.pktNum < stop := by omega
      refine ⟨List.forall₂_same.mpr fun pkt _ => .refl pkt, ?_, ?_⟩
      · simp [stops]
      · simp [stops]
    case isFalse within =>
      have goesOn : unacked.pktNum < stop := by omega
      obtain ⟨head, doneHead, done⟩ := Option.bind_eq_some_iff.mp done
      obtain ⟨tail, doneRest, stored⟩ := Option.bind_eq_some_iff.mp done
      cases stored
      obtain ⟨marked, acked, noted⟩ := ackPacket_marks doneHead
      obtain ⟨marks, notes, left⟩ := ih doneRest
      refine ⟨.cons marked marks, ?_, ?_⟩
      · simp only [notes, noted, List.takeWhile_cons, goesOn, decide_true, if_true]
        rw [List.append_assoc, ← unmarkedNums_append]
        rfl
      · have gone : head.1.unmarked = false := by
          cases at_ : head.1.timeAcked <;> simp_all [Sent.unmarked]
        simp [unmarkedNums_cons, gone, left, goesOn]

/-- The numbers of a queue increase. -/
def Increasing (packets : List Sent) : Prop := (packets.map Sent.pktNum).Pairwise (· < ·)

/-- A binary search in increasing numbers ends before the first one that is not smaller. -/
def Searches (search : List Nat → Nat → Nat) : Prop :=
  ∀ nums start, nums.Pairwise (· < ·) → search nums start = (nums.takeWhile (· < start)).length

variable {pkt : Sent} {packets : List Sent}

theorem Increasing.tail {rest : List Sent} (increasing : Increasing (pkt :: rest)) : Increasing rest :=
  (List.pairwise_cons.mp increasing).2

/-- The packets from a number on are those that a search leaves behind. -/
theorem Increasing.mem_dropWhile (increasing : Increasing packets) {start : Nat} :
    pkt ∈ packets.dropWhile (·.pktNum < start) ↔ pkt ∈ packets ∧ start ≤ pkt.pktNum := by
  induction packets with
  | nil => simp
  | cons front rest ih =>
    by_cases below : front.pktNum < start
    · simp only [List.dropWhile_cons, below, decide_true, if_true, ih increasing.tail, List.mem_cons]
      constructor
      · exact fun found => ⟨.inr found.1, found.2⟩
      · rintro ⟨rfl | member, past⟩
        · omega
        · exact ⟨member, past⟩
    · -- The numbers increase, so all of them are past the start.
      simp only [List.dropWhile_cons, below, decide_false, Bool.false_eq_true, if_false]
      refine ⟨fun member => ⟨member, ?_⟩, And.left⟩
      rcases List.mem_cons.mp member with rfl | later
      · omega
      · have further := (List.pairwise_cons.mp increasing).1 pkt.pktNum (List.mem_map_of_mem later)
        omega

/-- The packets up to a number are those that a search passes. -/
theorem Increasing.mem_takeWhile (increasing : Increasing packets) {stop : Nat} :
    pkt ∈ packets.takeWhile (·.pktNum < stop) ↔ pkt ∈ packets ∧ pkt.pktNum < stop := by
  induction packets with
  | nil => simp
  | cons front rest ih =>
    by_cases below : front.pktNum < stop
    · simp only [List.takeWhile_cons, below, decide_true, if_true, List.mem_cons, ih increasing.tail]
      constructor
      · rintro (rfl | ⟨member, within⟩)
        · exact ⟨.inl rfl, below⟩
        · exact ⟨.inr member, within⟩
      · rintro ⟨rfl | member, within⟩
        · exact .inl rfl
        · exact .inr ⟨member, within⟩
    · simp only [List.takeWhile_cons, below, decide_false, Bool.false_eq_true, if_false, List.not_mem_nil, false_iff]
      rintro ⟨member, within⟩
      rcases List.mem_cons.mp member with rfl | later
      · omega
      · have further := (List.pairwise_cons.mp increasing).1 pkt.pktNum (List.mem_map_of_mem later)
        omega

theorem Increasing.sublist {part : List Sent} (increasing : Increasing packets) (sub : part.Sublist packets) :
    Increasing part :=
  List.Pairwise.sublist (sub.map _) increasing

theorem Increasing.nodup (increasing : Increasing packets) : (unmarkedNums packets).Nodup :=
  (increasing.sublist List.filter_sublist).imp Nat.ne_of_lt

theorem rangeStart_eq (searches : Searches search) (increasing : Increasing packets) (start : Nat) :
    rangeStart search start packets = (packets.takeWhile (·.pktNum < start)).length := by
  unfold rangeStart
  split
  · simpa using searches [] start List.Pairwise.nil
  case h_2 front rest =>
    split
    case isTrue first =>
      have stops : ¬ front.pktNum < start := by omega
      simp [stops]
    case isFalse later =>
      rw [searches _ start increasing, List.takeWhile_map, List.length_map]
      rfl

theorem ackedInto_pktNums {before after : List Sent} (marks : List.Forall₂ Sent.AckedInto before after) :
    after.map Sent.pktNum = before.map Sent.pktNum := by
  induction marks with
  | nil => rfl
  | cons marked _ ih => rw [List.map_cons, List.map_cons, marked.pktNum, ih]

theorem ackedInto_trans {first second third : List Sent} (left : List.Forall₂ Sent.AckedInto first second)
    (right : List.Forall₂ Sent.AckedInto second third) : List.Forall₂ Sent.AckedInto first third := by
  induction left generalizing third with
  | nil => exact right
  | cons marked _ ih =>
    obtain ⟨last, rest, more, others, rfl⟩ := List.forall₂_cons_left_iff.mp right
    exact .cons (marked.trans more) (ih others)

theorem take_passed (packets : List Sent) (start : Nat) :
    packets.take (packets.takeWhile (·.pktNum < start)).length = packets.takeWhile (·.pktNum < start) := by
  conv => lhs; arg 2; rw [← List.takeWhile_append_dropWhile (p := (·.pktNum < start)) (l := packets)]
  exact List.take_left' rfl

theorem drop_passed (packets : List Sent) (start : Nat) :
    packets.drop (packets.takeWhile (·.pktNum < start)).length = packets.dropWhile (·.pktNum < start) := by
  conv => lhs; arg 2; rw [← List.takeWhile_append_dropWhile (p := (·.pktNum < start)) (l := packets)]
  exact List.drop_left' rfl

/-- One range of an acknowledgment marks the packets in it, and notes those that were unmarked. -/
theorem ackRange_inside (increasing : Increasing packets) (ack : Nat × Nat) {result : List Sent × AckLoop}
    (done : ackRange now largestAcked ack.2 (packets.dropWhile (·.pktNum < ack.1)) loop = some result) :
    List.Forall₂ Sent.AckedInto packets (packets.takeWhile (·.pktNum < ack.1) ++ result.1) ∧
    (∀ num, num ∈ unmarkedNums (packets.takeWhile (·.pktNum < ack.1) ++ result.1) ↔
      num ∈ unmarkedNums packets ∧ ¬ (ack.1 ≤ num ∧ num < ack.2)) ∧
    ∃ newly : List Nat,
      result.2.newlyAcked.map Acked.pktNum = loop.newlyAcked.map Acked.pktNum ++ newly ∧ newly.Nodup ∧
      ∀ num, num ∈ newly ↔ num ∈ unmarkedNums packets ∧ ack.1 ≤ num ∧ num < ack.2 := by
  obtain ⟨marks, noted, left⟩ := ackRange_marks ack.2 done
  have behind : Increasing (packets.dropWhile (·.pktNum < ack.1)) :=
    increasing.sublist (List.dropWhile_sublist _)
  refine ⟨?_, fun num => ?_, _, noted, ?_, fun num => ?_⟩
  · -- The packets before the range are left as they are.
    have front : List.Forall₂ Sent.AckedInto (packets.takeWhile (·.pktNum < ack.1))
        (packets.takeWhile (·.pktNum < ack.1)) := List.forall₂_same.mpr fun pkt _ => .refl pkt
    have together : List.Forall₂ Sent.AckedInto
        (packets.takeWhile (·.pktNum < ack.1) ++ packets.dropWhile (·.pktNum < ack.1))
        (packets.takeWhile (·.pktNum < ack.1) ++ result.1) := List.rel_append front marks
    rwa [List.takeWhile_append_dropWhile] at together
  · simp only [unmarkedNums_append, left, List.mem_append, mem_unmarkedNums, increasing.mem_takeWhile,
      behind.mem_dropWhile, increasing.mem_dropWhile]
    constructor
    · rintro (⟨pkt, ⟨member, before⟩, unmarked, rfl⟩ | ⟨pkt, ⟨⟨member, _⟩, past⟩, unmarked, rfl⟩)
      · exact ⟨⟨pkt, member, unmarked, rfl⟩, by omega⟩
      · exact ⟨⟨pkt, member, unmarked, rfl⟩, by omega⟩
    · rintro ⟨⟨pkt, member, unmarked, rfl⟩, outside⟩
      by_cases before : pkt.pktNum < ack.1
      · exact .inl ⟨pkt, ⟨member, before⟩, unmarked, rfl⟩
      · exact .inr ⟨pkt, ⟨⟨member, by omega⟩, by omega⟩, unmarked, rfl⟩
  · exact (behind.sublist (List.takeWhile_sublist _)).nodup
  · simp only [mem_unmarkedNums, behind.mem_takeWhile, increasing.mem_dropWhile]
    constructor
    · rintro ⟨pkt, ⟨⟨member, from_⟩, within⟩, unmarked, rfl⟩
      exact ⟨⟨pkt, member, unmarked, rfl⟩, from_, within⟩
    · rintro ⟨⟨pkt, member, unmarked, rfl⟩, from_, within⟩
      exact ⟨pkt, ⟨⟨member, from_⟩, within⟩, unmarked, rfl⟩

/-- The ranges of an acknowledgment mark packets one by one, wherever the search for them starts. -/
theorem ackRanges_into (search : List Nat → Nat → Nat) (ranges : List (Nat × Nat)) :
    ∀ {packets : List Sent} {loop : AckLoop} {result : List Sent × AckLoop},
      ackRanges search now largestAcked ranges packets loop = some result →
        List.Forall₂ Sent.AckedInto packets result.1 := by
  -- Induction on the ranges: each one searches the queue that the one before left.
  induction ranges with
  | nil =>
    intro packets loop result done
    cases done
    exact List.forall₂_same.mpr fun pkt _ => .refl pkt
  | cons ack more ih =>
    intro packets loop result done
    obtain ⟨⟨tail, middle⟩, ranged, done⟩ := Option.bind_eq_some_iff.mp done
    obtain ⟨marks, -⟩ := ackRange_marks ack.2 ranged
    -- Nothing in front of the place where the search starts is touched.
    have front : List.Forall₂ Sent.AckedInto (packets.take (rangeStart search ack.1 packets))
        (packets.take (rangeStart search ack.1 packets)) := List.forall₂_same.mpr fun pkt _ => .refl pkt
    have together : List.Forall₂ Sent.AckedInto
        (packets.take (rangeStart search ack.1 packets) ++ packets.drop (rangeStart search ack.1 packets))
        (packets.take (rangeStart search ack.1 packets) ++ tail) := List.rel_append front marks
    rw [List.take_append_drop] at together
    exact ackedInto_trans together (ih done)

/-- The ranges of an acknowledgment mark the packets in them, and note those that were unmarked once. -/
theorem ackRanges_marks (searches : Searches search) (ranges : List (Nat × Nat)) :
    ∀ {packets : List Sent} {loop : AckLoop} {result : List Sent × AckLoop}, Increasing packets →
      ackRanges search now largestAcked ranges packets loop = some result →
        List.Forall₂ Sent.AckedInto packets result.1 ∧
        (∀ num, num ∈ unmarkedNums result.1 ↔ num ∈ unmarkedNums packets ∧ ¬ Intervals.Covers ranges num) ∧
        ∃ newly : List Nat,
          result.2.newlyAcked.map Acked.pktNum = loop.newlyAcked.map Acked.pktNum ++ newly ∧ newly.Nodup ∧
          ∀ num, num ∈ newly ↔ num ∈ unmarkedNums packets ∧ Intervals.Covers ranges num := by
  -- Induction on the ranges; each one finds the packets that the earlier ones marked.
  induction ranges with
  | nil =>
    intro packets loop result _ done
    cases done
    exact ⟨List.forall₂_same.mpr fun pkt _ => .refl pkt, by simp, [], by simp, List.nodup_nil, by simp⟩
  | cons ack more ih =>
    intro packets loop result increasing done
    obtain ⟨⟨tail, middle⟩, ranged, done⟩ := Option.bind_eq_some_iff.mp done
    simp only [rangeStart_eq searches increasing, take_passed, drop_passed] at ranged done
    obtain ⟨marked, left, newly, noted, distinct, exactly⟩ := ackRange_inside increasing ack ranged
    have still : Increasing (packets.takeWhile (·.pktNum < ack.1) ++ tail) := by
      rw [Increasing, ackedInto_pktNums marked]
      exact increasing
    obtain ⟨markedMore, leftMore, newlyMore, notedMore, distinctMore, exactlyMore⟩ := ih still done
    refine ⟨?_, fun num => ?_, newly ++ newlyMore, ?_, ?_, fun num => ?_⟩
    · exact ackedInto_trans marked markedMore
    · rw [leftMore, left, Intervals.covers_cons]
      tauto
    · rw [notedMore, noted, List.append_assoc]
    · -- What this range noted is marked, so no later range notes it.
      refine List.nodup_append.mpr ⟨distinct, distinctMore, fun num inFirst other inMore same => ?_⟩
      subst same
      exact ((left num).mp ((exactlyMore num).mp inMore).1).2 ((exactly num).mp inFirst).2
    · rw [List.mem_append, exactly, exactlyMore, left, Intervals.covers_cons]
      tauto

end Acking

section Draining

/-- Draining a queue removes marked packets from its front; the source keeps a lost one until it is delegated. -/
theorem drain_front (isFcSource : Bool) (lossThresh : Int) (packets : List Sent) :
    ∃ front, packets = front ++ drainAckedAndLostPackets isFcSource lossThresh packets ∧
      ∀ pkt ∈ front, pkt.unmarked = false ∧
        (isFcSource = true → pkt.timeLost.isSome = true → pkt.isFcDelegated = true) := by
  -- Induction on the queue, which is drained up to the first packet that stays.
  induction packets with
  | nil => exact ⟨[], rfl, by simp⟩
  | cons pkt rest ih =>
    obtain ⟨front, split_, gone⟩ := ih
    unfold drainAckedAndLostPackets
    cases lost : pkt.timeLost with
    | none =>
      by_cases acked : pkt.timeAcked.isNone = true
      · exact ⟨[], by simp [acked], by simp⟩
      · refine ⟨pkt :: front, by simpa [acked] using split_, ?_⟩
        rw [List.forall_mem_cons]
        exact ⟨⟨by simp [Sent.unmarked, acked], by simp [lost]⟩, gone⟩
    | some timeLost =>
      by_cases stays : (decide (lossThresh < timeLost) || (isFcSource && !pkt.isFcDelegated)) = true
      · exact ⟨[], by simp [stays], by simp⟩
      · refine ⟨pkt :: front, by simpa [stays] using split_, ?_⟩
        rw [List.forall_mem_cons]
        refine ⟨⟨by simp [Sent.unmarked, lost], fun source _ => ?_⟩, gone⟩
        simp only [source, Bool.true_and, Bool.or_eq_true, not_or] at stays
        simpa using stays.2

@[simp] theorem unmarkedNums_drain (isFcSource : Bool) (lossThresh : Int) (packets : List Sent) :
    unmarkedNums (drainAckedAndLostPackets isFcSource lossThresh packets) = unmarkedNums packets := by
  obtain ⟨front, split_, gone⟩ := drain_front isFcSource lossThresh packets
  have nothing : unmarkedNums front = [] := by
    rw [unmarkedNums, List.filter_eq_nil_iff.mpr fun pkt member => by simp [(gone pkt member).1], List.map_nil]
  conv => rhs; rw [split_, unmarkedNums_append, nothing, List.nil_append]

theorem drain_sublist (isFcSource : Bool) (lossThresh : Int) (packets : List Sent) :
    (drainAckedAndLostPackets isFcSource lossThresh packets).Sublist packets := by
  obtain ⟨front, split_, -⟩ := drain_front isFcSource lossThresh packets
  conv => rhs; rw [split_]
  exact List.sublist_append_right _ _

end Draining

section Losing

variable {isFcSource : Bool}

/-- Losing a packet marks it, and keeps its frames for the source. -/
theorem losePacket_marks {now : Int} {unacked : Sent} (unmarked : unacked.unmarked = true) {loop : LossLoop}
    {result : Sent × LossLoop} (done : losePacket isFcSource now unacked loop = some result) :
    unacked.LostInto isFcSource result.1 ∧ result.1.unmarked = false := by
  -- The three ways through differ in the counters only.
  have marked : result.1 = { unacked with
      frames := if isFcSource && !unacked.isFcDelegated then unacked.frames else [], timeLost := some now } := by
    unfold losePacket at done
    simp only at done
    split at done
    · obtain ⟨count, -, stored⟩ := Option.bind_eq_some_iff.mp done
      cases stored
      rfl
    · split at done
      · obtain ⟨count, -, stored⟩ := Option.bind_eq_some_iff.mp done
        cases stored
        rfl
      · cases done
        rfl
  rw [marked]
  refine ⟨⟨rfl, rfl, rfl, fun source waiting => ?_, .inr unmarked, fun none_ => ?_⟩, by simp [Sent.unmarked]⟩
  · simp [source, waiting]
  · simp at none_

/-- A pass marks the packets up to some place, from which on it leaves the queue alone. -/
theorem lostLoop_front (rule : LossRule) :
    ∀ {packets : List Sent} {loop : LossLoop} {result : List Sent × LossLoop},
      lostLoop isFcSource rule packets loop = some result →
      ∃ front passed back, packets = front ++ back ∧ result.1 = passed ++ back ∧
        List.Forall₂ (Sent.LostInto isFcSource) front passed ∧ ∀ pkt ∈ passed, pkt.unmarked = false := by
  -- Induction along the loop; it stops for good at the first packet that it spares.
  intro packets
  induction packets with
  | nil =>
    intro loop result done
    cases done
    exact ⟨[], [], [], rfl, rfl, .nil, by simp⟩
  | cons unacked rest ih =>
    intro loop result done
    unfold lostLoop at done
    split at done
    case isTrue past =>
      cases done
      exact ⟨[], [], _, rfl, rfl, .nil, by simp⟩
    case isFalse within =>
      split at done
      case isTrue marked =>
        -- A packet that was marked before is passed over.
        obtain ⟨tail, doneRest, stored⟩ := Option.bind_eq_some_iff.mp done
        cases stored
        obtain ⟨front, passed, back, split_, ends, marks, gone⟩ := ih doneRest
        refine ⟨unacked :: front, unacked :: passed, back, by rw [split_, List.cons_append],
          by rw [ends, List.cons_append], .cons (.refl _ _) marks, ?_⟩
        rw [List.forall_mem_cons]
        exact ⟨by rw [Sent.unmarked_eq, marked, Bool.not_true], gone⟩
      case isFalse neither =>
        have unmarked : unacked.unmarked = true := by
          rw [Sent.unmarked_eq, Bool.eq_false_iff.mpr neither, Bool.not_false]
        split at done
        case isTrue loses =>
          obtain ⟨head, doneHead, done⟩ := Option.bind_eq_some_iff.mp done
          obtain ⟨tail, doneRest, stored⟩ := Option.bind_eq_some_iff.mp done
          cases stored
          obtain ⟨marked, lost⟩ := losePacket_marks unmarked doneHead
          obtain ⟨front, passed, back, split_, ends, marks, gone⟩ := ih doneRest
          refine ⟨unacked :: front, head.1 :: passed, back, by rw [split_, List.cons_append],
            by rw [ends, List.cons_append], .cons marked marks, ?_⟩
          rw [List.forall_mem_cons]
          exact ⟨lost, gone⟩
        case isFalse spares =>
          cases done
          exact ⟨[], [], _, rfl, rfl, .nil, by simp⟩

theorem lostInto_pktNums {before after : List Sent} (marks : List.Forall₂ (Sent.LostInto isFcSource) before after) :
    after.map Sent.pktNum = before.map Sent.pktNum := by
  induction marks with
  | nil => rfl
  | cons marked _ ih => rw [List.map_cons, List.map_cons, marked.pktNum, ih]

theorem lostLoop_nums {rule : LossRule} {packets : List Sent} {loop : LossLoop} {result : List Sent × LossLoop}
    (done : lostLoop isFcSource rule packets loop = some result) :
    result.1.map Sent.pktNum = packets.map Sent.pktNum ∧ unmarkedNums result.1 ⊆ unmarkedNums packets := by
  -- The pass drops packets that are marked already, and touches no number.
  obtain ⟨front, passed, back, rfl, ends, marks, gone⟩ := lostLoop_front rule done
  have nothing : unmarkedNums passed = [] := by
    rw [unmarkedNums, List.filter_eq_nil_iff.mpr fun pkt member => by simp [gone pkt member], List.map_nil]
  rw [ends, List.map_append, List.map_append, lostInto_pktNums marks, unmarkedNums_append, unmarkedNums_append,
    nothing]
  exact ⟨rfl, List.subset_append_right _ _⟩

/-- Among increasing numbers, a packet is newly lost just when its number is among the newly lost ones. -/
theorem newlyMarked_iff {before after : List Sent} (increasing : Increasing before)
    (marks : List.Forall₂ (Sent.LostInto isFcSource) before after) :
    List.Forall₂ (fun pkt marked => pkt.LostInto isFcSource marked ∧
      (marked.timeLost.isSome = true ↔ pkt.timeLost.isSome = true ∨ pkt.pktNum ∈ newlyMarked before after))
      before after := by
  obtain ⟨lengths, pairs⟩ := List.forall₂_iff_zip.mp marks
  refine List.forall₂_iff_zip.mpr ⟨lengths, fun {pkt marked} member => ⟨pairs member, ?_, ?_⟩⟩
  · -- A packet that is lost now was lost before, or its pair is counted.
    intro lost
    cases already : pkt.timeLost.isSome with
    | true => exact .inl rfl
    | false =>
      refine .inr (List.mem_map.mpr ⟨(pkt, marked), List.mem_filter.mpr ⟨member, ?_⟩, rfl⟩)
      cases unlost : pkt.timeLost <;> simp_all
  · rintro (already | counted)
    · rcases (pairs member).fresh with same | unmarked
      · rw [same]
        exact already
      · simp [Sent.unmarked_eq, already] at unmarked
    · -- The pair that is counted is this one, since no number comes twice.
      obtain ⟨pair, found, same⟩ := List.mem_map.mp counted
      obtain ⟨there, lost⟩ := List.mem_filter.mp found
      have distinct : ((before.zip after).map fun pair => pair.1.pktNum).Nodup := by
        have nums : ((before.zip after).map fun pair => pair.1.pktNum) = before.map Sent.pktNum := by
          have firsts := List.map_fst_zip (Nat.le_of_eq lengths)
          conv => rhs; rw [← firsts, List.map_map]
          rfl
        rw [nums]
        exact increasing.imp Nat.ne_of_lt
      have alike : pair = (pkt, marked) := List.inj_on_of_nodup_map distinct there member same
      rw [alike] at lost
      simp only [Bool.and_eq_true] at lost
      exact lost.2

end Losing

section Recoveries

/-- The packet numbers that wait to be given to the aggregator. -/
def Recovery.newAcks (recovery : Recovery) : Option (List Nat) := recovery.fcRecovery.map FcRecovery.fcNewAckPn

/-- A recovery in which the queue of one epoch was replaced. -/
structure Recovery.Requeued (epoch : Epoch) (queue : List Sent) (before after : Recovery) : Prop where
  queue : (after.epochs epoch).sentPackets = queue
  isFcSource : (after.epochs epoch).isFcSource = (before.epochs epoch).isFcSource
  others : ∀ other, other ≠ epoch → after.epochs other = before.epochs other

variable {recovery after : Recovery} {epoch : Epoch}

variable {timing : Timing} {now : Int} {search : List Nat → Nat → Nat}

/-- A pass marks packets of its epoch as lost and drains it. -/
theorem detectLostPackets_queue (done : recovery.detectLostPackets epoch timing now = some after) :
    ∃ loop packets loop', lostLoop (recovery.epochs epoch).isFcSource
        ((recovery.epochs epoch).lossRule timing.lossDelay recovery.pktThresh now)
        (recovery.epochs epoch).sentPackets loop = some (packets, loop') ∧
      Recovery.Requeued epoch
        (drainAckedAndLostPackets (recovery.epochs epoch).isFcSource (now - timing.rtt) packets) recovery after ∧
      after.newAcks = recovery.newAcks := by
  unfold Recovery.detectLostPackets at done
  obtain ⟨passed, pass, done⟩ := Option.bind_eq_some_iff.mp done
  obtain ⟨bytes, -, stored⟩ := Option.bind_eq_some_iff.mp done
  unfold RecoveryEpoch.detectLostPackets at pass
  obtain ⟨⟨packets, loop'⟩, looped, kept⟩ := Option.bind_eq_some_iff.mp pass
  cases kept
  cases stored
  refine ⟨_, packets, loop', looped, ?_⟩
  -- The vector of lost packets may move; the queue and the acknowledged numbers do not.
  unfold Recovery.notifyLost
  split
  case h_1 fc lost held _ =>
    refine ⟨⟨?_, ?_, fun other apart => ?_⟩, ?_⟩
    · simp [RecoveryEpoch.drain]
    · simp [RecoveryEpoch.drain]
    · simp [apart, Recovery.setEpoch]
    · simp [Recovery.newAcks, held, Recovery.setEpoch]
  case h_2 =>
    refine ⟨⟨?_, ?_, fun other apart => ?_⟩, rfl⟩
    · simp [RecoveryEpoch.drain]
    · simp [RecoveryEpoch.drain]
    · simp [apart, Recovery.setEpoch]

/-- The first part of an acknowledgment marks packets of its epoch, drains it, and notes the new numbers. -/
theorem markAcked_queue {ranges : RangeSet} {rtt : Int} {result : Recovery × AckLoop}
    (done : recovery.markAcked search ranges epoch rtt now = some result) :
    ∃ largest loop packets, loop.newlyAcked = [] ∧
      ackRanges search now largest ranges.iter (recovery.epochs epoch).sentPackets loop = some (packets, result.2) ∧
      Recovery.Requeued epoch
        (drainAckedAndLostPackets (recovery.epochs epoch).isFcSource (now - rtt) packets) recovery result.1 ∧
      result.1.newAcks = recovery.newAcks.map (· ++ result.2.newlyAcked.map Acked.pktNum) := by
  unfold Recovery.markAcked at done
  obtain ⟨largest, -, done⟩ := Option.bind_eq_some_iff.mp done
  obtain ⟨marked, detected, stored⟩ := Option.bind_eq_some_iff.mp done
  unfold RecoveryEpoch.detectAndRemoveAckedPackets at detected
  obtain ⟨raised, -, detected⟩ := Option.bind_eq_some_iff.mp detected
  obtain ⟨⟨packets, loop⟩, looped, kept⟩ := Option.bind_eq_some_iff.mp detected
  cases kept
  cases stored
  -- Only the queue of the epoch is marked and drained.
  refine ⟨raised, _, packets, rfl, looped, ⟨?_, ?_, fun other apart => ?_⟩, ?_⟩
  · simp [Recovery.recordAcked, RecoveryEpoch.drain]
  · simp [Recovery.recordAcked, RecoveryEpoch.drain]
  · simp [Recovery.recordAcked, apart]
  · cases held : recovery.fcRecovery <;> simp [Recovery.recordAcked, Recovery.newAcks, held]

theorem settleAcked_queue {ackedBytes : Nat} (done : recovery.settleAcked epoch ackedBytes timing now = some after) :
    ∃ passed, recovery.detectLostPackets epoch timing now = some passed ∧
      Recovery.Requeued epoch (drainAckedAndLostPackets (passed.epochs epoch).isFcSource (now - timing.rtt)
        (passed.epochs epoch).sentPackets) passed after ∧
      after.newAcks = passed.newAcks := by
  unfold Recovery.settleAcked at done
  obtain ⟨passed, pass, done⟩ := Option.bind_eq_some_iff.mp done
  obtain ⟨bytes, -, stored⟩ := Option.bind_eq_some_iff.mp done
  cases stored
  -- What was acknowledged in bytes does not touch the queues.
  refine ⟨passed, pass, ⟨?_, ?_, fun other apart => ?_⟩, rfl⟩
  · simp [RecoveryEpoch.drain]
  · simp [RecoveryEpoch.drain]
  · simp [apart]

/-- Packets leave the queues and are marked, and none comes. -/
structure Recovery.Ages (before after : Recovery) : Prop where
  nums : ∀ epoch, ((after.epochs epoch).sentPackets.map Sent.pktNum).Sublist
    ((before.epochs epoch).sentPackets.map Sent.pktNum)
  unmarked : ∀ epoch, unmarkedNums (after.epochs epoch).sentPackets ⊆
    unmarkedNums (before.epochs epoch).sentPackets

theorem Recovery.Ages.refl (recovery : Recovery) : recovery.Ages recovery :=
  ⟨fun _ => List.Sublist.refl _, fun _ => List.Subset.refl _⟩

theorem Recovery.Ages.trans {first second third : Recovery} (left : first.Ages second) (right : second.Ages third) :
    first.Ages third :=
  ⟨fun epoch => (right.nums epoch).trans (left.nums epoch),
    fun epoch => List.Subset.trans (right.unmarked epoch) (left.unmarked epoch)⟩

/-- Queues that age keep their order. -/
theorem Recovery.Ages.increasing {before : Recovery} (ages : before.Ages after) {epoch : Epoch}
    (increasing : Increasing (before.epochs epoch).sentPackets) : Increasing (after.epochs epoch).sentPackets :=
  List.Pairwise.sublist (ages.nums epoch) increasing

/-- Replacing one queue by an aged one. -/
theorem Recovery.Requeued.ages {queue : List Sent} (requeued : Recovery.Requeued epoch queue recovery after)
    (nums : (queue.map Sent.pktNum).Sublist ((recovery.epochs epoch).sentPackets.map Sent.pktNum))
    (unmarked : unmarkedNums queue ⊆ unmarkedNums (recovery.epochs epoch).sentPackets) : recovery.Ages after := by
  -- The queue of the epoch is the new one; the others are the same.
  refine ⟨fun other => ?_, fun other => ?_⟩
  · by_cases same : other = epoch
    · rw [same, requeued.queue]
      exact nums
    · rw [requeued.others other same]
  · by_cases same : other = epoch
    · rw [same, requeued.queue]
      exact unmarked
    · rw [requeued.others other same]
      exact List.Subset.refl _

theorem Recovery.Ages.of_queues
    (same : ∀ epoch, (after.epochs epoch).sentPackets = (recovery.epochs epoch).sentPackets) :
    recovery.Ages after := by
  refine ⟨fun epoch => ?_, fun epoch => ?_⟩
  · rw [same epoch]
  · rw [same epoch]
    exact List.Subset.refl _

/-- An epoch that is emptied. -/
theorem Recovery.Ages.emptied (epoch : Epoch) (gone : (after.epochs epoch).sentPackets = [])
    (others : ∀ other, other ≠ epoch → after.epochs other = recovery.epochs other) : recovery.Ages after := by
  -- An empty queue holds no number.
  refine ⟨fun other => ?_, fun other => ?_⟩
  · by_cases same : other = epoch
    · rw [same, gone]
      exact List.nil_sublist _
    · rw [others other same]
  · by_cases same : other = epoch
    · rw [same, gone]
      exact List.nil_subset _
    · rw [others other same]
      exact List.Subset.refl _

theorem detectLostPackets_ages (done : recovery.detectLostPackets epoch timing now = some after) :
    recovery.Ages after ∧ after.newAcks = recovery.newAcks := by
  obtain ⟨loop, packets, loop', looped, requeued, notes⟩ := detectLostPackets_queue done
  obtain ⟨nums, unmarked⟩ := lostLoop_nums looped
  -- The drain behind the pass only shortens the queue.
  refine ⟨requeued.ages ?_ ?_, notes⟩
  · rw [← nums]
    exact (drain_sublist _ _ _).map _
  · rw [unmarkedNums_drain]
    exact unmarked

theorem settleAcked_ages {ackedBytes : Nat} (done : recovery.settleAcked epoch ackedBytes timing now = some after) :
    recovery.Ages after ∧ after.newAcks = recovery.newAcks := by
  obtain ⟨passed, pass, requeued, notes⟩ := settleAcked_queue done
  obtain ⟨ages, kept⟩ := detectLostPackets_ages pass
  refine ⟨ages.trans (requeued.ages ((drain_sublist _ _ _).map _) ?_), notes.trans kept⟩
  rw [unmarkedNums_drain]
  exact List.Subset.refl _

/-- An acknowledgment ages the queues, and notes once each number that it is the first to mark. -/
theorem onAckReceived_ages (searches : Searches search) {ranges : RangeSet} {later : Timing}
    (increasing : Increasing (recovery.epochs epoch).sentPackets)
    (done : recovery.onAckReceived search ranges epoch timing later now = some after) :
    recovery.Ages after ∧
    (∀ num ∈ unmarkedNums (after.epochs epoch).sentPackets, ¬ ranges.Contains num) ∧
    ∃ newly : List Nat, after.newAcks = recovery.newAcks.map (· ++ newly) ∧ newly.Nodup ∧
      ∀ num, num ∈ newly ↔ num ∈ unmarkedNums (recovery.epochs epoch).sentPackets ∧ ranges.Contains num := by
  unfold Recovery.onAckReceived at done
  obtain ⟨⟨marked, loop⟩, acked, done⟩ := Option.bind_eq_some_iff.mp done
  obtain ⟨largest, start, packets, fresh, looped, requeued, notes⟩ := markAcked_queue acked
  obtain ⟨marks, left, newly, noted, distinct, exactly⟩ := ackRanges_marks searches _ increasing looped
  rw [fresh, List.map_nil, List.nil_append] at noted
  simp only [noted] at notes
  have aged : recovery.Ages marked := by
    refine requeued.ages ?_ ?_
    · rw [← ackedInto_pktNums marks]
      exact (drain_sublist _ _ _).map _
    · rw [unmarkedNums_drain]
      exact fun num member => ((left num).mp member).1
  have outside : ∀ num ∈ unmarkedNums (marked.epochs epoch).sentPackets, ¬ ranges.Contains num := by
    intro num member
    rw [requeued.queue, unmarkedNums_drain] at member
    exact ((left num).mp member).2
  -- The pass behind it runs only when some number is new.
  simp only at done
  split at done
  · cases done
    exact ⟨aged, outside, newly, notes, distinct, exactly⟩
  · obtain ⟨ages, kept⟩ := settleAcked_ages done
    exact ⟨aged.trans ages, fun num member => outside num (ages.unmarked epoch member), newly, kept.trans notes,
      distinct, exactly⟩

/-- A timeout ages the queues, and notes no acknowledged number. -/
theorem onLossDetectionTimeout_ages {status : HandshakeStatus}
    (done : recovery.onLossDetectionTimeout status timing now = some after) :
    recovery.Ages after ∧ after.newAcks = recovery.newAcks := by
  unfold Recovery.onLossDetectionTimeout at done
  simp only at done
  split at done
  · exact detectLostPackets_ages done
  · -- A probe only copies frames.
    cases done
    refine ⟨.of_queues fun other => ?_, rfl⟩
    simp only [setEpoch_epochs]
    split
    case isTrue same =>
      rw [same]
      rfl
    case isFalse apart => rfl

theorem initFcRecoveryState_ages (recovery : Recovery) (role : McRole) :
    recovery.Ages (recovery.initFcRecoveryState role) := by
  cases role <;> exact .of_queues fun _ => rfl

theorem markEpoch_ages (recovery : Recovery) (epoch : Epoch) :
    recovery.Ages (recovery.markEpoch epoch) ∧ (recovery.markEpoch epoch).newAcks = recovery.newAcks := by
  unfold Recovery.markEpoch Recovery.storeMarked
  simp only
  -- The branches set the bytes in flight, and empty the same queue.
  split
  · split <;> exact ⟨.emptied epoch (by simp [RecoveryEpoch.marked]) fun other apart => by simp [apart], rfl⟩
  · exact ⟨.emptied epoch (by simp [RecoveryEpoch.marked]) fun other apart => by simp [apart], rfl⟩

/-- The numbers that wait to be given to the aggregator, none of them without a flexicast part. -/
def Recovery.waitingAcks (recovery : Recovery) : List Nat := recovery.newAcks.getD []

theorem onPacketSent_queue (recovery : Recovery) (pkt : Sent) (epoch : Epoch) (now : Int) :
    Recovery.Requeued epoch ((recovery.epochs epoch).sentPackets ++ [pkt]) recovery
      (recovery.onPacketSent pkt epoch now) ∧
      (recovery.onPacketSent pkt epoch now).waitingAcks = recovery.waitingAcks := by
  refine ⟨⟨?_, ?_, fun other apart => ?_⟩, rfl⟩
  · simp [Recovery.onPacketSent, RecoveryEpoch.record]
  · simp [Recovery.onPacketSent, RecoveryEpoch.record]
  · simp [Recovery.onPacketSent, apart]

theorem Increasing.snoc {packets : List Sent} (increasing : Increasing packets) {pkt : Sent}
    (last : ∀ held ∈ packets, held.pktNum < pkt.pktNum) : Increasing (packets ++ [pkt]) := by
  rw [Increasing, List.map_append]
  refine List.pairwise_append.mpr ⟨increasing, List.pairwise_singleton _ _, fun num member other alone => ?_⟩
  obtain ⟨held, there, rfl⟩ := List.mem_map.mp member
  simp only [List.map_cons, List.map_nil, List.mem_singleton] at alone
  rw [alone]
  exact last held there

/-- What an event does to the recovery of a path: it sends a packet, acknowledges some, or ages the queues. -/
theorem step_queues (searches : Searches search) {recovery : Recovery}
    (increasing : ∀ epoch, Increasing (recovery.epochs epoch).sentPackets) {event : Event} {connection : Connection}
    (done : Connection.step? search ⟨none, recovery⟩ event = some connection) :
    (∃ pkt epoch now, event = .sent pkt epoch now ∧ connection.recovery = recovery.onPacketSent pkt epoch now) ∨
    (∃ ranges epoch before after now newly, event = .acked ranges epoch before after now ∧
      recovery.Ages connection.recovery ∧ connection.recovery.newAcks = recovery.newAcks.map (· ++ newly) ∧
      ∀ num, num ∈ newly ↔ num ∈ unmarkedNums (recovery.epochs epoch).sentPackets ∧ ranges.1.Contains num) ∨
    (recovery.Ages connection.recovery ∧ connection.recovery.waitingAcks = recovery.waitingAcks) := by
  cases event with
  | sent pkt epoch now =>
    cases done
    exact .inl ⟨pkt, epoch, now, rfl, rfl⟩
  | acked ranges epoch before after now =>
    obtain ⟨result, received, stored⟩ := Option.map_eq_some_iff.mp done
    cases stored
    obtain ⟨ages, -, newly, notes, -, exactly⟩ := onAckReceived_ages searches (increasing epoch) received
    exact .inr (.inl ⟨ranges, epoch, before, after, now, newly, rfl, ages, notes, exactly⟩)
  | lossDetection epoch timing now =>
    obtain ⟨result, passed, stored⟩ := Option.map_eq_some_iff.mp done
    cases stored
    obtain ⟨ages, notes⟩ := detectLostPackets_ages passed
    exact .inr (.inr ⟨ages, congrArg (Option.getD · []) notes⟩)
  | timeout status timing now =>
    obtain ⟨result, ran, stored⟩ := Option.map_eq_some_iff.mp done
    cases stored
    obtain ⟨ages, notes⟩ := onLossDetectionTimeout_ages ran
    exact .inr (.inr ⟨ages, congrArg (Option.getD · []) notes⟩)
  | discarded epoch =>
    obtain ⟨result, ran, stored⟩ := Option.map_eq_some_iff.mp done
    cases stored
    unfold Recovery.onPktNumSpaceDiscarded at ran
    obtain ⟨bytes, -, stored⟩ := Option.bind_eq_some_iff.mp ran
    cases stored
    exact .inr (.inr ⟨.emptied epoch (by simp [RecoveryEpoch.cleared]) fun other apart => by simp [apart], rfl⟩)
  | markedAll =>
    cases done
    -- Bulk marking goes through the three epochs.
    obtain ⟨initial, first⟩ := markEpoch_ages recovery .initial
    obtain ⟨handshake, second⟩ := markEpoch_ages (recovery.markEpoch .initial) .handshake
    obtain ⟨application, third⟩ := markEpoch_ages ((recovery.markEpoch .initial).markEpoch .handshake) .application
    exact .inr (.inr ⟨(initial.trans handshake).trans application,
      congrArg (Option.getD · []) (third.trans (second.trans first))⟩)
  | copied fcId packets now =>
    -- Without a flexicast part nothing is copied.
    cases done
    exact .inr (.inr ⟨.refl _, rfl⟩)
  | changed flexicast =>
    cases done
    exact .inr (.inr ⟨.refl _, rfl⟩)
  | initialised role =>
    unfold Connection.step? at done
    simp only at done
    split at done
    case isTrue absent =>
      cases done
      have held := Option.isNone_iff_eq_none.mp absent
      refine .inr (.inr ⟨initFcRecoveryState_ages recovery role, ?_⟩)
      cases role <;> simp [Recovery.waitingAcks, Recovery.newAcks, Recovery.initFcRecoveryState, held]
    case isFalse present =>
      cases done
      exact .inr (.inr ⟨.refl _, rfl⟩)

end Recoveries

end Loss

end Flexicast
