import Flexicast.Stream.WriteAt
import Flexicast.Lib.Runs

/-! When a unicast source counts a stream as complete that it closed before its end. -/

namespace Flexicast

namespace Intervals

variable {list : List (Nat × Nat)}

theorem merge_head (lo hi : Nat) (reached : ∀ range ∈ list, lo ≤ range.2) :
    ∃ first rest, merge lo hi list = first :: rest ∧ first.1 ≤ lo ∧ hi ≤ first.2 := by
  induction list generalizing lo hi with
  | nil => exact ⟨_, _, rfl, Nat.le_refl _, Nat.le_refl _⟩
  | cons head rest ih =>
    obtain ⟨start, stop⟩ := head
    have here : lo ≤ stop := reached _ List.mem_cons_self
    simp only [merge, if_neg (Nat.not_lt.mpr here)]
    split
    · exact ⟨_, _, rfl, Nat.le_refl _, Nat.le_refl _⟩
    · have further : ∀ range ∈ rest, min lo start ≤ range.2 := fun range member =>
        Nat.le_trans (Nat.min_le_left _ _) (reached range (List.mem_cons_of_mem _ member))
      obtain ⟨first, others, merged, low, high⟩ := ih (min lo start) (max hi stop) further
      exact ⟨first, others, merged, by omega, by omega⟩

/-- A merge changes nothing exactly if an interval already holds the new one. -/
theorem merge_eq_self_iff {lo hi : Nat} (ordered : lo ≤ hi) (separated : Separated list) :
    merge lo hi list = list ↔ ∃ range ∈ list, range.1 ≤ lo ∧ hi ≤ range.2 := by
  induction list with
  | nil => simp [merge]
  | cons head rest ih =>
    obtain ⟨start, stop⟩ := head
    obtain ⟨forward, gap, tail⟩ := separated_cons.mp separated
    dsimp only at forward gap
    simp only [merge, List.mem_cons, or_and_right, exists_or, exists_eq_left]
    split
    · -- The interval lies before the new one.
      rename_i before
      rw [List.cons_inj_right, ih tail]
      exact ⟨.inr, fun either => either.resolve_left fun holds => by omega⟩
    · split
      · -- The new interval lies before all others, so it is listed in addition.
        rename_i after
        constructor
        · intro same
          have lengths := congrArg List.length same
          simp at lengths
        · rintro (holds | ⟨range, member, low, -⟩)
          · omega
          · have := gap range member
            omega
      · constructor
        · intro same
          have reached : ∀ range ∈ rest, min lo start ≤ range.2 := by
            intro range member
            have := gap range member
            have := tail.forward range member
            omega
          obtain ⟨first, others, merged, low, high⟩ := merge_head (min lo start) (max hi stop) reached
          rw [merged] at same
          obtain ⟨rfl, -⟩ := List.cons.inj same
          dsimp only at low high
          exact .inl (by omega)
        · rintro (holds | ⟨range, member, low, -⟩)
          · have low : min lo start = start := by omega
            have high : max hi stop = stop := by omega
            rw [low, high]
            exact merge_before forward tail gap
          · have := gap range member
            omega

/-- An interval that holds a whole range from zero is the one that starts there. -/
theorem covers_below_iff {stop : Nat} (some_ : 0 < stop) (separated : Separated list) :
    (∃ range ∈ list, range.1 ≤ 0 ∧ stop ≤ range.2) ↔ ∀ x, x < stop → Covers list x := by
  constructor
  · rintro ⟨range, member, low, high⟩ x below
    exact ⟨range, member, by omega, by omega⟩
  · intro covered
    obtain ⟨first, member, low, some_⟩ := covered 0 some_
    refine ⟨first, member, low, Nat.not_lt.mp fun short => ?_⟩
    -- The number behind the first interval lies in another one, which touches it.
    obtain ⟨other, held, below, above⟩ := covered first.2 short
    have apart : first.2 < other.1 ∨ other.2 < first.1 ∨ first = other := by
      rcases List.pairwise_iff_getElem.1 separated.apart with apart
      obtain ⟨i, inside, rfl⟩ := List.mem_iff_getElem.1 member
      obtain ⟨j, within_, rfl⟩ := List.mem_iff_getElem.1 held
      rcases Nat.lt_trichotomy i j with before | rfl | behind
      · exact .inl (apart i j inside within_ before)
      · exact .inr (.inr rfl)
      · exact .inr (.inl (apart j i within_ inside behind))
    rcases apart with apart | apart | rfl
    · omega
    · omega
    · omega

end Intervals

open Intervals

namespace RangeSet

/-- The number of ranges agrees with the representation. -/
def Settled (set : RangeSet) : Prop := set.fixup = set

theorem settled_default : RangeSet.default.Settled := rfl

variable {set : RangeSet} {start stop : Nat}

/-- Changing the representation once is enough. -/
theorem settled_fixup (separated : Separated set.iter) : set.fixup.Settled := by
  have listed := iter_fixup separated
  cases set with
  | inline set =>
    simp only [fixup] at listed ⊢
    split
    · -- The tree holds as many ranges as the full vector did.
      rename_i full
      rw [if_pos full] at listed
      simp only [iter] at listed
      have many : ¬ set.inner.length ≤ minToInline := by rw [full]; decide
      simp only [Settled, fixup, listed, if_neg many]
    · rename_i short
      simp only [Settled, fixup, if_neg short]
  | btree set =>
    simp only [fixup]
    split
    · rename_i few
      have short : set.inner.entries.length ≠ maxInlineCapacity := by
        intro full
        rw [full] at few
        exact absurd few (by decide)
      simp only [Settled, fixup, if_neg short]
    · rename_i many
      simp only [Settled, fixup, if_neg many]

theorem insert_inline {set : InlineRangeSet} (wf : (RangeSet.inline set).Wf) (start stop : Nat) :
    (RangeSet.inline set).insert start stop =
      (RangeSet.inline { set with inner := merge start stop set.inner }).fixup := by
  have unbounded : set.capacity = none := wf.unbounded
  have ran := insertLoop_eq_merge start stop wf.separated []
  simp only [iter, List.nil_append] at ran
  simp [RangeSet.insert, insert?, InlineRangeSet.insert?, unbounded, ran]

/-- An insertion settles the representation. -/
theorem settled_insert (wf : set.Wf) (forward : start ≤ stop) : (set.insert start stop).Settled := by
  have merged := merge_separated forward wf.separated
  cases set with
  | inline set =>
    rw [insert_inline wf]
    exact settled_fixup merged
  | btree set =>
    have ran := btree_insert_eq_merge wf.unbounded wf.separated forward
    have listed : Separated (RangeSet.btree (set.insert start stop)).iter := by
      simpa [iter, ran] using merged
    exact settled_fixup listed

/-- An insertion changes nothing exactly if a range already holds the new one. -/
theorem insert_eq_self_iff (wf : set.Wf) (settled : set.Settled) (forward : start ≤ stop) :
    set.insert start stop = set ↔ ∃ range ∈ set.iter, range.1 ≤ start ∧ stop ≤ range.2 := by
  rw [← merge_eq_self_iff forward wf.separated]
  refine ⟨fun same => by rw [← iter_insert wf forward, same], fun listed => ?_⟩
  -- The number of ranges stays, so the representation does as well.
  cases set with
  | inline set =>
    simp only [iter] at listed
    rw [insert_inline wf, listed]
    exact settled
  | btree set =>
    have ran := btree_insert_eq_merge wf.unbounded wf.separated forward
    simp only [iter] at listed
    have same : set.insert start stop = set := by
      obtain ⟨⟨entries, sorted⟩, capacity⟩ := set
      have entries_ : (BTreeRangeSet.insert ⟨⟨entries, sorted⟩, capacity⟩ start stop).inner.entries = entries :=
        ran.trans listed
      have capacity_ : (BTreeRangeSet.insert ⟨⟨entries, sorted⟩, capacity⟩ start stop).capacity = capacity := rfl
      generalize BTreeRangeSet.insert ⟨⟨entries, sorted⟩, capacity⟩ start stop = after at entries_ capacity_
      obtain ⟨⟨entries', sorted'⟩, capacity'⟩ := after
      subst entries_ capacity_
      rfl
    show (RangeSet.btree (set.insert start stop)).fixup = _
    rw [same]
    exact settled

end RangeSet

namespace SendBuf

/-- Acknowledged ranges as they are kept. -/
structure Tracked (send : SendBuf) : Prop where
  wf : send.acked.Wf
  settled : send.acked.Settled

section Tracking

variable {send : SendBuf}

theorem tracked_new (maxData : Nat) : (SendBuf.new maxData).Tracked :=
  ⟨RangeSet.wf_default, RangeSet.settled_default⟩

theorem Tracked.congr (tracked : send.Tracked) {after : SendBuf} (same : after.acked = send.acked) : after.Tracked := by
  constructor
  · rw [same]
    exact tracked.wf
  · rw [same]
    exact tracked.settled

/-- An acknowledgment. -/
theorem Tracked.ack (tracked : send.Tracked) (off len : Nat) : (send.ack off len).Tracked :=
  ⟨tracked.wf.insert (Nat.le_add_right _ _), RangeSet.settled_insert tracked.wf (Nat.le_add_right _ _)⟩

/-- A write acknowledges nothing. -/
theorem Tracked.write (tracked : send.Tracked) {data : Bytes} {fin : Bool} {count : Nat} {after : SendBuf}
    (ran : send.write data fin = .ok (count, after)) : after.Tracked := by
  obtain ⟨bufs, off, len, finOff, rfl⟩ := write_frame ran
  exact tracked.congr rfl

/-- Marking a range to be sent again acknowledges nothing. -/
theorem Tracked.retransmit (tracked : send.Tracked) (off len : Nat) : (send.retransmit off len).Tracked := by
  obtain ⟨bufs, pos, left, frame⟩ := retransmit_frame send off len
  rw [frame]
  exact tracked.congr rfl

/-- A write at an offset acknowledges the offsets it skips. -/
theorem Tracked.writeAtOffset (tracked : send.Tracked) (data : Bytes) (offset : Nat) (fin : Bool) :
    (send.writeAtOffset data offset fin).2.Tracked := by
  by_cases low : offset < send.off
  · rw [SendBuf.writeAtOffset, if_pos low]
    exact tracked
  · have moved : (send.moved offset).Tracked := by
      unfold SendBuf.moved
      split
      · exact tracked
      · exact (tracked.ack _ _).congr rfl
    rw [writeAtOffset_behind (Nat.not_lt.mp low)]
    cases ran : (send.moved offset).write data fin with
    | error error => exact moved
    | ok result => exact (moved.write ran).retransmit offset result.1

/-- The loop that sends acknowledges nothing. -/
theorem emitLoop_acked (fuel : Nat) :
    ∀ emission : Emission, (emitLoop fuel emission).send.acked = emission.send.acked := by
  induction fuel with
  | zero => exact fun _ => rfl
  | succ fuel ih =>
    intro emission
    simp only [SendBuf.emitLoop]
    split
    · rfl
    · split
      · rfl
      · split
        · rfl
        · split
          · rw [ih]
          · split
            · rfl
            · rw [ih]

/-- Sending acknowledges nothing. -/
theorem Tracked.emit (tracked : send.Tracked) (outLen : Nat) : (send.emit outLen).2.Tracked :=
  tracked.congr (emitLoop_acked _ _)

theorem Tracked.ackAndDrop (tracked : send.Tracked) (off len : Nat) : (send.ackAndDrop off len).Tracked := by
  have acked := tracked.ack off len
  unfold SendBuf.ackAndDrop
  split
  · exact tracked
  · dsimp only
    split
    · exact acked
    · split
      · exact acked
      · exact acked.congr rfl

end Tracking

/-- What happens to the send buffer of a unicast source. -/
inductive CloseEvent where
  | write (data : Bytes) (fin : Bool)
  | writeAtOffset (data : Bytes) (offset : Nat) (fin : Bool)
  | updateMaxData (maxData : Nat)
  | emit (outLen : Nat)
  | retransmit (off len : Nat)
  | ackAndDrop (off len : Nat)
  | fcSetCloseOffset

/-- One event; a refused operation leaves the buffer as the source does. -/
def closeNext (send : SendBuf) : CloseEvent → SendBuf
  | .write data fin =>
    match send.write data fin with
    | .ok (_, send) => send
    | .error _ => send
  | .writeAtOffset data offset fin => (send.writeAtOffset data offset fin).2
  | .updateMaxData maxData => send.updateMaxData maxData
  | .emit outLen => (send.emit outLen).2
  | .retransmit off len => send.retransmit off len
  | .ackAndDrop off len => send.ackAndDrop off len
  | .fcSetCloseOffset => send.fcSetCloseOffset

/-- A new buffer, of a stream that may rotate. -/
def closeStart (maxData : Nat) (rotates : Bool) : SendBuf :=
  { SendBuf.new maxData with fcStreamRotate := rotates }

theorem Tracked.closeNext {send : SendBuf} (tracked : send.Tracked) (event : CloseEvent) :
    (send.closeNext event).Tracked := by
  cases event with
  | write data fin =>
    simp only [SendBuf.closeNext]
    cases ran : send.write data fin with
    | error error => exact tracked
    | ok result => exact tracked.write ran
  | writeAtOffset data offset fin => exact tracked.writeAtOffset data offset fin
  | updateMaxData maxData => exact tracked.congr rfl
  | emit outLen => exact tracked.emit outLen
  | retransmit off len => exact tracked.retransmit off len
  | ackAndDrop off len => exact tracked.ackAndDrop off len
  | fcSetCloseOffset => exact tracked.congr rfl

theorem Tracked.isComplete_iff {send : SendBuf} (tracked : send.Tracked) (open_ : send.finOff = none)
    {closeOff : Nat} (closed : send.fcMaxOffset = some closeOff) :
    send.isComplete = true ↔ ∃ range ∈ send.acked.iter, range.1 ≤ 0 ∧ closeOff ≤ range.2 := by
  rw [← RangeSet.insert_eq_self_iff tracked.wf tracked.settled (Nat.zero_le closeOff)]
  simp only [SendBuf.isComplete, open_, closed, Bool.false_or, decide_eq_true_eq]
  exact eq_comm

/--
A closed stream is complete exactly when everything below its close offset is acknowledged,
unless the close offset is zero and no acknowledged range starts there.

An empty range that touches no other is listed by itself, so adding it changes the set.
-/
theorem isComplete_closed_iff (maxData : Nat) (rotates : Bool) (events : List CloseEvent) (send : SendBuf)
    (reached : Runs.run closeNext (closeStart maxData rotates) events = send) (open_ : send.finOff = none)
    (closeOff : Nat) (closed : send.fcMaxOffset = some closeOff) :
    (send.isComplete = true ↔ ∀ x, x < closeOff → send.acked.Contains x) ↔
      0 < closeOff ∨ ∃ stop, (0, stop) ∈ send.acked.iter := by
  have start : (closeStart maxData rotates).Tracked := (tracked_new maxData).congr rfl
  have keeps : ∀ (send : SendBuf) event, send.Tracked → (send.closeNext event).Tracked :=
    fun send event tracked => tracked.closeNext event
  have tracked : send.Tracked := by
    rw [← reached]
    exact Runs.run_keeps keeps start events
  rw [tracked.isComplete_iff open_ closed]
  by_cases zero : closeOff = 0
  · subst zero
    simp only [Nat.not_lt_zero, false_implies, implies_true, iff_true, Nat.lt_irrefl, false_or]
    constructor
    · rintro ⟨⟨first, stop⟩, member, low, -⟩
      obtain rfl : first = 0 := Nat.le_zero.1 low
      exact ⟨stop, member⟩
    · rintro ⟨stop, member⟩
      exact ⟨_, member, Nat.le_refl _, Nat.zero_le _⟩
  · have some_ : 0 < closeOff := Nat.pos_of_ne_zero zero
    exact iff_of_true (covers_below_iff some_ tracked.wf.separated) (.inl some_)

/-- A stream that is closed at its start. -/
def closedAtStart : List CloseEvent := [.fcSetCloseOffset]

/-- A stream that is closed behind a piece, all of which is acknowledged. -/
def closedBehind : List CloseEvent :=
  [.writeAtOffset [1, 2, 3] 4 false, .fcSetCloseOffset, .emit 10, .ackAndDrop 4 3]

theorem isComplete_closed_iff_behind :
    ∃ send, Runs.run closeNext (closeStart 100 false) closedBehind = send ∧
      ((send.isComplete = true ↔ ∀ x, x < 7 → send.acked.Contains x) ↔
        0 < 7 ∨ ∃ stop, (0, stop) ∈ send.acked.iter) :=
  ⟨_, rfl, isComplete_closed_iff 100 false closedBehind _ rfl (by decide) 7 (by decide)⟩

/-- Nothing lies below offset zero, and yet the stream is not complete. -/
theorem closed_at_start_incomplete :
    ¬ ∀ (maxData : Nat) (rotates : Bool) (events : List CloseEvent) (send : SendBuf),
      Runs.run closeNext (closeStart maxData rotates) events = send → send.finOff = none →
        ∀ closeOff, send.fcMaxOffset = some closeOff →
          (send.isComplete = true ↔ ∀ x, x < closeOff → send.acked.Contains x) := by
  intro always
  have complete := (always 100 false closedAtStart _ rfl rfl 0 rfl).2 fun x below => absurd below (Nat.not_lt_zero x)
  exact absurd complete (by decide)

end SendBuf

end Flexicast
