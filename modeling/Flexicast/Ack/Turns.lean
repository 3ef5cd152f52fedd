import Flexicast.Ack.McAck

/-! Why the two queue loops of the aggregator end within their bound. -/

namespace Flexicast

namespace McAck

/-- A queued range is what is left of the first one: it is not empty and ends at the same offset. -/
def Ends (stop : Nat) (range : Nat × Nat) : Prop := 0 < range.2 ∧ range.1 + range.2 = stop

/-- A bound on the turns a queued range can cause, itself and its own remainders included. -/
def effort (stop : Nat) (range : Nat × Nat) : Nat := (stop + 1) ^ range.2

theorem effort_pos (stop : Nat) (range : Nat × Nat) : 0 < effort stop range :=
  Nat.pow_pos (Nat.succ_pos stop)

variable {pushed : List (Nat × Nat)} {len off offset segLen : Nat}

theorem load_le (stop len : Nat) (shorter : ∀ range ∈ pushed, range.2 ≤ len) :
    WorkQueue.load (effort stop) pushed ≤ pushed.length * (stop + 1) ^ len := by
  induction pushed with
  | nil => simp
  | cons head rest ih =>
    have cheap : effort stop head ≤ (stop + 1) ^ len :=
      Nat.pow_le_pow_right (Nat.succ_pos stop) (shorter head List.mem_cons_self)
    have others := ih fun range member => shorter range (List.mem_cons_of_mem _ member)
    simp only [WorkQueue.load_cons, List.length_cons, Nat.succ_mul]
    omega

theorem load_lt {stop : Nat} (few : pushed.length ≤ stop) (shorter : ∀ range ∈ pushed, range.2 < len) :
    WorkQueue.load (effort stop) pushed < (stop + 1) ^ len := by
  cases len with
  | zero =>
    -- Nothing is shorter than an empty range, so nothing was queued.
    cases pushed with
    | nil => simp
    | cons head rest => exact absurd (shorter head List.mem_cons_self) (Nat.not_lt_zero _)
  | succ len =>
    calc WorkQueue.load (effort stop) pushed
        ≤ pushed.length * (stop + 1) ^ len :=
          load_le stop len fun range member => Nat.le_of_lt_succ (shorter range member)
      _ ≤ stop * (stop + 1) ^ len := Nat.mul_le_mul_right _ few
      _ < (stop + 1) * (stop + 1) ^ len :=
          Nat.mul_lt_mul_of_pos_right (Nat.lt_succ_self stop) (Nat.pow_pos (Nat.succ_pos stop))
      _ = (stop + 1) ^ (len + 1) := by rw [Nat.pow_succ, Nat.mul_comm]

theorem remainder_ends (meets : off < offset + segLen) :
    ∀ range ∈ remainder off len offset segLen, Ends (off + len) range ∧ range.2 < len := by
  intro range member
  unfold remainder at member
  split at member
  · simp only [List.mem_singleton] at member
    subst member
    refine ⟨⟨?_, ?_⟩, ?_⟩ <;> simp only <;> omega
  · simp at member

theorem remainder_start {range : Nat × Nat} (left : range ∈ remainder off len offset segLen) :
    range.1 = offset + segLen := by
  unfold remainder at left
  split at left
  · simp only [List.mem_singleton] at left
    rw [left]
  · simp at left

theorem remainder_length (off len offset segLen : Nat) :
    (remainder off len offset segLen).length ≤ 1 := by
  unfold remainder
  split <;> simp

/-- What one pass over the offsets may queue: few ranges, each with the same end and a later start. -/
structure Queues (off len low : Nat) (pushed : List (Nat × Nat)) : Prop where
  /-- One range at most for each offset that is still ahead. -/
  few : pushed.length ≤ off + len - low
  /-- Each range is a proper remainder of the one being handled. -/
  ends : ∀ range ∈ pushed, Ends (off + len) range ∧ range.2 < len

theorem Queues.nil (off len low : Nat) : Queues off len low [] :=
  ⟨by simp, by simp⟩

/-- One visited segment adds at most its own remainder. -/
theorem Queues.visit {low : Nat} (later : Queues off len (offset + 1) pushed) (ahead : low ≤ offset)
    (below : offset < off + len) (meets : off < offset + segLen) :
    Queues off len low (remainder off len offset segLen ++ pushed) := by
  constructor
  · have few := later.few
    have one := remainder_length off len offset segLen
    rw [List.length_append]
    omega
  · intro range member
    rcases List.mem_append.mp member with own | other
    · exact remainder_ends meets range own
    · exact later.ends range other

theorem Queues.skip {low : Nat} (later : Queues off len (offset + 1) pushed) (ahead : low ≤ offset) :
    Queues off len low pushed :=
  ⟨Nat.le_trans later.few (by omega), later.ends⟩

theorem Queues.settles {stop : Nat} (range : Nat × Nat) (queues : Queues range.1 range.2 0 pushed)
    (ends : Ends stop range) :
    (∀ later ∈ pushed, Ends stop later) ∧ WorkQueue.load (effort stop) pushed < effort stop range := by
  have same : range.1 + range.2 = stop := ends.2
  constructor
  · intro later member
    rw [← same]
    exact (queues.ends later member).1
  · refine load_lt ?_ fun later member => (queues.ends later member).2
    rw [← same]
    exact queues.few

end McAck

end Flexicast
