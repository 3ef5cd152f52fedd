import Flexicast.Lib.Runs
import Flexicast.Lib.Words
import Mathlib.Algebra.Ring.Nat
import Mathlib.Data.List.Induction

/-! The window of received packet numbers that finds duplicates. -/

namespace Flexicast

/-- The received packet numbers from `lower` on: bit `i` is the number `i` below the upper edge. -/
structure PktNumWindow where
  lower : Nat
  window : BitVec 128
  deriving DecidableEq, Repr

namespace PktNumWindow

/-- The window of a new packet number space. -/
def empty : PktNumWindow := ⟨0, 0⟩

/-- The largest packet number of the window. -/
def upper (self : PktNumWindow) : Nat := min (self.lower + 128) maxU64 - 1

/-- `u128::checked_shl(..).unwrap_or(0)`: a shift by the whole width or more leaves nothing. -/
def checkedShl (window : BitVec 128) (count : Nat) : BitVec 128 :=
  if count < 128 then window <<< count else 0

/-- Marks a packet number, moving the window up when it lies above; `none` is a panic. -/
def insert (self : PktNumWindow) (seq : Nat) : Option PktNumWindow :=
  -- Packet is on the left end of the window.
  if seq < self.lower then
    some self
  else
    -- Packet is on the right end of the window: the difference is cast to 32 bits for the shift.
    let moved :=
      if self.upper < seq then
        let diff := seq - self.upper
        ⟨self.lower + diff, checkedShl self.window (diff % 2 ^ 32)⟩
      else
        self
    -- `upper - seq` is unsigned, so a number still above the window overflows.
    if moved.upper < seq then
      none
    else
      some { moved with window := moved.window ||| (1#128 <<< (moved.upper - seq)) }

/-- Whether a packet number counts as received. -/
def contains (self : PktNumWindow) (seq : Nat) : Bool :=
  -- Packet is on the right end of the window.
  if self.upper < seq then
    false
  -- Packet is on the left end of the window.
  else if seq < self.lower then
    true
  else
    (self.window &&& (1#128 <<< (self.upper - seq))) != 0#128

/-- One call of `insert`; a window that panicked is gone. -/
def step (window : Option PktNumWindow) (seq : Nat) : Option PktNumWindow := window.bind (·.insert seq)

/-- Every inserted number counts as received, and no other number from the lower edge on does. -/
def Detects (self : PktNumWindow) (past : List Nat) : Prop :=
  ∀ seq, seq ≤ maxU64 →
    (seq ∈ past → self.contains seq = true) ∧
      (seq ∉ past → self.lower ≤ seq → self.contains seq = false)

/-- The number is not the largest there is, and a jump whose cast to 32 bits loses something moves
    every marked bit out of the window or onto the inserted number itself. -/
def Fits (self : PktNumWindow) (seq : Nat) : Prop :=
  seq < maxU64 ∧
    (2 ^ 32 ≤ seq - self.upper → ∀ i < 128, self.window.getLsbD i = true →
      i + (seq - self.upper) % 2 ^ 32 = 0 ∨ 128 ≤ i + (seq - self.upper) % 2 ^ 32)

instance (self : PktNumWindow) (seq : Nat) : Decidable (self.Fits seq) :=
  inferInstanceAs (Decidable (_ ∧ _))

/-- The same condition on the window that the earlier calls left. -/
def StepFits : Option PktNumWindow → Nat → Prop
  | none, _ => False
  | some window, seq => window.Fits seq

instance (window : Option PktNumWindow) (seq : Nat) : Decidable (StepFits window seq) :=
  match window with
  | none => inferInstanceAs (Decidable False)
  | some window => inferInstanceAs (Decidable (window.Fits seq))

section Bits

variable {self : PktNumWindow} {seq : Nat}

/-- A mask of one bit tests that bit. -/
theorem mask_test (window : BitVec 128) {offset : Nat} (inside : offset < 128) :
    ((window &&& (1#128 <<< offset)) != 0#128) = window.getLsbD offset := by
  rw [← BitVec.twoPow_eq, BitVec.and_twoPow]
  cases window.getLsbD offset with
  | false => rfl
  | true =>
    -- The mask itself is not zero, since its one bit lies inside the word.
    apply bne_iff_ne.mpr
    intro zero
    have bit : (BitVec.twoPow 128 offset).getLsbD offset = false := by
      rw [if_pos rfl] at zero
      rw [zero]
      exact BitVec.getLsbD_zero
    simp [inside] at bit

/-- Shifting moves a bit up by the count, or out of the window. -/
theorem getLsbD_checkedShl (window : BitVec 128) (count i : Nat) :
    (checkedShl window count).getLsbD i =
      (decide (i < 128) && decide (count ≤ i) && window.getLsbD (i - count)) := by
  unfold checkedShl
  split
  · rename_i small
    rw [BitVec.getLsbD_shiftLeft]
    by_cases below : i < count
    · simp [below, Nat.not_le.mpr below]
    · simp [below, Nat.le_of_not_lt below]
  · rename_i large
    by_cases inside : i < 128
    · have : ¬ count ≤ i := by omega
      simp [this]
    · simp [inside]

/-- A number below the largest one leaves the upper edge free of saturation. -/
def Room (self : PktNumWindow) : Prop := self.lower + 128 ≤ maxU64

theorem upper_eq (room : self.Room) : self.upper = self.lower + 127 := by
  unfold upper
  unfold Room at room
  omega

theorem contains_inside (room : self.Room) (above : self.lower ≤ seq) (below : seq ≤ self.upper) :
    self.contains seq = self.window.getLsbD (self.upper - seq) := by
  have width := upper_eq room
  unfold contains
  rw [if_neg (by omega), if_neg (by omega)]
  exact mask_test self.window (by omega)

end Bits

/-- The bits of the window are the inserted numbers, none of which lies above it. -/
structure Tracks (win : PktNumWindow) (past : List Nat) : Prop where
  room : win.Room
  bits : ∀ i < 128, (win.window.getLsbD i = true ↔ win.upper - i ∈ past)
  top : ∀ seq ∈ past, seq ≤ win.upper

theorem Tracks.detects {self : PktNumWindow} {past : List Nat} (tracks : self.Tracks past) :
    self.Detects past := by
  intro seq _
  have width := upper_eq tracks.room
  -- Only inside the window does the answer depend on a bit.
  by_cases above : self.upper < seq
  · have absent : seq ∉ past := fun member => by have := tracks.top seq member; omega
    exact ⟨fun member => absurd member absent, fun _ _ => by simp [contains, above]⟩
  by_cases below : seq < self.lower
  · exact ⟨fun _ => by simp [contains, above, below], fun _ edge => by omega⟩
  have inside := contains_inside tracks.room (Nat.le_of_not_lt below) (Nat.le_of_not_lt above)
  have bit := tracks.bits (self.upper - seq) (by omega)
  rw [← inside, show self.upper - (self.upper - seq) = seq by omega] at bit
  constructor
  · exact bit.mpr
  · intro absent _
    exact Bool.eq_false_iff.mpr fun found => absent (bit.mp found)

theorem empty_tracks : empty.Tracks [] := by
  refine ⟨by unfold Room; decide, ?_, ?_⟩
  · intro i _
    simp [empty]
  · intro seq member
    cases member

section Insertion

variable {self : PktNumWindow} {past : List Nat} {seq : Nat}

theorem insert_below (below : seq < self.lower) : self.insert seq = some self := by
  simp [insert, below]

theorem insert_inside (above : self.lower ≤ seq) (below : seq ≤ self.upper) :
    self.insert seq =
      some { self with window := self.window ||| (1#128 <<< (self.upper - seq)) } := by
  unfold insert
  simp [Nat.not_lt.mpr above, Nat.not_lt.mpr below]

theorem insert_above (room : self.Room) (above : self.upper < seq) (small : seq < maxU64) :
    self.insert seq = some ⟨seq - 127,
      checkedShl self.window ((seq - self.upper) % 2 ^ 32) ||| 1#128⟩ := by
  have width := upper_eq room
  have base : self.lower + (seq - self.upper) = seq - 127 := by omega
  have edge : upper ⟨seq - 127, checkedShl self.window ((seq - self.upper) % 2 ^ 32)⟩ = seq := by
    simp only [upper]
    omega
  unfold insert
  rw [if_neg (by omega)]
  simp only [above, if_true, base, edge, Nat.lt_irrefl, if_false, Nat.sub_self, BitVec.shiftLeft_zero]

theorem insert_largest (room : self.Room) : self.insert maxU64 = none := by
  have width := upper_eq room
  unfold Room at room
  have edge (bits : BitVec 128) : upper ⟨self.lower + (maxU64 - self.upper), bits⟩ < maxU64 := by
    simp only [upper]
    omega
  unfold insert
  rw [if_neg (by omega)]
  simp only [show self.upper < maxU64 by omega, if_true, edge]

theorem jump_bits (window : BitVec 128) (count i : Nat) :
    (checkedShl window count ||| 1#128).getLsbD i =
      ((decide (i < 128) && decide (count ≤ i) && window.getLsbD (i - count)) || decide (i = 0)) := by
  rw [BitVec.getLsbD_or, getLsbD_checkedShl]
  congr 1
  simp [BitVec.getLsbD_one]

/-- Setting the bit of a number inside the window adds that number. -/
theorem Tracks.insert_inside (tracks : self.Tracks past) (above : self.lower ≤ seq) (below : seq ≤ self.upper) :
    Tracks { self with window := self.window ||| (1#128 <<< (self.upper - seq)) } (past ++ [seq]) := by
  have width := upper_eq tracks.room
  refine ⟨tracks.room, ?_, ?_⟩
  · intro i inside
    have old := tracks.bits i inside
    show (self.window ||| (1#128 <<< (self.upper - seq))).getLsbD i = true ↔ self.upper - i ∈ past ++ [seq]
    rw [BitVec.getLsbD_or, ← BitVec.twoPow_eq, BitVec.getLsbD_twoPow, Bool.or_eq_true, old]
    simp only [List.mem_append, List.mem_singleton, Bool.and_eq_true, decide_eq_true_eq]
    -- The new bit is that of the number itself.
    have own : (self.upper - seq < 128 ∧ self.upper - seq = i) ↔ self.upper - i = seq := by omega
    rw [own]
  · intro other member
    rcases List.mem_append.mp member with old | new
    · exact tracks.top other old
    · rw [List.mem_singleton.mp new]
      exact below

/-- A jump that fits leaves the inserted numbers that are still inside, and adds its own. -/
theorem Tracks.insert_above (tracks : self.Tracks past) (above : self.upper < seq) (fits : self.Fits seq) :
    Tracks ⟨seq - 127, checkedShl self.window ((seq - self.upper) % 2 ^ 32) ||| 1#128⟩ (past ++ [seq]) := by
  have width := upper_eq tracks.room
  obtain ⟨small, clear⟩ := fits
  have edge (bits : BitVec 128) : upper ⟨seq - 127, bits⟩ = seq := by
    simp only [upper]
    omega
  refine ⟨by simp only [Room]; omega, ?_, ?_⟩
  · intro i inside
    simp only [edge, jump_bits, Bool.or_eq_true, Bool.and_eq_true, decide_eq_true_eq, List.mem_append,
      List.mem_singleton]
    rcases Nat.eq_zero_or_pos i with zero | positive
    · simp [zero]
    -- The other bits are the old ones, whose numbers lie at most 127 below the new edge.
    have apart : (seq - i = seq) = False := by simp only [eq_iff_iff, iff_false]; omega
    have unset : (i = 0) = False := by simp only [eq_iff_iff, iff_false]; omega
    rw [apart, unset, or_false, or_false]
    have bits := tracks.bits (i - (seq - self.upper))
    by_cases exact_ : seq - self.upper < 2 ^ 32
    · rw [Nat.mod_eq_of_lt exact_]
      by_cases reach : seq - self.upper ≤ i
      · rw [bits (by omega), show self.upper - (i - (seq - self.upper)) = seq - i by omega]
        simp [inside, reach]
      · have absent : seq - i ∉ past := fun member => by have := tracks.top _ member; omega
        simp [reach, absent]
    · have absent : seq - i ∉ past := fun member => by have := tracks.top _ member; omega
      have none_ : ¬ ((i < 128 ∧ (seq - self.upper) % 2 ^ 32 ≤ i) ∧
          self.window.getLsbD (i - (seq - self.upper) % 2 ^ 32) = true) := by
        intro marked
        have := clear (by omega) _ (by omega) marked.2
        omega
      exact ⟨fun marked => absurd marked none_, fun member => absurd member absent⟩
  · intro other member
    rw [edge]
    rcases List.mem_append.mp member with old | new
    · have := tracks.top other old
      omega
    · exact Nat.le_of_eq (List.mem_singleton.mp new)

/-- An insertion that fits keeps the window exact. -/
theorem Tracks.insert (tracks : self.Tracks past) (fits : self.Fits seq) :
    ∃ next, self.insert seq = some next ∧ next.Tracks (past ++ [seq]) := by
  by_cases below : seq < self.lower
  · -- The number is not marked, and lies below every bit.
    have width := upper_eq tracks.room
    refine ⟨self, insert_below below, tracks.room, ?_, ?_⟩
    · intro i inside
      rw [tracks.bits i inside, List.mem_append, List.mem_singleton]
      have : self.upper - i ≠ seq := by omega
      simp [this]
    · intro other member
      rcases List.mem_append.mp member with old | new
      · exact tracks.top other old
      · have := List.mem_singleton.mp new
        omega
  by_cases inside : seq ≤ self.upper
  · exact ⟨_, PktNumWindow.insert_inside (Nat.le_of_not_lt below) inside,
      tracks.insert_inside (Nat.le_of_not_lt below) inside⟩
  · have above := Nat.lt_of_not_le inside
    exact ⟨_, PktNumWindow.insert_above tracks.room above fits.1, tracks.insert_above above fits⟩

/-- An insertion that does not fit panics, or marks a number that was never inserted. -/
theorem Tracks.insert_unfit (tracks : self.Tracks past) (u64 : seq ≤ maxU64) (unfit : ¬ self.Fits seq) :
    ¬ ∃ next, self.insert seq = some next ∧ next.Detects (past ++ [seq]) := by
  intro given
  obtain ⟨next, inserted, detects⟩ := given
  have width := upper_eq tracks.room
  by_cases small : seq < maxU64
  · -- A marked bit that the cast jump keeps stands for a number above every inserted one.
    obtain ⟨far, i, inside, marked, moved⟩ : 2 ^ 32 ≤ seq - self.upper ∧ ∃ i < 128,
        self.window.getLsbD i = true ∧
          ¬ (i + (seq - self.upper) % 2 ^ 32 = 0 ∨ 128 ≤ i + (seq - self.upper) % 2 ^ 32) := by
      simpa only [Fits, small, true_and, Classical.not_imp, not_forall, exists_prop] using unfit
    have landed := PktNumWindow.insert_above tracks.room (by omega) small
    generalize shift : (seq - self.upper) % 2 ^ 32 = count at moved landed
    rw [landed] at inserted
    obtain rfl := Option.some.inj inserted
    have edge (bits : BitVec 128) : upper ⟨seq - 127, bits⟩ = seq := by
      simp only [upper]
      omega
    have fresh : seq - (i + count) ∉ past ++ [seq] := by
      intro member
      rcases List.mem_append.mp member with old | new
      · have := tracks.top _ old
        omega
      · have := List.mem_singleton.mp new
        omega
    have answer := (detects (seq - (i + count)) (by omega)).2 fresh (by show seq - 127 ≤ _; omega)
    rw [contains_inside (by simp only [Room]; omega) (by show seq - 127 ≤ _; omega) (by rw [edge]; omega),
      edge, jump_bits, show seq - (seq - (i + count)) = i + count by omega] at answer
    simp [marked, show i + count < 128 by omega] at answer
  · obtain rfl : seq = maxU64 := by omega
    rw [insert_largest tracks.room] at inserted
    cases inserted

end Insertion

/-- After insertions that all fit the window is exact. -/
theorem run_tracks {seqs : List Nat} (fits : Runs.Along step StepFits (some empty) seqs) :
    ∃ window, Runs.run step (some empty) seqs = some window ∧ window.Tracks seqs := by
  -- The inserted numbers grow at their end, so the induction takes the last one off.
  induction seqs using List.reverseRecOn with
  | nil => exact ⟨empty, rfl, empty_tracks⟩
  | append_singleton seqs seq ih =>
    obtain ⟨before, last⟩ := Runs.along_append.mp fits
    obtain ⟨window, reached, tracks⟩ := ih before
    rw [reached] at last
    obtain ⟨next, inserted, kept⟩ := tracks.insert last.1
    refine ⟨next, ?_, kept⟩
    rw [Runs.run_append, reached]
    exact inserted

/--
The window finds every duplicate and no other number after each call of a sequence,
exactly when every call of the sequence fits.
-/
theorem insert_detects (seqs : List Nat) (u64 : ∀ seq ∈ seqs, seq ≤ maxU64) :
    (∀ done rest, seqs = done ++ rest →
      ∃ window, Runs.run step (some empty) done = some window ∧ window.Detects done) ↔
    Runs.Along step StepFits (some empty) seqs := by
  constructor
  · intro exact_
    -- Up to the first call that does not fit the window is exact, and that call breaks it.
    induction seqs using List.reverseRecOn with
    | nil => trivial
    | append_singleton seqs seq ih =>
      have before := ih (fun seq member => u64 seq (List.mem_append_left _ member))
        (fun done rest split => exact_ done (rest ++ [seq]) (by rw [split, List.append_assoc]))
      obtain ⟨window, reached, tracks⟩ := run_tracks before
      refine Runs.along_append.mpr ⟨before, ?_, trivial⟩
      rw [reached]
      by_contra unfit
      obtain ⟨next, ran, detects⟩ := exact_ (seqs ++ [seq]) [] (List.append_nil _).symm
      rw [Runs.run_append, reached] at ran
      exact tracks.insert_unfit (u64 seq (by simp)) unfit ⟨next, ran, detects⟩
  · intro fits done rest split
    subst split
    obtain ⟨window, reached, tracks⟩ := run_tracks (Runs.along_append.mp fits).1
    exact ⟨window, reached, tracks.detects⟩

/-- Far jumps and numbers out of order that all fit. -/
theorem insert_detects_jump :
    (∀ seq ∈ [3, 200, 150, 5000000000, 3], seq ≤ maxU64) ∧
    ∀ done rest, [3, 200, 150, 5000000000, 3] = done ++ rest →
      ∃ window, Runs.run step (some empty) done = some window ∧ window.Detects done :=
  ⟨by decide, (insert_detects [3, 200, 150, 5000000000, 3] (by decide)).mpr (by decide)⟩

/-- A jump by more than 32 bits makes a number that never arrived a duplicate. -/
theorem insert_jump_marks_fresh :
    ¬ ∃ window, Runs.run step (some empty) [0, 4294967423] = some window ∧
      window.Detects [0, 4294967423] := by
  intro found
  obtain ⟨window, ran, detects⟩ := found
  have reached : Runs.run step (some empty) [0, 4294967423] =
      some ⟨4294967296, 1#128 <<< 127 ||| 1#128⟩ := by decide
  rw [reached] at ran
  obtain rfl := Option.some.inj ran
  have answer := (detects 4294967296 (by decide)).2 (by decide) (by decide)
  revert answer
  decide

end PktNumWindow

end Flexicast
