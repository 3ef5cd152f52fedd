import Flexicast.Packet.Octets

/-! Packet numbers: how many bytes are sent, and what the receiver makes of them. -/

namespace Flexicast

open Cursor Words Octets

/-- `u64::leading_zeros`. -/
def leadingZeros (value : Nat) : Nat := if value = 0 then 64 else 63 - Nat.log2 value

/-- How many bytes of a packet number are sent, given the largest acknowledged one. -/
def pktNumLen (pn largestAcked : Nat) : Nat :=
  let numUnacked := pn - largestAcked + 1
  let minBits := 64 - leadingZeros numUnacked
  (minBits + 7) / 8

/-- Rebuilds a packet number from its low bytes, near the one expected next. -/
def decodePktNum (largestPn truncatedPn pnLen : Nat) : Nat :=
  let pnNbits := pnLen * 8
  let expectedPn := largestPn + 1
  let pnWin := 1 <<< pnNbits
  let pnHwin := pnWin / 2
  let pnMask := pnWin - 1
  -- `!pn_mask` is the complement of 64 bits.
  let candidatePn := (expectedPn &&& (maxU64 - pnMask)) ||| truncatedPn
  if candidatePn + pnHwin ≤ expectedPn ∧ candidatePn < (1 <<< 62) - pnWin then
    candidatePn + pnWin
  else if candidatePn > expectedPn + pnHwin ∧ candidatePn ≥ pnWin then
    candidatePn - pnWin
  else
    candidatePn

/-- The largest acknowledged packet number as the sender passes it on: zero when there is none. -/
def largestAckedOr (largestAcked : Option Nat) : Nat := largestAcked.getD 0

section Length

variable {value : Nat}

/-- As many bytes are sent as the number of unacknowledged packets has. -/
theorem pktNumLen_eq {pn la width : Nat} (small : pn < 2 ^ 62) (low : 256 ^ (width - 1) ≤ pn - la + 1)
    (high : pn - la + 1 < 256 ^ width) : pktNumLen pn la = width := by
  have nonzero : pn - la + 1 ≠ 0 := Nat.succ_ne_zero _
  have bits : Nat.log2 (pn - la + 1) ≤ 62 := by
    have : Nat.log2 (pn - la + 1) < 63 := (Nat.log2_lt nonzero).mpr (by omega)
    omega
  have positive : 0 < width := by
    apply Nat.pos_of_ne_zero
    intro zero
    rw [zero] at high
    omega
  -- The logarithm lies in the eight bits of the last byte.
  have least : 8 * (width - 1) ≤ Nat.log2 (pn - la + 1) := by
    apply (Nat.le_log2 nonzero).mpr
    rw [Nat.pow_mul]
    exact low
  have most : Nat.log2 (pn - la + 1) < 8 * width := by
    apply (Nat.log2_lt nonzero).mpr
    rw [Nat.pow_mul]
    exact high
  simp only [pktNumLen, leadingZeros, if_neg nonzero]
  omega

/-- Some number of bytes holds every number. -/
theorem exists_width (value : Nat) (positive : 0 < value) :
    ∃ width, 0 < width ∧ 256 ^ (width - 1) ≤ value ∧ value < 256 ^ width := by
  induction value using Nat.strongRecOn with
  | ind value ih =>
    by_cases small : value < 256
    · exact ⟨1, by decide, Nat.succ_le_of_lt positive, by simpa using small⟩
    · -- Dropping the lowest byte leaves one byte less.
      obtain ⟨width, some_, low, high⟩ := ih (value / 256) (by omega) (by omega)
      refine ⟨width + 1, by omega, ?_, ?_⟩
      · have := Nat.mul_le_mul_right 256 low
        rw [← Nat.pow_succ, show (width - 1).succ = width by omega] at this
        rw [Nat.add_sub_cancel]
        omega
      · have := Nat.mul_le_mul_right 256 high
        rw [Nat.pow_succ]
        omega

end Length

section Decoding

/-- Clearing the low bits leaves a multiple of the window. -/
theorem and_complement {value bits : Nat} (small : value < 2 ^ 64) (few : bits ≤ 64) :
    value &&& (maxU64 - (2 ^ bits - 1)) = 2 ^ bits * (value / 2 ^ bits) := by
  have positive : 0 < 2 ^ bits := Nat.pow_pos (by decide)
  have whole : 2 ^ bits - 1 < 2 ^ 64 :=
    Nat.lt_of_lt_of_le (Nat.sub_lt positive (by decide)) (Nat.pow_le_pow_right (by decide) few)
  have complement : maxU64 - (2 ^ bits - 1) = 2 ^ 64 - (2 ^ bits - 1 + 1) := by
    unfold maxU64
    omega
  apply Nat.eq_of_testBit_eq
  intro i
  rw [Nat.testBit_and, complement, Nat.testBit_two_pow_sub_succ whole, Nat.testBit_two_pow_sub_one,
    Nat.testBit_two_pow_mul]
  by_cases low : i < bits
  · simp [low, Nat.not_le.mpr low]
  · rw [Nat.testBit_div_two_pow, Nat.sub_add_cancel (Nat.le_of_not_lt low)]
    by_cases inside : i < 64
    · simp [low, inside, Nat.le_of_not_lt low]
    · -- Above 64 bits the value has none set.
      have clear : value.testBit i = false := Nat.testBit_lt_two_pow
        (Nat.lt_of_lt_of_le small (Nat.pow_le_pow_right (by decide) (Nat.le_of_not_lt inside)))
      simp [clear]

theorem candidate_eq {expected truncated bits : Nat} (small : expected < 2 ^ 64) (few : bits ≤ 64)
    (low : truncated < 2 ^ bits) :
    (expected &&& (maxU64 - (2 ^ bits - 1))) ||| truncated =
      2 ^ bits * (expected / 2 ^ bits) + truncated := by
  rw [and_complement small few, Nat.two_pow_add_eq_or_of_lt low]

/-- A number from the expected one on is rebuilt when it is near enough or below the first window. -/
theorem decodePktNum_eq_iff {pn largestPn pnLen : Nat} (small : pn < 2 ^ 62) (received : largestPn < pn)
    (some_ : 0 < pnLen) (short : pnLen ≤ 4) :
    decodePktNum largestPn (pn % 2 ^ (8 * pnLen)) pnLen = pn ↔
      pn ≤ largestPn + 1 + 2 ^ (8 * pnLen) / 2 ∨ pn < 2 ^ (8 * pnLen) := by
  have wide : 2 ^ (8 * pnLen) ≤ 2 ^ 32 := Nat.pow_le_pow_right (by decide) (by omega)
  have two : 2 ∣ 2 ^ (8 * pnLen) := ⟨2 ^ (8 * pnLen - 1), by rw [← Nat.pow_succ']; congr 1; omega⟩
  have positive : 0 < 2 ^ (8 * pnLen) := Nat.pow_pos (by decide)
  have window : 1 <<< (pnLen * 8) = 2 ^ (8 * pnLen) := by rw [Nat.one_shiftLeft, Nat.mul_comm]
  have candidate := @candidate_eq (largestPn + 1) (pn % 2 ^ (8 * pnLen)) (8 * pnLen) (by omega) (by omega)
    (Nat.mod_lt _ positive)
  simp only [decodePktNum, window, candidate]
  -- Number and expectation lie in windows that are the same, neighbours or further apart.
  have sent := Nat.div_add_mod pn (2 ^ (8 * pnLen))
  have expects := Nat.div_add_mod (largestPn + 1) (2 ^ (8 * pnLen))
  have sentLow := Nat.mod_lt pn positive
  have expectsLow := Nat.mod_lt (largestPn + 1) positive
  have order : (largestPn + 1) / 2 ^ (8 * pnLen) ≤ pn / 2 ^ (8 * pnLen) := Nat.div_le_div_right received
  generalize 2 ^ (8 * pnLen) = win at *
  obtain ⟨half, rfl⟩ := two
  generalize (largestPn + 1) / (2 * half) = place at *
  obtain ⟨gap, here⟩ := Nat.le.dest order
  rw [← here, Nat.mul_add] at sent
  generalize 2 * half * place = base at *
  generalize pn % (2 * half) = low at *
  generalize (largestPn + 1) % (2 * half) = offset at *
  rw [show 2 * half / 2 = half by omega]
  match gap with
  | 0 =>
    rw [if_neg (by omega)]
    split <;> omega
  | 1 =>
    split
    · omega
    · split <;> omega
  | further + 2 =>
    have far : 2 * half * (further + 2) = 2 * half * further + 4 * half := by
      rw [Nat.mul_add]
      omega
    generalize 2 * half * further = beyond at *
    split
    · omega
    · split <;> omega

end Decoding

/--
The number is at most half a window above the one expected next, or below the first window,
where the window has as many bytes as the number of unacknowledged packets.
-/
def NearEnough (pn largestAcked largestPn : Nat) : Prop :=
  ∀ width, 256 ^ (width - 1) ≤ pn - largestAcked + 1 → pn - largestAcked + 1 < 256 ^ width →
    pn ≤ largestPn + 1 + 256 ^ width / 2 ∨ pn < 256 ^ width

/-- The receiver rebuilds the packet number that was sent exactly when it is near enough. -/
theorem decodePktNum_iff_nearEnough (pn largestPn : Nat) (largestAcked : Option Nat) (small : pn < 2 ^ 62)
    (received : largestPn < pn) (short : pktNumLen pn (largestAckedOr largestAcked) ≤ 4) :
    decodePktNum largestPn
        (pn % 2 ^ (8 * pktNumLen pn (largestAckedOr largestAcked)))
        (pktNumLen pn (largestAckedOr largestAcked)) = pn ↔
      NearEnough pn (largestAckedOr largestAcked) largestPn := by
  generalize largestAckedOr largestAcked = la at *
  obtain ⟨width, some_, low, high⟩ := exists_width (pn - la + 1) (Nat.succ_pos _)
  have len := pktNumLen_eq small low high
  rw [len] at short ⊢
  rw [decodePktNum_eq_iff small received some_ short, Nat.pow_mul]
  constructor
  · intro near other otherLow otherHigh
    -- The number of bytes is unique.
    have same : other = width := (pktNumLen_eq small otherLow otherHigh).symm.trans len
    rw [same]
    exact near
  · intro near
    exact near width low high

/-- A packet sent with one byte, close to what was received. -/
theorem decodePktNum_close :
    decodePktNum 1050 (1100 % 2 ^ (8 * pktNumLen 1100 1000)) (pktNumLen 1100 1000) = 1100 := by
  have found := decodePktNum_iff_nearEnough 1100 1050 (some 1000) (by decide) (by decide)
    (by decide)
  refine found.mpr ?_
  intro width low high
  have one : width = 1 := (pktNumLen_eq (by decide) low high).symm.trans (by decide)
  rw [one]
  decide

/-- A packet two hundred ahead of the acknowledged and received one is sent with one byte and misread. -/
theorem decodePktNum_misreads :
    1200 < 2 ^ 62 ∧ largestAckedOr (some 1000) ≤ 1000 ∧ 1000 < 1200 ∧
      pktNumLen 1200 (largestAckedOr (some 1000)) ≤ 4 ∧
      decodePktNum 1000 (1200 % 2 ^ (8 * pktNumLen 1200 (largestAckedOr (some 1000))))
        (pktNumLen 1200 (largestAckedOr (some 1000))) ≠ 1200 := by
  decide

end Flexicast
