import Mathlib.Algebra.Ring.Nat

/-! Machine words: their bounds and their big-endian bytes. -/

namespace Flexicast

/-- The largest value of 64 bits. -/
def maxU64 : Nat := 18446744073709551615

namespace Words

/-- The low bytes of a number, the most significant first. -/
def toBigEndian : Nat → Nat → List UInt8
  | 0, _ => []
  | width + 1, value => UInt8.ofNat (value / 256 ^ width) :: toBigEndian width value

/-- The number that bytes stand for, the most significant first. -/
def ofBigEndian : List UInt8 → Nat
  | [] => 0
  | byte :: rest => byte.toNat * 256 ^ rest.length + ofBigEndian rest

@[simp] theorem length_toBigEndian (width value : Nat) : (toBigEndian width value).length = width := by
  induction width with
  | zero => rfl
  | succ width ih => rw [toBigEndian, List.length_cons, ih]

/-- Writing a number and reading it back keeps its low bytes. -/
theorem ofBigEndian_toBigEndian (width value : Nat) :
    ofBigEndian (toBigEndian width value) = value % 256 ^ width := by
  -- The first byte is the digit of weight `256 ^ width`; the others are the rest by induction.
  induction width with
  | zero => rw [toBigEndian, ofBigEndian, Nat.pow_zero, Nat.mod_one]
  | succ width ih =>
    rw [toBigEndian, ofBigEndian, length_toBigEndian, ih, Nat.mod_pow_succ, UInt8.toNat_ofNat']
    rw [Nat.add_comm, Nat.mul_comm]

/-- Bytes stand for a number below their bound. -/
theorem ofBigEndian_lt (bytes : List UInt8) : ofBigEndian bytes < 256 ^ bytes.length := by
  induction bytes with
  | nil => exact Nat.one_pos
  | cons byte rest ih =>
    have small := byte.toNat_lt
    calc ofBigEndian (byte :: rest) = byte.toNat * 256 ^ rest.length + ofBigEndian rest := rfl
      _ < (byte.toNat + 1) * 256 ^ rest.length := by
        rw [Nat.add_mul, Nat.one_mul]
        omega
      _ ≤ 256 * 256 ^ rest.length := Nat.mul_le_mul_right _ (by omega)
      _ = 256 ^ (byte :: rest).length := by rw [List.length_cons, Nat.pow_succ, Nat.mul_comm]

/-- Numbers that fit are told apart by their bytes. -/
theorem toBigEndian_inj {width left right : Nat} (low : left < 256 ^ width) (high : right < 256 ^ width)
    (same : toBigEndian width left = toBigEndian width right) : left = right := by
  have values := congrArg ofBigEndian same
  rwa [ofBigEndian_toBigEndian, ofBigEndian_toBigEndian, Nat.mod_eq_of_lt low, Nat.mod_eq_of_lt high] at values

/-- Bytes that differ still do so once the same mask is on them. -/
theorem zipWith_xor_inj (mask : List UInt8) :
    ∀ {left right : List UInt8}, left.length = mask.length → right.length = mask.length →
      List.zipWith (· ^^^ ·) mask left = List.zipWith (· ^^^ ·) mask right → left = right := by
  induction mask with
  | nil =>
    intro left right short none_ _
    rw [List.eq_nil_of_length_eq_zero short, List.eq_nil_of_length_eq_zero none_]
  | cons byte mask ih =>
    rintro (_ | ⟨a, left⟩) (_ | ⟨b, right⟩) long wide same
    · rfl
    · cases long
    · cases wide
    · obtain ⟨first, rest⟩ := List.cons.inj same
      rw [(UInt8.xor_right_inj byte).mp first, ih (Nat.succ.inj long) (Nat.succ.inj wide) rest]

end Words

end Flexicast
