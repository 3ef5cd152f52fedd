import Flexicast.H3.QpackLaws

/-! Which integers the decoder of header compression reads, from `h3/qpack/decoder.rs`. -/

namespace Flexicast

namespace Qpack

open Cursor Huffman
open Octets hiding Reader Writer

section Meaning

/-- The number that groups of seven bits stand for, the lowest first, and the bytes behind them. -/
def groups : Bytes → Option (Nat × Bytes)
  | [] => none
  | byte :: rest =>
    if byte.toNat < 128 then some (byte.toNat, rest)
    else (groups rest).map fun high => (byte.toNat % 128 + 128 * high.1, high.2)

/-- The number that stands in the low bits of a byte, and in groups behind when these are all ones. -/
def prefixed (width : Nat) : Bytes → Option (Nat × Bytes)
  | [] => none
  | byte :: rest =>
    let low := byte.toNat % 2 ^ width
    if low < mask width then some (low, rest)
    else (groups rest).map fun high => (low + high.1, high.2)

/-- The number of groups that all go on. -/
def lowGroups : Bytes → Nat
  | [] => 0
  | byte :: rest => byte.toNat % 128 + 128 * lowGroups rest

/-- Groups from some place on whose tenth group of all, the last one, has more than the one bit that fits, while the
other bits fit. -/
structure DropsFrom (place start : Nat) (front : Bytes) (tenth : UInt8) : Prop where
  count : place + front.length = 9
  goes : ∀ byte ∈ front, 128 ≤ byte.toNat
  last : tenth.toNat < 128
  high : 1 < tenth.toNat
  fits : start + lowGroups front * 2 ^ (7 * place) + tenth.toNat % 2 * 2 ^ 63 ≤ maxU64

/-- An integer of ten groups whose high bits do not fit, while the others do. -/
def DropsBits (width : Nat) (input : Bytes) : Prop :=
  ∃ first front tenth rest, input = first :: (front ++ tenth :: rest) ∧
    first.toNat % 2 ^ width = mask width ∧ DropsFrom 0 (mask width) front tenth

end Meaning

section Groups

theorem shl64_group (byte : UInt8) (shift : Nat) :
    shl64 (byte &&& 0x7f).toNat shift = byte.toNat % 128 * 2 ^ shift % 2 ^ 64 := by
  have low : (byte &&& 0x7f).toNat = byte.toNat % 128 := by
    rw [UInt8.toNat_and]
    exact Nat.and_two_pow_sub_one_eq_mod byte.toNat 7
  rw [shl64, low, Nat.shiftLeft_eq]

theorem shl64_inner (byte : UInt8) {place : Nat} (inner : place < 9) :
    shl64 (byte &&& 0x7f).toNat (7 * place) = byte.toNat % 128 * 2 ^ (7 * place) := by
  have few : 2 ^ (7 * place) ≤ 2 ^ 56 := Nat.pow_le_pow_right (by decide) (by omega)
  have small : byte.toNat % 128 * 2 ^ (7 * place) ≤ 127 * 2 ^ 56 := Nat.mul_le_mul (by omega) few
  rw [shl64_group, Nat.mod_eq_of_lt (by omega)]

theorem shl64_tenth (byte : UInt8) : shl64 (byte &&& 0x7f).toNat (7 * 9) = byte.toNat % 2 * 2 ^ 63 := by
  rw [shl64_group]
  omega

theorem goes_on_iff (byte : UInt8) : byte &&& 0x80 = 0 ↔ byte.toNat < 128 := by
  have ends : ∀ low < 128, UInt8.ofNat low &&& 0x80 = 0 := by decide
  have goes : ∀ low < 128, ¬ (UInt8.ofNat (low + 128) &&& 0x80 = 0) := by decide
  have small := byte.toNat_lt
  by_cases low : byte.toNat < 128
  · have here := ends byte.toNat low
    rw [UInt8.ofNat_toNat] at here
    exact iff_of_true here low
  · have here := goes (byte.toNat - 128) (by omega)
    rw [Nat.sub_add_cancel (Nat.not_lt.mp low), UInt8.ofNat_toNat] at here
    exact iff_of_false here low

theorem decodeIntLoop_inner (start : Nat) {place : Nat} (inner : place < 9) (byte : UInt8) (rest : Bytes) :
    decodeIntLoop start (7 * place) (byte :: rest) =
      if maxU64 < start + byte.toNat % 128 * 2 ^ (7 * place) then .error .bufferTooShort
      else if byte.toNat < 128 then .ok (start + byte.toNat % 128 * 2 ^ (7 * place), rest)
      else decodeIntLoop (start + byte.toNat % 128 * 2 ^ (7 * place)) (7 * (place + 1)) rest := by
  rw [decodeIntLoop, if_neg (by omega)]
  simp only [shl64_inner byte inner, goes_on_iff]
  rfl

theorem decodeIntLoop_tenth (start : Nat) (byte : UInt8) (rest : Bytes) :
    decodeIntLoop start (7 * 9) (byte :: rest) =
      if maxU64 < start + byte.toNat % 2 * 2 ^ 63 then .error .bufferTooShort
      else if byte.toNat < 128 then .ok (start + byte.toNat % 2 * 2 ^ 63, rest)
      else .error .bufferTooShort := by
  have ends (value : Nat) : decodeIntLoop value (7 * 9 + 7) rest = .error .bufferTooShort := by
    cases rest with
    | nil => rfl
    | cons byte rest => rfl
  rw [decodeIntLoop, if_neg (by decide)]
  simp only [shl64_tenth, goes_on_iff, ends]

/-- The loop reads the number of the groups, or drops bits of the tenth one. -/
theorem decodeIntLoop_reads {input rest : Bytes} {value : Nat} :
    ∀ {start place : Nat}, place ≤ 9 → decodeIntLoop start (7 * place) input = .ok (value, rest) →
      value ≤ maxU64 ∧ ∃ number, groups input = some (number, rest) ∧
        (value = start + number * 2 ^ (7 * place) ∨
          ∃ front tenth, input = front ++ tenth :: rest ∧ DropsFrom place start front tenth) := by
  -- Induction on the bytes, each of which stands one place above the one before.
  induction input with
  | nil => intro start place _ ran; cases ran
  | cons byte tail ih =>
    intro start place within ran
    rw [groups]
    rcases Nat.lt_or_eq_of_le within with inner | rfl
    · rw [decodeIntLoop_inner start inner] at ran
      split at ran
      case isTrue => cases ran
      case isFalse fits =>
        split at ran
        case isTrue last =>
          cases ran
          rw [if_pos last, Nat.mod_eq_of_lt last] at *
          exact ⟨by omega, _, rfl, Or.inl rfl⟩
        case isFalse goes =>
          obtain ⟨bound, number, found, either⟩ := ih inner ran
          refine ⟨bound, _, by rw [if_neg goes, found]; rfl, ?_⟩
          have power : 2 ^ (7 * (place + 1)) = 128 * 2 ^ (7 * place) := by
            rw [Nat.mul_add, Nat.pow_add, Nat.mul_comm]
          rcases either with whole | ⟨front, tenth, split, drops⟩
          · left
            rw [whole, power, Nat.add_mul, Nat.add_assoc, Nat.mul_comm 128 number, Nat.mul_assoc number]
          · right
            refine ⟨byte :: front, tenth, by rw [split, List.cons_append], ?_, ?_, drops.last, drops.high, ?_⟩
            · rw [List.length_cons]
              have := drops.count
              omega
            · intro other member
              rcases List.mem_cons.mp member with rfl | member
              · omega
              · exact drops.goes other member
            · have fits := drops.fits
              rw [power] at fits
              rw [lowGroups, Nat.add_mul, Nat.mul_comm 128, Nat.mul_assoc _ 128]
              omega
    · rw [decodeIntLoop_tenth] at ran
      split at ran
      case isTrue => cases ran
      case isFalse fits =>
        split at ran
        case isFalse => cases ran
        case isTrue last =>
          cases ran
          rw [if_pos last]
          refine ⟨by omega, _, rfl, ?_⟩
          by_cases high : 1 < byte.toNat
          · right
            exact ⟨[], byte, rfl, rfl, by simp, last, high, by simpa [lowGroups] using Nat.not_lt.mp fits⟩
          · left
            rw [Nat.mod_eq_of_lt (by omega)]

/-- Where bits are dropped, the loop gives the number without them. -/
theorem decodeIntLoop_drops {tenth : UInt8} {rest front : Bytes} :
    ∀ {start place : Nat}, DropsFrom place start front tenth →
      decodeIntLoop start (7 * place) (front ++ tenth :: rest) =
          .ok (start + lowGroups front * 2 ^ (7 * place) + tenth.toNat % 2 * 2 ^ 63, rest) ∧
        groups (front ++ tenth :: rest) = some (lowGroups front + tenth.toNat * 128 ^ front.length, rest) := by
  induction front with
  | nil =>
    intro start place drops
    -- The tenth group is shifted by 63 bits, which leaves one of its own.
    obtain rfl : place = 9 := by simpa using drops.count
    have fits := drops.fits
    simp only [lowGroups, Nat.zero_mul, Nat.add_zero] at fits ⊢
    rw [List.nil_append, decodeIntLoop_tenth, if_neg (Nat.not_lt.mpr fits), if_pos drops.last, groups,
      if_pos drops.last]
    simp
  | cons byte front ih =>
    intro start place drops
    -- The sum is the same with this group moved to the start.
    have count := drops.count
    rw [List.length_cons] at count
    have goes := drops.goes byte List.mem_cons_self
    have fits := drops.fits
    have power : 2 ^ (7 * (place + 1)) = 128 * 2 ^ (7 * place) := by
      rw [Nat.mul_add, Nat.pow_add, Nat.mul_comm]
    have sum : start + lowGroups (byte :: front) * 2 ^ (7 * place) =
        start + byte.toNat % 128 * 2 ^ (7 * place) + lowGroups front * 2 ^ (7 * (place + 1)) := by
      rw [lowGroups, power, Nat.add_mul, Nat.mul_comm 128, Nat.mul_assoc _ 128, Nat.add_assoc]
    rw [sum] at fits ⊢
    obtain ⟨ran, found⟩ := @ih (start + byte.toNat % 128 * 2 ^ (7 * place)) (place + 1)
      ⟨by omega, fun other member => drops.goes other (List.mem_cons_of_mem _ member), drops.last, drops.high, fits⟩
    constructor
    · rw [List.cons_append, decodeIntLoop_inner start (by omega), if_neg (by omega), if_neg (by omega), ran]
    · rw [List.cons_append, groups, if_neg (by omega), found, Option.map_some, lowGroups, List.length_cons,
        Nat.pow_succ, Nat.mul_add, Nat.add_assoc]
      congr 3
      rw [Nat.mul_left_comm, Nat.mul_comm 128 (128 ^ front.length)]

end Groups

section Integers

variable {width : Nat}

theorem decodeInt_cons (byte : UInt8) (rest : Bytes) :
    decodeInt width (byte :: rest) =
      if byte.toNat % 2 ^ width < mask width then .ok (byte.toNat % 2 ^ width, rest)
      else decodeIntLoop (byte.toNat % 2 ^ width) (7 * 0) rest := by
  have taken : (fromOctets getU8 : Reader UInt8) (byte :: rest) = .ok (byte, rest) := rfl
  have low : byte.toNat &&& mask width = byte.toNat % 2 ^ width := Nat.and_two_pow_sub_one_eq_mod byte.toNat width
  rw [decodeInt, bind_ok taken]
  simp only [low]
  split <;> rfl

theorem low_eq_mask {byte : UInt8} (full : ¬ byte.toNat % 2 ^ width < mask width) :
    byte.toNat % 2 ^ width = mask width := by
  have small := Nat.mod_lt byte.toNat (Nat.two_pow_pos width)
  unfold mask at full ⊢
  omega

/-- The decoder gives the integer at the start of the bytes, or drops bits of it. -/
theorem decodeInt_reads {input rest : Bytes} {value : Nat} (ran : decodeInt width input = .ok (value, rest)) :
    value < 2 ^ 64 ∧ (prefixed width input = some (value, rest) ∨ DropsBits width input) := by
  cases input with
  | nil => cases ran
  | cons byte tail =>
    rw [decodeInt_cons] at ran
    simp only [prefixed]
    split at ran
    case isTrue low =>
      cases ran
      -- The low bits are the integer, and no group follows.
      have byteSmall := byte.toNat_lt
      have atMost := Nat.mod_le byte.toNat (2 ^ width)
      exact ⟨by omega, Or.inl (if_pos low)⟩
    case isFalse full =>
      obtain ⟨bound, number, found, either⟩ := decodeIntLoop_reads (Nat.zero_le 9) ran
      have top : maxU64 = 2 ^ 64 - 1 := rfl
      refine ⟨by omega, ?_⟩
      rcases either with whole | ⟨front, tenth, split, drops⟩
      · left
        rw [if_neg full, found, whole, Nat.mul_zero, Nat.pow_zero, Nat.mul_one]
        rfl
      · right
        rw [low_eq_mask full] at drops
        exact ⟨byte, front, tenth, rest, by rw [split], low_eq_mask full, drops⟩

theorem decodeInt_drops {input : Bytes} (drops : DropsBits width input) :
    ∃ value rest, decodeInt width input = .ok (value, rest) ∧ prefixed width input ≠ some (value, rest) := by
  obtain ⟨first, front, tenth, rest, rfl, full, drops⟩ := drops
  -- The loop ends with a number, and so does the reading of all bits.
  obtain ⟨ran, found⟩ := decodeIntLoop_drops drops
  have notLow : ¬ first.toNat % 2 ^ width < mask width := by omega
  refine ⟨_, _, by rw [decodeInt_cons, if_neg notLow, full]; exact ran, ?_⟩
  simp only [prefixed]
  rw [if_neg notLow, found, full]
  -- The tenth group is more than its lowest bit, which is all that was added of it.
  have nine : front.length = 9 := by simpa using drops.count
  have high := drops.high
  rw [nine]
  simp only [Option.map_some, ne_eq, Option.some.injEq, Prod.mk.injEq, and_true]
  omega

/-- The decoder reads just the integers that fit, unless it drops high bits of a tenth group; and it reads back what
the encoder writes. -/
theorem decodeInt_iff_keepsBits (narrow : width ≤ 8) :
    (∀ input, (∀ value rest, decodeInt width input = .ok (value, rest) →
        prefixed width input = some (value, rest) ∧ value < 2 ^ 64) ↔ ¬ DropsBits width input) ∧
      ∀ value < 2 ^ 64, ∀ first : UInt8, first.toNat &&& mask width = 0 →
        ∃ bytes, Puts (encodeInt value first width) bytes () ∧
          ∀ rest, decodeInt width (bytes ++ rest) = .ok (value, rest) := by
  constructor
  · intro input
    constructor
    · intro right drops
      obtain ⟨value, rest, ran, other⟩ := decodeInt_drops drops
      exact other (right value rest ran).1
    · intro keeps value rest ran
      obtain ⟨bound, either⟩ := decodeInt_reads ran
      exact ⟨either.resolve_right keeps, bound⟩
  · intro value bound first clear
    have most : value ≤ maxU64 := Nat.le_pred_of_lt bound
    obtain ⟨low, tail, -, puts, reads⟩ := encodeInt_spec narrow clear most
    exact ⟨_, puts, reads⟩

theorem decodeInt_iff_keepsBits_five :
    (∀ input, (∀ value rest, decodeInt 5 input = .ok (value, rest) →
        prefixed 5 input = some (value, rest) ∧ value < 2 ^ 64) ↔ ¬ DropsBits 5 input) ∧
      ∀ value < 2 ^ 64, ∀ first : UInt8, first.toNat &&& mask 5 = 0 →
        ∃ bytes, Puts (encodeInt value first 5) bytes () ∧
          ∀ rest, decodeInt 5 (bytes ++ rest) = .ok (value, rest) :=
  decodeInt_iff_keepsBits (by decide)

/-- An integer above all 64-bit ones is read as a small one. -/
theorem large_integer_read_small :
    ¬ ∀ width input value rest, 3 ≤ width → width ≤ 8 → decodeInt width input = .ok (value, rest) →
      prefixed width input = some (value, rest) := by
  intro right
  have read := right 8 [0xff, 0x80, 0x80, 0x80, 0x80, 0x80, 0x80, 0x80, 0x80, 0x80, 0x02] 255 [] (by decide)
    (by decide) (by decide)
  revert read
  decide

end Integers

end Qpack

end Flexicast
