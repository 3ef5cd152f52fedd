import Flexicast.Lib.Words
import Mathlib.Data.Nat.Bitwise

/-! Bit strings of numbers, the most significant bit first, and what shifts and masks do to them. -/

namespace Flexicast

namespace Bits

open Words

/-- The low bits of a number, the most significant first. -/
def bits : Nat → Nat → List Bool
  | 0, _ => []
  | width + 1, value => value.testBit width :: bits width value

/-- The bits of bytes in a row. -/
def ofBytes (bytes : List UInt8) : List Bool := bytes.flatMap fun byte => bits 8 byte.toNat

section Numbers

@[simp] theorem length_bits (width value : Nat) : (bits width value).length = width := by
  induction width with
  | zero => rfl
  | succ width ih => rw [bits, List.length_cons, ih]

variable {width value other : Nat}

/-- Numbers with the same low bits have the same bit string. -/
theorem bits_congr (same : ∀ place < width, value.testBit place = other.testBit place) :
    bits width value = bits width other := by
  -- The string is built from its low end up.
  induction width with
  | zero => rfl
  | succ width ih =>
    rw [bits, bits, same width (Nat.lt_succ_self width)]
    rw [ih fun place below => same place (Nat.lt_succ_of_lt below)]

/-- Bits above the width do not count. -/
@[simp] theorem bits_mod (width value : Nat) : bits width (value % 2 ^ width) = bits width value := by
  apply bits_congr
  intro place below
  rw [Nat.testBit_mod_two_pow, decide_eq_true below, Bool.true_and]

/-- A bit string is cut by a shift. -/
theorem bits_append (high low value : Nat) :
    bits (high + low) value = bits high (value >>> low) ++ bits low value := by
  -- Induction on the high part, whose bits stand in the shifted number.
  induction high with
  | zero => rw [Nat.zero_add, bits, List.nil_append]
  | succ high ih =>
    have top : (value >>> low).testBit high = value.testBit (high + low) := by
      rw [Nat.testBit_shiftRight, Nat.add_comm]
    rw [Nat.add_right_comm, bits, bits, top, ih, List.cons_append]

@[simp] theorem bits_zero (width : Nat) : bits width 0 = List.replicate width false := by
  induction width with
  | zero => rfl
  | succ width ih => rw [bits, ih, Nat.zero_testBit, List.replicate_succ]

/-- A small number has zeros in front. -/
theorem bits_of_lt {front : Nat} (small : value < 2 ^ width) :
    bits (front + width) value = List.replicate front false ++ bits width value := by
  rw [bits_append, Nat.shiftRight_eq_div_pow, Nat.div_eq_of_lt small, bits_zero]

/-- A number that is shifted up has zeros behind. -/
theorem bits_shiftLeft (width back value : Nat) :
    bits (width + back) (value <<< back) = bits width value ++ List.replicate back false := by
  have behind : bits back (value <<< back) = bits back 0 := by
    apply bits_congr
    intro place below
    rw [Nat.testBit_shiftLeft, decide_eq_false (Nat.not_le.mpr below), Bool.false_and, Nat.zero_testBit]
  rw [bits_append, Nat.shiftLeft_shiftRight, behind, bits_zero]

/-- All ones. -/
theorem bits_ones {size : Nat} (within : width ≤ size) : bits width (2 ^ size - 1) = List.replicate width true := by
  induction width with
  | zero => rfl
  | succ width ih =>
    rw [bits, ih (Nat.le_of_succ_le within), Nat.testBit_two_pow_sub_one, decide_eq_true (Nat.lt_of_succ_le within),
      List.replicate_succ]

/-- All ones, shifted down. -/
theorem ones_shiftRight (size amount : Nat) : (2 ^ size - 1) >>> amount = 2 ^ (size - amount) - 1 := by
  apply Nat.eq_of_testBit_eq
  intro place
  rw [Nat.testBit_shiftRight, Nat.testBit_two_pow_sub_one, Nat.testBit_two_pow_sub_one, decide_eq_decide]
  omega

/-- The union of numbers is that of their bits. -/
theorem bits_or (width value other : Nat) :
    bits width (value ||| other) = List.zipWith or (bits width value) (bits width other) := by
  induction width with
  | zero => rfl
  | succ width ih => rw [bits, bits, bits, List.zipWith_cons_cons, ih, Nat.testBit_or]

/-- Zeros add nothing. -/
@[simp] theorem zipWith_or_replicate (list : List Bool) :
    List.zipWith or list (List.replicate list.length false) = list := by
  induction list with
  | nil => rfl
  | cons bit rest ih => rw [List.length_cons, List.replicate_succ, List.zipWith_cons_cons, ih, Bool.or_false]

@[simp] theorem replicate_zipWith_or (list : List Bool) :
    List.zipWith or (List.replicate list.length false) list = list := by
  induction list with
  | nil => rfl
  | cons bit rest ih => rw [List.length_cons, List.replicate_succ, List.zipWith_cons_cons, ih, Bool.false_or]

/-- Bits that stand in front and bits that stand behind make up a whole. -/
theorem bits_or_append {front back : List Bool} (left : bits width value = front ++ List.replicate back.length false)
    (right : bits width other = List.replicate front.length false ++ back) :
    bits width (value ||| other) = front ++ back := by
  -- Each part meets zeros only.
  rw [bits_or, left, right, List.zipWith_append (by simp), zipWith_or_replicate, replicate_zipWith_or]

/-- A bit string determines the low bits of its number. -/
theorem testBit_of_bits (same : bits width value = bits width other) :
    ∀ place < width, value.testBit place = other.testBit place := by
  induction width with
  | zero => exact fun place below => absurd below (Nat.not_lt_zero place)
  | succ width ih =>
    intro place below
    rw [bits, bits] at same
    obtain ⟨top, rest⟩ := List.cons.inj same
    rcases Nat.lt_succ_iff_lt_or_eq.mp below with lower | rfl
    · exact ih rest place lower
    · exact top

theorem mod_eq_of_bits (same : bits width value = bits width other) : value % 2 ^ width = other % 2 ^ width := by
  apply Nat.eq_of_testBit_eq
  intro place
  rw [Nat.testBit_mod_two_pow, Nat.testBit_mod_two_pow]
  by_cases below : place < width
  · rw [testBit_of_bits same place below]
  · rw [decide_eq_false below, Bool.false_and, Bool.false_and]

end Numbers

section Words

/-- A bit string as its length and its number. -/
abbrev Word := Nat × Nat

/-- The bits of a word. -/
def Word.bits (word : Word) : List Bool := Bits.bits word.1 word.2

/-- The number of a word fits its length. -/
def Word.Fits (word : Word) : Prop := word.2 < 2 ^ word.1

instance Word.decidableFits (word : Word) : Decidable word.Fits := inferInstanceAs (Decidable (word.2 < 2 ^ word.1))

/-- One word is the start of another. -/
def Word.starts (front word : Word) : Bool :=
  Nat.ble front.1 word.1 && Nat.beq (word.2 >>> (word.1 - front.1)) front.2

/-- A word with the bits of a number behind. -/
def Word.extend (word : Word) (width value : Nat) : Word := (word.1 + width, word.2 * 2 ^ width + value)

variable {front word : Word}

theorem Word.starts_iff : front.starts word = true ↔ front.1 ≤ word.1 ∧ word.2 >>> (word.1 - front.1) = front.2 := by
  unfold Word.starts
  rw [Bool.and_eq_true, Nat.ble_eq, Nat.beq_eq]

/-- What one word starts with, its bits start with. -/
theorem Word.prefix_of_starts (starts : front.starts word = true) : front.bits <+: word.bits := by
  obtain ⟨shorter, shifted⟩ := Word.starts_iff.mp starts
  obtain ⟨rest, long⟩ := Nat.exists_eq_add_of_le shorter
  have cut : word.1 - front.1 = rest := by omega
  rw [cut] at shifted
  unfold Word.bits
  rw [long, bits_append, shifted]
  exact List.prefix_append _ _

/-- What the bits of one word start with, the word starts with. -/
theorem Word.starts_of_prefix (fits : front.Fits) (whole : word.Fits) (starts : front.bits <+: word.bits) :
    front.starts word = true := by
  have shorter : front.1 ≤ word.1 := by simpa [Word.bits] using starts.length_le
  obtain ⟨rest, long⟩ := Nat.exists_eq_add_of_le shorter
  have cut : word.1 - front.1 = rest := by omega
  refine Word.starts_iff.mpr ⟨shorter, ?_⟩
  rw [cut]
  -- The first bits of the whole are those of the shifted number.
  unfold Word.bits at starts
  rw [long, bits_append] at starts
  have same := List.prefix_of_prefix_length_le starts (List.prefix_append _ _) (by simp)
  have number := mod_eq_of_bits (same.eq_of_length (by simp))
  have small : word.2 >>> rest < 2 ^ front.1 := by
    rw [Nat.shiftRight_eq_div_pow, Nat.div_lt_iff_lt_mul (Nat.two_pow_pos rest), ← Nat.pow_add, ← long]
    exact whole
  rw [Nat.mod_eq_of_lt fits, Nat.mod_eq_of_lt small] at number
  exact number.symm

/-- The bits of a number come behind those of the word. -/
theorem Word.bits_extend {width value : Nat} (small : value < 2 ^ width) :
    (word.extend width value).bits = word.bits ++ Bits.bits width value := by
  have front : (word.2 * 2 ^ width + value) >>> width = word.2 := by
    rw [Nat.shiftRight_eq_div_pow, Nat.mul_comm, Nat.mul_add_div (Nat.two_pow_pos width), Nat.div_eq_of_lt small]
    rfl
  have back : Bits.bits width (word.2 * 2 ^ width + value) = Bits.bits width value := by
    rw [← bits_mod, Nat.mul_comm, Nat.mul_add_mod, Nat.mod_eq_of_lt small]
  show Bits.bits (word.1 + width) (word.2 * 2 ^ width + value) = _
  rw [bits_append, front, back]
  rfl

end Words

section Octets

@[simp] theorem ofBytes_nil : ofBytes [] = [] := rfl

theorem ofBytes_cons (byte : UInt8) (rest : List UInt8) : ofBytes (byte :: rest) = bits 8 byte.toNat ++ ofBytes rest :=
  rfl

theorem ofBytes_append (front back : List UInt8) : ofBytes (front ++ back) = ofBytes front ++ ofBytes back :=
  List.flatMap_append

@[simp] theorem length_ofBytes (bytes : List UInt8) : (ofBytes bytes).length = 8 * bytes.length := by
  induction bytes with
  | nil => rfl
  | cons byte rest ih =>
    rw [ofBytes_cons, List.length_append, length_bits, ih, List.length_cons]
    omega

/-- A number in network order has its bits in their order. -/
theorem ofBytes_toBigEndian (width value : Nat) : ofBytes (toBigEndian width value) = bits (8 * width) value := by
  -- Each byte takes the next eight bits from the top.
  induction width with
  | zero => rfl
  | succ width ih =>
    have byte : (UInt8.ofNat (value / 256 ^ width)).toNat = (value >>> (8 * width)) % 2 ^ 8 := by
      rw [UInt8.toNat_ofNat', Nat.shiftRight_eq_div_pow, Nat.pow_mul]
    have whole : 8 * (width + 1) = 8 + 8 * width := by omega
    rw [toBigEndian, ofBytes_cons, byte, bits_mod, ih, whole, bits_append]

end Octets

end Bits

end Flexicast
