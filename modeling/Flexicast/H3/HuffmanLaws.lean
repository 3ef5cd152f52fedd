import Flexicast.Lib.PrefixCode
import Flexicast.H3.Huffman
import Mathlib.Data.List.Sort

/-! Huffman coding gives back what it encoded. -/

namespace Flexicast

namespace Huffman

open Bits PrefixCode Cursor Qpack
open Octets hiding Reader Writer

section Code

/-- The bits of a byte. -/
def code (byte : UInt8) : List Bool := Word.bits (entry byte)

/-- The bits that end a string. -/
def eos : Word := encodeTable.getD 256 (0, 0)

set_option maxRecDepth 3000 in
theorem length_encodeTable : encodeTable.length = 257 := by decide

set_option maxRecDepth 9000 in
theorem entries_fit : ∀ word ∈ encodeTable, Word.Fits word ∧ word.1 ≤ 30 := by decide

/-- One entry comes before another in the order of their bits. -/
def ComesFirst (a b : Word) : Prop := a.2 * 2 ^ (30 - a.1) ≤ b.2 * 2 ^ (30 - b.1)

instance decidableComesFirst : DecidableRel ComesFirst := fun a b =>
  inferInstanceAs (Decidable (a.2 * 2 ^ (30 - a.1) ≤ b.2 * 2 ^ (30 - b.1)))

theorem pairwise_encodeTable : encodeTable.Pairwise fun a b : Word => Apart a.bits b.bits :=
  pairwise_apart (List.perm_insertionSort ComesFirst encodeTable) (by decide +kernel) entries_fit

theorem apart_of_ne {i j : Nat} (lowI : i < 257) (lowJ : j < 257) (other : i ≠ j) :
    Apart (Word.bits (encodeTable.getD i (0, 0))) (Word.bits (encodeTable.getD j (0, 0))) := by
  rw [← length_encodeTable] at lowI lowJ
  rw [List.getD_eq_getElem _ _ lowI, List.getD_eq_getElem _ _ lowJ]
  -- The relation is symmetric, so the order of the two does not matter.
  rcases Nat.lt_or_gt_of_ne other with before | behind
  · exact List.pairwise_iff_getElem.mp pairwise_encodeTable i j lowI lowJ before
  · exact (List.pairwise_iff_getElem.mp pairwise_encodeTable j i lowJ lowI behind).symm

theorem byte_lt (byte : UInt8) : byte.toNat < 257 := Nat.lt_succ_of_lt byte.toNat_lt

theorem prefixFree_code : PrefixFree code := by
  intro a b starts
  by_contra other
  have places : a.toNat ≠ b.toNat := fun same => other (UInt8.toNat_inj.mp same)
  exact (apart_of_ne (byte_lt a) (byte_lt b) places).1 starts

set_option maxRecDepth 9000 in
theorem bits_eos : eos.bits = List.replicate 30 true := by decide

theorem apart_eos (byte : UInt8) : Apart (code byte) eos.bits := by
  have := byte.toNat_lt
  exact apart_of_ne (byte_lt byte) (by decide) (by omega)

end Code

section States

/-- What was read since the last symbol, for every state of the decoder. -/
def stateBits : List Word := [
  (0, 0x0), (1, 0x0), (2, 0x0), (3, 0x0), (4, 0x0), (4, 0x1), (3, 0x1), (4, 0x2), (4, 0x3), (2, 0x1), (3, 0x2),
  (4, 0x4), (4, 0x5), (5, 0xa), (5, 0xb), (3, 0x3), (4, 0x6), (5, 0xc), (5, 0xd), (4, 0x7), (5, 0xe), (5, 0xf),
  (1, 0x1), (2, 0x2), (3, 0x4), (4, 0x8), (5, 0x10), (5, 0x11), (4, 0x9), (5, 0x12), (5, 0x13), (3, 0x5), (4, 0xa),
  (5, 0x14), (5, 0x15), (4, 0xb), (5, 0x16), (5, 0x17), (6, 0x2e), (6, 0x2f), (2, 0x3), (3, 0x6), (4, 0xc),
  (5, 0x18), (6, 0x30), (6, 0x31), (5, 0x19), (6, 0x32), (6, 0x33), (4, 0xd), (5, 0x1a), (6, 0x34), (6, 0x35),
  (5, 0x1b), (6, 0x36), (6, 0x37), (3, 0x7), (4, 0xe), (5, 0x1c), (6, 0x38), (6, 0x39), (5, 0x1d), (6, 0x3a),
  (6, 0x3b), (4, 0xf), (5, 0x1e), (6, 0x3c), (6, 0x3d), (5, 0x1f), (6, 0x3e), (7, 0x7c), (7, 0x7d), (6, 0x3f),
  (7, 0x7e), (7, 0x7f), (8, 0xfe), (9, 0x1fc), (9, 0x1fd), (8, 0xff), (9, 0x1fe), (10, 0x3fd), (9, 0x1ff),
  (10, 0x3fe), (11, 0x7fd), (10, 0x3ff), (11, 0x7fe), (12, 0xffc), (12, 0xffd), (11, 0x7ff), (12, 0xffe),
  (12, 0xfff), (13, 0x1ffe), (13, 0x1fff), (14, 0x3ffe), (14, 0x3fff), (15, 0x7fff), (16, 0xfffe), (17, 0x1fffc),
  (18, 0x3fff8), (18, 0x3fff9), (19, 0x7fff3), (17, 0x1fffd), (18, 0x3fffa), (19, 0x7fff4), (19, 0x7fff5),
  (18, 0x3fffb), (19, 0x7fff6), (19, 0x7fff7), (20, 0xfffee), (20, 0xfffef), (16, 0xffff), (17, 0x1fffe),
  (18, 0x3fffc), (19, 0x7fff8), (20, 0xffff0), (20, 0xffff1), (19, 0x7fff9), (20, 0xffff2), (20, 0xffff3),
  (18, 0x3fffd), (19, 0x7fffa), (20, 0xffff4), (21, 0x1fffe9), (20, 0xffff5), (21, 0x1fffea), (21, 0x1fffeb),
  (19, 0x7fffb), (20, 0xffff6), (21, 0x1fffec), (21, 0x1fffed), (20, 0xffff7), (21, 0x1fffee), (21, 0x1fffef),
  (17, 0x1ffff), (18, 0x3fffe), (19, 0x7fffc), (20, 0xffff8), (21, 0x1ffff0), (21, 0x1ffff1), (20, 0xffff9),
  (21, 0x1ffff2), (21, 0x1ffff3), (19, 0x7fffd), (20, 0xffffa), (21, 0x1ffff4), (21, 0x1ffff5), (20, 0xffffb),
  (21, 0x1ffff6), (22, 0x3fffec), (22, 0x3fffed), (21, 0x1ffff7), (22, 0x3fffee), (22, 0x3fffef), (18, 0x3ffff),
  (19, 0x7fffe), (20, 0xffffc), (21, 0x1ffff8), (22, 0x3ffff0), (22, 0x3ffff1), (21, 0x1ffff9), (22, 0x3ffff2),
  (22, 0x3ffff3), (20, 0xffffd), (21, 0x1ffffa), (22, 0x3ffff4), (22, 0x3ffff5), (21, 0x1ffffb), (22, 0x3ffff6),
  (22, 0x3ffff7), (19, 0x7ffff), (20, 0xffffe), (21, 0x1ffffc), (22, 0x3ffff8), (22, 0x3ffff9), (21, 0x1ffffd),
  (22, 0x3ffffa), (23, 0x7ffff5), (22, 0x3ffffb), (23, 0x7ffff6), (23, 0x7ffff7), (20, 0xfffff), (21, 0x1ffffe),
  (22, 0x3ffffc), (23, 0x7ffff8), (23, 0x7ffff9), (22, 0x3ffffd), (23, 0x7ffffa), (23, 0x7ffffb), (24, 0xfffff6),
  (24, 0xfffff7), (21, 0x1fffff), (22, 0x3ffffe), (23, 0x7ffffc), (24, 0xfffff8), (25, 0x1fffff0), (25, 0x1fffff1),
  (24, 0xfffff9), (25, 0x1fffff2), (25, 0x1fffff3), (23, 0x7ffffd), (24, 0xfffffa), (25, 0x1fffff4),
  (25, 0x1fffff5), (24, 0xfffffb), (25, 0x1fffff6), (25, 0x1fffff7), (26, 0x3ffffef), (22, 0x3fffff),
  (23, 0x7ffffe), (24, 0xfffffc), (25, 0x1fffff8), (26, 0x3fffff0), (26, 0x3fffff1), (25, 0x1fffff9),
  (26, 0x3fffff2), (26, 0x3fffff3), (24, 0xfffffd), (25, 0x1fffffa), (26, 0x3fffff4), (26, 0x3fffff5),
  (25, 0x1fffffb), (26, 0x3fffff6), (26, 0x3fffff7), (23, 0x7fffff), (24, 0xfffffe), (25, 0x1fffffc),
  (26, 0x3fffff8), (27, 0x7fffff1), (26, 0x3fffff9), (27, 0x7fffff2), (27, 0x7fffff3), (25, 0x1fffffd),
  (26, 0x3fffffa), (27, 0x7fffff4), (27, 0x7fffff5), (26, 0x3fffffb), (27, 0x7fffff6), (27, 0x7fffff7),
  (24, 0xffffff), (25, 0x1fffffe), (26, 0x3fffffc), (27, 0x7fffff8), (27, 0x7fffff9), (26, 0x3fffffd),
  (27, 0x7fffffa), (27, 0x7fffffb), (25, 0x1ffffff), (26, 0x3fffffe), (27, 0x7fffffc), (27, 0x7fffffd),
  (26, 0x3ffffff), (27, 0x7fffffe), (27, 0x7ffffff), (28, 0xfffffff), (29, 0x1ffffffe), (29, 0x1fffffff)]

/-- What was read since the last symbol. -/
def unread (state : Nat) : Word := stateBits.getD state (0, 0)

set_option maxRecDepth 3000 in
theorem length_stateBits : stateBits.length = 256 := by decide

set_option maxRecDepth 9000 in
theorem states_fit : ∀ word ∈ stateBits, Word.Fits word := by decide

theorem of_all_zip {α β : Type} {check : α × β → Bool} {front : List α} {back : List β} {place : Nat}
    (all : (front.zip back).all check = true) (inFront : place < front.length) (inBack : place < back.length) :
    check (front[place], back[place]) = true := by
  apply List.all_eq_true.mp all
  rw [← List.getElem_zip (h := by simp [inFront, inBack])]
  exact List.getElem_mem _

theorem of_all_zipIdx {α : Type} {check : α × Nat → Bool} {row : List α} {place : Nat}
    (all : row.zipIdx.all check = true) (inside : place < row.length) : check (row[place], place) = true := by
  apply List.all_eq_true.mp all
  exact List.mk_mem_zipIdx_iff_getElem?.mpr (List.getElem?_eq_getElem inside)

/-- A list in rows of sixteen. -/
def inRows : Nat → List Word → List (List Word)
  | 0, _ => []
  | count + 1, words => words.take 16 :: inRows count (words.drop 16)

/-- The word at a place of a list in rows. -/
def lookup (rows : List (List Word)) (place : Nat) : Word := (rows.getD (place / 16) []).getD (place % 16) (0, 0)

/-- In rows a word is found in fewer steps. -/
theorem lookup_inRows {count place : Nat} {words : List Word} (within : place < 16 * count) :
    lookup (inRows count words) place = words.getD place (0, 0) := by
  -- Induction on the rows, which loses the first one.
  induction count generalizing place words with
  | zero => omega
  | succ count ih =>
    rcases Nat.lt_or_ge place 16 with first | later
    · have row : place / 16 = 0 := by omega
      have column : place % 16 = place := Nat.mod_eq_of_lt first
      rw [lookup, row, column]
      simp [inRows, List.getD_eq_getElem?_getD, first]
    · obtain ⟨rest, rfl⟩ : ∃ rest, place = rest + 16 := ⟨place - 16, by omega⟩
      have next := @ih rest (words.drop 16) (by omega)
      have row : (rest + 16) / 16 = rest / 16 + 1 := by omega
      have column : (rest + 16) % 16 = rest % 16 := by omega
      rw [lookup] at next ⊢
      rw [row, column, inRows, List.getD_cons_succ, next]
      simp [List.getD_eq_getElem?_getD, Nat.add_comm]

/-- The words of the symbols. -/
def symbolRows : List (List Word) := inRows 17 encodeTable

/-- The words of the states. -/
def stateRows : List (List Word) := inRows 16 stateBits

/-- For every state a symbol that is read in part. -/
def partlyRead : List Nat := [
  0, 32, 48, 48, 48, 50, 99, 99, 105, 32, 32, 115, 32, 32, 45, 47, 47, 47, 52, 54, 54, 56, 0, 58, 61, 61, 61, 95,
  100, 100, 103, 58, 108, 108, 110, 58, 114, 58, 58, 67, 0, 69, 69, 69, 69, 71, 73, 73, 75, 77, 77, 77, 79, 81, 81,
  83, 0, 85, 85, 85, 87, 106, 106, 113, 0, 119, 119, 121, 0, 38, 38, 44, 0, 88, 0, 33, 33, 40, 0, 39, 39, 0, 35, 35,
  0, 0, 0, 64, 1, 93, 1, 94, 1, 60, 1, 1, 92, 92, 92, 128, 128, 131, 131, 131, 184, 153, 224, 153, 153, 167, 1, 129,
  176, 176, 176, 179, 216, 216, 227, 129, 129, 129, 129, 133, 133, 136, 154, 154, 154, 160, 164, 164, 170, 1, 1, 178,
  178, 178, 185, 187, 187, 190, 1, 198, 198, 232, 1, 1, 1, 137, 139, 139, 141, 2, 147, 147, 147, 147, 150, 152, 152,
  157, 165, 165, 165, 168, 175, 175, 182, 2, 9, 188, 188, 197, 9, 9, 9, 144, 144, 148, 2, 171, 171, 171, 215, 199,
  236, 199, 199, 234, 2, 192, 192, 192, 192, 200, 202, 202, 210, 203, 218, 218, 238, 203, 242, 203, 203, 2, 211, 211,
  211, 211, 214, 222, 222, 241, 245, 245, 245, 247, 250, 250, 252, 2, 2, 2, 2, 2, 4, 4, 6, 8, 8, 8, 12, 15, 15, 17,
  10, 19, 19, 19, 21, 24, 24, 26, 10, 28, 28, 30, 10, 127, 10, 10, 10, 22]

set_option maxRecDepth 3000 in
theorem length_partlyRead : partlyRead.length = 256 := by decide

/-- In every state an entry is read in part. -/
theorem states_partly : ∀ word ∈ stateBits, ∃ whole ∈ encodeTable, word.starts whole = true ∧ word.1 < whole.1 := by
  have all : ((stateBits.zip partlyRead).all fun (word, place) =>
      Nat.blt place 257 && (word.starts (lookup symbolRows place) && Nat.blt word.1 (lookup symbolRows place).1)) =
        true := by decide +kernel
  intro word member
  obtain ⟨state, inside, rfl⟩ := List.getElem_of_mem member
  have beside : state < partlyRead.length := by
    rw [length_partlyRead, ← length_stateBits]
    exact inside
  have each := of_all_zip all inside beside
  simp only [Bool.and_eq_true, Nat.blt_eq] at each
  obtain ⟨low, starts, longer⟩ := each
  have inTable : partlyRead[state] < encodeTable.length := by
    rw [length_encodeTable]
    exact low
  have there : lookup symbolRows partlyRead[state] = encodeTable[partlyRead[state]] :=
    (lookup_inRows (by omega)).trans (List.getD_eq_getElem _ _ inTable)
  rw [there] at starts longer
  exact ⟨_, List.getElem_mem _, starts, longer⟩

/-- A word may pad a string: fewer than eight ones. -/
def pads (word : Word) : Bool := Nat.blt word.1 8 && Nat.beq word.2 (2 ^ word.1 - 1)

/-- What a step keeps of the bits read and of the four new ones. -/
def keepsTo (symbol unread : Nat → Word) (before : Word) (input : Nat) :
    Except QpackError (Option UInt8 × Decoder) → Bool
  | .error _ => eos.starts (before.extend 4 input)
  | .ok (out, after) =>
    Nat.blt after.state 256 && (!pads (unread after.state) || after.isFinal) &&
      match out with
      | none => before.extend 4 input == unread after.state
      | some byte =>
        before.extend 4 input == Word.extend (symbol byte.toNat) (unread after.state).1 (unread after.state).2

/-- What a step from a state keeps. -/
def stepKeeps (state input : Nat) (result : Except QpackError (Option UInt8 × Decoder)) : Bool :=
  keepsTo (fun place => encodeTable.getD place (0, 0)) unread (unread state) input result

/-- What an entry of the table does. -/
def entryStep : Nat × UInt8 × UInt8 → Except QpackError (Option UInt8 × Decoder)
  | (next, byte, flags) =>
    if flags &&& errorFlag = errorFlag then .error .invalidHuffmanEncoding
    else
      .ok (if flags &&& decodedFlag = decodedFlag then some byte else none,
        ⟨next, flags &&& maybeEosFlag = maybeEosFlag⟩)

/-- Only the states and the bytes count. -/
theorem keepsTo_congr {symbol symbol' unread unread' : Nat → Word} {before : Word} {input : Nat}
    {result : Except QpackError (Option UInt8 × Decoder)} (symbols : ∀ place < 256, symbol place = symbol' place)
    (states : ∀ state < 256, unread state = unread' state)
    (kept : keepsTo symbol unread before input result = true) :
    keepsTo symbol' unread' before input result = true := by
  rcases result with error | ⟨out, after⟩
  · exact kept
  · simp only [keepsTo, Bool.and_eq_true, Nat.blt_eq] at kept ⊢
    obtain ⟨⟨inside, ends⟩, same⟩ := kept
    rw [states _ inside] at ends same
    refine ⟨⟨inside, ends⟩, ?_⟩
    cases out with
    | none => exact same
    | some byte =>
      simp only [symbols _ byte.toNat_lt] at same
      exact same

set_option maxRecDepth 3000 in
theorem length_decodeTable : decodeTable.length = 256 := by decide

/-- Every entry of the table keeps to the code. -/
theorem table_keeps {state input : Nat} (inside : state < 256) (fits : input < 16) :
    stepKeeps state input (Decoder.decode4 ⟨state, false⟩ (UInt8.ofNat input)) = true := by
  have all : ((stateBits.zip decodeTable).all fun (before, row) => Nat.beq row.length 16 && row.zipIdx.all
      fun (entry, input) => keepsTo (lookup symbolRows) (lookup stateRows) before input (entryStep entry)) = true := by
    decide +kernel
  have inStates : state < stateBits.length := by
    rw [length_stateBits]
    exact inside
  have inTable : state < decodeTable.length := by
    rw [length_decodeTable]
    exact inside
  have row := of_all_zip all inStates inTable
  simp only [Bool.and_eq_true, Nat.beq_eq] at row
  obtain ⟨sixteen, entries⟩ := row
  have inRow : input < decodeTable[state].length := by omega
  have kept := of_all_zipIdx entries inRow
  have number : (UInt8.ofNat input).toNat = input := UInt8.toNat_ofNat_of_lt (show input < 256 by omega)
  have ran : Decoder.decode4 ⟨state, false⟩ (UInt8.ofNat input) = entryStep decodeTable[state][input] := by
    simp only [Decoder.decode4, number, List.getElem?_eq_getElem inTable, Option.bind_some,
      List.getElem?_eq_getElem inRow]
    rfl
  have here : unread state = _ := List.getD_eq_getElem stateBits (0, 0) inStates
  rw [ran, stepKeeps, here]
  exact keepsTo_congr (fun place low => lookup_inRows (by omega)) (fun place low => lookup_inRows (by omega)) kept

end States

section Decoding

/-- The bits read since the last symbol. -/
def pending (decoder : Decoder) : List Bool := (unread decoder.state).bits

/-- The decoder is in a state of the table, and the string may end where padding was read. -/
structure Valid (decoder : Decoder) : Prop where
  inside : decoder.state < 256
  ends : pads (unread decoder.state) = true → decoder.isFinal = true

theorem unread_mem {state : Nat} (inside : state < 256) : unread state ∈ stateBits := by
  rw [← length_stateBits] at inside
  rw [unread, List.getD_eq_getElem _ _ inside]
  exact List.getElem_mem inside

theorem valid_new : Valid Decoder.new := ⟨by decide, fun _ => rfl⟩

theorem decode4_keeps {decoder : Decoder} {input : UInt8} (inside : decoder.state < 256) (fits : input.toNat < 16) :
    stepKeeps decoder.state input.toNat (decoder.decode4 input) = true := by
  have kept := @table_keeps decoder.state input.toNat inside fits
  rw [UInt8.ofNat_toNat] at kept
  exact kept

/-- The decoder keeps to the code. -/
theorem follows_decode4 : Follows code eos.bits pending (fun input : UInt8 => bits 4 input.toNat) Valid
    (fun input => input.toNat < 16) Decoder.decode4 where
  goes := by
    intro decoder input out after valid fits ran
    have kept := decode4_keeps valid.inside fits
    rw [ran] at kept
    simp only [stepKeeps, keepsTo, Bool.and_eq_true, Nat.blt_eq, Bool.or_eq_true, Bool.not_eq_true'] at kept
    obtain ⟨⟨inside, ends⟩, same⟩ := kept
    refine ⟨⟨inside, fun padded => ends.resolve_left fun other => ?_⟩, ?_⟩
    · rw [padded] at other
      cases other
    · have read : ((unread decoder.state).extend 4 input.toNat).bits = pending decoder ++ bits 4 input.toNat :=
        Word.bits_extend (by simpa using fits)
      rw [← read]
      -- What is left of the bits fits in what the new state stands for.
      cases out with
      | none =>
        have same := beq_iff_eq.mp same
        rw [same]
        rfl
      | some byte =>
        have same := beq_iff_eq.mp same
        rw [same, Word.bits_extend (states_fit _ (unread_mem inside))]
        simp [pending, code, entry, Word.bits]
  fails := by
    intro decoder input error valid fits ran
    have kept := decode4_keeps valid.inside fits
    rw [ran] at kept
    have read : ((unread decoder.state).extend 4 input.toNat).bits = pending decoder ++ bits 4 input.toNat :=
      Word.bits_extend (by simpa using fits)
    rw [← read]
    exact Word.prefix_of_starts kept
  partly := by
    intro decoder symbol valid starts
    obtain ⟨whole, member, onward, longer⟩ := states_partly _ (unread_mem valid.inside)
    obtain ⟨place, inTable, rfl⟩ := List.getElem_of_mem member
    have covered := starts.trans (Word.prefix_of_starts onward)
    -- The entry that is read in part is another one, as its own bits would not fit.
    by_cases same : symbol.toNat = place
    · have short := starts.length_le
      have mine : entry symbol = encodeTable[place] := by
        rw [entry, same, List.getD_eq_getElem _ _ inTable]
      simp only [code, pending, Word.bits, length_bits, mine] at short
      omega
    · have apart := apart_of_ne (byte_lt symbol) (length_encodeTable ▸ inTable) same
      rw [List.getD_eq_getElem _ _ inTable] at apart
      exact apart.1 covered

/-- The two halves of a byte. -/
def nibbles (byte : UInt8) : List UInt8 := [byte >>> 4, byte &&& 0xf]

theorem nibbles_bits (byte : UInt8) :
    (nibbles byte).flatMap (fun input => bits 4 input.toNat) = bits 8 byte.toNat := by
  have high : (byte >>> 4).toNat = byte.toNat >>> 4 := by simp
  have low : (byte &&& 0xf).toNat = byte.toNat % 2 ^ 4 := by
    simp [UInt8.toNat_and, Nat.and_two_pow_sub_one_eq_mod byte.toNat 4]
  simp only [nibbles, List.flatMap_cons, List.flatMap_nil, List.append_nil]
  rw [high, low, bits_mod, ← bits_append]

theorem nibbles_fit (byte : UInt8) : ∀ input ∈ nibbles byte, input.toNat < 16 := by
  have := byte.toNat_lt
  intro input member
  simp only [nibbles, List.mem_cons, List.not_mem_nil, or_false] at member
  rcases member with rfl | rfl
  · rw [UInt8.toNat_shiftRight]
    simp only [Nat.shiftRight_eq_div_pow]
    simp
    omega
  · rw [UInt8.toNat_and]
    exact Nat.lt_of_le_of_lt Nat.and_le_right (by decide)

/-- The loop runs the decoder over the halves of the bytes. -/
theorem decodeLoop_of_run {src : Bytes} {after : Decoder} :
    ∀ {decoder : Decoder} {symbols out : Bytes},
      run Decoder.decode4 decoder (src.flatMap nibbles) = .ok (symbols, after) →
      decodeLoop src decoder out = .ok (out ++ symbols, after) := by
  induction src with
  | nil =>
    intro decoder symbols out ran
    obtain ⟨rfl, rfl⟩ := Prod.mk.inj (Except.ok.inj ran)
    rw [List.append_nil]
    rfl
  | cons byte rest ih =>
    intro decoder symbols out ran
    have halves : (byte :: rest).flatMap nibbles = (byte >>> 4) :: (byte &&& 0xf) :: rest.flatMap nibbles := rfl
    rw [halves] at ran
    obtain ⟨high, between, middle, first, onward, rfl⟩ := run_cons.mp ran
    obtain ⟨low, next, later, second, finish, rfl⟩ := run_cons.mp onward
    have turned : decodeLoop (byte :: rest) decoder out =
        decodeLoop rest next (out ++ high.toList ++ low.toList) := by
      simp only [decodeLoop, first, ok_bind, second]
    rw [turned, ih finish]
    simp only [List.append_assoc]

theorem pads_of_ones {word : Word} {count : Nat} (fits : word.Fits) (few : count < 8)
    (ones : word.bits = List.replicate count true) : pads word = true := by
  have length : word.1 = count := by simpa [Word.bits] using congrArg List.length ones
  have number : word.2 % 2 ^ word.1 = (2 ^ word.1 - 1) % 2 ^ word.1 := by
    refine mod_eq_of_bits (ones.trans ?_)
    rw [bits_ones (Nat.le_refl _), length]
  have positive := Nat.two_pow_pos word.1
  rw [Nat.mod_eq_of_lt fits, Nat.mod_eq_of_lt (by omega)] at number
  unfold pads
  rw [Bool.and_eq_true, Nat.blt_eq, Nat.beq_eq]
  exact ⟨by omega, number⟩

/-- A string of words with a padding of few ones is decoded. -/
theorem decode_eq_ok {src symbols : Bytes} {count : Nat} (few : count < 8)
    (whole : ofBytes src = symbols.flatMap code ++ List.replicate count true) : decode src = .ok symbols := by
  have padding : List.replicate count true <+: eos.bits := by
    rw [bits_eos, show 30 = count + (30 - count) by omega, List.replicate_add]
    exact List.prefix_append _ _
  have groups : (src.flatMap nibbles).flatMap (fun input => bits 4 input.toNat) = ofBytes src := by
    rw [List.flatMap_assoc]
    exact List.flatMap_congr fun byte _ => nibbles_bits byte
  have each : ∀ input ∈ src.flatMap nibbles, input.toNat < 16 := by
    intro input member
    obtain ⟨byte, -, inside⟩ := List.mem_flatMap.mp member
    exact nibbles_fit byte input inside
  have start : pending Decoder.new = [] := by decide
  obtain ⟨after, ran, valid, rest⟩ := follows_decode4.run_eq prefixFree_code apart_eos padding
    (by rw [bits_eos, List.length_replicate, List.length_replicate]; omega) (src.flatMap nibbles) each
    Decoder.new symbols valid_new (by rw [start, List.nil_append, groups, whole])
  -- Where only padding was read the string may end.
  have final := valid.ends (pads_of_ones (states_fit _ (unread_mem valid.inside)) few rest)
  have looped : decodeLoop src Decoder.new [] = .ok (symbols, after) := decodeLoop_of_run ran
  unfold decode
  rw [looped]
  simp only [ok_bind, final, if_true, pure_eq_ok]

end Decoding

section Buffers

variable {α : Type}

theorem puts_fromOctets {writer : Octets.Writer α} {items : Bytes} {value : α} (puts : Cursor.Puts writer items value) :
    Cursor.Puts (fromOctets writer) items value := by
  intro output
  refine ⟨fun room => ?_, fun full => ?_⟩
  · rw [fromOctets, (puts output).1 room]
    rfl
  · obtain ⟨error, failed⟩ := (puts output).2 full
    exact ⟨_, by rw [fromOctets, failed]; rfl⟩

theorem puts_putBytes (bytes : Bytes) : Cursor.Puts (Octets.putBytes bytes) bytes () := by
  intro output
  refine ⟨fun room => if_neg (Nat.not_lt.mpr room), fun full => ⟨_, if_pos full⟩⟩

theorem puts_putU8 (value : UInt8) : Cursor.Puts (fromOctets (putU8 value)) [value] () :=
  puts_fromOctets (puts_putBytes _)

theorem puts_putU32 (value : Nat) : Cursor.Puts (fromOctets (putU32 value)) (Words.toBigEndian 4 value) () :=
  puts_fromOctets (puts_putBytes _)

theorem puts_putU64 (value : UInt64) : Cursor.Puts (fromOctets (putU64 value)) (Words.toBigEndian 8 value.toNat) () :=
  puts_fromOctets (puts_putBytes _)

end Buffers

section Encoding

/-- The string of words of a byte string. -/
def coded (lowerCase : Bool) (src : Bytes) : List Bool := (src.map (cased lowerCase)).flatMap code

theorem coded_cons (lowerCase : Bool) (byte : UInt8) (rest : Bytes) :
    coded lowerCase (byte :: rest) = code (cased lowerCase byte) ++ coded lowerCase rest := rfl

theorem entry_fits (byte : UInt8) : (entry byte).2 < 2 ^ (entry byte).1 ∧ (entry byte).1 ≤ 30 := by
  have inside : byte.toNat < encodeTable.length := length_encodeTable ▸ byte_lt byte
  have fits := entries_fit _ (List.getElem_mem inside)
  rw [entry, List.getD_eq_getElem _ _ inside]
  exact fits

/-- The top of a word holds the bits that were not written yet. -/
structure Loaded (word pending : Nat) (front : List Bool) : Prop where
  bits : bits 64 word = front ++ List.replicate (64 - pending) false
  length : front.length = pending
  room : pending < 64

/-- A word that takes up bits behind those it holds. -/
theorem Loaded.or {word pending other : Nat} {front back : List Bool} (loaded : Loaded word pending front)
    (tail : Bits.bits 64 other = List.replicate pending false ++ back) :
    Bits.bits 64 (word ||| other) = front ++ back := by
  have size : back.length = 64 - pending := by
    have whole := congrArg List.length tail
    rw [length_bits, List.length_append, List.length_replicate] at whole
    omega
  refine bits_or_append ?_ ?_
  · rw [size]
    exact loaded.bits
  · rw [loaded.length]
    exact tail

theorem bits_shl64 {value amount : Nat} (within : amount ≤ 64) :
    Bits.bits 64 (shl64 value amount) = Bits.bits (64 - amount) value ++ List.replicate amount false := by
  have whole : 64 = 64 - amount + amount := by omega
  rw [shl64, bits_mod, ← bits_shiftLeft, ← whole]

/-- The loop writes whole words of the bits, and keeps the rest. -/
theorem encodeLoop_puts (lowerCase : Bool) (src : Bytes) :
    ∀ {word pending : Nat} {front : List Bool}, Loaded word pending front →
      ∃ bytes left back, Puts (encodeLoop lowerCase src word pending) bytes left ∧ Loaded left.1 left.2 back ∧
        ofBytes bytes ++ back = front ++ coded lowerCase src := by
  -- Induction on the string; what was written and what is kept are the bits so far.
  induction src with
  | nil =>
    intro word pending front loaded
    exact ⟨[], (word, pending), front, Puts.pure _, loaded, (List.append_nil front).symm⟩
  | cons byte rest ih =>
    intro word pending front loaded
    obtain ⟨small, short⟩ := entry_fits (cased lowerCase byte)
    obtain ⟨nbits, number⟩ : ∃ nbits, (entry (cased lowerCase byte)).1 = nbits := ⟨_, rfl⟩
    obtain ⟨value, bitsOf⟩ : ∃ value, (entry (cased lowerCase byte)).2 = value := ⟨_, rfl⟩
    have symbol : code (cased lowerCase byte) = Bits.bits nbits value := by rw [code, Word.bits, number, bitsOf]
    rw [number, bitsOf] at small
    rw [number] at short
    have room := loaded.room
    have held := loaded.length
    by_cases fits : pending + nbits < 64
    · have turned : encodeLoop lowerCase (byte :: rest) word pending =
          encodeLoop lowerCase rest (word ||| shl64 value (64 - (pending + nbits))) (pending + nbits) := by
        simp only [encodeLoop, number, bitsOf, if_pos fits]
      have next : Loaded (word ||| shl64 value (64 - (pending + nbits))) (pending + nbits)
          (front ++ Bits.bits nbits value) := by
        refine ⟨?_, by simp [held], fits⟩
        rw [List.append_assoc]
        refine loaded.or ?_
        have cut : 64 - (64 - (pending + nbits)) = pending + nbits := by omega
        rw [bits_shl64 (Nat.sub_le _ _), cut, bits_of_lt small, List.append_assoc]
      obtain ⟨bytes, left, back, puts, after, whole⟩ := ih next
      refine ⟨bytes, left, back, turned ▸ puts, after, ?_⟩
      rw [whole, coded_cons, symbol, List.append_assoc]
    · -- The word is full: it is written, and the rest of the symbol starts the next one.
      obtain ⟨spare, beyond⟩ : ∃ spare, spare = pending + nbits - 64 := ⟨_, rfl⟩
      have turned : encodeLoop lowerCase (byte :: rest) word pending =
          fromOctets (putU64 (UInt64.ofNat (word ||| value >>> spare))) >>= fun _ =>
            encodeLoop lowerCase rest (if spare = 0 then 0 else shl64 value (64 - spare)) spare := by
        simp only [encodeLoop, number, bitsOf, if_neg fits, ← beyond]
      have cut : Bits.bits nbits value = Bits.bits (nbits - spare) (value >>> spare) ++ Bits.bits spare value := by
        rw [← bits_append, Nat.sub_add_cancel (by omega)]
      have full : Bits.bits 64 (word ||| value >>> spare) = front ++ Bits.bits (nbits - spare) (value >>> spare) := by
        refine loaded.or ?_
        have low : value >>> spare < 2 ^ (nbits - spare) := by
          rw [Nat.shiftRight_eq_div_pow, Nat.div_lt_iff_lt_mul (Nat.two_pow_pos _), ← Nat.pow_add,
            Nat.sub_add_cancel (by omega)]
          exact small
        rw [← bits_of_lt low]
        congr 1
        omega
      have next : Loaded (if spare = 0 then 0 else shl64 value (64 - spare)) spare (Bits.bits spare value) := by
        refine ⟨?_, length_bits _ _, by omega⟩
        split
        · rename_i none_
          rw [none_, bits_zero]
          rfl
        · rw [bits_shl64 (Nat.sub_le _ _), show 64 - (64 - spare) = spare by omega]
      obtain ⟨bytes, left, back, puts, after, whole⟩ := ih next
      refine ⟨_, left, back, turned ▸ (puts_putU64 _).bind puts, after, ?_⟩
      have word64 : ofBytes (Words.toBigEndian 8 (UInt64.ofNat (word ||| value >>> spare)).toNat) =
          front ++ Bits.bits (nbits - spare) (value >>> spare) := by
        rw [Bits.ofBytes_toBigEndian, UInt64.toNat_ofNat', bits_mod 64, full]
      rw [ofBytes_append, word64, List.append_assoc, whole, coded_cons, symbol, cut]
      simp only [List.append_assoc]

theorem putLow_puts (count word : Nat) : Puts (putLow word (8 * count)) (Words.toBigEndian count word) () := by
  induction count with
  | zero =>
    rw [putLow]
    exact Puts.pure ()
  | succ count ih =>
    have some_ : ¬8 * (count + 1) = 0 := by omega
    have below : 8 * (count + 1) - 8 = 8 * count := by omega
    have byte : word >>> (8 * count) = word / 256 ^ count := by rw [Nat.shiftRight_eq_div_pow, Nat.pow_mul]
    rw [putLow, if_neg some_, below, byte]
    exact (puts_putU8 _).bind ih

/-- What is left is written with ones behind, up to a whole byte. -/
theorem flush_puts {word pending : Nat} {front : List Bool} (loaded : Loaded word pending front)
    {rounded : Nat} (up : rounded = (pending + 7) / 8 * 8) :
    bits rounded ((word ||| maxU64 >>> pending) >>> (64 - rounded)) =
      front ++ List.replicate (rounded - pending) true := by
  have room := loaded.room
  -- Below the bits that are held the mask has ones only.
  have mask : bits 64 (maxU64 >>> pending) = List.replicate pending false ++ List.replicate (64 - pending) true := by
    have ones : maxU64 >>> pending = 2 ^ (64 - pending) - 1 := ones_shiftRight 64 pending
    have positive := Nat.two_pow_pos (64 - pending)
    rw [show 64 = pending + (64 - pending) by omega, ones, bits_of_lt (by omega), bits_ones (Nat.le_refl _)]
    simp
  have whole := loaded.or mask
  have parted : List.replicate (64 - pending) true =
      List.replicate (rounded - pending) true ++ List.replicate (64 - rounded) true := by
    rw [← List.replicate_add]
    congr 1
    omega
  rw [show bits 64 (word ||| maxU64 >>> pending) = _ from
    congrArg (fun size => bits size (word ||| maxU64 >>> pending)) (show 64 = rounded + (64 - rounded) by omega),
    bits_append, parted, ← List.append_assoc] at whole
  refine (List.append_inj whole ?_).1
  have held := loaded.length
  simp only [length_bits, List.length_append, List.length_replicate]
  omega

/-- The encoding of a string is its words, padded with fewer than eight ones. -/
theorem encode_puts (lowerCase : Bool) (src : Bytes) :
    ∃ bytes count, Puts (encode lowerCase src) bytes () ∧ count < 8 ∧
      ofBytes bytes = coded lowerCase src ++ List.replicate count true := by
  have start : Loaded 0 0 [] := ⟨bits_zero 64, rfl, by decide⟩
  obtain ⟨bytes, ⟨word, pending⟩, back, puts, loaded, whole⟩ := encodeLoop_puts lowerCase src start
  rw [List.nil_append] at whole
  by_cases none_ : pending = 0
  · refine ⟨bytes ++ [], 0, ?_, by decide, ?_⟩
    · refine puts.bind ?_
      simp only [none_, if_true]
      exact Puts.pure ()
    · have empty : back = [] := List.length_eq_zero_iff.mp (loaded.length.trans none_)
      rw [empty] at whole
      simpa using whole
  · obtain ⟨rounded, up⟩ : ∃ rounded, rounded = (pending + 7) / 8 * 8 := ⟨_, rfl⟩
    have room := loaded.room
    have rest := flush_puts loaded up
    obtain ⟨low, lowEq⟩ : ∃ low, (word ||| maxU64 >>> pending) >>> (64 - rounded) = low := ⟨_, rfl⟩
    rw [lowEq] at rest
    by_cases wide : 32 ≤ rounded
    · -- Four bytes are written at once, and the others one by one.
      obtain ⟨count, size⟩ : ∃ count, rounded - 32 = 8 * count := ⟨(pending + 7) / 8 - 4, by omega⟩
      have cut : ofBytes (Words.toBigEndian 4 (low >>> (8 * count)) ++ Words.toBigEndian count low) =
          bits rounded low := by
        rw [ofBytes_append, ofBytes_toBigEndian, ofBytes_toBigEndian, ← bits_append]
        congr 1
        omega
      refine ⟨bytes ++ (Words.toBigEndian 4 (low >>> (8 * count)) ++ Words.toBigEndian count low), rounded - pending,
        ?_, by omega, ?_⟩
      · refine puts.bind ?_
        simp only [if_neg none_, ← up, lowEq, if_pos wide, size]
        exact (puts_putU32 _).bind (putLow_puts count low)
      · rw [ofBytes_append, cut, rest, ← List.append_assoc, whole]
    · obtain ⟨count, size⟩ : ∃ count, rounded = 8 * count := ⟨(pending + 7) / 8, by omega⟩
      refine ⟨bytes ++ Words.toBigEndian count low, rounded - pending, ?_, by omega, ?_⟩
      · refine puts.bind ?_
        simp only [if_neg none_, ← up, lowEq, if_neg wide]
        rw [size]
        exact putLow_puts count low
      · rw [ofBytes_append, ofBytes_toBigEndian, ← size, rest, ← List.append_assoc, whole]

variable {lowerCase : Bool} {src : Bytes}

/-- The bits of a string are counted, unless there are too many. -/
theorem countBits_eq_ok {total : Nat} :
    ∀ {count : Nat}, count ≤ maxU64 → countBits lowerCase src count = .ok total →
      total = count + (coded lowerCase src).length ∧ total ≤ maxU64 := by
  induction src with
  | nil =>
    intro count bounded counted
    cases counted
    exact ⟨rfl, bounded⟩
  | cons byte rest ih =>
    intro count bounded counted
    simp only [countBits] at counted
    split at counted
    · cases counted
    · obtain ⟨sum, within⟩ := ih (by omega) counted
      refine ⟨?_, within⟩
      have size : (code (cased lowerCase byte)).length = (entry (cased lowerCase byte)).1 := length_bits _ _
      rw [coded_cons, List.length_append, size]
      omega

theorem countBits_error {error : QpackError} :
    ∀ {count : Nat}, countBits lowerCase src count = .error error → error = .panicked := by
  induction src with
  | nil => exact fun failed => nomatch failed
  | cons byte rest ih =>
    intro count failed
    simp only [countBits] at failed
    split at failed
    · exact (Except.error.inj failed).symm
    · exact ih failed

/-- How long an encoding is, and that it is not longer than the string. -/
theorem encodeOutputLength_eq_ok {len : Nat} (sized : encodeOutputLength lowerCase src = .ok len) :
    len = ((coded lowerCase src).length + 7) / 8 ∧ len ≤ src.length ∧ len ≤ maxU64 := by
  unfold encodeOutputLength at sized
  cases counted : countBits lowerCase src 0 with
  | error error =>
    rw [counted] at sized
    cases sized
  | ok total =>
    obtain ⟨sum, within⟩ := countBits_eq_ok (Nat.zero_le _) counted
    have low : total &&& 7 = total % 8 := Nat.and_two_pow_sub_one_eq_mod total 3
    rw [counted, ok_bind, low] at sized
    simp only at sized
    have rounds : (if total % 8 = 0 then total / 8 else total / 8 + 1) = (total + 7) / 8 := by
      split
      · omega
      · omega
    rw [rounds] at sized
    split at sized
    · cases sized
    · cases sized
      rw [Nat.zero_add] at sum
      subst sum
      refine ⟨rfl, by omega, ?_⟩
      omega

/-- A string that is not encoded is short enough to be counted. -/
theorem encodeOutputLength_inflated (longer : encodeOutputLength lowerCase src = .error .inflatedHuffmanEncoding) :
    src.length ≤ maxU64 := by
  unfold encodeOutputLength at longer
  cases counted : countBits lowerCase src 0 with
  | error error =>
    have panics := countBits_error counted
    rw [counted, panics] at longer
    cases longer
  | ok total =>
    obtain ⟨-, within⟩ := countBits_eq_ok (Nat.zero_le _) counted
    rw [counted, ok_bind] at longer
    simp only at longer
    have least : (if total &&& 7 = 0 then total / 8 else total / 8 + 1) ≤ maxU64 := by
      have top : maxU64 = 18446744073709551615 := rfl
      split
      · omega
      · omega
    generalize (if total &&& 7 = 0 then total / 8 else total / 8 + 1) = len at longer least
    split at longer
    · omega
    · cases longer

theorem decode_encode {len : Nat} (sized : encodeOutputLength lowerCase src = .ok len) :
    ∃ bytes, bytes.length = len ∧ Puts (encode lowerCase src) bytes () ∧
      decode bytes = .ok (src.map (cased lowerCase)) := by
  obtain ⟨announced, -⟩ := encodeOutputLength_eq_ok sized
  obtain ⟨bytes, count, puts, few, whole⟩ := encode_puts lowerCase src
  refine ⟨bytes, ?_, puts, decode_eq_ok few whole⟩
  have size := congrArg List.length whole
  rw [length_ofBytes, List.length_append, List.length_replicate] at size
  omega

/-- A string whose encoding has a length is written with that length into any buffer with room for it, and decoded
again. -/
theorem encode_decodes {lowerCase : Bool} {src : Bytes} {len : Nat}
    (sized : encodeOutputLength lowerCase src = .ok len) :
    ∃ bytes, bytes.length = len ∧
      (∀ output : Cursor.Output UInt8, len ≤ output.cap →
        encode lowerCase src output = .ok ((), output.push bytes)) ∧
      decode bytes = .ok (if lowerCase then src.map toAsciiLowercase else src) := by
  obtain ⟨bytes, length, puts, decoded⟩ := decode_encode sized
  have room (output : Cursor.Output UInt8) (enough : len ≤ output.cap) : bytes.length ≤ output.cap := by
    rw [length]
    exact enough
  refine ⟨bytes, length, fun output enough => (puts output).1 (room output enough), ?_⟩
  rw [decoded]
  cases lowerCase with
  | true => rfl
  | false =>
    -- Without lowering each byte stays as it is.
    have same : cased false = id := rfl
    rw [same, List.map_id]
    rfl

theorem encode_decodes_word :
    ∃ bytes, bytes.length = 3 ∧
      (∀ output : Cursor.Output UInt8, 3 ≤ output.cap →
        encode true [65, 98, 67, 48] output = .ok ((), output.push bytes)) ∧
      decode bytes = .ok (if true then [65, 98, 67, 48].map toAsciiLowercase else [65, 98, 67, 48]) :=
  encode_decodes (by decide)

end Encoding

end Huffman

end Flexicast
