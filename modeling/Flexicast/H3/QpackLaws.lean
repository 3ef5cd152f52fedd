import Flexicast.H3.HuffmanLaws
import Flexicast.H3.Qpack

/-! A header block is decoded to the headers it was encoded from, with their names in lower case. -/

namespace Flexicast

namespace Qpack

open Cursor Huffman
open Octets hiding Reader Writer

section Buffers

variable {α : Type}

theorem reads_fromOctets {reader : Octets.Reader α} {items : Bytes} {value : α} (reads : Reads reader items value) :
    Reads (fromOctets reader) items value := by
  intro rest
  rw [fromOctets, reads rest]
  rfl

theorem reads_getU8 (byte : UInt8) : Reads (fromOctets getU8) [byte] byte :=
  reads_fromOctets fun _ => rfl

theorem reads_getBytes (bytes : Bytes) : Reads (fromOctets (getBytes bytes.length)) bytes bytes :=
  reads_fromOctets fun _ => getBytes_eq_ok.mpr ⟨rfl, rfl⟩

theorem reads_peekU8 {next : UInt8 → Reader α} {first : UInt8} {rest : Bytes} {value : α}
    (reads : Reads (next first) (first :: rest) value) :
    Reads (fromOctets peekU8 >>= next) (first :: rest) value := by
  intro tail
  have peeked : (fromOctets peekU8 : Reader UInt8) (first :: rest ++ tail) = .ok (first, first :: rest ++ tail) := rfl
  rw [bind_ok peeked]
  exact reads tail

theorem reads_lift {result : Except QpackError α} {value : α} (done : result = .ok value) :
    Reads (liftM result : Reader α) [] value := by
  intro rest
  rw [done]
  rfl

end Buffers

section Integers

/-- The groups of seven bits of an integer add up to it. -/
theorem encodeIntLoop_spec (value : Nat) :
    ∃ bytes, Puts (encodeIntLoop value) bytes () ∧ ∀ start shift rest, shift < 64 →
      start + value * 2 ^ shift ≤ maxU64 →
      decodeIntLoop start shift (bytes ++ rest) = .ok (start + value * 2 ^ shift, rest) := by
  -- Induction on the integer, of which each turn takes the lowest group.
  induction value using Nat.strong_induction_on with
  | _ value ih =>
    have seven (byte : Nat) (small : byte < 256) : ((UInt8.ofNat byte) &&& 0x7f).toNat = byte % 128 := by
      have whole : (UInt8.ofNat byte).toNat = byte := by
        rw [UInt8.toNat_ofNat']
        exact Nat.mod_eq_of_lt small
      rw [UInt8.toNat_and, whole]
      exact Nat.and_two_pow_sub_one_eq_mod byte 7
    have within {number shift : Nat} (bound : number * 2 ^ shift ≤ maxU64) :
        shl64 number shift = number * 2 ^ shift := by
      rw [shl64, Nat.shiftLeft_eq]
      exact Nat.mod_eq_of_lt (Nat.lt_succ_of_le bound)
    by_cases more : 128 ≤ value
    · obtain ⟨bytes, puts, reads⟩ := ih (value / 128) (by omega)
      have shifted : value >>> 7 = value / 128 := Nat.shiftRight_eq_div_pow value 7
      refine ⟨UInt8.ofNat (value % 128 + 128) :: bytes, ?_, fun start shift rest room bound => ?_⟩
      · rw [encodeIntLoop, if_pos more, shifted]
        exact (puts_putU8 _).bind puts
      · -- The lowest group is added here, and the others from the next shift on.
        have sum : value * 2 ^ shift = value % 128 * 2 ^ shift + value / 128 * 2 ^ (shift + 7) := by
          rw [Nat.pow_add, ← Nat.mul_assoc, Nat.mul_right_comm, ← Nat.add_mul]
          congr 1
          omega
        have group : shl64 ((UInt8.ofNat (value % 128 + 128)) &&& 0x7f).toNat shift = value % 128 * 2 ^ shift := by
          rw [seven _ (by omega), Nat.add_mod_right, Nat.mod_mod]
          exact within (by omega)
        have goes : ¬((UInt8.ofNat (value % 128 + 128)) &&& 0x80 = 0) := by
          have all : ∀ low < 128, ¬((UInt8.ofNat (low + 128)) &&& 0x80 = 0) := by decide
          exact all _ (Nat.mod_lt _ (by decide))
        have further : shift + 7 < 64 := by
          by_contra beyond
          have large : 2 ^ 64 ≤ 2 ^ (shift + 7) := Nat.pow_le_pow_right (by decide) (by omega)
          have once : 1 * 2 ^ (shift + 7) ≤ value / 128 * 2 ^ (shift + 7) :=
            Nat.mul_le_mul_right _ (by omega)
          have top : maxU64 = 2 ^ 64 - 1 := rfl
          omega
        have later := reads (start + value % 128 * 2 ^ shift) (shift + 7) rest further (by omega)
        rw [List.cons_append, decodeIntLoop, if_neg (by omega)]
        simp only [group]
        rw [if_neg (by omega), if_neg goes, later, sum, Nat.add_assoc]
    · refine ⟨[UInt8.ofNat value], ?_, fun start shift rest room bound => ?_⟩
      · rw [encodeIntLoop, if_neg more]
        exact puts_putU8 _
      · have group : shl64 ((UInt8.ofNat value) &&& 0x7f).toNat shift = value * 2 ^ shift := by
          rw [seven _ (by omega), Nat.mod_eq_of_lt (by omega)]
          exact within (by omega)
        have ends : (UInt8.ofNat value) &&& 0x80 = 0 := by
          have all : ∀ low < 128, (UInt8.ofNat low) &&& 0x80 = 0 := by decide
          exact all _ (by omega)
        rw [List.cons_append, decodeIntLoop, if_neg (by omega)]
        simp only [group]
        rw [if_neg (by omega), if_pos ends, List.nil_append]

theorem first_and_mask {first : UInt8} {low width : Nat} (narrow : width ≤ 8)
    (clear : first.toNat &&& mask width = 0) (small : low ≤ mask width) :
    (first ||| UInt8.ofNat low).toNat &&& mask width = low := by
  have positive := Nat.two_pow_pos width
  have bound : 2 ^ width ≤ 2 ^ 8 := Nat.pow_le_pow_right (by decide) narrow
  have fits : low < 2 ^ width := by
    unfold mask at small
    omega
  have whole : (UInt8.ofNat low).toNat = low := by
    rw [UInt8.toNat_ofNat']
    exact Nat.mod_eq_of_lt (by omega)
  rw [UInt8.toNat_or, whole, Nat.and_or_distrib_right, clear, Nat.zero_or, mask, Nat.and_two_pow_sub_one_eq_mod,
    Nat.mod_eq_of_lt fits]

/-- An integer is written behind the first bits of a byte, and read back. -/
theorem encodeInt_spec {value width : Nat} {first : UInt8} (narrow : width ≤ 8)
    (clear : first.toNat &&& mask width = 0) (bound : value ≤ maxU64) :
    ∃ low tail, low ≤ mask width ∧ Puts (encodeInt value first width) ((first ||| UInt8.ofNat low) :: tail) () ∧
      Reads (decodeInt width) ((first ||| UInt8.ofNat low) :: tail) value := by
  by_cases small : value < mask width
  · refine ⟨value, [], Nat.le_of_lt small, ?_, ?_⟩
    · rw [encodeInt, if_pos small]
      exact puts_putU8 _
    · have read := first_and_mask narrow clear (Nat.le_of_lt small)
      refine Reads.bind_nil (reads_getU8 _) ?_
      simp only [read, if_pos small]
      exact Reads.pure value
  · obtain ⟨tail, puts, reads⟩ := encodeIntLoop_spec (value - mask width)
    refine ⟨mask width, tail, Nat.le_refl _, ?_, ?_⟩
    · rw [encodeInt, if_neg small]
      exact (puts_putU8 _).bind puts
    · have read := first_and_mask narrow clear (Nat.le_refl (mask width))
      refine Reads.bind (reads_getU8 _) ?_
      simp only [read, if_neg (Nat.lt_irrefl _)]
      intro rest
      have total := reads (mask width) 0 rest (by decide) (by omega)
      rw [Nat.pow_zero, Nat.mul_one, Nat.add_sub_cancel' (Nat.le_of_not_lt small)] at total
      exact total

end Integers

section Strings

/-- The first bits of a string, which tell whether it is Huffman-encoded. -/
def flagged (first : UInt8) (width : Nat) (huff : Bool) : UInt8 :=
  if huff then first ||| 1 <<< UInt8.ofNat width else first

/-- A string is written with a length and bytes that are read back, or not at all. -/
theorem encodeStr_spec (lowerCase : Bool) (value : Bytes) {first : UInt8} {width : Nat} (narrow : width ≤ 8)
    (clear : ∀ huff, (flagged first width huff).toNat &&& mask width = 0) :
    (∃ error, encodeStr lowerCase value first width = throw error) ∨
      ∃ huff len low front back, low ≤ mask width ∧
        Puts (encodeStr lowerCase value first width)
          (((flagged first width huff ||| UInt8.ofNat low) :: front) ++ back) () ∧
        Reads (decodeInt width) ((flagged first width huff ||| UInt8.ofNat low) :: front) len ∧
        Reads (decodeBytes huff len) back (value.map (cased lowerCase)) := by
  unfold encodeStr
  cases sized : encodeOutputLength lowerCase value with
  | ok len =>
    right
    obtain ⟨-, -, bound⟩ := encodeOutputLength_eq_ok sized
    obtain ⟨bytes, length, puts, decoded⟩ := decode_encode sized
    obtain ⟨low, front, small, putsLen, reads⟩ := encodeInt_spec narrow (clear true) bound
    refine ⟨true, len, low, front, bytes, small, putsLen.bind puts, reads, ?_⟩
    rw [← length]
    refine Reads.bind_nil (reads_getBytes bytes) ?_
    exact reads_lift decoded
  | error error =>
    by_cases longer : error = .inflatedHuffmanEncoding
    · right
      subst longer
      have bound := encodeOutputLength_inflated sized
      obtain ⟨low, front, small, putsLen, reads⟩ := encodeInt_spec narrow (clear false) bound
      refine ⟨false, value.length, low, front, value.map (cased lowerCase), small,
        putsLen.bind (puts_fromOctets (puts_putBytes _)), reads, ?_⟩
      have size : value.length = (value.map (cased lowerCase)).length := (List.length_map _).symm
      rw [size]
      exact Reads.map (reads_getBytes _)
    · left
      refine ⟨error, ?_⟩
      cases error with
      | inflatedHuffmanEncoding => exact absurd rfl longer
      | bufferTooShort => rfl
      | invalidHuffmanEncoding => rfl
      | invalidStaticTableIndex => rfl
      | invalidHeaderValue => rfl
      | headerListTooLarge => rfl
      | panicked => rfl

/-- A value is read back. -/
theorem decodeStr_spec {huff : Bool} {len low : Nat} {front back value : Bytes} (small : low ≤ mask 7)
    (reads : Reads (decodeInt 7) ((flagged 0 7 huff ||| UInt8.ofNat low) :: front) len)
    (bytes : Reads (decodeBytes huff len) back value) :
    Reads decodeStr (((flagged 0 7 huff ||| UInt8.ofNat low) :: front) ++ back) value := by
  -- The first bit of the length tells how the bytes are to be read.
  have flag : ((flagged 0 7 huff ||| UInt8.ofNat low) &&& 0x80 == 0x80) = huff := by
    have all : ∀ low < 128, ((flagged 0 7 true ||| UInt8.ofNat low) &&& 0x80 == 0x80) = true ∧
        ((flagged 0 7 false ||| UInt8.ofNat low) &&& 0x80 == 0x80) = false := by decide
    have both := all low (Nat.lt_succ_of_le small)
    cases huff with
    | true => exact both.1
    | false => exact both.2
  unfold decodeStr
  refine reads_peekU8 ?_
  simp only [flag]
  exact reads.bind bytes

end Strings

section Table

/-- A header with its name in lower case. -/
def lowered (header : Header) : Header := (header.1.map toAsciiLowercase, header.2)

/-- Every name stands with those of its length, and every index belongs to its name and value. -/
def tablesAgree : Bool :=
  staticEncodeTable.zipIdx.all fun names => names.1.all fun name =>
    name.1.length == names.2 && name.2.all fun value => staticDecodeTable[value.2]? == some (name.1, value.1)

theorem tables_agree : tablesAgree = true := by decide

theorem length_staticDecodeTable : staticDecodeTable.length = 99 := by decide

/-- Names of one length that compare as the same are. -/
theorem eq_of_cmpLowercase {a b : Bytes} (same : a.length = b.length) (compared : cmpLowercase a b = true) :
    a = b.map toAsciiLowercase := by
  induction a generalizing b with
  | nil =>
    rw [List.length_nil] at same
    rw [List.length_eq_zero_iff.mp same.symm, List.map_nil]
  | cons byte rest ih =>
    cases b with
    | nil => cases same
    | cons other tail =>
      simp only [cmpLowercase, List.zip_cons_cons, List.all_cons, Bool.and_eq_true, beq_iff_eq] at compared
      rw [List.map_cons, ← compared.1, ← ih (Nat.succ.inj same) compared.2]

theorem matchValue_eq_some {value : Bytes} {values : List (Bytes × Nat)} {index : Nat} {exact_ : Bool}
    (found : matchValue value values = some (index, exact_)) :
    ∃ other, (other, index) ∈ values ∧ (exact_ = true → other = value) := by
  induction values with
  | nil => cases found
  | cons first rest ih =>
    obtain ⟨other, enc⟩ := first
    simp only [matchValue] at found
    split at found
    · obtain ⟨rfl, rfl⟩ := Prod.mk.inj (Option.some.inj found)
      exact ⟨other, List.mem_cons_self, fun wrong => by cases wrong⟩
    · split at found
      · rename_i same
        obtain ⟨rfl, rfl⟩ := Prod.mk.inj (Option.some.inj found)
        exact ⟨other, List.mem_cons_self, fun _ => (beq_iff_eq.mp same).symm⟩
      · obtain ⟨other, member, same⟩ := ih found
        exact ⟨other, List.mem_cons_of_mem _ member, same⟩

/-- A name that is found comes with one of its values. -/
theorem matchName_eq_some {header : Header} {names : List (Bytes × List (Bytes × Nat))} {index : Nat} {exact_ : Bool}
    (found : matchName header names = some (index, exact_)) :
    ∃ name values value, (name, values) ∈ names ∧ cmpLowercase name header.1 = true ∧ (value, index) ∈ values ∧
      (exact_ = true → value = header.2) := by
  induction names with
  | nil => cases found
  | cons first rest ih =>
    obtain ⟨name, values⟩ := first
    simp only [matchName] at found
    split at found
    · rename_i same
      split at found
      · rename_i result matched
        cases found
        obtain ⟨value, member, exactly⟩ := matchValue_eq_some matched
        exact ⟨name, values, value, List.mem_cons_self, same, member, exactly⟩
      · -- Only the name was found, so the index is that of its first value.
        cases values with
        | nil => cases found
        | cons head tail =>
          obtain ⟨rfl, rfl⟩ := Prod.mk.inj (Option.some.inj found)
          exact ⟨name, head :: tail, head.1, List.mem_cons_self, same, List.mem_cons_self, fun wrong => by cases wrong⟩
    · obtain ⟨name, values, value, member, others⟩ := ih found
      exact ⟨name, values, value, List.mem_cons_of_mem _ member, others⟩

theorem lookupStatic_eq_some {header : Header} {index : Nat} {exact_ : Bool}
    (found : lookupStatic header = some (index, exact_)) :
    index < 99 ∧ ∃ value, lookupIndex index = .ok (header.1.map toAsciiLowercase, value) ∧
      (exact_ = true → value = header.2) := by
  obtain ⟨names, listed, matched⟩ := Option.bind_eq_some_iff.mp found
  obtain ⟨name, values, value, member, compared, inside, exactly⟩ := matchName_eq_some matched
  have agree := List.all_eq_true.mp tables_agree (names, header.1.length)
    (List.mk_mem_zipIdx_iff_getElem?.mpr listed)
  have named := List.all_eq_true.mp agree (name, values) member
  rw [Bool.and_eq_true, beq_iff_eq] at named
  have entry := beq_iff_eq.mp (List.all_eq_true.mp named.2 (value, index) inside)
  have lower := eq_of_cmpLowercase named.1 compared
  rw [lower] at entry
  refine ⟨?_, value, ?_, exactly⟩
  · rw [← length_staticDecodeTable]
    exact (List.getElem?_eq_some_iff.mp entry).1
  · rw [lookupIndex, entry]

end Table

section Headers

theorem map_cased_false (value : Bytes) : value.map (cased false) = value := by
  have same : cased false = id := rfl
  rw [same, List.map_id]

/-- An indexed header is read back. -/
theorem indexed_spec {header : Header} {index : Nat} (listed : lookupIndex index = .ok header) (small : index < 99) :
    ∃ bytes, bytes ≠ [] ∧ Puts (encodeInt index (indexed ||| 0x40) 6) bytes () ∧ Reads decodeHeader bytes header := by
  have top : (99 : Nat) ≤ maxU64 := by decide
  obtain ⟨low, tail, bound, puts, reads⟩ :=
    @encodeInt_spec index 6 (indexed ||| 0x40) (by decide) (by decide) (by omega)
  have told : ∀ low < 64, Representation.fromByte (indexed ||| 0x40 ||| UInt8.ofNat low) = .indexed ∧
      ((indexed ||| 0x40 ||| UInt8.ofNat low) &&& 0x40 == 0x40) = true := by decide
  obtain ⟨kind, static⟩ := told low (Nat.lt_succ_of_le bound)
  refine ⟨_, List.cons_ne_nil _ _, puts, reads_peekU8 ?_⟩
  simp only [kind, static]
  exact reads.bind_nil (reads_lift listed)

/-- A header whose name is indexed is read back. -/
theorem nameRef_spec {header : Header} {index : Nat} {other : Bytes}
    (listed : lookupIndex index = .ok (header.1, other)) (small : index < 99) {str : Bytes} {huff : Bool}
    {len low : Nat} {front back : Bytes} (bound : low ≤ mask 7)
    (shape : str = ((flagged 0 7 huff ||| UInt8.ofNat low) :: front) ++ back)
    (length : Reads (decodeInt 7) ((flagged 0 7 huff ||| UInt8.ofNat low) :: front) len)
    (value : Reads (decodeBytes huff len) back header.2) :
    ∃ bytes, bytes ≠ [] ∧ Puts (encodeInt index (literalWithNameRef ||| 0x10) 4) bytes () ∧
      Reads decodeHeader (bytes ++ str) header := by
  have top : (99 : Nat) ≤ maxU64 := by decide
  obtain ⟨place, tail, least, puts, reads⟩ :=
    @encodeInt_spec index 4 (literalWithNameRef ||| 0x10) (by decide) (by decide) (by omega)
  have told : ∀ low < 16,
      Representation.fromByte (literalWithNameRef ||| 0x10 ||| UInt8.ofNat low) = .literalWithNameRef ∧
        ((literalWithNameRef ||| 0x10 ||| UInt8.ofNat low) &&& 0x10 == 0x10) = true := by decide
  obtain ⟨kind, static⟩ := told place (Nat.lt_succ_of_le least)
  refine ⟨_, List.cons_ne_nil _ _, puts, ?_⟩
  rw [List.cons_append]
  refine reads_peekU8 ?_
  rw [← List.cons_append, shape]
  simp only [kind, static]
  refine reads.bind ((decodeStr_spec bound length value).bind_nil ?_)
  exact (reads_lift listed).bind_nil (Reads.pure _)

/-- A literal header is read back. -/
theorem literal_spec {header : Header} {str : Bytes} {nameHuff huff : Bool} {nameLen len nameLow low : Nat}
    {nameFront nameBack front back : Bytes} (nameBound : nameLow ≤ mask 3) (bound : low ≤ mask 7)
    (shape : str = ((flagged 0 7 huff ||| UInt8.ofNat low) :: front) ++ back)
    (nameLength : Reads (decodeInt 3) ((flagged literal 3 nameHuff ||| UInt8.ofNat nameLow) :: nameFront) nameLen)
    (name : Reads (decodeBytes nameHuff nameLen) nameBack header.1)
    (length : Reads (decodeInt 7) ((flagged 0 7 huff ||| UInt8.ofNat low) :: front) len)
    (value : Reads (decodeBytes huff len) back header.2) :
    Reads decodeHeader (((flagged literal 3 nameHuff ||| UInt8.ofNat nameLow) :: nameFront) ++ nameBack ++ str)
      header := by
  have told : ∀ low < 8,
      (Representation.fromByte (flagged literal 3 true ||| UInt8.ofNat low) = .literal ∧
        ((flagged literal 3 true ||| UInt8.ofNat low) &&& 0x08 == 0x08) = true) ∧
      (Representation.fromByte (flagged literal 3 false ||| UInt8.ofNat low) = .literal ∧
        ((flagged literal 3 false ||| UInt8.ofNat low) &&& 0x08 == 0x08) = false) := by decide
  have both := told nameLow (Nat.lt_succ_of_le nameBound)
  have kind : Representation.fromByte (flagged literal 3 nameHuff ||| UInt8.ofNat nameLow) = .literal ∧
      ((flagged literal 3 nameHuff ||| UInt8.ofNat nameLow) &&& 0x08 == 0x08) = nameHuff := by
    cases nameHuff with
    | true => exact both.1
    | false => exact both.2
  rw [List.cons_append, List.cons_append]
  refine reads_peekU8 ?_
  rw [← List.cons_append, ← List.cons_append, List.append_assoc, shape]
  simp only [kind.1, kind.2]
  exact nameLength.bind (name.bind ((decodeStr_spec bound length value).bind_nil (Reads.pure _)))

theorem clear_value : ∀ huff, (flagged 0 7 huff).toNat &&& mask 7 = 0
  | true => by decide
  | false => by decide

theorem clear_name : ∀ huff, (flagged literal 3 huff).toNat &&& mask 3 = 0
  | true => by decide
  | false => by decide

/-- A header that is written is read back with its name in lower case. -/
theorem encodeHeader_eq_ok {header : Header} {output : Output UInt8} {result : Unit × Output UInt8}
    (done : encodeHeader header output = .ok result) :
    ∃ bytes, bytes ≠ [] ∧ result = ((), output.push bytes) ∧ Reads decodeHeader bytes (lowered header) := by
  have strings := encodeStr_spec false header.2 (by decide) clear_value
  unfold encodeHeader at done
  cases found : lookupStatic header with
  | none =>
    simp only [found] at done
    obtain ⟨⟨⟩, middle, wroteName, wroteValue⟩ := bind_eq_ok.mp done
    rcases encodeStr_spec true header.1 (by decide) clear_name with ⟨error, failed⟩ |
      ⟨nameHuff, nameLen, nameLow, nameFront, nameBack, nameBound, putsName, nameLength, name⟩
    · rw [failed] at wroteName
      cases wroteName
    · rcases strings with ⟨error, failed⟩ | ⟨huff, len, low, front, back, bound, puts, length, value⟩
      · rw [failed] at wroteValue
        cases wroteValue
      · rw [map_cased_false] at value
        refine ⟨_, ?_, ((putsName.bind puts).eq_of_ok done).2, ?_⟩
        · simp
        · exact literal_spec nameBound bound rfl nameLength name length value
  | some entry =>
    obtain ⟨index, exact_⟩ := entry
    obtain ⟨small, other, listed, exactly⟩ := lookupStatic_eq_some found
    simp only [found] at done
    cases exact_ with
    | true =>
      -- The name and the value are in the table.
      rw [exactly rfl] at listed
      obtain ⟨bytes, some_, puts, reads⟩ := @indexed_spec (lowered header) index listed small
      exact ⟨bytes, some_, (puts.eq_of_ok done).2, reads⟩
    | false =>
      obtain ⟨⟨⟩, middle, -, wroteValue⟩ := bind_eq_ok.mp done
      rcases strings with ⟨error, failed⟩ | ⟨huff, len, low, front, back, bound, puts, length, value⟩
      · rw [failed] at wroteValue
        cases wroteValue
      · rw [map_cased_false] at value
        obtain ⟨bytes, some_, putsIndex, reads⟩ :=
          @nameRef_spec (lowered header) index other listed small _ _ _ _ _ _ bound rfl length value
        exact ⟨_, List.append_ne_nil_of_left_ne_nil some_ _, ((putsIndex.bind puts).eq_of_ok done).2, reads⟩

/-- The size of a list of headers. -/
def listSize (headers : List Header) : Nat := (headers.map headerSize).sum

theorem headerSize_lowered (header : Header) : headerSize (lowered header) = headerSize header := by
  simp [headerSize, lowered]

/-- Headers that are written are read back in their order. -/
theorem encodeHeaders_eq_ok {headers : List Header} :
    ∀ {output : Output UInt8} {result : Unit × Output UInt8}, encodeHeaders headers output = .ok result →
      ∃ bytes, result = ((), output.push bytes) ∧ headers.length ≤ bytes.length ∧
        ∀ fuel left out, headers.length ≤ fuel → listSize headers ≤ left →
          decodeHeaders fuel left out bytes = .ok (out ++ headers.map lowered, []) := by
  -- Induction on the list; every header takes a byte at least.
  induction headers with
  | nil =>
    intro output result done
    cases done
    refine ⟨[], by rw [Output.push_nil], Nat.le_refl _, fun fuel left out _ _ => ?_⟩
    rw [List.map_nil, List.append_nil]
    cases fuel <;> rfl
  | cons header rest ih =>
    intro output result done
    obtain ⟨⟨⟩, middle, first, later⟩ := bind_eq_ok.mp done
    obtain ⟨bytes, some_, wrote, reads⟩ := encodeHeader_eq_ok first
    obtain ⟨-, rfl⟩ := Prod.mk.inj wrote
    obtain ⟨others, rfl, long, decodes⟩ := ih later
    obtain ⟨byte, tail, rfl⟩ := List.exists_cons_of_ne_nil some_
    refine ⟨(byte :: tail) ++ others, by rw [Output.push_push], ?_, fun fuel left out enough room => ?_⟩
    · simp only [List.length_cons, List.length_append]
      omega
    · cases fuel with
      | zero => exact absurd enough (Nat.not_succ_le_zero _)
      | succ fuel =>
        have size : listSize (header :: rest) = headerSize header + listSize rest := rfl
        rw [size] at room
        have onward := decodes fuel (left - headerSize header) (out ++ [lowered header])
          (Nat.le_of_succ_le_succ enough) (by omega)
        have turned : decodeHeaders (fuel + 1) left out ((byte :: tail) ++ others) =
            decodeHeaders fuel (left - headerSize header) (out ++ [lowered header]) others := by
          show (decodeHeader ((byte :: tail) ++ others) >>= fun read =>
            if left < headerSize read.1 then throw .headerListTooLarge
            else decodeHeaders fuel (left - headerSize read.1) (out ++ [read.1]) read.2) = _
          rw [reads others, ok_bind, headerSize_lowered, if_neg (by omega)]
        rw [turned, onward, List.map_cons, List.append_assoc]
        rfl

/-- Decoding an encoded list of headers gives the list, with the names in lower case. -/
theorem roundTrip_headers {headers : List Header} {outLen maxSize : Nat} {block : Bytes}
    (encoded : encode headers outLen = .ok block) (limit : listSize headers ≤ maxSize) :
    decode block maxSize = .ok (headers.map lowered) := by
  -- The required insert count and the base take a byte each.
  obtain ⟨count, countTail, -, putsCount, readsCount⟩ := @encodeInt_spec 0 8 0 (by decide) (by decide) (Nat.zero_le _)
  obtain ⟨base, baseTail, -, putsBase, readsBase⟩ := @encodeInt_spec 0 7 0 (by decide) (by decide) (Nat.zero_le _)
  unfold encode at encoded
  cases ran : encodeBlock headers ⟨[], outLen⟩ with
  | error error =>
    rw [ran] at encoded
    cases encoded
  | ok result =>
    rw [ran] at encoded
    obtain ⟨⟨⟩, first, wroteCount, ran⟩ := bind_eq_ok.mp ran
    obtain ⟨⟨⟩, second, wroteBase, wroteHeaders⟩ := bind_eq_ok.mp ran
    obtain ⟨-, rfl⟩ := Prod.mk.inj (putsCount.eq_of_ok wroteCount).2
    obtain ⟨-, rfl⟩ := Prod.mk.inj (putsBase.eq_of_ok wroteBase).2
    obtain ⟨bytes, rfl, long, decodes⟩ := encodeHeaders_eq_ok wroteHeaders
    cases encoded
    simp only [Output.push, List.nil_append, List.append_assoc]
    unfold decode
    rw [readsCount, ok_bind]
    simp only
    rw [readsBase, ok_bind]
    simp only
    rw [decodes _ _ _ long limit]
    rfl

/-- Headers that stand in the table whole, by their name and not at all; the first one is not in lower case. -/
def threeHeaders : List Header :=
  [(ascii ":StAtUs", ascii "200"), (ascii ":path", ascii "/a"), (ascii "X-a", ascii "~")]

/-- The value of the second header and the name of the third one are Huffman-encoded, the last value is not. -/
theorem roundTrip_threeHeaders :
    encode threeHeaders 13 = .ok [0, 0, 217, 81, 130, 96, 127, 43, 242, 176, 255, 1, 126] ∧
      decode [0, 0, 217, 81, 130, 96, 127, 43, 242, 176, 255, 1, 126] 21 =
        .ok [(ascii ":status", ascii "200"), (ascii ":path", ascii "/a"), (ascii "x-a", ascii "~")] := by
  have encoded : encode threeHeaders 13 = .ok [0, 0, 217, 81, 130, 96, 127, 43, 242, 176, 255, 1, 126] := by
    decide +kernel
  refine ⟨encoded, (roundTrip_headers encoded (by decide)).trans ?_⟩
  decide

end Headers

end Qpack

end Flexicast
