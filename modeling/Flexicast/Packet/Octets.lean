import Flexicast.Lib.Words
import Flexicast.Lib.Cursor

/-! The byte buffers of `octets/src/lib.rs`: integers in network order and variable-length integers. -/

namespace Flexicast

/-- How reading or writing a packet ends early. -/
inductive WireError where
  /-- Too few bytes are left. -/
  | bufferTooShort
  | invalidFrame
  /-- A frame is not allowed in the packet, or the packet is malformed. -/
  | invalidPacket
  | cryptoFail
  /-- The program panics: a failed unwrap, an overflow or a value out of range. -/
  | panicked
  deriving DecidableEq, Repr

namespace Octets

open Cursor Words

/-- Reads from the bytes of `Octets` from its offset on. -/
abbrev Reader := Cursor.Reader WireError UInt8

/-- Writes into an `OctetsMut`. -/
abbrev Writer := Cursor.Writer WireError UInt8

/-- The number of bytes left. -/
def cap : Reader Nat := fun input => .ok (input.length, input)

/-- The next byte, without taking it. -/
def peekU8 : Reader UInt8
  | [] => .error .bufferTooShort
  | byte :: rest => .ok (byte, byte :: rest)

/-- Takes an unsigned integer of some bytes in network order. -/
def getU (width : Nat) : Reader Nat := fun input =>
  if input.length < width then .error .bufferTooShort
  else .ok (ofBigEndian (input.take width), input.drop width)

def getU8 : Reader UInt8
  | [] => .error .bufferTooShort
  | byte :: rest => .ok (byte, rest)

def getU16 : Reader UInt16 := do return UInt16.ofNat (← getU 2)

def getU32 : Reader Nat := getU 4

def getU64 : Reader UInt64 := do return UInt64.ofNat (← getU 8)

/-- How long a variable-length integer is, given its first byte. -/
def varintParseLen (first : UInt8) : Nat :=
  match (first >>> 6).toNat with
  | 0 => 1
  | 1 => 2
  | 2 => 4
  | _ => 8

/-- Takes a variable-length integer. -/
def getVarint : Reader Nat := do
  let first ← peekU8
  let len := varintParseLen first
  let left ← cap
  if left < len then throw .bufferTooShort else
  match len with
  | 1 => getU 1
  | 2 => return (← getU 2) &&& 0x3fff
  | 4 => return (← getU 4) &&& 0x3fffffff
  | 8 => return (← getU 8) &&& 0x3fffffffffffffff
  | _ => throw .panicked

/-- Takes some bytes. -/
def getBytes (len : Nat) : Reader (List UInt8) := fun input =>
  if input.length < len then .error .bufferTooShort
  else .ok (input.take len, input.drop len)

/-- Takes some bytes whose number stands before them in one byte. -/
def getBytesWithU8Length : Reader (List UInt8) := do
  let len ← getU8
  getBytes len.toNat

/-- Takes some bytes whose number stands before them as a variable-length integer. -/
def getBytesWithVarintLength : Reader (List UInt8) := do
  let len ← getVarint
  getBytes len

/-- Writes bytes if they fit. -/
def putBytes (bytes : List UInt8) : Writer Unit := fun output =>
  if output.cap < bytes.length then .error .bufferTooShort
  else .ok ((), output.push bytes)

def putU8 (value : UInt8) : Writer Unit := putBytes [value]

def putU16 (value : UInt16) : Writer Unit := putBytes (toBigEndian 2 value.toNat)

def putU32 (value : Nat) : Writer Unit := putBytes (toBigEndian 4 value)

def putU64 (value : UInt64) : Writer Unit := putBytes (toBigEndian 8 value.toNat)

/-- How many bytes a variable-length integer takes; a larger one is unreachable. -/
def varintLen (value : Nat) : Except WireError Nat :=
  if value ≤ 63 then .ok 1
  else if value ≤ 16383 then .ok 2
  else if value ≤ 1073741823 then .ok 4
  else if value ≤ 4611686018427387903 then .ok 8
  else .error .panicked

/-- Sets bits of the first byte. -/
def markFirst (mask : UInt8) : List UInt8 → List UInt8
  | [] => []
  | byte :: rest => (byte ||| mask) :: rest

/-- Writes a variable-length integer of a given length: the low bytes with the length marked. -/
def putVarintWithLen (value len : Nat) : Writer Unit := fun output =>
  if output.cap < len then .error .bufferTooShort else
  match len with
  | 1 => putBytes (toBigEndian 1 value) output
  | 2 => putBytes (markFirst 0x40 (toBigEndian 2 value)) output
  | 4 => putBytes (markFirst 0x80 (toBigEndian 4 value)) output
  | 8 => putBytes (markFirst 0xc0 (toBigEndian 8 value)) output
  | _ => .error .panicked

/-- Writes a variable-length integer of the smallest length. -/
def putVarint (value : Nat) : Writer Unit := do
  let len ← varintLen value
  putVarintWithLen value len

section Reading

theorem getBytes_eq_ok {len : Nat} {input bytes rest : List UInt8} :
    getBytes len input = .ok (bytes, rest) ↔ input = bytes ++ rest ∧ bytes.length = len := by
  -- The bytes that are taken and those that are left make up the input.
  unfold getBytes
  constructor
  · intro ran
    split at ran
    · cases ran
    · rename_i enough
      obtain ⟨rfl, rfl⟩ := Prod.mk.inj (Except.ok.inj ran)
      exact ⟨(List.take_append_drop len input).symm, List.length_take_of_le (Nat.le_of_not_lt enough)⟩
  · intro split_
    obtain ⟨rfl, rfl⟩ := split_
    rw [if_neg (by simp), List.take_left, List.drop_left]

theorem getU8_eq_ok {input rest : List UInt8} {byte : UInt8} :
    getU8 input = .ok (byte, rest) ↔ input = byte :: rest := by
  cases input with
  | nil => simp [getU8]
  | cons head tail => simp [getU8]

/-- An integer is taken from that many bytes. -/
theorem getU_eq_ok {width value : Nat} {input rest : List UInt8} :
    getU width input = .ok (value, rest) ↔
      ∃ bytes, input = bytes ++ rest ∧ bytes.length = width ∧ value = ofBigEndian bytes := by
  constructor
  · intro ran
    -- A short input is refused, so the bytes of the integer are there.
    unfold getU at ran
    split at ran
    · cases ran
    · rename_i enough
      obtain ⟨rfl, rfl⟩ := Prod.mk.inj (Except.ok.inj ran)
      exact ⟨input.take width, (List.take_append_drop width input).symm,
        List.length_take_of_le (Nat.le_of_not_lt enough), rfl⟩
  · intro parts
    obtain ⟨bytes, rfl, rfl, rfl⟩ := parts
    unfold getU
    rw [if_neg (by simp), List.take_left, List.drop_left]

/-- The encodings of a variable-length integer, the shortest or not. -/
structure IsVarint (bytes : List UInt8) (value : Nat) : Prop where
  length : ∃ first rest, bytes = first :: rest ∧ bytes.length = varintParseLen first
  /-- The value is what stands behind the two bits of the length. -/
  value : value = ofBigEndian bytes % 2 ^ (8 * bytes.length - 2)

theorem varintParseLen_cases (first : UInt8) :
    (varintParseLen first = 1 ∧ first.toNat < 64) ∨ varintParseLen first = 2 ∨
      varintParseLen first = 4 ∨ varintParseLen first = 8 := by
  -- The two high bits of the first byte are what is left of it when divided by 64.
  have shifted : (first >>> 6).toNat = first.toNat / 64 := by
    simp [UInt8.toNat_shiftRight, Nat.shiftRight_eq_div_pow]
  unfold varintParseLen
  rw [shifted]
  split
  · rename_i low
    left
    exact ⟨rfl, by omega⟩
  · exact Or.inr (Or.inl rfl)
  · exact Or.inr (Or.inr (Or.inl rfl))
  · exact Or.inr (Or.inr (Or.inr rfl))

/-- An integer is read by taking as many bytes as the first one says. -/
theorem getVarint_cons (first : UInt8) (tail : List UInt8) :
    getVarint (first :: tail) =
      if (first :: tail).length < varintParseLen first then .error .bufferTooShort
      else .ok (ofBigEndian ((first :: tail).take (varintParseLen first)) %
          2 ^ (8 * varintParseLen first - 2), (first :: tail).drop (varintParseLen first)) := by
  -- The first byte is only looked at, and is then read again with the others.
  have start : peekU8 (first :: tail) = .ok (first, first :: tail) := rfl
  have left : cap (first :: tail) = .ok ((first :: tail).length, first :: tail) := rfl
  unfold getVarint
  rw [bind_ok start, bind_ok left]
  split
  · rfl
  · rename_i enough
    have taken : getU (varintParseLen first) (first :: tail) =
        .ok (ofBigEndian ((first :: tail).take (varintParseLen first)),
          (first :: tail).drop (varintParseLen first)) := if_neg enough
    -- Masking with all ones below the two bits of the length is a remainder.
    have low (bits number : Nat) : number &&& (2 ^ bits - 1) = number % 2 ^ bits :=
      Nat.and_two_pow_sub_one_eq_mod number bits
    rcases varintParseLen_cases first with ⟨len, small⟩ | len | len | len
    · -- One byte has no bits to mask, since the tag of its length is zero.
      rw [len] at taken ⊢
      have : ofBigEndian ((first :: tail).take 1) = first.toNat := by simp [ofBigEndian]
      rw [this] at taken ⊢
      rw [Nat.mod_eq_of_lt (by omega)]
      exact taken
    · rw [len] at taken ⊢
      exact (bind_ok taken).trans (congrArg (fun value => Except.ok (value, _)) (low 14 _))
    · rw [len] at taken ⊢
      exact (bind_ok taken).trans (congrArg (fun value => Except.ok (value, _)) (low 30 _))
    · rw [len] at taken ⊢
      exact (bind_ok taken).trans (congrArg (fun value => Except.ok (value, _)) (low 62 _))

theorem getVarint_nil : getVarint [] = .error .bufferTooShort := rfl

/-- An integer is read exactly where the input starts with one of its encodings. -/
theorem getVarint_eq_ok {input rest : List UInt8} {value : Nat} :
    getVarint input = .ok (value, rest) ↔ ∃ bytes, input = bytes ++ rest ∧ IsVarint bytes value := by
  constructor
  · intro ran
    cases input with
    | nil => cases ran
    | cons first tail =>
      rw [getVarint_cons] at ran
      split at ran
      · cases ran
      · rename_i enough
        obtain ⟨rfl, rfl⟩ := Prod.mk.inj (Except.ok.inj ran)
        have long := List.length_take_of_le (Nat.le_of_not_lt enough)
        -- The bytes that were taken start with the first one, which gives their number.
        refine ⟨(first :: tail).take (varintParseLen first), (List.take_append_drop _ _).symm, ?_, ?_⟩
        · rcases varintParseLen_cases first with ⟨len, -⟩ | len | len | len <;>
            exact ⟨first, _, by rw [len]; rfl, long⟩
        · rw [long]
  · intro parts
    -- An encoding carries its length, so what follows it does not matter.
    obtain ⟨bytes, rfl, ⟨first, tail, shape, long⟩, rfl⟩ := parts
    subst shape
    rw [List.cons_append, getVarint_cons, ← List.cons_append, ← long]
    rw [if_neg (by simp), List.take_left, List.drop_left]

end Reading

section Varints

/-- The bytes of a variable-length integer of a given length. -/
def varintBytes (len value : Nat) : List UInt8 :=
  match len with
  | 1 => toBigEndian 1 value
  | 2 => markFirst 0x40 (toBigEndian 2 value)
  | 4 => markFirst 0x80 (toBigEndian 4 value)
  | 8 => markFirst 0xc0 (toBigEndian 8 value)
  | _ => []

theorem or_tag {digit tag : Nat} (small : digit < 64) (two : tag < 4) :
    (UInt8.ofNat digit ||| UInt8.ofNat (64 * tag)).toNat = 64 * tag + digit := by
  -- There are few enough digits and tags to try them all.
  have all : ∀ digit < 64, ∀ tag < 4,
      (UInt8.ofNat digit ||| UInt8.ofNat (64 * tag)).toNat = 64 * tag + digit := by decide
  exact all digit small tag two

/-- The value and the tag of a marked integer. -/
theorem markFirst_spec {width value tag : Nat} (small : value < 64 * 256 ^ width) (two : tag < 4) :
    ∃ first rest, markFirst (UInt8.ofNat (64 * tag)) (toBigEndian (width + 1) value) = first :: rest ∧
      (first :: rest).length = width + 1 ∧ first.toNat / 64 = tag ∧
      ofBigEndian (first :: rest) = tag * (64 * 256 ^ width) + value := by
  -- The value fills at most six bits of its first byte.
  have digit : value / 256 ^ width < 64 := (Nat.div_lt_iff_lt_mul (Nat.pow_pos (by decide))).mpr small
  refine ⟨_, _, rfl, by rw [List.length_cons, length_toBigEndian], ?_, ?_⟩
  · rw [or_tag digit two]
    generalize value / 256 ^ width = digits at digit
    omega
  · rw [ofBigEndian, or_tag digit two, length_toBigEndian, ofBigEndian_toBigEndian]
    -- The low digits are the remainder that the first digit leaves.
    calc (64 * tag + value / 256 ^ width) * 256 ^ width + value % 256 ^ width
        = 64 * tag * 256 ^ width + (256 ^ width * (value / 256 ^ width) + value % 256 ^ width) := by
          rw [Nat.add_mul, Nat.add_assoc, Nat.mul_comm (value / 256 ^ width)]
      _ = tag * (64 * 256 ^ width) + value := by
          rw [Nat.div_add_mod, Nat.mul_comm 64 tag, Nat.mul_assoc]

/-- The length that a tag stands for. -/
def taggedLen : Nat → Nat
  | 0 => 1
  | 1 => 2
  | 2 => 4
  | _ => 8

theorem varintParseLen_eq (first : UInt8) : varintParseLen first = taggedLen (first.toNat / 64) := by
  -- Shifting by six bits is dividing by 64.
  have shifted : (first >>> 6).toNat = first.toNat / 64 := by
    simp [UInt8.toNat_shiftRight, Nat.shiftRight_eq_div_pow]
  unfold varintParseLen
  rw [shifted]
  rfl

theorem isVarint_mark {width value tag : Nat} (small : value < 64 * 256 ^ width) (two : tag < 4)
    (len : taggedLen tag = width + 1) :
    IsVarint (markFirst (UInt8.ofNat (64 * tag)) (toBigEndian (width + 1) value)) value := by
  -- The tag stands above all digits, so the remainder drops it.
  obtain ⟨first, rest, shape, long, tagged, number⟩ := markFirst_spec small two
  rw [shape]
  refine ⟨⟨first, rest, rfl, by rw [long, varintParseLen_eq, tagged, len]⟩, ?_⟩
  have span : 2 ^ (8 * (width + 1) - 2) = 64 * 256 ^ width := by
    rw [show 8 * (width + 1) - 2 = 6 + 8 * width by omega, Nat.pow_add, Nat.pow_mul]
  rw [number, long, span, Nat.mul_add_mod', Nat.mod_eq_of_lt small]

theorem markFirst_zero (bytes : List UInt8) : markFirst 0 bytes = bytes := by
  cases bytes with
  | nil => rfl
  | cons byte rest => simp [markFirst]

/-- The lengths that an integer can be written in. -/
def VarintLen (len : Nat) : Prop := len = 1 ∨ len = 2 ∨ len = 4 ∨ len = 8

theorem isVarint_varintBytes {len value : Nat} (allowed : VarintLen len)
    (small : value < 2 ^ (8 * len - 2)) : IsVarint (varintBytes len value) value := by
  -- Each length is an instance of the marked integer with its own tag.
  rcases allowed with rfl | rfl | rfl | rfl
  · have := @isVarint_mark 0 value 0 small (by decide) rfl
    rwa [show UInt8.ofNat (64 * 0) = 0 from rfl, markFirst_zero] at this
  · exact @isVarint_mark 1 value 1 small (by decide) rfl
  · exact @isVarint_mark 3 value 2 small (by decide) rfl
  · exact @isVarint_mark 7 value 3 small (by decide) rfl

theorem length_markFirst (mask : UInt8) (bytes : List UInt8) :
    (markFirst mask bytes).length = bytes.length := by
  cases bytes <;> rfl

theorem length_varintBytes {len value : Nat} (allowed : VarintLen len) :
    (varintBytes len value).length = len := by
  rcases allowed with rfl | rfl | rfl | rfl <;>
    simp [varintBytes, length_markFirst]

/-- The smallest length holds the integer. -/
theorem varintLen_eq_ok {value len : Nat} (chosen : varintLen value = .ok len) :
    VarintLen len ∧ value < 2 ^ (8 * len - 2) := by
  -- The cases are those of the source, from the shortest length up.
  unfold varintLen at chosen
  unfold VarintLen
  split at chosen
  · cases chosen
    exact ⟨Or.inl rfl, by omega⟩
  split at chosen
  · cases chosen
    exact ⟨Or.inr (Or.inl rfl), by omega⟩
  split at chosen
  · cases chosen
    exact ⟨Or.inr (Or.inr (Or.inl rfl)), by omega⟩
  split at chosen
  · cases chosen
    exact ⟨Or.inr (Or.inr (Or.inr rfl)), by omega⟩
  · cases chosen

end Varints

section Fields

/-- A part of an encoding: an integer in the smallest length, one in two bytes, or plain bytes. -/
inductive Field where
  | varint (value : Nat)
  | varint2 (value : Nat)
  | raw (bytes : List UInt8)

/-- The bytes of a part. -/
def Field.bytes : Field → List UInt8
  | varint value => match varintLen value with
    | .ok len => varintBytes len value
    | .error _ => []
  | varint2 value => varintBytes 2 value
  | raw bytes => bytes

/-- How a part is written. -/
def Field.put : Field → Writer Unit
  | varint value => putVarint value
  | varint2 value => putVarintWithLen value 2
  | raw bytes => putBytes bytes

/-- Whether a part can be written, given the room. -/
def Field.Valid : Field → Prop
  | varint value => value < 2 ^ 62
  | varint2 _ => True
  | raw _ => True

/-- Writes parts one after another. -/
def putFields : List Field → Writer Unit
  | [] => pure ()
  | field :: rest => do
    field.put
    putFields rest

/-- The bytes of parts one after another. -/
def encode : List Field → List UInt8
  | [] => []
  | field :: rest => field.bytes ++ encode rest

theorem putBytes_ok {bytes : List UInt8} {output later : Output UInt8} {done : Unit}
    (wrote : putBytes bytes output = .ok (done, later)) :
    bytes.length ≤ output.cap ∧ later = output.push bytes := by
  unfold putBytes at wrote
  split at wrote
  · cases wrote
  · rename_i fits
    exact ⟨Nat.le_of_not_lt fits, (Prod.mk.inj (Except.ok.inj wrote)).2.symm⟩

theorem putVarintWithLen_eq {value len : Nat} (allowed : VarintLen len) (output : Output UInt8) :
    putVarintWithLen value len output = putBytes (varintBytes len value) output := by
  -- The check for room comes first, and is the one that writing the bytes makes.
  have long := @length_varintBytes len value allowed
  unfold putVarintWithLen
  split
  · rename_i short
    unfold putBytes
    rw [long, if_pos short]
  · rcases allowed with rfl | rfl | rfl | rfl <;> rfl

/-- A part that was written is valid and took its own bytes. -/
theorem Field.put_ok {field : Field} {output later : Output UInt8} {done : Unit}
    (wrote : field.put output = .ok (done, later)) :
    field.Valid ∧ field.bytes.length ≤ output.cap ∧ later = output.push field.bytes := by
  cases field with
  | varint value =>
    obtain ⟨len, middle, chosen, wrote⟩ := bind_eq_ok.mp wrote
    cases sized : varintLen value with
    | error error =>
      rw [sized] at chosen
      cases chosen
    | ok size =>
      rw [sized] at chosen
      obtain ⟨rfl, rfl⟩ := Prod.mk.inj (Except.ok.inj chosen)
      -- A length was found, so the integer has at most 62 bits.
      obtain ⟨allowed, small⟩ := varintLen_eq_ok sized
      rw [putVarintWithLen_eq allowed] at wrote
      have bytes : (Field.varint value).bytes = varintBytes size value := by
        simp only [Field.bytes, sized]
      rw [bytes]
      refine ⟨Nat.lt_of_lt_of_le small (Nat.pow_le_pow_right (by decide) ?_), putBytes_ok wrote⟩
      rcases allowed with rfl | rfl | rfl | rfl <;> decide
  | varint2 value =>
    refine ⟨trivial, @putBytes_ok _ _ _ done ?_⟩
    exact (putVarintWithLen_eq (Or.inr (Or.inl rfl)) output).symm.trans wrote
  | raw bytes => exact ⟨trivial, putBytes_ok wrote⟩

/-- Parts that were written are valid and took their bytes one after another. -/
theorem putFields_ok {fields : List Field} :
    ∀ {output later : Output UInt8} {done : Unit}, putFields fields output = .ok (done, later) →
      (∀ field ∈ fields, field.Valid) ∧ (encode fields).length ≤ output.cap ∧
        later = output.push (encode fields) := by
  -- The induction follows the parts; each one pushes its bytes and leaves less room.
  induction fields with
  | nil =>
    intro output later done wrote
    have same := (Prod.mk.inj (Except.ok.inj wrote)).2
    exact ⟨List.forall_mem_nil _, Nat.zero_le _, same.symm.trans (Output.push_nil output).symm⟩
  | cons field rest ih =>
    intro output later done wrote
    obtain ⟨_, middle, first, others⟩ := bind_eq_ok.mp wrote
    obtain ⟨valid, fits, rfl⟩ := Field.put_ok first
    obtain ⟨valids, fit, rfl⟩ := ih others
    refine ⟨List.forall_mem_cons.mpr ⟨valid, valids⟩, ?_, ?_⟩
    · rw [encode, List.length_append]
      have : (output.push field.bytes).cap = output.cap - field.bytes.length := rfl
      omega
    · rw [encode, Output.push_push]

theorem encode_append (front back : List Field) : encode (front ++ back) = encode front ++ encode back := by
  induction front with
  | nil => rfl
  | cons field rest ih => rw [List.cons_append, encode, encode, ih, List.append_assoc]

theorem putFields_append (front back : List Field) :
    putFields (front ++ back) = (do putFields front; putFields back) := by
  -- Sequencing is associative.
  induction front with
  | nil => exact (pure_bind () fun _ => putFields back).symm
  | cons field rest ih =>
    rw [List.cons_append, putFields, ih, putFields, bind_assoc]

/-- The length of a valid integer is the one that the source computes. -/
theorem varintLen_eq {value : Nat} (small : value < 2 ^ 62) :
    varintLen value = .ok (Field.varint value).bytes.length := by
  cases chosen : varintLen value with
  | error error =>
    simp only [varintLen] at chosen
    -- Only an integer of more than 62 bits has no length.
    split at chosen
    · cases chosen
    split at chosen
    · cases chosen
    split at chosen
    · cases chosen
    split at chosen
    · cases chosen
    · omega
  | ok len =>
    have bytes : (Field.varint value).bytes = varintBytes len value := by simp only [Field.bytes, chosen]
    rw [bytes, length_varintBytes (varintLen_eq_ok chosen).1]

/-- A part that is valid is written where there is room for it. -/
theorem puts_field {field : Field} (valid : field.Valid) : Puts field.put field.bytes () := by
  have bytes (items : List UInt8) : Puts (putBytes items) items () := by
    intro output
    unfold putBytes
    exact ⟨fun room => if_neg (Nat.not_lt.mpr room), fun full => ⟨_, if_pos full⟩⟩
  cases field with
  | varint value =>
    cases chosen : varintLen value with
    | error error => exact absurd (chosen.symm.trans (varintLen_eq valid)) (fun same => nomatch same)
    | ok len =>
      obtain ⟨allowed, -⟩ := varintLen_eq_ok chosen
      intro output
      have start : (liftM (varintLen value) : Writer Nat) output = .ok (len, output) := by
        rw [chosen]
        rfl
      have same : (Field.varint value).bytes = varintBytes len value := by simp only [Field.bytes, chosen]
      have written : (Field.varint value).put output = putBytes (varintBytes len value) output := by
        show putVarint value output = _
        unfold putVarint
        rw [bind_ok start, putVarintWithLen_eq allowed]
      rw [written, same]
      exact bytes _ output
  | varint2 value =>
    intro output
    rw [show (Field.varint2 value).put output = putBytes (varintBytes 2 value) output from
      putVarintWithLen_eq (Or.inr (Or.inl rfl)) output]
    exact bytes _ output
  | raw items => exact bytes items

theorem puts_fields {fields : List Field} (valid : ∀ field ∈ fields, field.Valid) :
    Puts (putFields fields) (encode fields) () := by
  induction fields with
  | nil => exact Puts.pure ()
  | cons field rest ih =>
    obtain ⟨first, others⟩ := List.forall_mem_cons.mp valid
    exact (puts_field first).bind (ih others)

end Fields

section RoundTrips

theorem reads_varint {value : Nat} (small : value < 2 ^ 62) :
    Reads getVarint (Field.varint value).bytes value := by
  intro rest
  have chosen := varintLen_eq small
  generalize (Field.varint value).bytes.length = len at chosen
  obtain ⟨allowed, fits⟩ := varintLen_eq_ok chosen
  refine getVarint_eq_ok.mpr ⟨_, rfl, ?_⟩
  simp only [Field.bytes, chosen]
  exact isVarint_varintBytes allowed fits

theorem reads_varint2 {value : Nat} (small : value < 2 ^ 14) :
    Reads getVarint (Field.varint2 value).bytes value := by
  intro rest
  exact getVarint_eq_ok.mpr ⟨_, rfl, isVarint_varintBytes (Or.inr (Or.inl rfl)) small⟩

theorem reads_bytes (bytes : List UInt8) : Reads (getBytes bytes.length) bytes bytes := fun _ =>
  getBytes_eq_ok.mpr ⟨rfl, rfl⟩

theorem reads_u8 (byte : UInt8) : Reads getU8 [byte] byte := fun _ => rfl

theorem reads_u (width value : Nat) :
    Reads (getU width) (toBigEndian width value) (value % 256 ^ width) := fun _ =>
  getU_eq_ok.mpr ⟨_, rfl, length_toBigEndian width value, (ofBigEndian_toBigEndian width value).symm⟩

theorem reads_u16 (value : UInt16) : Reads getU16 (toBigEndian 2 value.toNat) value := by
  intro rest
  have small : value.toNat < 256 ^ 2 := value.toNat_lt
  rw [getU16, bind_ok (reads_u 2 value.toNat rest), Nat.mod_eq_of_lt small, UInt16.ofNat_toNat]
  rfl

theorem reads_u64 (value : UInt64) : Reads getU64 (toBigEndian 8 value.toNat) value := by
  intro rest
  have small : value.toNat < 256 ^ 8 := value.toNat_lt
  rw [getU64, bind_ok (reads_u 8 value.toNat rest), Nat.mod_eq_of_lt small, UInt64.ofNat_toNat]
  rfl

end RoundTrips

section Leaving

end Leaving

section Yielding

/-- No slice is longer than `isize::MAX`. -/
def maxSliceLen : Nat := 2 ^ 63

/-- Integers are read without a panic and stay below their bound. -/
theorem getVarint_yields : Yields .panicked maxSliceLen getVarint (· < 2 ^ 62) := by
  intro input _
  constructor
  · cases input with
    | nil => rw [getVarint_nil]; decide
    | cons first tail =>
      rw [getVarint_cons]
      split
      · decide
      · intro failed
        cases failed
  · intro value rest ran
    obtain ⟨bytes, rfl, ⟨first, tail, rfl, long⟩, rfl⟩ := getVarint_eq_ok.mp ran
    constructor
    · rw [List.length_append]
      exact Nat.le_add_left _ _
    · refine Nat.lt_of_lt_of_le (Nat.mod_lt _ (Nat.pow_pos (by decide))) ?_
      apply Nat.pow_le_pow_right (by decide)
      rw [long]
      rcases varintParseLen_cases first with ⟨len, -⟩ | len | len | len <;> rw [len] <;> decide

theorem getVarint_shortens {input rest : List UInt8} {value : Nat}
    (ran : getVarint input = .ok (value, rest)) : rest.length < input.length := by
  obtain ⟨bytes, rfl, ⟨first, tail, rfl, -⟩, -⟩ := getVarint_eq_ok.mp ran
  rw [List.length_append, List.length_cons]
  omega

theorem getBytes_yields (len : Nat) : Yields .panicked maxSliceLen (getBytes len) (·.length = len) := by
  intro input _
  constructor
  · unfold getBytes
    split
    · decide
    · intro failed
      cases failed
  · intro bytes rest ran
    obtain ⟨rfl, long⟩ := getBytes_eq_ok.mp ran
    exact ⟨by simp, long⟩

theorem getU8_yields : Yields .panicked maxSliceLen getU8 (fun _ => True) := by
  intro input _
  constructor
  · cases input with
    | nil => decide
    | cons byte rest => exact fun failed => nomatch failed
  · intro byte rest ran
    rw [getU8_eq_ok.mp ran]
    exact ⟨Nat.le_succ _, trivial⟩

theorem getU_yields (width : Nat) : Yields .panicked maxSliceLen (getU width) (fun _ => True) := by
  intro input _
  constructor
  · unfold getU
    split
    · decide
    · intro failed
      cases failed
  · intro value rest ran
    obtain ⟨bytes, rfl, -, -⟩ := getU_eq_ok.mp ran
    exact ⟨by simp, trivial⟩

theorem cap_yields : Yields .panicked maxSliceLen cap (· < maxSliceLen) := by
  intro input short
  refine ⟨fun failed => (nomatch failed), ?_⟩
  intro value rest ran
  obtain ⟨rfl, rfl⟩ := Prod.mk.inj (Except.ok.inj ran)
  exact ⟨Nat.le_refl _, short⟩

theorem getU16_yields : Yields .panicked maxSliceLen getU16 (fun _ => True) :=
  (getU_yields 2).bind fun _ _ => Yields.pure trivial

theorem getU64_yields : Yields .panicked maxSliceLen getU64 (fun _ => True) :=
  (getU_yields 8).bind fun _ _ => Yields.pure trivial

theorem getBytesWithU8Length_yields : Yields .panicked maxSliceLen getBytesWithU8Length (fun _ => True) :=
  getU8_yields.bind fun len _ => (getBytes_yields len.toNat).imp fun _ _ => trivial

theorem getBytesWithVarintLength_yields : Yields .panicked maxSliceLen getBytesWithVarintLength (fun _ => True) :=
  getVarint_yields.bind fun len _ => (getBytes_yields len).imp fun _ _ => trivial

end Yielding

end Octets

end Flexicast
