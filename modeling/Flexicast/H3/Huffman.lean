import Flexicast.H3.HuffmanTable
import Flexicast.Packet.Octets
import Flexicast.Stream.RangeBuf

/-! Huffman coding of header strings, from `h3/qpack/huffman/mod.rs`. -/

namespace Flexicast

open Octets hiding Reader Writer

/-- A QPACK error. -/
inductive QpackError where
  | bufferTooShort
  /-- The string would be larger after Huffman encoding. -/
  | inflatedHuffmanEncoding
  | invalidHuffmanEncoding
  | invalidStaticTableIndex
  /-- The decoded name or value is not valid. -/
  | invalidHeaderValue
  /-- The decoded header list exceeds the size limit. -/
  | headerListTooLarge
  /-- The program panics: an overflow or an index out of range. -/
  | panicked
  deriving DecidableEq

namespace Qpack

/-- Reads from the bytes of a header block. -/
abbrev Reader := Cursor.Reader QpackError UInt8

/-- Writes into a header block. -/
abbrev Writer := Cursor.Writer QpackError UInt8

/-- The error of the byte buffers becomes that of a buffer that is too short. -/
def fromOctets {σ α : Type} (inner : StateT σ (Except WireError) α) : StateT σ (Except QpackError) α :=
  fun state => (inner state).mapError fun _ => .bufferTooShort

end Qpack

namespace Huffman

open Qpack

/-- The lower-case form of an ASCII letter; other bytes stay. -/
def toAsciiLowercase (byte : UInt8) : UInt8 := if 65 ≤ byte ∧ byte ≤ 90 then byte + 32 else byte

/-- A byte as it is encoded. -/
def cased (lowerCase : Bool) (byte : UInt8) : UInt8 := if lowerCase then toAsciiLowercase byte else byte

/-- The entry of a byte in the table, which has one for every byte. -/
def entry (byte : UInt8) : Nat × Nat := encodeTable.getD byte.toNat (0, 0)

/-- A shift to the left in 64 bits. -/
def shl64 (value amount : Nat) : Nat := (value <<< amount) % 2 ^ 64

/-- The loop of `encode`, with the bits that were not written yet at the top of a word. -/
def encodeLoop (lowerCase : Bool) : Bytes → Nat → Nat → Writer (Nat × Nat)
  | [], bits, pending => return (bits, pending)
  | byte :: rest, bits, pending => do
    let (nbits, code) := entry (cased lowerCase byte)
    let pending := pending + nbits
    if pending < 64 then
      -- There is room for the whole symbol.
      encodeLoop lowerCase rest (bits ||| shl64 code (64 - pending)) pending
    else
      let pending := pending - 64
      fromOctets (putU64 (UInt64.ofNat (bits ||| code >>> pending)))
      encodeLoop lowerCase rest (if pending = 0 then 0 else shl64 code (64 - pending)) pending

/-- Writes the low bits of a word, a byte at a time. -/
def putLow (bits pending : Nat) : Writer Unit :=
  if pending = 0 then return ()
  else do
    fromOctets (putU8 (UInt8.ofNat (bits >>> (pending - 8))))
    putLow bits (pending - 8)
  termination_by pending

/-- Writes the Huffman encoding of a string, padded with ones. -/
def encode (lowerCase : Bool) (src : Bytes) : Writer Unit := do
  let (bits, pending) ← encodeLoop lowerCase src 0 0
  if pending = 0 then return ()
  else
    let bits := bits ||| maxU64 >>> pending
    let pending := (pending + 7) / 8 * 8
    let bits := bits >>> (64 - pending)
    if 32 ≤ pending then
      let pending := pending - 32
      fromOctets (putU32 (bits >>> pending))
      putLow bits pending
    else putLow bits pending

/-- The number of bits of the encoding of a string. -/
def countBits (lowerCase : Bool) : Bytes → Nat → Except QpackError Nat
  | [], bits => .ok bits
  | byte :: rest, bits =>
    let bits := bits + (entry (cased lowerCase byte)).1
    if maxU64 < bits then .error .panicked else countBits lowerCase rest bits

/-- The number of bytes of the encoding of a string, unless it is longer than the string. -/
def encodeOutputLength (lowerCase : Bool) (src : Bytes) : Except QpackError Nat := do
  let bits ← countBits lowerCase src 0
  let len := if bits &&& 7 = 0 then bits / 8 else bits / 8 + 1
  if src.length < len then throw .inflatedHuffmanEncoding else return len

/-- The state of a decoder. -/
structure Decoder where
  state : Nat
  maybeEos : Bool
  deriving DecidableEq

/-- A new decoder. -/
def Decoder.new : Decoder := ⟨0, false⟩

/-- The flag of an entry after which the string may end. -/
def maybeEosFlag : UInt8 := 1

/-- The flag of an entry that gives a byte. -/
def decodedFlag : UInt8 := 2

/-- The flag of an entry behind the end of a string. -/
def errorFlag : UInt8 := 4

/-- Decodes four bits. -/
def Decoder.decode4 (decoder : Decoder) (input : UInt8) : Except QpackError (Option UInt8 × Decoder) :=
  match decodeTable[decoder.state]?.bind (·[input.toNat]?) with
  | none => .error .panicked
  | some (next, byte, flags) =>
    if flags &&& errorFlag = errorFlag then .error .invalidHuffmanEncoding
    else
      .ok (if flags &&& decodedFlag = decodedFlag then some byte else none,
        ⟨next, flags &&& maybeEosFlag = maybeEosFlag⟩)

/-- The string may end here. -/
def Decoder.isFinal (decoder : Decoder) : Bool := decoder.state == 0 || decoder.maybeEos

/-- The loop of `decode`. -/
def decodeLoop : Bytes → Decoder → Bytes → Except QpackError (Bytes × Decoder)
  | [], decoder, out => .ok (out, decoder)
  | byte :: rest, decoder, out => do
    let (high, decoder) ← decoder.decode4 (byte >>> 4)
    let out := out ++ high.toList
    let (low, decoder) ← decoder.decode4 (byte &&& 0xf)
    let out := out ++ low.toList
    decodeLoop rest decoder out

/-- Decodes a string. -/
def decode (src : Bytes) : Except QpackError Bytes := do
  let (out, decoder) ← decodeLoop src Decoder.new []
  if decoder.isFinal then return out else throw .invalidHuffmanEncoding

end Huffman

end Flexicast
