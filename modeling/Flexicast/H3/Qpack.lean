import Flexicast.H3.Huffman

/-! Header compression without a dynamic table, from `h3/qpack/encoder.rs` and `h3/qpack/decoder.rs`. -/

namespace Flexicast

/-- A header field: its name and its value. -/
abbrev Header := Bytes × Bytes

namespace Qpack

open Huffman
open Octets hiding Reader Writer

/-- The bytes of a string literal. -/
def ascii (text : String) : Bytes := text.toUTF8.data.toList

/-- The names by their length, with their values and the indexes of both. -/
def staticEncodeTable : List (List (Bytes × List (Bytes × Nat))) :=
  let table : List (List (String × List (String × Nat))) := [
    [],
    [],
    [],
    [("age", [("0", 2)])],
    [("etag", [("", 7)]),
     ("date", [("", 6)]),
     ("link", [("", 11)]),
     ("vary", [("accept-encoding", 59), ("origin", 60)])],
    [("range", [("bytes=0-", 55)]),
     (":path", [("/", 1)])],
    [("cookie", [("", 5)]),
     ("origin", [("", 90)]),
     ("server", [("", 92)]),
     ("accept", [("*/*", 29), ("application/dns-message", 30)])],
    [("purpose", [("prefetch", 91)]),
     ("referer", [("", 13)]),
     ("alt-svc", [("clear", 83)]),
     (":status", [("103", 24), ("200", 25), ("304", 26), ("404", 27), ("503", 28), ("100", 63), ("204", 64),
       ("206", 65), ("302", 66), ("400", 67), ("403", 68), ("421", 69), ("425", 70), ("500", 71)]),
     (":scheme", [("http", 22), ("https", 23)]),
     (":method", [("CONNECT", 15), ("DELETE", 16), ("GET", 17), ("HEAD", 18), ("OPTIONS", 19), ("POST", 20),
       ("PUT", 21)])],
    [("location", [("", 12)]),
     ("if-range", [("", 89)])],
    [("expect-ct", [("", 87)]),
     ("forwarded", [("", 88)])],
    [("user-agent", [("", 95)]),
     (":authority", [("", 0)]),
     ("set-cookie", [("", 14)]),
     ("early-data", [("1", 86)])],
    [],
    [("content-type", [("application/dns-message", 44), ("application/javascript", 45), ("application/json", 46),
       ("application/x-www-form-urlencoded", 47), ("image/gif", 48), ("image/jpeg", 49), ("image/png", 50),
       ("text/css", 51), ("text/html; charset=utf-8", 52), ("text/plain", 53), ("text/plain;charset=utf-8", 54)])],
    [("last-modified", [("", 10)]),
     ("accept-ranges", [("bytes", 32)]),
     ("authorization", [("", 84)]),
     ("if-none-match", [("", 9)]),
     ("cache-control", [("max-age=0", 36), ("max-age=2592000", 37), ("max-age=604800", 38), ("no-cache", 39),
       ("no-store", 40), ("public, max-age=31536000", 41)])],
    [("content-length", [("0", 4)])],
    [("accept-encoding", [("gzip, deflate, br", 31)]),
     ("x-forwarded-for", [("", 96)]),
     ("accept-language", [("", 72)]),
     ("x-frame-options", [("deny", 97), ("sameorigin", 98)])],
    [("content-encoding", [("br", 42), ("gzip", 43)]),
     ("x-xss-protection", [("1; mode=block", 62)])],
    [("if-modified-since", [("", 8)])],
    [],
    [("content-disposition", [("", 3)]),
     ("timing-allow-origin", [("*", 93)])],
    [],
    [],
    [("x-content-type-options", [("nosniff", 61)])],
    [("content-security-policy", [("script-src 'none'; object-src 'none'; base-uri 'none'", 85)])],
    [],
    [("upgrade-insecure-requests", [("1", 94)]),
     ("strict-transport-security", [("max-age=31536000", 56), ("max-age=31536000; includesubdomains", 57),
       ("max-age=31536000; includesubdomains; preload", 58)])],
    [],
    [("access-control-allow-origin", [("*", 35)])],
    [("access-control-allow-methods", [("get", 76), ("get, post, options", 77), ("options", 78)]),
     ("access-control-allow-headers", [("cache-control", 33), ("content-type", 34), ("*", 75)])],
    [("access-control-expose-headers", [("content-length", 79)]),
     ("access-control-request-method", [("get", 81), ("post", 82)])],
    [("access-control-request-headers", [("content-type", 80)])],
    [],
    [("access-control-allow-credentials", [("FALSE", 73), ("TRUE", 74)])]]
  table.map fun names => names.map fun name => (ascii name.1, name.2.map fun value => (ascii value.1, value.2))

/-- The fields of the static table. -/
def staticDecodeTable : List (Bytes × Bytes) :=
  let table : List (String × String) := [
    (":authority", ""), (":path", "/"), ("age", "0"), ("content-disposition", ""), ("content-length", "0"),
    ("cookie", ""), ("date", ""), ("etag", ""), ("if-modified-since", ""), ("if-none-match", ""),
    ("last-modified", ""), ("link", ""), ("location", ""), ("referer", ""), ("set-cookie", ""),
    (":method", "CONNECT"), (":method", "DELETE"), (":method", "GET"), (":method", "HEAD"), (":method", "OPTIONS"),
    (":method", "POST"), (":method", "PUT"), (":scheme", "http"), (":scheme", "https"), (":status", "103"),
    (":status", "200"), (":status", "304"), (":status", "404"), (":status", "503"), ("accept", "*/*"),
    ("accept", "application/dns-message"), ("accept-encoding", "gzip, deflate, br"), ("accept-ranges", "bytes"),
    ("access-control-allow-headers", "cache-control"), ("access-control-allow-headers", "content-type"),
    ("access-control-allow-origin", "*"), ("cache-control", "max-age=0"), ("cache-control", "max-age=2592000"),
    ("cache-control", "max-age=604800"), ("cache-control", "no-cache"), ("cache-control", "no-store"),
    ("cache-control", "public, max-age=31536000"), ("content-encoding", "br"), ("content-encoding", "gzip"),
    ("content-type", "application/dns-message"), ("content-type", "application/javascript"),
    ("content-type", "application/json"), ("content-type", "application/x-www-form-urlencoded"),
    ("content-type", "image/gif"), ("content-type", "image/jpeg"), ("content-type", "image/png"),
    ("content-type", "text/css"), ("content-type", "text/html; charset=utf-8"), ("content-type", "text/plain"),
    ("content-type", "text/plain;charset=utf-8"), ("range", "bytes=0-"),
    ("strict-transport-security", "max-age=31536000"),
    ("strict-transport-security", "max-age=31536000; includesubdomains"),
    ("strict-transport-security", "max-age=31536000; includesubdomains; preload"), ("vary", "accept-encoding"),
    ("vary", "origin"), ("x-content-type-options", "nosniff"), ("x-xss-protection", "1; mode=block"),
    (":status", "100"), (":status", "204"), (":status", "206"), (":status", "302"), (":status", "400"),
    (":status", "403"), (":status", "421"), (":status", "425"), (":status", "500"), ("accept-language", ""),
    ("access-control-allow-credentials", "FALSE"), ("access-control-allow-credentials", "TRUE"),
    ("access-control-allow-headers", "*"), ("access-control-allow-methods", "get"),
    ("access-control-allow-methods", "get, post, options"), ("access-control-allow-methods", "options"),
    ("access-control-expose-headers", "content-length"), ("access-control-request-headers", "content-type"),
    ("access-control-request-method", "get"), ("access-control-request-method", "post"), ("alt-svc", "clear"),
    ("authorization", ""), ("content-security-policy", "script-src 'none'; object-src 'none'; base-uri 'none'"),
    ("early-data", "1"), ("expect-ct", ""), ("forwarded", ""), ("if-range", ""), ("origin", ""),
    ("purpose", "prefetch"), ("server", ""), ("timing-allow-origin", "*"), ("upgrade-insecure-requests", "1"),
    ("user-agent", ""), ("x-forwarded-for", ""), ("x-frame-options", "deny"), ("x-frame-options", "sameorigin")]
  table.map fun field => (ascii field.1, ascii field.2)

section Encoder

/-- The first bits of an indexed field. -/
def indexed : UInt8 := 0b10000000

/-- The first bits of an indexed field of the dynamic table behind the base. -/
def indexedWithPostBase : UInt8 := 0b00010000

/-- The first bits of a literal field. -/
def literal : UInt8 := 0b00100000

/-- The first bits of a literal field with an indexed name. -/
def literalWithNameRef : UInt8 := 0b01000000

/-- The names are the same when the second is lowered. -/
def cmpLowercase (a b : Bytes) : Bool := (a.zip b).all fun pair => pair.1 == toAsciiLowercase pair.2

/-- The first value that fits: an empty one stands for any. -/
def matchValue (value : Bytes) : List (Bytes × Nat) → Option (Nat × Bool)
  | [] => none
  | (other, enc) :: rest =>
    if other.isEmpty then some (enc, false)
    else if value == other then some (enc, true)
    else matchValue value rest

/-- The first name that fits, with its value or else with its first one. -/
def matchName (header : Header) : List (Bytes × List (Bytes × Nat)) → Option (Nat × Bool)
  | [] => none
  | (name, values) :: rest =>
    if cmpLowercase name header.1 then
      match matchValue header.2 values with
      | some found => some found
      | none => values.head?.map fun first => (first.2, false)
    else matchName header rest

/-- The index of a field or of its name. -/
def lookupStatic (header : Header) : Option (Nat × Bool) :=
  staticEncodeTable[header.1.length]?.bind (matchName header)

/-- The largest integer that some bits hold. -/
def mask (width : Nat) : Nat := 2 ^ width - 1

/-- The loop of `encode_int`: groups of seven bits from the lowest on. -/
def encodeIntLoop (value : Nat) : Writer Unit :=
  if 128 ≤ value then do
    fromOctets (putU8 (UInt8.ofNat (value % 128 + 128)))
    encodeIntLoop (value >>> 7)
  else fromOctets (putU8 (UInt8.ofNat value))
  termination_by value
  decreasing_by
    rw [Nat.shiftRight_eq_div_pow]
    omega

/-- Writes an integer behind the first bits of a byte. -/
def encodeInt (value : Nat) (first : UInt8) (width : Nat) : Writer Unit :=
  if value < mask width then fromOctets (putU8 (first ||| UInt8.ofNat value))
  else do
    fromOctets (putU8 (first ||| UInt8.ofNat (mask width)))
    encodeIntLoop (value - mask width)

/-- Writes a string with its length, Huffman-encoded unless that is longer. -/
def encodeStr (lowerCase : Bool) (value : Bytes) (first : UInt8) (width : Nat) : Writer Unit :=
  match encodeOutputLength lowerCase value with
  | .ok len => do
    encodeInt len (first ||| 1 <<< UInt8.ofNat width) width
    Huffman.encode lowerCase value
  | .error .inflatedHuffmanEncoding => do
    encodeInt value.length first width
    fromOctets (putBytes (value.map (cased lowerCase)))
  | .error error => throw error

/-- Writes a field. -/
def encodeHeader (header : Header) : Writer Unit :=
  match lookupStatic header with
  | some (index, true) => encodeInt index (indexed ||| 0x40) 6
  | some (index, false) => do
    encodeInt index (literalWithNameRef ||| 0x10) 4
    encodeStr false header.2 0 7
  | none => do
    encodeStr true header.1 literal 3
    encodeStr false header.2 0 7

/-- Writes fields in a row. -/
def encodeHeaders : List Header → Writer Unit
  | [] => return ()
  | header :: rest => do
    encodeHeader header
    encodeHeaders rest

/-- Writes a header block: the required insert count, the base and the headers. -/
def encodeBlock (headers : List Header) : Writer Unit := do
  encodeInt 0 0 8
  encodeInt 0 0 7
  encodeHeaders headers

/-- Encodes a list of headers into an output of some size; gives the header block. -/
def encode (headers : List Header) (outLen : Nat) : Except QpackError Bytes := do
  let (_, output) ← encodeBlock headers ⟨[], outLen⟩
  return output.written

end Encoder

section Decoder

/-- How a field is represented. -/
inductive Representation where
  | indexed
  | indexedWithPostBase
  | literal
  | literalWithNameRef
  | literalWithPostBase
  deriving DecidableEq

/-- The representation that the first byte of a field tells. -/
def Representation.fromByte (byte : UInt8) : Representation :=
  if byte &&& Qpack.indexed = Qpack.indexed then .indexed
  else if byte &&& Qpack.literalWithNameRef = Qpack.literalWithNameRef then .literalWithNameRef
  else if byte &&& Qpack.literal = Qpack.literal then .literal
  else if byte &&& Qpack.indexedWithPostBase = Qpack.indexedWithPostBase then .indexedWithPostBase
  else .literalWithPostBase

/-- The field of the static table at an index. -/
def lookupIndex (index : Nat) : Except QpackError Header :=
  match staticDecodeTable[index]? with
  | some field => .ok field
  | none => .error .invalidStaticTableIndex

/-- The loop of `decode_int`: each byte adds seven bits, above those before. -/
def decodeIntLoop (value shift : Nat) : Reader Nat
  | [] => .error .bufferTooShort
  | byte :: rest =>
    if 64 ≤ shift then .error .bufferTooShort
    else
      let value := value + shl64 (byte &&& 0x7f).toNat shift
      if maxU64 < value then .error .bufferTooShort
      else if byte &&& 0x80 = 0 then .ok (value, rest)
      else decodeIntLoop value (shift + 7) rest

/-- Reads an integer in the low bits of a byte and the bytes behind. -/
def decodeInt (width : Nat) : Reader Nat := do
  let byte ← fromOctets getU8
  let value := byte.toNat &&& mask width
  if value < mask width then return value else decodeIntLoop value 0

/-- Reads bytes of a known length, Huffman-encoded or not. -/
def decodeBytes (huff : Bool) (len : Nat) : Reader Bytes := do
  let value ← fromOctets (getBytes len)
  if huff then Huffman.decode value else return value

/-- Reads a string with its length. -/
def decodeStr : Reader Bytes := do
  let first ← fromOctets peekU8
  let huff := first &&& 0x80 == 0x80
  let len ← decodeInt 7
  decodeBytes huff len

/-- Reads a field. -/
def decodeHeader : Reader Header := do
  let first ← fromOctets peekU8
  match Representation.fromByte first with
  | .indexed =>
    let static := first &&& 0x40 == 0x40
    let index ← decodeInt 6
    if static then lookupIndex index else throw .invalidHeaderValue
  | .indexedWithPostBase =>
    let _ ← decodeInt 4
    throw .invalidHeaderValue
  | .literal =>
    let huff := first &&& 0x08 == 0x08
    let len ← decodeInt 3
    let name ← decodeBytes huff len
    let value ← decodeStr
    return (name, value)
  | .literalWithNameRef =>
    let static := first &&& 0x10 == 0x10
    let index ← decodeInt 4
    let value ← decodeStr
    if static then
      let (name, _) ← lookupIndex index
      return (name, value)
    else throw .invalidHeaderValue
  | .literalWithPostBase => throw .invalidHeaderValue

/-- How much of the limit a field takes. -/
def headerSize (header : Header) : Nat := header.1.length + header.2.length

/-- The loop of `decode`, whose turns take a byte at least. -/
def decodeHeaders : Nat → Nat → List Header → Reader (List Header)
  | _, _, out, [] => .ok (out, [])
  | 0, _, _, _ :: _ => .error .panicked
  | fuel + 1, left, out, input => do
    let (header, rest) ← decodeHeader input
    if left < headerSize header then throw .headerListTooLarge
    else decodeHeaders fuel (left - headerSize header) (out ++ [header]) rest

/-- Decodes a header block into a list of headers of a limited size. -/
def decode (block : Bytes) (maxSize : Nat) : Except QpackError (List Header) := do
  let (_, rest) ← decodeInt 8 block
  let (_, rest) ← decodeInt 7 rest
  let (headers, _) ← decodeHeaders rest.length maxSize [] rest
  return headers

end Decoder

end Qpack

end Flexicast
