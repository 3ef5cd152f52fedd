import Mathlib.Data.List.Forall2
import Flexicast.Packet.Octets
import Flexicast.Stream.RangeBuf

/-! The transport parameters of a connection, as they are sent and read back. -/

namespace Flexicast

open Cursor Words Octets

/-- How reading transport parameters ends early. -/
inductive TransportParamError where
  /-- The bytes are not those of integers and strings. -/
  | wire (error : WireError)
  /-- A parameter is not allowed, or has a value that is not. -/
  | invalidTransportParam
  deriving DecidableEq

/-- The number of streams is at most this. -/
def maxStreamId : Nat := 1 <<< 60

/-- The transport parameters. -/
structure TransportParams where
  /-- The destination of the first packet of the client. -/
  originalDestinationConnectionId : Option Bytes := none
  maxIdleTimeout : Nat := 0
  statelessResetToken : Option Nat := none
  maxUdpPayloadSize : Nat := 65527
  initialMaxData : Nat := 0
  initialMaxStreamDataBidiLocal : Nat := 0
  initialMaxStreamDataBidiRemote : Nat := 0
  initialMaxStreamDataUni : Nat := 0
  initialMaxStreamsBidi : Nat := 0
  initialMaxStreamsUni : Nat := 0
  ackDelayExponent : Nat := 3
  maxAckDelay : Nat := 25
  disableActiveMigration : Bool := false
  /-- How many identifiers of the peer are kept. -/
  activeConnIdLimit : Nat := 2
  initialSourceConnectionId : Option Bytes := none
  retrySourceConnectionId : Option Bytes := none
  maxDatagramFrameSize : Option Nat := none
  initialMaxPathId : Option Nat := none
  flexicastSupport : Bool := false
  deriving DecidableEq

namespace TransportParams

section Decoding

/-- A reader whose errors are passed on. -/
def passOn {α : Type} (reader : Reader α) : Cursor.Reader TransportParamError UInt8 α := fun input =>
  match reader input with
  | .ok result => .ok result
  | .error error => .error (.wire error)

/-- The integer at the front of a value. -/
def readVarint (val : Bytes) : Except TransportParamError Nat := (passOn getVarint val).map Prod.fst

/-- The integer at the front of a value, if it is allowed. -/
def readAllowed (allowed : Nat → Bool) (val : Bytes) : Except TransportParamError Nat :=
  (readVarint val).bind fun value => if allowed value then .ok value else .error .invalidTransportParam

/-- What only a server may send. -/
def fromServer (isServer : Bool) (tp : TransportParams) : Except TransportParamError TransportParams :=
  if isServer then .error .invalidTransportParam else .ok tp

/-- One parameter with its value. -/
def decodeParam (isServer : Bool) (tp : TransportParams) (id : Nat) (val : Bytes) :
    Except TransportParamError TransportParams :=
  match id with
  | 0x0000 => fromServer isServer { tp with originalDestinationConnectionId := some val }
  | 0x0001 => (readVarint val).map fun value => { tp with maxIdleTimeout := value }
  | 0x0002 =>
    (fromServer isServer tp).bind fun tp => (passOn (getBytes 16) val).map fun token =>
      { tp with statelessResetToken := some (ofBigEndian token.1) }
  | 0x0003 => (readAllowed (1200 ≤ ·) val).map fun value => { tp with maxUdpPayloadSize := value }
  | 0x0004 => (readVarint val).map fun value => { tp with initialMaxData := value }
  | 0x0005 => (readVarint val).map fun value => { tp with initialMaxStreamDataBidiLocal := value }
  | 0x0006 => (readVarint val).map fun value => { tp with initialMaxStreamDataBidiRemote := value }
  | 0x0007 => (readVarint val).map fun value => { tp with initialMaxStreamDataUni := value }
  | 0x0008 => (readAllowed (· ≤ maxStreamId) val).map fun value => { tp with initialMaxStreamsBidi := value }
  | 0x0009 => (readAllowed (· ≤ maxStreamId) val).map fun value => { tp with initialMaxStreamsUni := value }
  | 0x000a => (readAllowed (· ≤ 20) val).map fun value => { tp with ackDelayExponent := value }
  | 0x000b => (readAllowed (· < 2 ^ 14) val).map fun value => { tp with maxAckDelay := value }
  | 0x000c => .ok { tp with disableActiveMigration := true }
  -- The preferred address is not read.
  | 0x000d => fromServer isServer tp
  | 0x000e => (readAllowed (2 ≤ ·) val).map fun value => { tp with activeConnIdLimit := value }
  | 0x000f => .ok { tp with initialSourceConnectionId := some val }
  | 0x0010 => fromServer isServer { tp with retrySourceConnectionId := some val }
  | 0x0020 => (readVarint val).map fun value => { tp with maxDatagramFrameSize := some value }
  | 0x0f739bbc1b666d11 => (readVarint val).map fun value => { tp with initialMaxPathId := some value }
  | 0xedf3 => .ok { tp with flexicastSupport := true }
  -- Unknown parameters are ignored.
  | _ => .ok tp

/-- The next parameter, which may not be one that was there already. -/
def decodeNext (isServer : Bool) (seen : List Nat) (tp : TransportParams) :
    Cursor.Reader TransportParamError UInt8 (List Nat × TransportParams) := do
  let id ← passOn getVarint
  if seen.contains id then throw .invalidTransportParam else
  let val ← passOn getBytesWithVarintLength
  let tp ← decodeParam isServer tp id val
  return (id :: seen, tp)

/-- Reads parameters as long as there are bytes; each takes at least one of them. -/
def decodeLoop (isServer : Bool) : Nat → List Nat → TransportParams → Bytes →
    Except TransportParamError TransportParams
  | 0, _, tp, _ => .ok tp
  | fuel + 1, seen, tp, input =>
    if 0 < input.length then
      match decodeNext isServer seen tp input with
      | .ok ((seen, tp), rest) => decodeLoop isServer fuel seen tp rest
      | .error error => .error error
    else .ok tp

/-- Reads the parameters that the peer sent. -/
def decode (buf : Bytes) (isServer : Bool) : Except TransportParamError TransportParams :=
  decodeLoop isServer buf.length [] {} buf

end Decoding

section Encoding

/-- What stands before the value of a parameter. -/
def encodeParam (ty len : Nat) : Writer Unit := do
  putVarint ty
  putVarint len

/-- A parameter that is an integer, unless it has some value. -/
def encodeUnless (ty value skipped : Nat) : Writer Unit :=
  if value ≠ skipped then do
    encodeParam ty (← varintLen value)
    putVarint value
  else pure ()

/-- A parameter that is a string, if there is one. -/
def encodeBytes (ty : Nat) : Option Bytes → Writer Unit
  | some bytes => do
    encodeParam ty bytes.length
    putBytes bytes
  | none => pure ()

/-- A parameter that is an integer, if there is one. -/
def encodeOption (ty : Nat) : Option Nat → Writer Unit
  | some value => do
    encodeParam ty (← varintLen value)
    putVarint value
  | none => pure ()

/-- A parameter that is a string and only sent by a server. -/
def encodeServerBytes (isServer : Bool) (ty : Nat) (bytes : Option Bytes) : Writer Unit :=
  if isServer then encodeBytes ty bytes else pure ()

/-- A parameter without a value, if a flag is set. -/
def encodeFlag (ty : Nat) (flag : Bool) : Writer Unit := if flag then encodeParam ty 0 else pure ()

/-- Writes the parameters. -/
def write (tp : TransportParams) (isServer : Bool) : Writer Unit := do
  encodeServerBytes isServer 0x0000 tp.originalDestinationConnectionId
  encodeUnless 0x0001 tp.maxIdleTimeout 0
  encodeServerBytes isServer 0x0002 (tp.statelessResetToken.map (toBigEndian 16))
  encodeUnless 0x0003 tp.maxUdpPayloadSize 0
  encodeUnless 0x0004 tp.initialMaxData 0
  encodeUnless 0x0005 tp.initialMaxStreamDataBidiLocal 0
  encodeUnless 0x0006 tp.initialMaxStreamDataBidiRemote 0
  encodeUnless 0x0007 tp.initialMaxStreamDataUni 0
  encodeUnless 0x0008 tp.initialMaxStreamsBidi 0
  encodeUnless 0x0009 tp.initialMaxStreamsUni 0
  encodeUnless 0x000a tp.ackDelayExponent 0
  encodeUnless 0x000b tp.maxAckDelay 0
  encodeFlag 0x000c tp.disableActiveMigration
  encodeUnless 0x000e tp.activeConnIdLimit 2
  encodeBytes 0x000f tp.initialSourceConnectionId
  encodeServerBytes isServer 0x0010 tp.retrySourceConnectionId
  encodeOption 0x0020 tp.maxDatagramFrameSize
  encodeOption 0x0f739bbc1b666d11 tp.initialMaxPathId

/-- Writes the parameters into a buffer of some size. -/
def encode (tp : TransportParams) (isServer : Bool) (size : Nat) : Except WireError Bytes :=
  (tp.write isServer ⟨[], size⟩).map fun result => result.2.written

end Encoding

section Parts

/-- A parameter that is an integer, unless it has some value. -/
def unlessPart (ty value skipped : Nat) : List (Nat × Bytes) :=
  if value ≠ skipped then [(ty, (Field.varint value).bytes)] else []

/-- A parameter that is a string, if there is one. -/
def bytesPart (ty : Nat) (bytes : Option Bytes) : List (Nat × Bytes) := bytes.toList.map fun val => (ty, val)

/-- A parameter that is a string and only sent by a server. -/
def serverPart (isServer : Bool) (ty : Nat) (bytes : Option Bytes) : List (Nat × Bytes) :=
  if isServer then bytesPart ty bytes else []

/-- A parameter that is an integer, if there is one. -/
def optionPart (ty : Nat) (value : Option Nat) : List (Nat × Bytes) :=
  bytesPart ty (value.map fun value => (Field.varint value).bytes)

/-- A parameter without a value, if a flag is set. -/
def flagPart (ty : Nat) (flag : Bool) : List (Nat × Bytes) := if flag then [(ty, [])] else []

/-- The parameters that are sent, in their order. -/
def parts (tp : TransportParams) (isServer : Bool) : List (List (Nat × Bytes)) :=
  [serverPart isServer 0x0000 tp.originalDestinationConnectionId,
    unlessPart 0x0001 tp.maxIdleTimeout 0,
    serverPart isServer 0x0002 (tp.statelessResetToken.map (toBigEndian 16)),
    unlessPart 0x0003 tp.maxUdpPayloadSize 0,
    unlessPart 0x0004 tp.initialMaxData 0,
    unlessPart 0x0005 tp.initialMaxStreamDataBidiLocal 0,
    unlessPart 0x0006 tp.initialMaxStreamDataBidiRemote 0,
    unlessPart 0x0007 tp.initialMaxStreamDataUni 0,
    unlessPart 0x0008 tp.initialMaxStreamsBidi 0,
    unlessPart 0x0009 tp.initialMaxStreamsUni 0,
    unlessPart 0x000a tp.ackDelayExponent 0,
    unlessPart 0x000b tp.maxAckDelay 0,
    flagPart 0x000c tp.disableActiveMigration,
    unlessPart 0x000e tp.activeConnIdLimit 2,
    bytesPart 0x000f tp.initialSourceConnectionId,
    serverPart isServer 0x0010 tp.retrySourceConnectionId,
    optionPart 0x0020 tp.maxDatagramFrameSize,
    optionPart 0x0f739bbc1b666d11 tp.initialMaxPathId]

/-- The bytes of a parameter. -/
def partBytes (part : Nat × Bytes) : Bytes :=
  (Field.varint part.1).bytes ++ ((Field.varint part.2.length).bytes ++ part.2)

/-- The bytes of parameters. -/
def partsBytes (parts : List (Nat × Bytes)) : Bytes := (parts.map partBytes).flatten

/-- Parameters are short enough, and all of one type. -/
structure PartOf (ty : Nat) (part : List (Nat × Bytes)) : Prop where
  types : (part.map Prod.fst).Sublist [ty]
  short : ∀ val ∈ part, val.2.length < 2 ^ 62

theorem partsBytes_append (front back : List (Nat × Bytes)) :
    partsBytes (front ++ back) = partsBytes front ++ partsBytes back := by
  unfold partsBytes
  rw [List.map_append, List.flatten_append]

variable {value ty : Nat}

/-- An integer is written as its bytes. -/
theorem writes_varint (small : value < 2 ^ 62) : Writes (putVarint value) (Field.varint value).bytes := by
  intro output room
  have chosen := varintLen_eq small
  obtain ⟨allowed, -⟩ := varintLen_eq_ok chosen
  have long : ∀ len, varintLen value = .ok len → (Field.varint value).bytes = varintBytes len value := by
    intro len sized
    simp only [Field.bytes, sized]
  have start : (varintLen value : Writer Nat) output = .ok ((Field.varint value).bytes.length, output) := by
    rw [chosen]
    rfl
  unfold putVarint
  rw [bind_ok start, putVarintWithLen_eq allowed, ← long _ chosen]
  exact if_neg (Nat.not_lt.mpr room)

theorem varintLen_bind {α : Type} (small : value < 2 ^ 62) (next : Nat → Writer α) :
    ((varintLen value : Writer Nat) >>= next) = next (Field.varint value).bytes.length := by
  rw [varintLen_eq small]
  rfl

@[simp] theorem partsBytes_nil : partsBytes [] = [] := rfl

theorem partsBytes_singleton (part : Nat × Bytes) : partsBytes [part] = partBytes part := by
  unfold partsBytes
  rw [List.map_singleton, List.flatten_singleton]

theorem writes_param {val : Bytes} {put : Writer Unit} (known : ty < 2 ^ 62) (short : val.length < 2 ^ 62)
    (writes : Writes put val) : Writes (encodeParam ty val.length >>= fun _ => put) (partsBytes [(ty, val)]) := by
  rw [partsBytes_singleton, partBytes, ← List.append_assoc]
  exact ((writes_varint known).bind (writes_varint short)).bind writes

theorem writes_bytes (bytes : Bytes) : Writes (putBytes bytes) bytes :=
  fun _ room => if_neg (Nat.not_lt.mpr room)

theorem length_varint_lt (small : value < 2 ^ 62) : (Field.varint value).bytes.length < 2 ^ 62 := by
  have sized := varintLen_eq small
  rcases (varintLen_eq_ok sized).1 with len | len | len | len <;> rw [len] <;> decide

theorem writes_varintParam (known : ty < 2 ^ 62) (small : value < 2 ^ 62) :
    Writes (do
      encodeParam ty (← varintLen value)
      putVarint value : Writer Unit) (partsBytes [(ty, (Field.varint value).bytes)]) := by
  rw [varintLen_bind small]
  exact writes_param known (length_varint_lt small) (writes_varint small)

theorem writes_encodeUnless {skipped : Nat} (known : ty < 2 ^ 62) (small : value < 2 ^ 62) :
    Writes (encodeUnless ty value skipped) (partsBytes (unlessPart ty value skipped)) := by
  unfold encodeUnless unlessPart
  split
  · exact writes_varintParam known small
  · exact .pure

theorem writes_encodeBytes {bytes : Option Bytes} (known : ty < 2 ^ 62) (short : ∀ val ∈ bytes, val.length < 2 ^ 62) :
    Writes (encodeBytes ty bytes) (partsBytes (bytesPart ty bytes)) := by
  cases bytes with
  | none => exact .pure
  | some val => exact writes_param known (short val rfl) (writes_bytes val)

theorem writes_encodeServerBytes {bytes : Option Bytes} (isServer : Bool) (known : ty < 2 ^ 62)
    (short : ∀ val ∈ bytes, val.length < 2 ^ 62) :
    Writes (encodeServerBytes isServer ty bytes) (partsBytes (serverPart isServer ty bytes)) := by
  cases isServer with
  | true => exact writes_encodeBytes known short
  | false => exact .pure

theorem writes_encodeOption {value : Option Nat} (known : ty < 2 ^ 62) (small : ∀ number ∈ value, number < 2 ^ 62) :
    Writes (encodeOption ty value) (partsBytes (optionPart ty value)) := by
  cases value with
  | none => exact .pure
  | some number => exact writes_varintParam known (small number rfl)

theorem writes_encodeFlag {flag : Bool} (known : ty < 2 ^ 62) :
    Writes (encodeFlag ty flag) (partsBytes (flagPart ty flag)) := by
  cases flag with
  | true =>
    have writes := writes_param known (show ([] : Bytes).length < 2 ^ 62 by decide) .pure
    rw [bind_pure_unit] at writes
    exact writes
  | false => exact .pure

theorem writes_cons {first next : Writer Unit} {part : List (Nat × Bytes)} {rest : List (List (Nat × Bytes))}
    (writes : Writes first (partsBytes part)) (later : Writes next (partsBytes rest.flatten)) :
    Writes (first >>= fun _ => next) (partsBytes (part :: rest).flatten) := by
  rw [List.flatten_cons, partsBytes_append]
  exact writes.bind later

end Parts

/-- The values are what the other side accepts: numbers of 62 bits in their ranges, and no more from a client. -/
structure Valid (tp : TransportParams) (isServer : Bool) : Prop where
  originalDestinationConnectionId : ∀ id ∈ tp.originalDestinationConnectionId, id.length < 2 ^ 62
  maxIdleTimeout : tp.maxIdleTimeout < 2 ^ 62
  statelessResetToken : ∀ token ∈ tp.statelessResetToken, token < 2 ^ 128
  maxUdpPayloadSize : 1200 ≤ tp.maxUdpPayloadSize ∧ tp.maxUdpPayloadSize < 2 ^ 62
  initialMaxData : tp.initialMaxData < 2 ^ 62
  initialMaxStreamDataBidiLocal : tp.initialMaxStreamDataBidiLocal < 2 ^ 62
  initialMaxStreamDataBidiRemote : tp.initialMaxStreamDataBidiRemote < 2 ^ 62
  initialMaxStreamDataUni : tp.initialMaxStreamDataUni < 2 ^ 62
  initialMaxStreamsBidi : tp.initialMaxStreamsBidi ≤ maxStreamId
  initialMaxStreamsUni : tp.initialMaxStreamsUni ≤ maxStreamId
  ackDelayExponent : tp.ackDelayExponent ≤ 20
  maxAckDelay : tp.maxAckDelay < 2 ^ 14
  activeConnIdLimit : 2 ≤ tp.activeConnIdLimit ∧ tp.activeConnIdLimit < 2 ^ 62
  initialSourceConnectionId : ∀ id ∈ tp.initialSourceConnectionId, id.length < 2 ^ 62
  retrySourceConnectionId : ∀ id ∈ tp.retrySourceConnectionId, id.length < 2 ^ 62
  maxDatagramFrameSize : ∀ size ∈ tp.maxDatagramFrameSize, size < 2 ^ 62
  initialMaxPathId : ∀ pathId ∈ tp.initialMaxPathId, pathId < 2 ^ 62
  client : isServer = false → tp.originalDestinationConnectionId = none ∧ tp.statelessResetToken = none ∧
    tp.retrySourceConnectionId = none

variable {tp : TransportParams} {isServer : Bool}

/-- The values with a range of their own are small. -/
theorem Valid.bounds (valid : tp.Valid isServer) :
    tp.initialMaxStreamsBidi < 2 ^ 62 ∧ tp.initialMaxStreamsUni < 2 ^ 62 ∧ tp.ackDelayExponent < 2 ^ 62 ∧
      tp.maxAckDelay < 2 ^ 62 := by
  have streams : maxStreamId < 2 ^ 62 := by decide
  have bidi := valid.initialMaxStreamsBidi
  have uni := valid.initialMaxStreamsUni
  have exponent := valid.ackDelayExponent
  have delay := valid.maxAckDelay
  omega

theorem token_short {token : Option Nat} : ∀ val ∈ token.map (toBigEndian 16), val.length < 2 ^ 62 := by
  intro val member
  obtain ⟨number, -, rfl⟩ := Option.map_eq_some_iff.mp member
  rw [length_toBigEndian]
  decide

/-- The parameters are written in their order. -/
theorem writes_write (valid : tp.Valid isServer) :
    Writes (tp.write isServer) (partsBytes (tp.parts isServer).flatten) := by
  obtain ⟨bidi, uni, exponent, delay⟩ := valid.bounds
  -- One parameter after another, in the order of the source.
  refine writes_cons (writes_encodeServerBytes isServer (by decide) valid.originalDestinationConnectionId) ?_
  refine writes_cons (writes_encodeUnless (by decide) valid.maxIdleTimeout) ?_
  refine writes_cons (writes_encodeServerBytes isServer (by decide) token_short) ?_
  refine writes_cons (writes_encodeUnless (by decide) valid.maxUdpPayloadSize.2) ?_
  refine writes_cons (writes_encodeUnless (by decide) valid.initialMaxData) ?_
  refine writes_cons (writes_encodeUnless (by decide) valid.initialMaxStreamDataBidiLocal) ?_
  refine writes_cons (writes_encodeUnless (by decide) valid.initialMaxStreamDataBidiRemote) ?_
  refine writes_cons (writes_encodeUnless (by decide) valid.initialMaxStreamDataUni) ?_
  refine writes_cons (writes_encodeUnless (by decide) bidi) ?_
  refine writes_cons (writes_encodeUnless (by decide) uni) ?_
  refine writes_cons (writes_encodeUnless (by decide) exponent) ?_
  refine writes_cons (writes_encodeUnless (by decide) delay) ?_
  refine writes_cons (writes_encodeFlag (by decide)) ?_
  refine writes_cons (writes_encodeUnless (by decide) valid.activeConnIdLimit.2) ?_
  refine writes_cons (writes_encodeBytes (by decide) valid.initialSourceConnectionId) ?_
  refine writes_cons (writes_encodeServerBytes isServer (by decide) valid.retrySourceConnectionId) ?_
  refine writes_cons (writes_encodeOption (by decide) valid.maxDatagramFrameSize) ?_
  rw [List.flatten_singleton]
  exact writes_encodeOption (by decide) valid.initialMaxPathId

section Reading

/-- What parameters change, one after another. -/
def applyParts (isServer : Bool) (tp : TransportParams) : List (Nat × Bytes) →
    Except TransportParamError TransportParams
  | [] => .ok tp
  | part :: rest => (decodeParam isServer tp part.1 part.2).bind fun tp => applyParts isServer tp rest

variable {before : TransportParams} {α : Type} {value ty : Nat}

theorem applyParts_append {mid : TransportParams} {front : List (Nat × Bytes)} (back : List (Nat × Bytes))
    (first : applyParts isServer before front = .ok mid) :
    applyParts isServer before (front ++ back) = applyParts isServer mid back := by
  -- Induction on the parameters in front.
  induction front generalizing before with
  | nil =>
    cases first
    rfl
  | cons part rest ih =>
    cases decoded : decodeParam isServer before part.1 part.2 with
    | error error =>
      rw [applyParts, decoded] at first
      cases first
    | ok after =>
      rw [applyParts, decoded] at first
      rw [List.cons_append, applyParts, decoded]
      exact ih first

theorem reads_passOn {reader : Reader α} {items : Bytes} {value : α} (reads : Reads reader items value) :
    Reads (passOn reader) items value := by
  intro rest
  unfold passOn
  rw [reads rest]

variable {seen : List Nat} {after : TransportParams} {part : Nat × Bytes} {bytes : Option Bytes}

/-- A parameter that is not there yet is read. -/
theorem reads_next (fresh : part.1 ∉ seen) (known : part.1 < 2 ^ 62) (short : part.2.length < 2 ^ 62)
    (decoded : decodeParam isServer before part.1 part.2 = .ok after) :
    Reads (decodeNext isServer seen before) (partBytes part) (part.1 :: seen, after) := by
  -- The type is read first, then the length and the bytes of the value.
  have first := reads_passOn (reads_varint known)
  have second : Reads (passOn getBytesWithVarintLength) ((Field.varint part.2.length).bytes ++ part.2) part.2 :=
    reads_passOn ((reads_varint short).bind (reads_bytes part.2))
  intro rest
  unfold decodeNext
  rw [partBytes, List.append_assoc, bind_ok (first _), if_neg (by simpa using fresh), bind_ok (second rest), decoded]
  rfl

/-- A parameter that is read leaves fewer bytes. -/
theorem decodeNext_shortens {input rest : Bytes} {result : List Nat × TransportParams}
    (ran : decodeNext isServer seen before input = .ok (result, rest)) : rest.length < input.length := by
  have passed : ∀ {α : Type} {reader : Reader α} {input rest : Bytes} {value : α},
      passOn reader input = .ok (value, rest) → reader input = .ok (value, rest) := by
    intro α reader input rest value ran
    unfold passOn at ran
    split at ran
    · rename_i done
      cases ran
      exact done
    · cases ran
  unfold decodeNext at ran
  obtain ⟨id, mid, first, ran⟩ := bind_eq_ok.mp ran
  have fewer := getVarint_shortens (passed first)
  split at ran
  · cases ran
  obtain ⟨val, last, second, ran⟩ := bind_eq_ok.mp ran
  obtain ⟨len, behind, third, taken⟩ := bind_eq_ok.mp (passed second)
  have fewer' := getVarint_shortens third
  obtain ⟨rfl, -⟩ := getBytes_eq_ok.mp taken
  rw [List.length_append] at fewer'
  cases decoded : decodeParam isServer before id val with
  | error error =>
    rw [decoded] at ran
    cases ran
  | ok after =>
    rw [decoded] at ran
    cases ran
    omega

/-- As many turns as there are bytes are enough. -/
theorem decodeLoop_enough {fuel : Nat} : ∀ {seen : List Nat} {before : TransportParams} {input : Bytes},
    input.length ≤ fuel →
      decodeLoop isServer (fuel + 1) seen before input = decodeLoop isServer fuel seen before input := by
  induction fuel with
  | zero =>
    intro seen before input enough
    exact if_neg (by omega)
  | succ fuel ih =>
    intro seen before input enough
    rw [decodeLoop, decodeLoop]
    split
    · cases ran : decodeNext isServer seen before input with
      | error error => rfl
      | ok pair =>
        have fewer := decodeNext_shortens ran
        exact ih (by omega)
    · rfl

theorem partBytes_pos (known : part.1 < 2 ^ 62) : 0 < (partBytes part).length := by
  have sized := varintLen_eq known
  rw [partBytes, List.length_append]
  rcases (varintLen_eq_ok sized).1 with len | len | len | len <;> omega

/-- Parameters of different types are read one after another. -/
theorem decodeLoop_parts {list : List (Nat × Bytes)} :
    ∀ {fuel : Nat} {seen : List Nat} {before after : TransportParams}, (partsBytes list).length ≤ fuel →
      (∀ part ∈ list, part.1 < 2 ^ 62 ∧ part.2.length < 2 ^ 62) → (list.map Prod.fst).Nodup →
      (∀ part ∈ list, part.1 ∉ seen) → applyParts isServer before list = .ok after →
      decodeLoop isServer fuel seen before (partsBytes list) = .ok after := by
  -- Induction on the parameters; each one leaves fewer bytes, and is seen from then on.
  induction list with
  | nil =>
    intro fuel seen before after _ _ _ _ applied
    cases applied
    cases fuel <;> rfl
  | cons part rest ih =>
    intro fuel seen before after enough valid apart fresh applied
    obtain ⟨known, short⟩ := valid part List.mem_cons_self
    have split_ : partsBytes (part :: rest) = partBytes part ++ partsBytes rest := rfl
    have some_ := partBytes_pos known
    rw [split_, List.length_append] at enough
    obtain ⟨other, apart⟩ := List.nodup_cons.mp apart
    cases decoded : decodeParam isServer before part.1 part.2 with
    | error error =>
      rw [applyParts, decoded] at applied
      cases applied
    | ok mid =>
      rw [applyParts, decoded] at applied
      cases fuel with
      | zero => omega
      | succ fuel =>
        have read := reads_next (fresh part List.mem_cons_self) known short decoded (partsBytes rest)
        rw [decodeLoop, split_, if_pos (by rw [List.length_append]; omega), read]
        refine ih (by omega) (fun part member => valid part (List.mem_cons_of_mem _ member)) apart ?_ applied
        intro later member seen
        rcases List.mem_cons.mp seen with same | seen
        · exact other (same ▸ List.mem_map_of_mem member)
        · exact fresh later (List.mem_cons_of_mem _ member) seen

theorem readVarint_bytes (small : value < 2 ^ 62) : readVarint (Field.varint value).bytes = .ok value := by
  have read := reads_passOn (reads_varint small) []
  rw [List.append_nil] at read
  rw [readVarint, read]
  rfl

theorem map_varint (small : value < 2 ^ 62) (f : Nat → α) :
    (readVarint (Field.varint value).bytes).map f = .ok (f value) := by
  rw [readVarint_bytes small]
  rfl

theorem map_allowed {allowed : Nat → Bool} (small : value < 2 ^ 62) (fits : allowed value = true) (f : Nat → α) :
    (readAllowed allowed (Field.varint value).bytes).map f = .ok (f value) := by
  have read : readAllowed allowed (Field.varint value).bytes = .ok value := by
    rw [readAllowed, readVarint_bytes small]
    exact if_pos fits
  rw [read]
  rfl

theorem apply_unless {skipped : Nat} (put : Nat → TransportParams)
    (decoded : value ≠ skipped → decodeParam isServer before ty (Field.varint value).bytes = .ok (put value))
    (same : put skipped = before) : applyParts isServer before (unlessPart ty value skipped) = .ok (put value) := by
  unfold unlessPart
  split
  · rename_i other
    rw [applyParts, decoded other]
    rfl
  · rename_i equal
    rw [not_not.mp equal, same]
    rfl

theorem apply_bytes (put : Option Bytes → TransportParams)
    (decoded : ∀ val ∈ bytes, decodeParam isServer before ty val = .ok (put (some val))) (same : put none = before) :
    applyParts isServer before (bytesPart ty bytes) = .ok (put bytes) := by
  cases bytes with
  | none =>
    rw [same]
    rfl
  | some val =>
    rw [bytesPart, Option.toList_some, List.map_singleton, applyParts, decoded val rfl]
    rfl

theorem apply_server (put : Option Bytes → TransportParams) (client : isServer = false → bytes = none)
    (decoded : ∀ val ∈ bytes, decodeParam false before ty val = .ok (put (some val))) (same : put none = before) :
    applyParts (!isServer) before (serverPart isServer ty bytes) = .ok (put bytes) := by
  cases isServer with
  | true => exact apply_bytes put decoded same
  | false =>
    rw [client rfl, same]
    rfl

theorem apply_option {value : Option Nat} (put : Option Nat → TransportParams)
    (decoded : ∀ number ∈ value, decodeParam isServer before ty (Field.varint number).bytes = .ok (put (some number)))
    (same : put none = before) : applyParts isServer before (optionPart ty value) = .ok (put value) := by
  cases value with
  | none =>
    rw [same]
    rfl
  | some number =>
    show (decodeParam isServer before ty (Field.varint number).bytes).bind _ = _
    rw [decoded number rfl]
    rfl

/-- What a flag changes. -/
theorem apply_flag {flag : Bool} (put : Bool → TransportParams)
    (decoded : decodeParam isServer before ty [] = .ok (put true)) (same : put false = before) :
    applyParts isServer before (flagPart ty flag) = .ok (put flag) := by
  cases flag with
  | false =>
    rw [same]
    rfl
  | true =>
    show (decodeParam isServer before ty []).bind _ = _
    rw [decoded]
    rfl

/-- What the other side reads: no support of flexicast, and the defaults of values that are not sent. -/
def received (tp : TransportParams) : TransportParams :=
  { tp with
    maxUdpPayloadSize := if tp.maxUdpPayloadSize = 0 then 65527 else tp.maxUdpPayloadSize
    ackDelayExponent := if tp.ackDelayExponent = 0 then 3 else tp.ackDelayExponent
    maxAckDelay := if tp.maxAckDelay = 0 then 25 else tp.maxAckDelay
    flexicastSupport := false }

/-- What is read of some values after a number of parameters. -/
def upTo (tp : TransportParams) (count : Nat) : TransportParams where
  originalDestinationConnectionId := if 0 < count then tp.originalDestinationConnectionId else none
  maxIdleTimeout := if 1 < count then tp.maxIdleTimeout else 0
  statelessResetToken := if 2 < count then tp.statelessResetToken else none
  maxUdpPayloadSize := if 3 < count then tp.maxUdpPayloadSize else 65527
  initialMaxData := if 4 < count then tp.initialMaxData else 0
  initialMaxStreamDataBidiLocal := if 5 < count then tp.initialMaxStreamDataBidiLocal else 0
  initialMaxStreamDataBidiRemote := if 6 < count then tp.initialMaxStreamDataBidiRemote else 0
  initialMaxStreamDataUni := if 7 < count then tp.initialMaxStreamDataUni else 0
  initialMaxStreamsBidi := if 8 < count then tp.initialMaxStreamsBidi else 0
  initialMaxStreamsUni := if 9 < count then tp.initialMaxStreamsUni else 0
  ackDelayExponent := if 10 < count then tp.ackDelayExponent else 3
  maxAckDelay := if 11 < count then tp.maxAckDelay else 25
  disableActiveMigration := if 12 < count then tp.disableActiveMigration else false
  activeConnIdLimit := if 13 < count then tp.activeConnIdLimit else 2
  initialSourceConnectionId := if 14 < count then tp.initialSourceConnectionId else none
  retrySourceConnectionId := if 15 < count then tp.retrySourceConnectionId else none
  maxDatagramFrameSize := if 16 < count then tp.maxDatagramFrameSize else none
  initialMaxPathId := if 17 < count then tp.initialMaxPathId else none
  flexicastSupport := false

theorem apply_next {values : TransportParams} {part : List (Nat × Bytes)} {rest : List (List (Nat × Bytes))}
    (count : Nat) (first : applyParts isServer (values.upTo count) part = .ok (values.upTo (count + 1)))
    (later : applyParts isServer (values.upTo (count + 1)) rest.flatten = .ok after) :
    applyParts isServer (values.upTo count) (part :: rest).flatten = .ok after := by
  rw [List.flatten_cons, applyParts_append _ first]
  exact later

/-- A token is read back. -/
theorem apply_token (valid : tp.Valid isServer) (unset : before.statelessResetToken = none) :
    applyParts (!isServer) before (serverPart isServer 0x0002 (tp.statelessResetToken.map (toBigEndian 16))) =
      .ok { before with statelessResetToken := tp.statelessResetToken } := by
  -- A token is a number of sixteen bytes.
  have again : (tp.statelessResetToken.map (toBigEndian 16)).map ofBigEndian = tp.statelessResetToken := by
    cases token : tp.statelessResetToken with
    | none => rfl
    | some number =>
      have fits : number < 256 ^ 16 := valid.statelessResetToken number token
      rw [Option.map_some, Option.map_some, ofBigEndian_toBigEndian, Nat.mod_eq_of_lt fits]
  have decoded : ∀ val ∈ tp.statelessResetToken.map (toBigEndian 16), decodeParam false before 0x0002 val =
      .ok { before with statelessResetToken := (some val).map ofBigEndian } := by
    intro val member
    obtain ⟨number, -, rfl⟩ := Option.map_eq_some_iff.mp member
    have read := reads_passOn (reads_bytes (toBigEndian 16 number)) []
    rw [List.append_nil, length_toBigEndian] at read
    have step : decodeParam false before 0x0002 (toBigEndian 16 number) =
        (passOn (getBytes 16) (toBigEndian 16 number)).map fun token =>
          { before with statelessResetToken := some (ofBigEndian token.1) } := rfl
    rw [step, read]
    rfl
  have client : isServer = false → tp.statelessResetToken.map (toBigEndian 16) = none := by
    intro client
    rw [(valid.client client).2.1]
    rfl
  have done := apply_server (fun value => { before with statelessResetToken := value.map ofBigEndian }) client decoded
    (by rw [Option.map_none, ← unset])
  rw [again] at done
  exact done

/-- The parameters that are sent make the defaults what the other side reads. -/
theorem applyParts_parts (valid : tp.Valid isServer) :
    applyParts (!isServer) {} (tp.parts isServer).flatten = .ok tp.received := by
  obtain ⟨bidi, uni, exponent, delay⟩ := valid.bounds
  let values : TransportParams := tp.received
  -- Each parameter sets its field; the others are still the defaults.
  show applyParts (!isServer) (values.upTo 0) (tp.parts isServer).flatten = .ok (values.upTo 18)
  refine apply_next 0 (apply_server (fun value => { values.upTo 0 with originalDestinationConnectionId := value })
    (fun client => (valid.client client).1) (fun _ _ => rfl) rfl) ?_
  refine apply_next 1 (apply_unless (fun value => { values.upTo 1 with maxIdleTimeout := value })
    (fun _ => map_varint valid.maxIdleTimeout _) rfl) ?_
  refine apply_next 2 (apply_token valid rfl) ?_
  refine apply_next 3 (apply_unless
    (fun value => { values.upTo 3 with maxUdpPayloadSize := if value = 0 then 65527 else value })
    (fun other => ?_) rfl) ?_
  · rw [if_neg other]
    exact map_allowed valid.maxUdpPayloadSize.2 (decide_eq_true valid.maxUdpPayloadSize.1) _
  refine apply_next 4 (apply_unless (fun value => { values.upTo 4 with initialMaxData := value })
    (fun _ => map_varint valid.initialMaxData _) rfl) ?_
  refine apply_next 5 (apply_unless (fun value => { values.upTo 5 with initialMaxStreamDataBidiLocal := value })
    (fun _ => map_varint valid.initialMaxStreamDataBidiLocal _) rfl) ?_
  refine apply_next 6 (apply_unless (fun value => { values.upTo 6 with initialMaxStreamDataBidiRemote := value })
    (fun _ => map_varint valid.initialMaxStreamDataBidiRemote _) rfl) ?_
  refine apply_next 7 (apply_unless (fun value => { values.upTo 7 with initialMaxStreamDataUni := value })
    (fun _ => map_varint valid.initialMaxStreamDataUni _) rfl) ?_
  refine apply_next 8 (apply_unless (fun value => { values.upTo 8 with initialMaxStreamsBidi := value })
    (fun _ => map_allowed bidi (decide_eq_true valid.initialMaxStreamsBidi) _) rfl) ?_
  refine apply_next 9 (apply_unless (fun value => { values.upTo 9 with initialMaxStreamsUni := value })
    (fun _ => map_allowed uni (decide_eq_true valid.initialMaxStreamsUni) _) rfl) ?_
  refine apply_next 10 (apply_unless
    (fun value => { values.upTo 10 with ackDelayExponent := if value = 0 then 3 else value })
    (fun other => ?_) rfl) ?_
  · rw [if_neg other]
    exact map_allowed exponent (decide_eq_true valid.ackDelayExponent) _
  refine apply_next 11 (apply_unless
    (fun value => { values.upTo 11 with maxAckDelay := if value = 0 then 25 else value })
    (fun other => ?_) rfl) ?_
  · rw [if_neg other]
    exact map_allowed delay (decide_eq_true valid.maxAckDelay) _
  refine apply_next 12 (apply_flag (fun value => { values.upTo 12 with disableActiveMigration := value }) rfl rfl) ?_
  refine apply_next 13 (apply_unless (fun value => { values.upTo 13 with activeConnIdLimit := value })
    (fun _ => map_allowed valid.activeConnIdLimit.2 (decide_eq_true valid.activeConnIdLimit.1) _) rfl) ?_
  refine apply_next 14 (apply_bytes (fun value => { values.upTo 14 with initialSourceConnectionId := value })
    (fun _ _ => rfl) rfl) ?_
  refine apply_next 15 (apply_server (fun value => { values.upTo 15 with retrySourceConnectionId := value })
    (fun client => (valid.client client).2.2) (fun _ _ => rfl) rfl) ?_
  refine apply_next 16 (apply_option (fun value => { values.upTo 16 with maxDatagramFrameSize := value })
    (fun number member => map_varint (valid.maxDatagramFrameSize number member) _) rfl) ?_
  rw [List.flatten_singleton]
  exact apply_option (fun value => { values.upTo 17 with initialMaxPathId := value })
    (fun number member => map_varint (valid.initialMaxPathId number member) _) rfl

end Reading

section Types

theorem partOf_nil (ty : Nat) : PartOf ty [] := ⟨List.nil_sublist _, fun _ member => absurd member List.not_mem_nil⟩

variable {ty : Nat} {bytes : Option Bytes}

theorem partOf_singleton {val : Bytes} (short : val.length < 2 ^ 62) : PartOf ty [(ty, val)] := by
  refine ⟨List.Sublist.refl _, ?_⟩
  intro part member
  rw [List.mem_singleton.mp member]
  exact short

theorem partOf_unless {value skipped : Nat} (small : value < 2 ^ 62) : PartOf ty (unlessPart ty value skipped) := by
  unfold unlessPart
  split
  · exact partOf_singleton (length_varint_lt small)
  · exact partOf_nil ty

theorem partOf_bytes (short : ∀ val ∈ bytes, val.length < 2 ^ 62) : PartOf ty (bytesPart ty bytes) := by
  cases bytes with
  | none => exact partOf_nil ty
  | some val => exact partOf_singleton (short val rfl)

theorem partOf_server (short : ∀ val ∈ bytes, val.length < 2 ^ 62) : PartOf ty (serverPart isServer ty bytes) := by
  cases isServer with
  | true => exact partOf_bytes short
  | false => exact partOf_nil ty

theorem partOf_option {value : Option Nat} (small : ∀ number ∈ value, number < 2 ^ 62) :
    PartOf ty (optionPart ty value) := by
  cases value with
  | none => exact partOf_nil ty
  | some number => exact partOf_singleton (length_varint_lt (small number rfl))

theorem partOf_flag (ty : Nat) (flag : Bool) : PartOf ty (flagPart ty flag) := by
  cases flag with
  | true => exact partOf_singleton (by decide)
  | false => exact partOf_nil ty

/-- The types of the parameters that are sent. -/
def types : List Nat :=
  [0x0000, 0x0001, 0x0002, 0x0003, 0x0004, 0x0005, 0x0006, 0x0007, 0x0008, 0x0009, 0x000a, 0x000b, 0x000c, 0x000e,
    0x000f, 0x0010, 0x0020, 0x0f739bbc1b666d11]

theorem flatten_types {types : List Nat} {parts : List (List (Nat × Bytes))} (each : List.Forall₂ PartOf types parts) :
    (parts.flatten.map Prod.fst).Sublist types ∧ ∀ part ∈ parts.flatten, part.2.length < 2 ^ 62 := by
  -- Induction on the types, each of which has one parameter at most.
  induction each with
  | nil => exact ⟨List.Sublist.refl _, fun _ member => absurd member List.not_mem_nil⟩
  | cons first _ ih =>
    constructor
    · rw [List.flatten_cons, List.map_append]
      exact first.types.append ih.1
    · intro part member
      rw [List.flatten_cons] at member
      rcases List.mem_append.mp member with member | member
      · exact first.short part member
      · exact ih.2 part member

/-- Each parameter that is sent has its own type. -/
theorem parts_types (valid : tp.Valid isServer) : List.Forall₂ PartOf types (tp.parts isServer) := by
  obtain ⟨bidi, uni, exponent, delay⟩ := valid.bounds
  refine .cons (partOf_server valid.originalDestinationConnectionId) ?_
  refine .cons (partOf_unless valid.maxIdleTimeout) ?_
  refine .cons (partOf_server token_short) ?_
  refine .cons (partOf_unless valid.maxUdpPayloadSize.2) ?_
  refine .cons (partOf_unless valid.initialMaxData) ?_
  refine .cons (partOf_unless valid.initialMaxStreamDataBidiLocal) ?_
  refine .cons (partOf_unless valid.initialMaxStreamDataBidiRemote) ?_
  refine .cons (partOf_unless valid.initialMaxStreamDataUni) ?_
  refine .cons (partOf_unless bidi) ?_
  refine .cons (partOf_unless uni) ?_
  refine .cons (partOf_unless exponent) ?_
  refine .cons (partOf_unless delay) ?_
  refine .cons (partOf_flag _ _) ?_
  refine .cons (partOf_unless valid.activeConnIdLimit.2) ?_
  refine .cons (partOf_bytes valid.initialSourceConnectionId) ?_
  refine .cons (partOf_server valid.retrySourceConnectionId) ?_
  refine .cons (partOf_option valid.maxDatagramFrameSize) ?_
  exact .cons (partOf_option valid.initialMaxPathId) .nil

end Types

section RoundTrip

/-- The bytes of the parameters that are sent. -/
def bytes (tp : TransportParams) (isServer : Bool) : Bytes := partsBytes (tp.parts isServer).flatten

/-- In a buffer that is large enough the parameters are written. -/
theorem encode_eq (valid : tp.Valid isServer) {size : Nat} (room : (tp.bytes isServer).length ≤ size) :
    tp.encode isServer size = .ok (tp.bytes isServer) := by
  unfold encode
  rw [writes_write valid ⟨[], size⟩ room]
  rfl

/-- The other side reads what was written, with the defaults of what was not. -/
theorem decode_bytes (valid : tp.Valid isServer) : decode (tp.bytes isServer) (!isServer) = .ok tp.received := by
  obtain ⟨sub, short⟩ := flatten_types (parts_types valid)
  have known : ∀ ty ∈ types, ty < 2 ^ 62 := by decide
  -- No type occurs twice, so no parameter is taken for a duplicate.
  have apart : types.Nodup := by decide
  refine decodeLoop_parts (Nat.le_refl _) ?_ (apart.sublist sub) (fun _ _ => List.not_mem_nil) (applyParts_parts valid)
  exact fun part member => ⟨known _ (sub.subset (List.mem_map_of_mem member)), short part member⟩

/-- In a buffer that is large enough the parameters are written, and the other side reads the same ones. -/
def RoundTrips (tp : TransportParams) (isServer : Bool) : Prop :=
  ∃ least, ∀ size, least ≤ size →
    ∃ raw, tp.encode isServer size = .ok raw ∧ decode raw (!isServer) = .ok tp

/-- What is read is what was sent just when the values are not of those that are left out. -/
theorem received_eq_iff (valid : tp.Valid isServer) :
    tp.received = tp ↔ tp.flexicastSupport = false ∧ tp.ackDelayExponent ≠ 0 ∧ tp.maxAckDelay ≠ 0 := by
  constructor
  · intro same
    refine ⟨?_, ?_, ?_⟩
    · rw [← same]
      rfl
    · intro zero
      have read : (if tp.ackDelayExponent = 0 then 3 else tp.ackDelayExponent) = tp.ackDelayExponent :=
        congrArg ackDelayExponent same
      rw [if_pos zero, zero] at read
      cases read
    · intro zero
      have read : (if tp.maxAckDelay = 0 then 25 else tp.maxAckDelay) = tp.maxAckDelay := congrArg maxAckDelay same
      rw [if_pos zero, zero] at read
      cases read
  · rintro ⟨support, exponent, delay⟩
    -- The size of a payload is never zero in the ranges that are accepted.
    have payload : tp.maxUdpPayloadSize ≠ 0 := by
      have := valid.maxUdpPayloadSize.1
      omega
    unfold received
    rw [if_neg payload, if_neg exponent, if_neg delay, ← support]

theorem roundTrips_iff_received (valid : tp.Valid isServer) : tp.RoundTrips isServer ↔ tp.received = tp := by
  constructor
  · rintro ⟨least, trips⟩
    -- In a buffer large enough for both bounds the encoder writes the same bytes.
    obtain ⟨raw, wrote, read⟩ := trips (max least (tp.bytes isServer).length) (Nat.le_max_left _ _)
    rw [encode_eq valid (Nat.le_max_right _ _)] at wrote
    cases wrote
    rw [decode_bytes valid] at read
    exact Except.ok.inj read
  · intro same
    refine ⟨(tp.bytes isServer).length, fun size room => ⟨_, encode_eq valid room, ?_⟩⟩
    rw [decode_bytes valid, same]

/-- Parameters come back unless flexicast is supported or one of the acknowledgment values is zero. -/
theorem roundTrips_iff (valid : tp.Valid isServer) :
    tp.RoundTrips isServer ↔ tp.flexicastSupport = false ∧ tp.ackDelayExponent ≠ 0 ∧ tp.maxAckDelay ≠ 0 :=
  (roundTrips_iff_received valid).trans (received_eq_iff valid)

/-- A server sends all parameters that there are. -/
theorem roundTrips_server :
    TransportParams.RoundTrips
      { originalDestinationConnectionId := some [1, 2], maxIdleTimeout := 30, statelessResetToken := some 0xffff,
        maxUdpPayloadSize := 23421, initialMaxData := 424645563, ackDelayExponent := 20, maxAckDelay := 1,
        disableActiveMigration := true, activeConnIdLimit := 8, initialSourceConnectionId := some [],
        retrySourceConnectionId := some [3], maxDatagramFrameSize := some 0, initialMaxPathId := some 0 } true := by
  refine (roundTrips_iff ?_).mpr (by decide)
  constructor <;> decide

/-- The support of flexicast is not sent, and neither is an acknowledgment value of zero. -/
theorem read_as_default :
    (TransportParams.Valid { flexicastSupport := true } false ∧ ¬ RoundTrips { flexicastSupport := true } false) ∧
      (TransportParams.Valid { ackDelayExponent := 0 } false ∧ ¬ RoundTrips { ackDelayExponent := 0 } false) ∧
      (TransportParams.Valid { maxAckDelay := 0 } false ∧ ¬ RoundTrips { maxAckDelay := 0 } false) ∧
      (encode { flexicastSupport := true, ackDelayExponent := 0, maxAckDelay := 0 } false 64).toOption.bind
        (fun raw => (decode raw true).toOption) = some {} := by
  have lost : ∀ tp : TransportParams, tp.Valid false → tp.received ≠ tp → tp.Valid false ∧ ¬ tp.RoundTrips false :=
    fun tp valid other => ⟨valid, fun trips => other ((roundTrips_iff_received valid).mp trips)⟩
  refine ⟨lost _ ?_ (by decide), lost _ ?_ (by decide), lost _ ?_ (by decide), by decide⟩
  all_goals constructor <;> decide

end RoundTrip

end TransportParams

end Flexicast
