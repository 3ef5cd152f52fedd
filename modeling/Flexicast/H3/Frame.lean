import Flexicast.Packet.Octets

/-! The frames of HTTP/3 and how they are parsed, from `h3/frame.rs`. -/

namespace Flexicast

namespace H3

open Cursor
open Octets hiding Reader Writer

section Types

/-- An HTTP/3 error. -/
inductive H3Error where
  | bufferTooShort
  | excessiveLoad
  | settingsError
  /-- The program panics: an overflow or a branch that is unreachable. -/
  | panicked
  deriving DecidableEq

def dataFrameTypeId : Nat := 0x0
def headersFrameTypeId : Nat := 0x1
def cancelPushFrameTypeId : Nat := 0x3
def settingsFrameTypeId : Nat := 0x4
def pushPromiseFrameTypeId : Nat := 0x5
def goawayFrameTypeId : Nat := 0x7
def maxPushFrameTypeId : Nat := 0xD
def priorityUpdateFrameRequestTypeId : Nat := 0xF0700
def priorityUpdateFramePushTypeId : Nat := 0xF0701

def settingsQpackMaxTableCapacity : Nat := 0x1
def settingsMaxFieldSectionSize : Nat := 0x6
def settingsQpackBlockedStreams : Nat := 0x7
def settingsEnableConnectProtocol : Nat := 0x8
def settingsH3Datagram00 : Nat := 0x276
def settingsH3Datagram : Nat := 0x33

/-- Permits between 16 maximally-encoded and 128 minimally-encoded settings. -/
def maxSettingsPayloadSize : Nat := 256

/-- What a SETTINGS frame tells. -/
structure Settings where
  maxFieldSectionSize : Option Nat
  qpackMaxTableCapacity : Option Nat
  qpackBlockedStreams : Option Nat
  connectProtocolEnabled : Option Nat
  h3Datagram : Option Nat
  grease : Option (Nat × Nat)
  additionalSettings : Option (List (Nat × Nat))
  raw : Option (List (Nat × Nat))
  deriving DecidableEq

/-- A frame. -/
inductive Frame where
  | data (payload : List UInt8)
  | headers (headerBlock : List UInt8)
  | cancelPush (pushId : Nat)
  | settings (settings : Settings)
  | pushPromise (pushId : Nat) (headerBlock : List UInt8)
  | goAway (id : Nat)
  | maxPushId (pushId : Nat)
  | priorityUpdateRequest (prioritizedElementId : Nat) (priorityFieldValue : List UInt8)
  | priorityUpdatePush (prioritizedElementId : Nat) (priorityFieldValue : List UInt8)
  | unknown (rawType : Nat) (payload : List UInt8)
  deriving DecidableEq

end Types

section Parsing

/-- Reads from the payload of a frame. -/
abbrev Reader := Cursor.Reader H3Error UInt8

/-- The error of the byte buffers becomes that of a buffer that is too short. -/
def fromOctets {α : Type} (inner : Octets.Reader α) : Reader α := fun input =>
  (inner input).mapError fun error => if error = .panicked then .panicked else .bufferTooShort

/-- Takes up one setting. -/
def Settings.take (settings : Settings) (identifier value : Nat) : Except H3Error Settings :=
  let settings := { settings with raw := settings.raw.map (· ++ [(identifier, value)]) }
  if identifier = settingsQpackMaxTableCapacity then .ok { settings with qpackMaxTableCapacity := some value }
  else if identifier = settingsMaxFieldSectionSize then .ok { settings with maxFieldSectionSize := some value }
  else if identifier = settingsQpackBlockedStreams then .ok { settings with qpackBlockedStreams := some value }
  else if identifier = settingsEnableConnectProtocol then
    if 1 < value then .error .settingsError else .ok { settings with connectProtocolEnabled := some value }
  else if identifier = settingsH3Datagram00 ∨ identifier = settingsH3Datagram then
    if 1 < value then .error .settingsError else .ok { settings with h3Datagram := some value }
  -- Reserved values overlap with HTTP/2.
  else if identifier = 0x0 ∨ identifier = 0x2 ∨ identifier = 0x3 ∨ identifier = 0x4 ∨ identifier = 0x5 then
    .error .settingsError
  else .ok { settings with
    additionalSettings := some (settings.additionalSettings.getD [] ++ [(identifier, value)]) }

/-- Reads one setting and takes it up. -/
def Settings.read (settings : Settings) : Reader Settings := do
  let identifier ← fromOctets getVarint
  let value ← fromOctets getVarint
  liftM (settings.take identifier value)

/-- The loop of `parse_settings_frame`, whose turns take bytes each; the offset is what the input lacks. -/
def settingsLoop (settingsLength total : Nat) : Nat → Settings → Reader Settings
  | 0, settings, input =>
    if settingsLength ≤ total - input.length then .ok (settings, input) else .error .panicked
  | fuel + 1, settings, input =>
    if settingsLength ≤ total - input.length then .ok (settings, input)
    else (settings.read >>= settingsLoop settingsLength total fuel) input

/-- Parses the settings of a length. -/
def parseSettingsFrame (settingsLength : Nat) : Reader Frame := fun input =>
  -- SETTINGS frames that are too long are rejected.
  if maxSettingsPayloadSize < settingsLength then .error .excessiveLoad
  else
    let empty : Settings := ⟨none, none, none, none, none, none, none, some []⟩
    (Frame.settings <$> settingsLoop settingsLength input.length (input.length + 1) empty) input

/-- What a payload is long without the integer in front of it; the difference may underflow. -/
def lengthBehind (payloadLength id : Nat) : Reader Nat := fun input =>
  match varintLen id with
  | .error _ => .error .panicked
  | .ok len => if payloadLength < len then .error .panicked else .ok (payloadLength - len, input)

/-- Parses a promise. -/
def parsePushPromise (payloadLength : Nat) : Reader Frame := do
  let pushId ← fromOctets getVarint
  let headerBlockLength ← lengthBehind payloadLength pushId
  let headerBlock ← fromOctets (getBytes headerBlockLength)
  return .pushPromise pushId headerBlock

/-- Parses a priority. -/
def parsePriorityUpdate (frameType payloadLength : Nat) : Reader Frame := do
  let prioritizedElementId ← fromOctets getVarint
  let priorityFieldValueLength ← lengthBehind payloadLength prioritizedElementId
  let priorityFieldValue ← fromOctets (getBytes priorityFieldValueLength)
  if frameType = priorityUpdateFrameRequestTypeId then
    return .priorityUpdateRequest prioritizedElementId priorityFieldValue
  else if frameType = priorityUpdateFramePushTypeId then
    return .priorityUpdatePush prioritizedElementId priorityFieldValue
  else throw .panicked

/-- Parses a frame of some type. -/
def Frame.parse (frameType payloadLength : Nat) : Reader Frame :=
  if frameType = dataFrameTypeId then Frame.data <$> fromOctets (getBytes payloadLength)
  else if frameType = headersFrameTypeId then Frame.headers <$> fromOctets (getBytes payloadLength)
  else if frameType = cancelPushFrameTypeId then Frame.cancelPush <$> fromOctets getVarint
  else if frameType = settingsFrameTypeId then parseSettingsFrame payloadLength
  else if frameType = pushPromiseFrameTypeId then parsePushPromise payloadLength
  else if frameType = goawayFrameTypeId then Frame.goAway <$> fromOctets getVarint
  else if frameType = maxPushFrameTypeId then Frame.maxPushId <$> fromOctets getVarint
  else if frameType = priorityUpdateFrameRequestTypeId ∨ frameType = priorityUpdateFramePushTypeId then
    parsePriorityUpdate frameType payloadLength
  else Frame.unknown frameType <$> fromOctets (getBytes payloadLength)

/-- The frame of some type that stands in some bytes. -/
def Frame.fromBytes (frameType payloadLength : Nat) (bytes : List UInt8) : Except H3Error Frame :=
  (Frame.parse frameType payloadLength bytes).map Prod.fst

end Parsing

end H3

end Flexicast
