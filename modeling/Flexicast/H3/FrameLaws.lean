import Flexicast.H3.Frame

/-! What the parser of HTTP/3 frames gives for a payload, of `h3/frame.rs`. -/

namespace Flexicast

namespace H3

open Cursor
open Octets hiding Reader Writer

section Buffers

variable {α : Type} {inner : Octets.Reader α} {input rest : List UInt8} {value : α}

theorem fromOctets_ok (ran : inner input = .ok (value, rest)) : fromOctets inner input = .ok (value, rest) := by
  rw [fromOctets, ran]
  rfl

theorem fromOctets_eq_ok : fromOctets inner input = .ok (value, rest) ↔ inner input = .ok (value, rest) := by
  constructor
  · intro ran
    unfold fromOctets at ran
    cases result : inner input with
    | error error => rw [result] at ran; cases ran
    | ok pair =>
      rw [result] at ran
      cases ran
      rfl
  · exact fromOctets_ok

theorem fromOctets_safe (short : ∀ error, inner input = .error error → error = .bufferTooShort) :
    fromOctets inner input ≠ .error .panicked := by
  intro failed
  unfold fromOctets at failed
  cases result : inner input with
  | error error =>
    obtain rfl := short error result
    rw [result] at failed
    cases failed
  | ok pair => rw [result] at failed; cases failed

theorem getBytes_error {len : Nat} {error : WireError} (failed : getBytes len input = .error error) :
    error = .bufferTooShort := by
  unfold getBytes at failed
  split at failed
  · exact (Except.error.inj failed).symm
  · cases failed

theorem getVarint_error {error : WireError} (failed : getVarint input = .error error) :
    error = .bufferTooShort := by
  cases input with
  | nil => exact (Except.error.inj failed).symm
  | cons first tail =>
    rw [getVarint_cons] at failed
    split at failed
    · exact (Except.error.inj failed).symm
    · cases failed

theorem getVarint_shorter {id : Nat} (ran : getVarint input = .ok (id, rest)) : rest.length < input.length := by
  obtain ⟨bytes, rfl, encoded⟩ := getVarint_eq_ok.mp ran
  -- The first byte holds the length of the integer.
  obtain ⟨first, tail, rfl, -⟩ := encoded.length
  rw [List.length_append, List.length_cons]
  omega

/-- No encoding of an integer is shorter than the one that is computed for it. -/
theorem varintLen_le {bytes : List UInt8} {id : Nat} (encoded : IsVarint bytes id) :
    ∃ len, varintLen id = .ok len ∧ len ≤ bytes.length := by
  obtain ⟨first, tail, -, long⟩ := encoded.length
  have small : id < 2 ^ (8 * bytes.length - 2) := by
    rw [encoded.value]
    exact Nat.mod_lt _ (Nat.two_pow_pos _)
  have lengths : bytes.length = 1 ∨ bytes.length = 2 ∨ bytes.length = 4 ∨ bytes.length = 8 := by
    rcases varintParseLen_cases first with ⟨len, -⟩ | len | len | len <;> omega
  unfold varintLen
  -- Each length holds the integers up to its own bound.
  rcases lengths with len | len | len | len <;> rw [len] at small ⊢
  · rw [if_pos (by omega)]
    exact ⟨1, rfl, Nat.le_refl _⟩
  · split
    · exact ⟨1, rfl, by decide⟩
    · rw [if_pos (by omega)]
      exact ⟨2, rfl, Nat.le_refl _⟩
  · split
    · exact ⟨1, rfl, by decide⟩
    · split
      · exact ⟨2, rfl, by decide⟩
      · rw [if_pos (by omega)]
        exact ⟨4, rfl, Nat.le_refl _⟩
  · split
    · exact ⟨1, rfl, by decide⟩
    · split
      · exact ⟨2, rfl, by decide⟩
      · split
        · exact ⟨4, rfl, by decide⟩
        · rw [if_pos (by omega)]
          exact ⟨8, rfl, Nat.le_refl _⟩

end Buffers

section Identified

/-- An integer and the bytes that the payload has behind it. -/
def identified (payloadLength : Nat) : Reader (Nat × List UInt8) := do
  let id ← fromOctets getVarint
  let len ← lengthBehind payloadLength id
  let bytes ← fromOctets (getBytes len)
  return (id, bytes)

variable {payloadLength : Nat}

theorem parsePushPromise_eq :
    parsePushPromise payloadLength = (fun parts => Frame.pushPromise parts.1 parts.2) <$> identified payloadLength := by
  simp only [parsePushPromise, identified, map_bind, map_pure]

theorem parsePriorityUpdate_request :
    parsePriorityUpdate priorityUpdateFrameRequestTypeId payloadLength =
      (fun parts => Frame.priorityUpdateRequest parts.1 parts.2) <$> identified payloadLength := by
  simp only [parsePriorityUpdate, identified, map_bind, map_pure, if_true]

theorem parsePriorityUpdate_push :
    parsePriorityUpdate priorityUpdateFramePushTypeId payloadLength =
      (fun parts => Frame.priorityUpdatePush parts.1 parts.2) <$> identified payloadLength := by
  have apart : ¬ priorityUpdateFramePushTypeId = priorityUpdateFrameRequestTypeId := by decide
  simp only [parsePriorityUpdate, identified, map_bind, map_pure, if_true, if_neg apart]

/-- The bytes behind an integer are found just when it is written in its shortest form. -/
theorem identified_append {bytes rest : List UInt8} {id len : Nat} (encoded : IsVarint bytes id)
    (shortest : varintLen id = .ok len) :
    identified (bytes.length + rest.length) (bytes ++ rest) =
      if len = bytes.length then .ok ((id, rest), []) else .error .bufferTooShort := by
  obtain ⟨least, same, within⟩ := varintLen_le encoded
  obtain rfl := Except.ok.inj (shortest.symm.trans same)
  have read : fromOctets getVarint (bytes ++ rest) = .ok (id, rest) :=
    fromOctets_ok (getVarint_eq_ok.mpr ⟨bytes, rfl, encoded⟩)
  have behind : lengthBehind (bytes.length + rest.length) id rest =
      .ok (bytes.length + rest.length - len, rest) := by
    simp only [lengthBehind, shortest]
    rw [if_neg (by omega)]
  -- The length of the rest is computed from the shortest form, whatever form was read.
  rw [identified, bind_ok read, bind_ok behind]
  split
  case isTrue minimal =>
    have taken : fromOctets (getBytes (bytes.length + rest.length - len)) rest = .ok (rest, []) :=
      fromOctets_ok (getBytes_eq_ok.mpr ⟨(List.append_nil rest).symm, by omega⟩)
    rw [bind_ok taken]
    rfl
  case isFalse longer =>
    -- More bytes are asked for than stand behind the integer.
    have refused : fromOctets (getBytes (bytes.length + rest.length - len)) rest = .error .bufferTooShort := by
      rw [fromOctets, getBytes, if_pos (by omega)]
      rfl
    exact bind_error refused

theorem identified_safe (input : List UInt8) : identified input.length input ≠ .error .panicked := by
  intro failed
  rcases bind_eq_error.mp failed with failed | ⟨id, rest, read, failed⟩
  · exact fromOctets_safe (fun _ => getVarint_error) failed
  -- The shortest form is never longer than what was read, so the subtraction does not underflow.
  · obtain ⟨bytes, rfl, encoded⟩ := getVarint_eq_ok.mp (fromOctets_eq_ok.mp read)
    obtain ⟨len, shortest, within⟩ := varintLen_le encoded
    have behind : lengthBehind (bytes ++ rest).length id rest = .ok ((bytes ++ rest).length - len, rest) := by
      simp only [lengthBehind, shortest]
      rw [if_neg (by rw [List.length_append]; omega)]
    rw [bind_ok behind] at failed
    rcases bind_eq_error.mp failed with failed | ⟨taken, left, -, failed⟩
    · exact fromOctets_safe (fun _ => getBytes_error) failed
    · cases failed

end Identified

section Safety

theorem Settings.take_safe (settings : Settings) (identifier value : Nat) :
    settings.take identifier value ≠ .error .panicked := by
  unfold Settings.take
  intro failed
  repeat' split at failed
  all_goals cases failed

/-- A setting that is read takes bytes, and reading one never panics. -/
theorem Settings.read_safe (settings : Settings) (input : List UInt8) :
    settings.read input ≠ .error .panicked ∧
      ∀ next rest, settings.read input = .ok (next, rest) → rest.length < input.length := by
  constructor
  · intro failed
    rcases bind_eq_error.mp failed with failed | ⟨identifier, middle, -, failed⟩
    · exact fromOctets_safe (fun _ => getVarint_error) failed
    · rcases bind_eq_error.mp failed with failed | ⟨value, left, -, failed⟩
      · exact fromOctets_safe (fun _ => getVarint_error) failed
      · cases taken : settings.take identifier value with
        | error error =>
          rw [taken] at failed
          cases failed
          exact settings.take_safe identifier value taken
        | ok next =>
          rw [taken] at failed
          cases failed
  · intro next rest ran
    obtain ⟨identifier, middle, first, ran⟩ := bind_eq_ok.mp ran
    obtain ⟨value, left, second, ran⟩ := bind_eq_ok.mp ran
    have shorter := getVarint_shorter (fromOctets_eq_ok.mp first)
    have shorterStill := getVarint_shorter (fromOctets_eq_ok.mp second)
    cases taken : settings.take identifier value with
    | error error =>
      rw [taken] at ran
      cases ran
    | ok next =>
      rw [taken] at ran
      cases ran
      omega

/-- The loop over the settings never runs out of turns. -/
theorem settingsLoop_safe (settingsLength total : Nat) :
    ∀ {fuel : Nat} {settings : Settings} {input : List UInt8}, input.length < fuel →
      settingsLoop settingsLength total fuel settings input ≠ .error .panicked := by
  intro fuel
  -- Every setting takes bytes, so the turns outlast them.
  induction fuel with
  | zero => exact fun none_ => absurd none_ (Nat.not_lt_zero _)
  | succ fuel ih =>
    intro settings input enough failed
    unfold settingsLoop at failed
    split at failed
    · cases failed
    · obtain ⟨safe, shorter⟩ := settings.read_safe input
      rcases bind_eq_error.mp failed with failed | ⟨next, rest, ran, failed⟩
      · exact safe failed
      · have := shorter next rest ran
        exact ih (by omega) failed

theorem map_safe {α β : Type} {reader : Reader α} {input : List UInt8} (safe : reader input ≠ .error .panicked)
    (wrap : α → β) : (wrap <$> reader) input ≠ .error .panicked := by
  intro failed
  rw [map_eq_pure_bind] at failed
  rcases bind_eq_error.mp failed with failed | ⟨value, rest, -, failed⟩
  · exact safe failed
  · cases failed

/-- Parsing a payload never panics, whatever the type of the frame and the bytes. -/
theorem Frame.parse_safe (frameType : Nat) (payload : List UInt8) :
    Frame.parse frameType payload.length payload ≠ .error .panicked := by
  have bytes : fromOctets (getBytes payload.length) payload ≠ .error .panicked :=
    fromOctets_safe fun _ => getBytes_error
  have integer : fromOctets getVarint payload ≠ .error .panicked := fromOctets_safe fun _ => getVarint_error
  unfold Frame.parse
  -- One case for each type, in the order of the source.
  split
  · exact map_safe bytes _
  split
  · exact map_safe bytes _
  split
  · exact map_safe integer _
  split
  · unfold parseSettingsFrame
    split
    · exact fun failed => by cases failed
    · exact map_safe (settingsLoop_safe _ _ (Nat.lt_succ_self _)) _
  split
  · rw [parsePushPromise_eq]
    exact map_safe (identified_safe payload) _
  split
  · exact map_safe integer _
  split
  · exact map_safe integer _
  split
  case isTrue priority =>
    rcases priority with rfl | rfl
    · rw [parsePriorityUpdate_request]
      exact map_safe (identified_safe payload) _
    · rw [parsePriorityUpdate_push]
      exact map_safe (identified_safe payload) _
  case isFalse => exact map_safe bytes _

end Safety

section Payloads

/-- The frame of an integer and the bytes behind it. -/
theorem fromBytes_identified {frameType : Nat} {wrap : Nat → List UInt8 → Frame}
    (parses : ∀ payloadLength,
      Frame.parse frameType payloadLength = (fun parts => wrap parts.1 parts.2) <$> identified payloadLength)
    {bytes : List UInt8} {id : Nat} (encoded : IsVarint bytes id) (rest : List UInt8) :
    Frame.fromBytes frameType (bytes.length + rest.length) (bytes ++ rest) = .ok (wrap id rest) ↔
      varintLen id = .ok bytes.length := by
  obtain ⟨len, shortest, -⟩ := varintLen_le encoded
  rw [Frame.fromBytes, parses, shortest, Except.ok.injEq]
  have found := @identified_append bytes rest id len encoded shortest
  by_cases minimal : len = bytes.length
  · rw [if_pos minimal] at found
    refine iff_of_true ?_ minimal
    rw [map_eq_pure_bind, bind_ok found]
    rfl
  · rw [if_neg minimal] at found
    refine iff_of_false (fun ran => ?_) minimal
    rw [map_eq_pure_bind, bind_error found] at ran
    cases ran

/-- A promise or a priority is parsed to its integer and the bytes behind just when the integer is written in its
shortest form; and no payload makes the parser panic. -/
theorem fromBytes_iff_shortest {bytes : List UInt8} {id : Nat} (encoded : IsVarint bytes id) (rest : List UInt8) :
    ((Frame.fromBytes pushPromiseFrameTypeId (bytes.length + rest.length) (bytes ++ rest) =
          .ok (.pushPromise id rest) ↔ varintLen id = .ok bytes.length) ∧
        (Frame.fromBytes priorityUpdateFrameRequestTypeId (bytes.length + rest.length) (bytes ++ rest) =
          .ok (.priorityUpdateRequest id rest) ↔ varintLen id = .ok bytes.length) ∧
        (Frame.fromBytes priorityUpdateFramePushTypeId (bytes.length + rest.length) (bytes ++ rest) =
          .ok (.priorityUpdatePush id rest) ↔ varintLen id = .ok bytes.length)) ∧
      ∀ frameType payload, Frame.fromBytes frameType payload.length payload ≠ .error .panicked := by
  -- Three frames share one parser, and the last part is about all types.
  refine ⟨⟨?_, ?_, ?_⟩, fun frameType payload failed => ?_⟩
  · exact @fromBytes_identified pushPromiseFrameTypeId .pushPromise (fun _ => parsePushPromise_eq) _ _ encoded rest
  · exact @fromBytes_identified priorityUpdateFrameRequestTypeId .priorityUpdateRequest
      (fun _ => parsePriorityUpdate_request) _ _ encoded rest
  · exact @fromBytes_identified priorityUpdateFramePushTypeId .priorityUpdatePush
      (fun _ => parsePriorityUpdate_push) _ _ encoded rest
  · unfold Frame.fromBytes at failed
    cases parsed : Frame.parse frameType payload.length payload with
    | error error =>
      rw [parsed] at failed
      cases failed
      exact Frame.parse_safe frameType payload parsed
    | ok pair => rw [parsed] at failed; cases failed

theorem fromBytes_iff_shortest_five :
    ((Frame.fromBytes pushPromiseFrameTypeId (1 + 2) [5, 7, 7] = .ok (.pushPromise 5 [7, 7]) ↔
          varintLen 5 = .ok 1) ∧
        (Frame.fromBytes priorityUpdateFrameRequestTypeId (1 + 2) [5, 7, 7] =
          .ok (.priorityUpdateRequest 5 [7, 7]) ↔ varintLen 5 = .ok 1) ∧
        (Frame.fromBytes priorityUpdateFramePushTypeId (1 + 2) [5, 7, 7] =
          .ok (.priorityUpdatePush 5 [7, 7]) ↔ varintLen 5 = .ok 1)) ∧
      ∀ frameType payload, Frame.fromBytes frameType payload.length payload ≠ .error .panicked :=
  fromBytes_iff_shortest ⟨⟨5, [], rfl, by decide⟩, by decide⟩ [7, 7]

/-- An integer in two bytes where one is enough makes the parser look for a byte too many. -/
theorem longer_integer_refused :
    ¬ ∀ bytes id rest, IsVarint bytes id →
      Frame.fromBytes pushPromiseFrameTypeId (bytes.length + rest.length) (bytes ++ rest) =
        .ok (.pushPromise id rest) := by
  intro parses
  have parsed := parses [0x40, 0x05] 5 [0xaa] ⟨⟨0x40, [0x05], rfl, by decide⟩, by decide⟩
  revert parsed
  decide

end Payloads

end H3

end Flexicast
