import Flexicast.Stream.Streams

/-! Laws of the stream map: which streams are there after a lookup, a change or an acknowledgment. -/

namespace Flexicast

theorem RotSendBuf.ackAndDrop_main (main : SendBuf) (off len : Nat) :
    RotSendBuf.ackAndDrop ⟨main, none⟩ off len = ⟨main.ackAndDrop off len, none⟩ := by
  unfold RotSendBuf.ackAndDrop SendBuf.ackAndDrop
  -- The tests are the same on both sides, and there is no buffer to move in.
  by_cases rotated : (main.fcStreamRotate && decide (main.off < off + len)) = true
  · simp only [rotated, if_true]
  · simp only [rotated, Bool.false_eq_true, if_false, Option.map_none, ite_self]
    split
    · rfl
    · split
      · rfl
      · split
        · rename_i none_
          cases none_
        · rfl

namespace StreamMap

@[simp] theorem get_set (map : StreamMap) (id probe : Nat) (stream : Stream) :
    (map.set id stream).get probe = if probe = id then some stream else map.get probe :=
  OrdMap.find?_insert map.streams id probe stream

@[simp] theorem isCollected_set (map : StreamMap) (id probe : Nat) (stream : Stream) :
    (map.set id stream).isCollected probe = map.isCollected probe := rfl

/-- A collected stream is gone, and all others stay. -/
@[simp] theorem get_collect (map : StreamMap) (id probe : Nat) (isLocal : Bool) :
    (map.collect id isLocal).get probe = if probe = id then none else map.get probe := by
  -- The credit for the peer touches no stream.
  have erased : (map.collect id isLocal).streams = map.streams.erase id := by
    unfold collect
    split
    · rfl
    · split
      · rfl
      · rfl
  rw [get, erased]
  exact OrdMap.find?_erase map.streams id probe

/-- Collecting adds one stream to the collected ones. -/
@[simp] theorem isCollected_collect (map : StreamMap) (id probe : Nat) (isLocal : Bool) :
    (map.collect id isLocal).isCollected probe = (probe == id || map.isCollected probe) := by
  -- Each branch records the stream; they differ in the credit that the peer gets back.
  have added : (map.collect id isLocal).collected = id :: map.collected := by
    unfold collect
    split
    · rfl
    · split
      · rfl
      · rfl
  rw [isCollected, added, List.contains_cons]
  rfl

theorem countStream_cases (map : StreamMap) (id : Nat) (isServer : Bool) :
    map.countStream id isServer = .error .streamLimit ∨
      ∃ counted, map.countStream id isServer = .ok counted ∧ counted.streams = map.streams ∧
        counted.collected = map.collected := by
  -- One counter for each side and kind of stream, all handled alike.
  unfold countStream
  split <;> simp only <;> split
  all_goals first
    | exact Or.inl rfl
    | exact Or.inr ⟨_, rfl, rfl, rfl⟩

/-- How many streams of a kind were opened. -/
def opened (map : StreamMap) : Bool → Bool → Nat
  | true, true => map.localOpenedStreamsBidi
  | true, false => map.localOpenedStreamsUni
  | false, true => map.peerOpenedStreamsBidi
  | false, false => map.peerOpenedStreamsUni

/-- How many streams of a kind may be opened. -/
def limit (map : StreamMap) : Bool → Bool → Nat
  | true, true => map.peerMaxStreamsBidi
  | true, false => map.peerMaxStreamsUni
  | false, true => map.localMaxStreamsBidi
  | false, false => map.localMaxStreamsUni

/-- The limit for its kind leaves room for a new stream. -/
def HasRoom (map : StreamMap) (id : Nat) (isServer : Bool) : Prop :=
  max (map.opened (isLocalId id isServer) (isBidiId id)) (id / 4 + 1) ≤
    map.limit (isLocalId id isServer) (isBidiId id)

instance (map : StreamMap) (id : Nat) (isServer : Bool) : Decidable (map.HasRoom id isServer) :=
  inferInstanceAs (Decidable (_ ≤ _))

variable {map : StreamMap} {id : Nat} {isServer isLocal : Bool}

theorem countStream_of_room (room : map.HasRoom id isServer) :
    ∃ counted, map.countStream id isServer = .ok counted := by
  -- The count that is compared with the limit is the one that leaves room.
  unfold HasRoom at room
  unfold countStream
  split
  all_goals
    rename_i side kind
    rw [side, kind] at room
    exact ⟨_, if_neg (Nat.not_lt.mpr room)⟩

theorem countStream_opened {counted : StreamMap} (counts : map.countStream id isServer = .ok counted)
    (side kind : Bool) :
    counted.limit side kind = map.limit side kind ∧
      (map.opened side kind ≤ map.limit side kind → counted.opened side kind ≤ map.limit side kind) := by
  -- The branch says which counter changes; the other three stay.
  unfold countStream at counts
  split at counts <;> simp only at counts <;> split at counts
  all_goals first
    | cases counts; done
    | rename_i small
      cases counts
      cases side <;> cases kind <;> first
        | exact ⟨rfl, fun inside => inside⟩
        | exact ⟨rfl, fun _ => Nat.not_lt.mp small⟩

/-- A stream that is counted leaves room for every other one that there was room for. -/
theorem HasRoom.counted {counted : StreamMap} (counts : map.countStream id isServer = .ok counted) {probe : Nat}
    {server : Bool} (room : map.HasRoom probe server) : counted.HasRoom probe server := by
  -- The new count is within the limit, so it does not use up the room of another stream.
  obtain ⟨same, within_⟩ := countStream_opened counts (isLocalId probe server) (isBidiId probe)
  unfold HasRoom at room ⊢
  have few := within_ (by omega)
  omega

/-- What a successful lookup returns, when it finds the stream and when it creates it. -/
structure Opened (map : StreamMap) (id : Nat) (isLocal : Bool) (maxTxData : Nat) (stream : Stream)
    (opened : StreamMap) : Prop where
  /-- The stream is there afterwards, and no other one changes. -/
  get : ∀ probe, opened.get probe = if probe = id then some stream else map.get probe
  collected : ∀ probe, opened.isCollected probe = map.isCollected probe
  /-- The stream was there before, or is a new one that was not collected before. -/
  origin : map.get id = some stream ∨
    (map.get id = none ∧ map.isCollected id = false ∧
      ∃ maxRxData maxWindow, stream = Stream.new maxRxData maxTxData (isBidiId id) isLocal maxWindow)
  /-- There still is room for the streams that there was room for. -/
  room : ∀ probe server, map.HasRoom probe server → opened.HasRoom probe server

/-- A lookup returns a stream that was there or a new one. -/
theorem getOrCreate_ok {opened : StreamMap} {localParams peerParams : StreamParams} {stream : Stream}
    (made : map.getOrCreate id localParams peerParams isLocal isServer = .ok (stream, opened)) :
    Opened map id isLocal (initialLimits localParams peerParams isLocal (isBidiId id)).2 stream opened := by
  -- A stream that is there is returned with the map as it was.
  unfold getOrCreate at made
  cases found : map.get id with
  | some present =>
    rw [found] at made
    simp only [Except.ok.injEq, Prod.mk.injEq] at made
    obtain ⟨rfl, rfl⟩ := made
    refine ⟨fun probe => ?_, fun _ => rfl, Or.inl found, fun _ _ room => room⟩
    by_cases same : probe = id
    · rw [if_pos same, same, found]
    · rw [if_neg same]
  | none =>
    rw [found] at made
    simp only at made
    split at made
    · simp at made
    · rename_i fresh
      split at made
      · simp at made
      · -- The new stream is stored behind the counter update, which touches no stream.
        rcases countStream_cases map id isServer with limit | ⟨counted, counts, streams, collected⟩
        · rw [limit] at made
          simp at made
        · rw [counts] at made
          simp only [Except.ok.injEq, Prod.mk.injEq] at made
          obtain ⟨rfl, rfl⟩ := made
          refine ⟨fun probe => ?_, fun probe => ?_, Or.inr ⟨found, by simpa using fresh, _, _, rfl⟩,
            fun probe server room => HasRoom.counted counts room⟩
          · rw [get_set]
            simp only [StreamMap.get, streams]
          · rw [isCollected_set, isCollected, isCollected, collected]

/-- A lookup fails only for a stream that is not there, and with `Done` only for a collected one. -/
theorem getOrCreate_error {localParams peerParams : StreamParams} {error : StreamError}
    (failed : map.getOrCreate id localParams peerParams isLocal isServer = .error error) :
    map.get id = none ∧ (error = .done ↔ map.isCollected id = true) := by
  -- The lookup fails at one of three tests, of which only the first answers with `Done`.
  unfold getOrCreate at failed
  cases found : map.get id with
  | some present =>
    rw [found] at failed
    simp at failed
  | none =>
    refine ⟨rfl, ?_⟩
    rw [found] at failed
    simp only at failed
    split at failed
    · rename_i collected
      simp only [Except.error.injEq] at failed
      exact ⟨fun _ => collected, fun _ => failed.symm⟩
    · rename_i fresh
      have other : error ≠ .done := by
        split at failed
        · simp only [Except.error.injEq] at failed
          rw [← failed]
          exact StreamError.noConfusion
        · rcases countStream_cases map id isServer with limit | ⟨counted, counts, -⟩
          · rw [limit] at failed
            simp only [Except.error.injEq] at failed
            rw [← failed]
            exact StreamError.noConfusion
          · rw [counts] at failed
            simp at failed
      exact ⟨fun same => absurd same other, fun same => absurd same fresh⟩

theorem getOrCreate_succeeds (localParams peerParams : StreamParams) (there : (map.get id).isSome = true ∨
      (map.isCollected id = false ∧ isLocal = isLocalId id isServer ∧ map.HasRoom id isServer)) :
    ∃ stream opened, map.getOrCreate id localParams peerParams isLocal isServer = .ok (stream, opened) := by
  -- A new stream passes the three tests: not collected, on its own side, within the limit.
  unfold getOrCreate
  cases found : map.get id with
  | some stream => exact ⟨stream, map, rfl⟩
  | none =>
    rw [found] at there
    obtain ⟨fresh, side, room⟩ := there.resolve_left (by simp)
    obtain ⟨counted, counts⟩ := countStream_of_room room
    simp [fresh, side, counts]

theorem onStreamAcked_absent (absent : map.get id = none) (off len : Nat) : map.onStreamAcked id off len = map := by
  rw [onStreamAcked, absent]

theorem onStreamAcked_present {stream : Stream} (found : map.get id = some stream) (off len : Nat) :
    map.onStreamAcked id off len =
        map.set id { stream with send := stream.send.ackAndDrop off len } ∨
      map.onStreamAcked id off len =
        (map.set id { stream with send := stream.send.ackAndDrop off len }).collect id stream.isLocal := by
  rw [onStreamAcked, found]
  simp only
  split
  · exact Or.inr rfl
  · exact Or.inl rfl

end StreamMap

end Flexicast
