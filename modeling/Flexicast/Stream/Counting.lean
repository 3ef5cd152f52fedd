import Flexicast.Lib.Runs
import Flexicast.Stream.StreamsLaws
import Mathlib.Data.Finset.Card

/-! The numbers of streams that were opened, their limits, and the credit that collected streams give back. -/

namespace Flexicast

namespace StreamMap

/-- Raises the limit on bidirectional streams to one that the peer announces. -/
def updatePeerMaxStreamsBidi (map : StreamMap) (v : Nat) : StreamMap :=
  { map with peerMaxStreamsBidi := max map.peerMaxStreamsBidi v }

/-- Raises the limit on unidirectional streams to one that the peer announces. -/
def updatePeerMaxStreamsUni (map : StreamMap) (v : Nat) : StreamMap :=
  { map with peerMaxStreamsUni := max map.peerMaxStreamsUni v }

/-- Commits the new limit on bidirectional streams of the peer. -/
def updateMaxStreamsBidi (map : StreamMap) : StreamMap :=
  { map with localMaxStreamsBidi := map.localMaxStreamsBidiNext }

/-- Commits the new limit on unidirectional streams of the peer. -/
def updateMaxStreamsUni (map : StreamMap) : StreamMap :=
  { map with localMaxStreamsUni := map.localMaxStreamsUniNext }

/-- The difference of two counters without a sign, when there is one. -/
def countersLeft (limit opened : Nat) : Option Nat := if opened ≤ limit then some (limit - opened) else none

/-- How many bidirectional streams can still be opened here. -/
def peerStreamsLeftBidi (map : StreamMap) : Option Nat :=
  countersLeft map.peerMaxStreamsBidi map.localOpenedStreamsBidi

/-- How many unidirectional streams can still be opened here. -/
def peerStreamsLeftUni (map : StreamMap) : Option Nat :=
  countersLeft map.peerMaxStreamsUni map.localOpenedStreamsUni

/-- Whether a new limit is to be announced, unless the difference of the counters does not exist. -/
def shouldUpdate (current next opened : Nat) : Option Bool :=
  -- The second half of the condition is not evaluated when the first one fails.
  if next = current then some false else (countersLeft current opened).map fun left => decide (left < next / 2)

/-- Whether the limit on bidirectional streams of the peer is to be announced. -/
def shouldUpdateMaxStreamsBidi (map : StreamMap) : Option Bool :=
  shouldUpdate map.localMaxStreamsBidi map.localMaxStreamsBidiNext map.peerOpenedStreamsBidi

/-- Whether the limit on unidirectional streams of the peer is to be announced. -/
def shouldUpdateMaxStreamsUni (map : StreamMap) : Option Bool :=
  shouldUpdate map.localMaxStreamsUni map.localMaxStreamsUniNext map.peerOpenedStreamsUni

/-- The next limit on streams of the peer, by kind. -/
def maxStreamsNext (map : StreamMap) : Bool → Nat
  | true => map.localMaxStreamsBidiNext
  | false => map.localMaxStreamsUniNext

/-- What happens to the streams and their limits. -/
inductive CountEvent where
  /-- A stream is looked up, by the application or for a frame of the peer. -/
  | getOrCreate (id : Nat) (localParams peerParams : StreamParams) (isLocal : Bool)
  | collect (id : Nat)
  /-- The peer raises its limit on bidirectional streams. -/
  | updatePeerMaxStreamsBidi (v : Nat)
  /-- The peer raises its limit on unidirectional streams. -/
  | updatePeerMaxStreamsUni (v : Nat)
  /-- The new limit on bidirectional streams is announced. -/
  | updateMaxStreamsBidi
  /-- The new limit on unidirectional streams is announced. -/
  | updateMaxStreamsUni

/-- One event. A lookup that fails changes nothing. -/
def counting (isServer : Bool) (map : StreamMap) : CountEvent → StreamMap
  | .getOrCreate id localParams peerParams isLocal =>
    match map.getOrCreate id localParams peerParams isLocal isServer with
    | .ok (_, map) => map
    | .error _ => map
  | .collect id =>
    match map.get id with
    | some stream => map.collect id stream.isLocal
    | none => map
  | .updatePeerMaxStreamsBidi v => map.updatePeerMaxStreamsBidi v
  | .updatePeerMaxStreamsUni v => map.updatePeerMaxStreamsUni v
  | .updateMaxStreamsBidi => map.updateMaxStreamsBidi
  | .updateMaxStreamsUni => map.updateMaxStreamsUni

/-- A stream of the peer of one kind. -/
def IsPeerStream (isServer kind : Bool) (id : Nat) : Prop := isLocalId id isServer = false ∧ isBidiId id = kind

instance (isServer kind : Bool) (id : Nat) : Decidable (IsPeerStream isServer kind id) :=
  inferInstanceAs (Decidable (_ ∧ _))

/-- How many streams of the peer of one kind were collected. -/
def collectedOfPeer (map : StreamMap) (isServer kind : Bool) : Nat :=
  (map.collected.toFinset.filter (IsPeerStream isServer kind)).card

/-- The counters and the sets of streams fit together. -/
structure Counted (isServer : Bool) (start map : StreamMap) : Prop where
  within : ∀ side kind, map.opened side kind ≤ map.limit side kind
  left : map.peerStreamsLeftBidi ≠ none ∧ map.peerStreamsLeftUni ≠ none
  /-- Whether to announce a limit can be computed. -/
  decided : map.shouldUpdateMaxStreamsBidi ≠ none ∧ map.shouldUpdateMaxStreamsUni ≠ none
  apart : ∀ id, (map.get id).isSome = true → map.isCollected id = false
  /-- Each collected stream of the peer raises the next limit by one, up to the largest value of the counter. -/
  credited : ∀ kind,
    map.maxStreamsNext kind = min (start.maxStreamsNext kind + map.collectedOfPeer isServer kind) maxCounter

variable {map start : StreamMap} {id : Nat} {isServer : Bool} {stream : Stream}

theorem countStream_next {counted : StreamMap} (counts : map.countStream id isServer = .ok counted) :
    counted.maxStreamsNext = map.maxStreamsNext := by
  -- Each branch that counts changes a counter of opened streams only.
  unfold countStream at counts
  split at counts <;> simp only at counts <;> split at counts
  all_goals first
    | cases counts; done
    | cases counts; rfl

variable {made : StreamMap} {localParams peerParams : StreamParams} {isLocal : Bool} {opened : Nat}

/-- A lookup of a stream that is not there, when it succeeds. -/
theorem getOrCreate_counts (absent : map.get id = none)
    (done : map.getOrCreate id localParams peerParams isLocal isServer = .ok (stream, made)) :
    map.isCollected id = false ∧ isLocal = isLocalId id isServer ∧ stream.isLocal = isLocal ∧
      ∃ counted, map.countStream id isServer = .ok counted ∧ made = counted.set id stream := by
  -- The three tests in their order: collected, created by the other side, beyond the limit.
  unfold getOrCreate at done
  rw [absent] at done
  simp only at done
  split at done
  · simp at done
  · rename_i fresh
    split at done
    · simp at done
    · rename_i side
      rcases countStream_cases map id isServer with limit | ⟨counted, counts, -⟩
      · rw [limit] at done
        simp at done
      · rw [counts] at done
        simp only [Except.ok.injEq, Prod.mk.injEq] at done
        obtain ⟨rfl, rfl⟩ := done
        exact ⟨by simpa using fresh, by simpa using side, rfl, counted, counts, rfl⟩

/-- What holds of the counters and the sets at all times. -/
structure Balanced (isServer : Bool) (start map : StreamMap) : Prop where
  within : ∀ side kind, map.opened side kind ≤ map.limit side kind
  ahead : ∀ kind, map.limit false kind ≤ map.maxStreamsNext kind
  /-- A stream that is there was not collected, and knows its side. -/
  sided : ∀ id stream, map.get id = some stream →
    map.isCollected id = false ∧ stream.isLocal = isLocalId id isServer
  /-- Each collected stream of the peer raised the next limit by one, up to the largest value of the counter. -/
  credited : ∀ kind,
    map.maxStreamsNext kind = min (start.maxStreamsNext kind + map.collectedOfPeer isServer kind) maxCounter

theorem countersLeft_of_le {limit : Nat} (within_ : opened ≤ limit) : countersLeft limit opened ≠ none := by
  rw [countersLeft, if_pos within_]
  simp

theorem shouldUpdate_of_le {current next : Nat} (within_ : opened ≤ current) :
    shouldUpdate current next opened ≠ none := by
  rw [shouldUpdate, countersLeft, if_pos within_]
  split <;> simp

/-- Balanced counters allow all computations with them. -/
theorem Balanced.counted (held : Balanced isServer start map) : Counted isServer start map := by
  constructor
  case within => exact held.within
  case left => exact ⟨countersLeft_of_le (held.within true true), countersLeft_of_le (held.within true false)⟩
  case decided => exact ⟨shouldUpdate_of_le (held.within false true), shouldUpdate_of_le (held.within false false)⟩
  case apart =>
    intro id there
    obtain ⟨stream, found⟩ := Option.isSome_iff_exists.mp there
    exact (held.sided id stream found).1
  case credited => exact held.credited

/-- A new map starts with balanced counters. -/
theorem balanced_new (isServer : Bool) {bidi uni : Nat} (window : Nat) (small : bidi ≤ maxCounter)
    (small' : uni ≤ maxCounter) : Balanced isServer (new bidi uni window) (new bidi uni window) := by
  constructor
  case within => intro side kind; cases side <;> cases kind <;> exact Nat.zero_le _
  case ahead => intro kind; cases kind <;> exact Nat.le_refl _
  case sided => intro id stream found; simp [new, get] at found
  case credited =>
    -- Nothing is collected yet, and the limits are values of the counter.
    intro kind
    have none : (new bidi uni window).collectedOfPeer isServer kind = 0 := rfl
    rw [none]
    cases kind
    · exact (Nat.min_eq_left small').symm
    · exact (Nat.min_eq_left small).symm

/-- A lookup keeps the counters balanced. -/
theorem Balanced.getOrCreate (held : Balanced isServer start map)
    (done : map.getOrCreate id localParams peerParams isLocal isServer = .ok (stream, made)) :
    Balanced isServer start made := by
  cases found : map.get id with
  | some present =>
    -- A stream that is there is returned, and the map stays as it is.
    unfold StreamMap.getOrCreate at done
    rw [found] at done
    simp only [Except.ok.injEq, Prod.mk.injEq] at done
    obtain ⟨-, rfl⟩ := done
    exact held
  | none =>
    obtain ⟨fresh, side, own, counted, counts, rfl⟩ := getOrCreate_counts found done
    have rest := countStream_cases map id isServer
    rw [counts] at rest
    obtain ⟨same, eq, streams, collected⟩ := rest.resolve_left (by simp)
    cases eq
    constructor
    case within =>
      intro side kind
      obtain ⟨limit, small⟩ := countStream_opened counts side kind
      have before := held.within side kind
      show counted.opened side kind ≤ counted.limit side kind
      rw [limit]
      exact small before
    case ahead =>
      intro kind
      obtain ⟨limit, -⟩ := countStream_opened counts false kind
      show counted.limit false kind ≤ counted.maxStreamsNext kind
      rw [limit, countStream_next counts]
      exact held.ahead kind
    case sided =>
      intro probe other present
      have collected' : (counted.set id stream).isCollected probe = map.isCollected probe := by
        rw [isCollected_set, isCollected, isCollected, collected]
      rw [get_set] at present
      rw [collected']
      split at present
      · rename_i same
        cases present
        subst same
        exact ⟨fresh, own.trans side⟩
      · apply held.sided probe other
        rw [← present, get, get, streams]
    case credited =>
      intro kind
      have peers : (counted.set id stream).collectedOfPeer isServer kind = map.collectedOfPeer isServer kind := by
        rw [collectedOfPeer, collectedOfPeer]
        show (counted.collected.toFinset.filter _).card = _
        rw [collected]
      show counted.maxStreamsNext kind = _
      rw [peers, countStream_next counts]
      exact held.credited kind

theorem collect_next (map : StreamMap) (id : Nat) (isLocal kind : Bool) :
    (map.collect id isLocal).maxStreamsNext kind =
      if isLocal = false ∧ isBidiId id = kind then min (map.maxStreamsNext kind + 1) maxCounter
      else map.maxStreamsNext kind := by
  cases isLocal <;> cases bidi : isBidiId id <;> cases kind <;> simp [collect, bidi, maxStreamsNext]

theorem collect_limits (map : StreamMap) (id : Nat) (isLocal side kind : Bool) :
    (map.collect id isLocal).limit side kind = map.limit side kind ∧
      (map.collect id isLocal).opened side kind = map.opened side kind := by
  cases isLocal <;> cases bidi : isBidiId id <;> cases side <;> cases kind <;>
    simp [collect, bidi, limit, opened]

theorem collectedOfPeer_collect (fresh : map.isCollected id = false) (isServer isLocal kind : Bool) :
    (map.collect id isLocal).collectedOfPeer isServer kind =
      map.collectedOfPeer isServer kind + if IsPeerStream isServer kind id then 1 else 0 := by
  have added : (map.collect id isLocal).collected = id :: map.collected := by
    unfold collect
    split
    · rfl
    · split <;> rfl
  have out : id ∉ map.collected.toFinset := by
    intro member
    have listed : map.isCollected id = true := List.contains_iff_mem.mpr (List.mem_toFinset.mp member)
    rw [fresh] at listed
    simp at listed
  rw [collectedOfPeer, added, List.toFinset_cons, Finset.filter_insert, collectedOfPeer]
  split
  · apply Finset.card_insert_of_notMem
    intro member
    exact out (Finset.mem_of_mem_filter id member)
  · rfl

/-- Collecting a stream keeps the counters balanced. -/
theorem Balanced.collect (held : Balanced isServer start map) (found : map.get id = some stream) :
    Balanced isServer start (map.collect id stream.isLocal) := by
  obtain ⟨fresh, side⟩ := held.sided id stream found
  constructor
  case within =>
    intro side kind
    obtain ⟨limit, opened⟩ := collect_limits map id stream.isLocal side kind
    rw [limit, opened]
    exact held.within side kind
  case ahead =>
    intro kind
    -- What was opened is a number of the counter, so the credit does not fall below the limit.
    have before := held.ahead kind
    have small : map.maxStreamsNext kind ≤ maxCounter := by
      rw [held.credited kind]
      exact Nat.min_le_right _ _
    rw [(collect_limits map id stream.isLocal false kind).1, collect_next]
    split <;> omega
  case sided =>
    intro probe other present
    rw [get_collect] at present
    split at present
    · simp at present
    · rename_i apart
      obtain ⟨alive, own⟩ := held.sided probe other present
      exact ⟨by simp [apart, alive], own⟩
  case credited =>
    intro kind
    have before := held.credited kind
    rw [collect_next, collectedOfPeer_collect fresh, side]
    -- Both sides grow for the streams of the peer of this kind.
    by_cases peer : IsPeerStream isServer kind id
    · have same : isLocalId id isServer = false ∧ isBidiId id = kind := peer
      rw [if_pos same, if_pos peer, before]
      omega
    · have other : ¬ (isLocalId id isServer = false ∧ isBidiId id = kind) := peer
      rw [if_neg other, if_neg peer, before]
      omega

/-- Every event keeps the counters balanced. -/
theorem Balanced.counting (event : CountEvent) (held : Balanced isServer start map) :
    Balanced isServer start (counting isServer map event) := by
  cases event with
  | getOrCreate id localParams peerParams isLocal =>
    simp only [StreamMap.counting]
    split
    · rename_i stream made done
      exact held.getOrCreate done
    · exact held
  | collect id =>
    simp only [StreamMap.counting]
    split
    · rename_i stream found
      exact held.collect found
    · exact held
  | updatePeerMaxStreamsBidi v =>
    have ahead : ∀ kind, (map.updatePeerMaxStreamsBidi v).limit false kind ≤ map.maxStreamsNext kind := by
      intro kind
      cases kind
      · exact held.ahead false
      · exact held.ahead true
    refine ⟨?_, ahead, held.sided, held.credited⟩
    intro side kind
    have before := held.within side kind
    revert before
    cases side <;> cases kind <;>
      simp only [StreamMap.counting, StreamMap.updatePeerMaxStreamsBidi, opened, limit] <;> omega
  | updatePeerMaxStreamsUni v =>
    have ahead : ∀ kind, (map.updatePeerMaxStreamsUni v).limit false kind ≤ map.maxStreamsNext kind := by
      intro kind
      cases kind
      · exact held.ahead false
      · exact held.ahead true
    refine ⟨?_, ahead, held.sided, held.credited⟩
    intro side kind
    have before := held.within side kind
    revert before
    cases side <;> cases kind <;>
      simp only [StreamMap.counting, StreamMap.updatePeerMaxStreamsUni, opened, limit] <;> omega
  | updateMaxStreamsBidi =>
    -- The announced limit only grows, to the next one.
    refine ⟨?_, ?_, held.sided, held.credited⟩
    · intro side kind
      have before := held.within side kind
      have above := held.ahead true
      revert before above
      cases side <;> cases kind <;>
        simp only [StreamMap.counting, StreamMap.updateMaxStreamsBidi, opened, limit, maxStreamsNext] <;> omega
    · intro kind
      cases kind
      · exact held.ahead false
      · exact Nat.le_refl _
  | updateMaxStreamsUni =>
    refine ⟨?_, ?_, held.sided, held.credited⟩
    · intro side kind
      have before := held.within side kind
      have above := held.ahead false
      revert before above
      cases side <;> cases kind <;>
        simp only [StreamMap.counting, StreamMap.updateMaxStreamsUni, opened, limit, maxStreamsNext] <;> omega
    · intro kind
      cases kind
      · exact Nat.le_refl _
      · exact held.ahead true

/-- A collected stream stays collected. -/
theorem isCollected_counting (event : CountEvent) (gone : map.isCollected id = true) :
    (counting isServer map event).isCollected id = true := by
  cases event with
  | getOrCreate other localParams peerParams isLocal =>
    simp only [counting]
    split
    · rename_i stream made done
      rw [(getOrCreate_ok done).collected id]
      exact gone
    · exact gone
  | collect other =>
    simp only [counting]
    split
    · simp [gone]
    · exact gone
  | updatePeerMaxStreamsBidi v => exact gone
  | updatePeerMaxStreamsUni v => exact gone
  | updateMaxStreamsBidi => exact gone
  | updateMaxStreamsUni => exact gone

/-- The counters fit together in every state, and a collected stream is never there again. -/
theorem counted_always (isServer : Bool) (bidi uni window : Nat) (small : bidi ≤ maxCounter)
    (small' : uni ≤ maxCounter) (events : List CountEvent) :
    let start := new bidi uni window
    Counted isServer start (Runs.run (counting isServer) start events) ∧
      ∀ later id, (Runs.run (counting isServer) start events).isCollected id = true →
        (Runs.run (counting isServer) start (events ++ later)).get id = none ∧
          ∀ localParams peerParams isLocal,
            (Runs.run (counting isServer) start (events ++ later)).getOrCreate id localParams peerParams isLocal
              isServer = .error .done := by
  intro start
  have balanced : ∀ events, Balanced isServer start (Runs.run (counting isServer) start events) :=
    Runs.run_keeps (fun _ event held => held.counting event) (balanced_new isServer window small small')
  refine ⟨(balanced events).counted, ?_⟩
  intro later id gone
  have stays : (Runs.run (counting isServer) start (events ++ later)).isCollected id = true := by
    have step : ∀ map event, map.isCollected id = true → (counting isServer map event).isCollected id = true :=
      fun _ event kept => isCollected_counting event kept
    rw [Runs.run_append]
    exact Runs.run_keeps step gone later
  have absent : (Runs.run (counting isServer) start (events ++ later)).get id = none := by
    cases found : (Runs.run (counting isServer) start (events ++ later)).get id with
    | none => rfl
    | some stream =>
      obtain ⟨alive, -⟩ := (balanced (events ++ later)).sided id stream found
      rw [stays] at alive
      simp at alive
  refine ⟨absent, ?_⟩
  intro localParams peerParams isLocal
  rw [getOrCreate, absent]
  simp [stays]

/-- A client opens three streams, of which two are collected. -/
theorem counted_of_two_collected :
    Counted true (new 4 4 0) (Runs.run (counting true) (new 4 4 0)
      [.getOrCreate 0 ⟨9, 9, 9⟩ ⟨9, 9, 9⟩ false, .getOrCreate 12 ⟨9, 9, 9⟩ ⟨9, 9, 9⟩ false, .collect 0,
        .getOrCreate 2 ⟨9, 9, 9⟩ ⟨9, 9, 9⟩ false, .collect 2, .updateMaxStreamsBidi]) :=
  (counted_always true 4 4 0 (by decide) (by decide) _).1

/-- The next limit does not grow beyond the largest value of its counter. -/
theorem next_saturates :
    let map := Runs.run (counting true) (new maxCounter 0 0) [.getOrCreate 0 ⟨9, 9, 9⟩ ⟨9, 9, 9⟩ false, .collect 0]
    map.collectedOfPeer true true = 1 ∧ map.maxStreamsNext true = maxCounter ∧
      map.maxStreamsNext true ≠ (new maxCounter 0 0).maxStreamsNext true + map.collectedOfPeer true true := by
  decide

end StreamMap

end Flexicast
