import Flexicast.Stream.Queues
import Flexicast.Stream.Regular
import Flexicast.Stream.StreamsLaws

/-! The keys in the queues of streams: which changes keep them those of streams that exist. -/

namespace Flexicast

namespace StreamPriorityKey

@[simp] theorem mem_link {key other : StreamPriorityKey} {keys : List StreamPriorityKey} :
    other ∈ key.link keys ↔ other = key ∨ other ∈ keys := by
  induction keys with
  | nil => simp [link]
  | cons head rest ih =>
    unfold link
    split
    · simp
    · rw [List.mem_cons, ih, List.mem_cons]
      tauto

/-- A key that is new to a queue occurs once in it. -/
theorem nodup_link {key : StreamPriorityKey} {keys : List StreamPriorityKey} (once : keys.Nodup)
    (new : key ∉ keys) : (key.link keys).Nodup := by
  induction keys with
  | nil => simp [link]
  | cons head rest ih =>
    obtain ⟨apart, tail⟩ := List.nodup_cons.mp once
    rw [List.mem_cons, not_or] at new
    unfold link
    split
    · exact List.nodup_cons.mpr ⟨by simp [new.1, new.2], once⟩
    · refine List.nodup_cons.mpr ⟨?_, ih tail new.2⟩
      rw [mem_link, not_or]
      exact ⟨fun same => new.1 same.symm, apart⟩

end StreamPriorityKey

namespace QueuedStreams

section Frames

variable (conn : QueuedStreams) (queue other : Queue) (key : StreamPriorityKey) (keys : List StreamPriorityKey)

@[simp] theorem queue_withQueue :
    (conn.withQueue queue keys).queue other = if other = queue then keys else conn.queue other := by
  cases queue <;> cases other <;> rfl

@[simp] theorem map_withQueue : (conn.withQueue queue keys).map = conn.map := by cases queue <;> rfl

@[simp] theorem rankings_withQueue : (conn.withQueue queue keys).rankings = conn.rankings := by
  cases queue <;> rfl

@[simp] theorem serial_withQueue : (conn.withQueue queue keys).serial = conn.serial := by cases queue <;> rfl

@[simp] theorem map_insertQueue : (conn.insertQueue queue key).map = conn.map := by
  unfold insertQueue
  split <;> simp

@[simp] theorem rankings_insertQueue : (conn.insertQueue queue key).rankings = conn.rankings := by
  unfold insertQueue
  split <;> simp

@[simp] theorem serial_insertQueue : (conn.insertQueue queue key).serial = conn.serial := by
  unfold insertQueue
  split <;> simp

@[simp] theorem queue_insertQueue : (conn.insertQueue queue key).queue other =
    if other = queue ∧ key ∉ conn.queue queue then key.link (conn.queue queue) else conn.queue other := by
  unfold insertQueue
  by_cases linked : key ∈ conn.queue queue
  · simp [linked]
  · simp [linked]

@[simp] theorem map_removeQueue : (conn.removeQueue queue key).map = conn.map := by
  unfold removeQueue
  split <;> simp

@[simp] theorem rankings_removeQueue : (conn.removeQueue queue key).rankings = conn.rankings := by
  unfold removeQueue
  split <;> simp

@[simp] theorem serial_removeQueue : (conn.removeQueue queue key).serial = conn.serial := by
  unfold removeQueue
  split <;> simp

@[simp] theorem queue_removeQueue : (conn.removeQueue queue key).queue other =
    if other = queue then (conn.queue other).erase key else conn.queue other := by
  unfold removeQueue
  by_cases linked : key ∈ conn.queue queue
  · rw [if_pos linked, queue_withQueue]
    split
    · rename_i same
      rw [same]
    · rfl
  · rw [if_neg linked]
    split
    · rename_i same
      rw [same, List.erase_of_not_mem linked]
    · rfl

theorem find_eq_some_iff {conn : QueuedStreams} {id : Nat} {stream : Stream} {ranking : Ranking} :
    conn.find id = some (stream, ranking) ↔
      conn.map.get id = some stream ∧ conn.rankings.find? id = some ranking := by
  unfold find
  cases conn.map.get id <;> cases conn.rankings.find? id <;> simp

theorem find_congr {conn after : QueuedStreams} (map : after.map = conn.map)
    (rankings : after.rankings = conn.rankings) (id : Nat) : after.find id = conn.find id := by
  unfold find
  rw [map, rankings]

variable (conn : QueuedStreams) (queue : Queue) (key : StreamPriorityKey) (id : Nat)

@[simp] theorem find_insertQueue : (conn.insertQueue queue key).find id = conn.find id :=
  find_congr (map_insertQueue ..) (rankings_insertQueue ..) id

@[simp] theorem find_removeQueue : (conn.removeQueue queue key).find id = conn.find id :=
  find_congr (map_removeQueue ..) (rankings_removeQueue ..) id

end Frames

/-- A key is that of a stream that exists, and the current one of it. -/
def Current (conn : QueuedStreams) (key : StreamPriorityKey) : Prop :=
  ∃ stream ranking, conn.find key.id = some (stream, ranking) ∧ ranking.priorityKey = key

/-- Every key in a queue is the current one of a stream that exists. -/
def Live (conn : QueuedStreams) : Prop := ∀ queue, ∀ key ∈ conn.queue queue, conn.Current key

/-- What holds of the streams of an endpoint as long as nothing goes wrong. -/
structure Sound (isServer : Bool) (conn : QueuedStreams) : Prop where
  /-- Every key in a queue is the current one of a stream that exists. -/
  live : conn.Live
  once : ∀ queue, (conn.queue queue).Nodup
  /-- The streams that exist are ranked, and no others. -/
  agree : ∀ id, (conn.map.get id).isSome = (conn.rankings.find? id).isSome
  /-- A stream has a key of its own, made before. -/
  keyed : ∀ id ranking, conn.rankings.find? id = some ranking →
    ranking.priorityKey.id = id ∧ ranking.priorityKey.serial < conn.serial
  /-- A stream is what its identifier says, and its receive buffer is regular. -/
  streams : ∀ id stream, conn.map.get id = some stream →
    stream.bidi = isBidiId id ∧ stream.isLocal = isLocalId id isServer ∧ stream.recv.Regular

/-- A stream is there, in a sound state. -/
structure Linked (isServer : Bool) (conn : QueuedStreams) (id : Nat) (stream : Stream) (ranking : Ranking) :
    Prop where
  sound : Sound isServer conn
  found : conn.find id = some (stream, ranking)

section Keeping

variable {isServer : Bool} {conn after : QueuedStreams} {id : Nat} {stream changed : Stream} {ranking : Ranking}
  {key : StreamPriorityKey}

theorem sound_new (maxStreamsBidi maxStreamsUni maxStreamWindow : Nat) :
    Sound isServer (new maxStreamsBidi maxStreamsUni maxStreamWindow) := by
  refine ⟨fun queue key member => ?_, fun queue => ?_, fun _ => rfl, fun id ranking found => ?_,
    fun id stream found => ?_⟩
  · cases queue <;> exact absurd member List.not_mem_nil
  · cases queue <;> exact List.nodup_nil
  · cases found
  · cases found

theorem Sound.find_of_get (sound : Sound isServer conn) (there : conn.map.get id = some stream) :
    ∃ ranking, conn.find id = some (stream, ranking) := by
  have ranked := sound.agree id
  rw [there] at ranked
  obtain ⟨ranking, ranked⟩ := Option.isSome_iff_exists.mp ranked.symm
  exact ⟨ranking, find_eq_some_iff.mpr ⟨there, ranked⟩⟩

/-- The key of a stream that is there is current. -/
theorem Linked.current (linked : Linked isServer conn id stream ranking) : conn.Current ranking.priorityKey := by
  have same := (linked.sound.keyed id ranking (find_eq_some_iff.mp linked.found).2).1
  refine ⟨stream, ranking, ?_, rfl⟩
  rw [same]
  exact linked.found

theorem Linked.key_eq (linked : Linked isServer conn id stream ranking) {queue : Queue}
    (member : key ∈ conn.queue queue) (same : key.id = id) : key = ranking.priorityKey := by
  obtain ⟨stream', ranking', found, current⟩ := linked.sound.live queue key member
  rw [same, linked.found] at found
  cases found
  exact current.symm

/-- Queues may be replaced by ones of current keys. -/
theorem Sound.requeue (sound : Sound isServer conn) (map : after.map = conn.map)
    (rankings : after.rankings = conn.rankings) (serial : after.serial = conn.serial)
    (live : ∀ queue, ∀ key ∈ after.queue queue, conn.Current key) (once : ∀ queue, (after.queue queue).Nodup) :
    Sound isServer after := by
  refine ⟨fun queue key member => ?_, once, fun id => ?_, fun id ranking found => ?_, fun id stream found => ?_⟩
  · obtain ⟨stream, ranking, found, same⟩ := live queue key member
    exact ⟨stream, ranking, by rw [find_congr map rankings, found], same⟩
  · rw [map, rankings]
    exact sound.agree id
  · rw [rankings] at found
    rw [serial]
    exact sound.keyed id ranking found
  · rw [map] at found
    exact sound.streams id stream found

/-- A current key may be put into a queue. -/
theorem Sound.insertQueue (sound : Sound isServer conn) (current : conn.Current key) (queue : Queue) :
    Sound isServer (conn.insertQueue queue key) := by
  refine sound.requeue (by simp) (by simp) (by simp) (fun other probe member => ?_) fun other => ?_
  · rw [queue_insertQueue] at member
    split at member
    · rcases StreamPriorityKey.mem_link.mp member with same | old
      · rw [same]
        exact current
      · exact sound.live queue probe old
    · exact sound.live other probe member
  · rw [queue_insertQueue]
    split
    · rename_i new
      exact StreamPriorityKey.nodup_link (sound.once queue) new.2
    · exact sound.once other

/-- Any key may be taken out of a queue. -/
theorem Sound.removeQueue (sound : Sound isServer conn) (queue : Queue) (key : StreamPriorityKey) :
    Sound isServer (conn.removeQueue queue key) := by
  refine sound.requeue (by simp) (by simp) (by simp) (fun other probe member => ?_) fun other => ?_
  · rw [queue_removeQueue] at member
    split at member
    · exact sound.live other probe (List.mem_of_mem_erase member)
    · exact sound.live other probe member
  · rw [queue_removeQueue]
    split
    · exact (sound.once other).erase key
    · exact sound.once other

theorem Linked.insertQueue (linked : Linked isServer conn id stream ranking) (queue : Queue) :
    Linked isServer (conn.insertQueue queue ranking.priorityKey) id stream ranking :=
  ⟨linked.sound.insertQueue linked.current queue, by simp [linked.found]⟩

theorem Linked.removeQueue (linked : Linked isServer conn id stream ranking) (queue : Queue)
    (key : StreamPriorityKey) : Linked isServer (conn.removeQueue queue key) id stream ranking :=
  ⟨linked.sound.removeQueue queue key, by simp [linked.found]⟩

variable {cond : Prop} {other : QueuedStreams} {isLocal : Bool}

/-- Either way the stream stays. -/
theorem Linked.either [Decidable cond] (one : Linked isServer conn id stream ranking)
    (two : Linked isServer other id stream ranking) :
    Linked isServer (if cond then conn else other) id stream ranking := by
  split
  · exact one
  · exact two

/-- A stream that is there may be changed, if it stays what its identifier says and regular. -/
theorem Linked.set (linked : Linked isServer conn id stream ranking) (bidi : changed.bidi = stream.bidi)
    (side : changed.isLocal = stream.isLocal) (regular : changed.recv.Regular) :
    Linked isServer (conn.set id changed) id changed ranking := by
  obtain ⟨there, ranked⟩ := find_eq_some_iff.mp linked.found
  have sound := linked.sound
  have kind := sound.streams id stream there
  refine ⟨⟨fun queue key member => ?_, ?_, fun probe => ?_, sound.keyed, fun probe held found => ?_⟩, ?_⟩
  · have same : (conn.set id changed).queue queue = conn.queue queue := by cases queue <;> rfl
    rw [same] at member
    obtain ⟨stream', ranking', found, current⟩ := sound.live queue key member
    obtain ⟨there', ranked'⟩ := find_eq_some_iff.mp found
    by_cases this : key.id = id
    · refine ⟨changed, ranking', find_eq_some_iff.mpr ⟨?_, ranked'⟩, current⟩
      rw [QueuedStreams.set, StreamMap.get_set, if_pos this]
    · refine ⟨stream', ranking', find_eq_some_iff.mpr ⟨?_, ranked'⟩, current⟩
      rw [QueuedStreams.set, StreamMap.get_set, if_neg this]
      exact there'
  · intro queue
    have same : (conn.set id changed).queue queue = conn.queue queue := by cases queue <;> rfl
    rw [same]
    exact sound.once queue
  · rw [QueuedStreams.set, StreamMap.get_set]
    split
    · rename_i this
      rw [this, ranked]
      rfl
    · exact sound.agree probe
  · rw [QueuedStreams.set, StreamMap.get_set] at found
    split at found
    · rename_i this
      cases found
      rw [this, bidi, side]
      exact ⟨kind.1, kind.2.1, regular⟩
    · exact sound.streams probe held found
  · refine find_eq_some_iff.mpr ⟨?_, ranked⟩
    rw [QueuedStreams.set, StreamMap.get_set, if_pos rfl]

theorem Linked.regular (linked : Linked isServer conn id stream ranking) : stream.recv.Regular :=
  (linked.sound.streams id stream (find_eq_some_iff.mp linked.found).1).2.2

theorem Linked.setRecv (linked : Linked isServer conn id stream ranking) {recv : RecvBuf}
    (regular : recv.Regular) :
    Linked isServer (conn.set id { stream with recv := recv }) id { stream with recv := recv } ranking :=
  linked.set rfl rfl regular

theorem Linked.setSend (linked : Linked isServer conn id stream ranking) (send : RotSendBuf) :
    Linked isServer (conn.set id { stream with send := send }) id { stream with send := send } ranking :=
  linked.set rfl rfl linked.regular

/-- Either way the state is sound. -/
theorem Sound.either [Decidable cond] (one : Sound isServer conn) (two : Sound isServer other) :
    Sound isServer (if cond then conn else other) := by
  split
  · exact one
  · exact two

theorem isLocal_of_new {map made : StreamMap} {localParams peerParams : StreamParams} (new : map.get id = none)
    (done : map.getOrCreate id localParams peerParams isLocal isServer = .ok (stream, made)) :
    isLocal = isLocalId id isServer := by
  unfold StreamMap.getOrCreate at done
  rw [new] at done
  dsimp only at done
  split at done
  · cases done
  split at done
  · cases done
  · rename_i same
    simpa using same

theorem Sound.get_of_absent (sound : Sound isServer conn) (absent : conn.find id = none) :
    conn.map.get id = none := by
  cases there : conn.map.get id with
  | none => rfl
  | some held =>
    obtain ⟨_, found⟩ := sound.find_of_get there
    rw [absent] at found
    cases found

/-- A new stream with a new key leaves the state sound, queued or not. -/
theorem Sound.opened (sound : Sound isServer conn) (absent : conn.find id = none) (maxTxData : Nat)
    (opens : StreamMap.Opened conn.map id isLocal maxTxData stream after.map) (side : isLocal = isLocalId id isServer)
    (new : ranking.priorityKey = ⟨conn.serial, defaultUrgency, true, id⟩)
    (ranks : after.rankings = conn.rankings.insert id ranking) (serial : after.serial = conn.serial + 1)
    (queues : ∀ queue, after.queue queue = conn.queue queue ∨
      after.queue queue = ranking.priorityKey.link (conn.queue queue)) : Linked isServer after id stream ranking := by
  have keyId : ranking.priorityKey.id = id := by rw [new]
  -- The streams that were there stay, and none of the queues has a key of the new one.
  have apart : ∀ queue, ∀ key ∈ conn.queue queue, key.id ≠ id := by
    intro queue key member same
    obtain ⟨_, _, found, _⟩ := sound.live queue key member
    rw [same, absent] at found
    cases found
  have here : after.find id = some (stream, ranking) := by
    refine find_eq_some_iff.mpr ⟨?_, ?_⟩
    · rw [opens.get, if_pos rfl]
    · rw [ranks, OrdMap.find?_insert, if_pos rfl]
  have there : ∀ probe, probe ≠ id → after.find probe = conn.find probe := by
    intro probe other
    unfold find
    rw [opens.get, if_neg other, ranks, OrdMap.find?_insert, if_neg other]
  have old : ∀ queue, ∀ key ∈ conn.queue queue, after.Current key := by
    intro queue key member
    obtain ⟨stream', ranking', found, same⟩ := sound.live queue key member
    exact ⟨stream', ranking', by rw [there _ (apart queue key member), found], same⟩
  refine ⟨⟨fun queue key member => ?_, fun queue => ?_, fun probe => ?_, fun probe held found => ?_,
    fun probe held found => ?_⟩, here⟩
  · rcases queues queue with same | same
    · rw [same] at member
      exact old queue key member
    · rw [same] at member
      rcases StreamPriorityKey.mem_link.mp member with same | member
      · exact ⟨stream, ranking, by rw [same, keyId, here], same.symm⟩
      · exact old queue key member
  · rcases queues queue with same | same
    · rw [same]
      exact sound.once queue
    · rw [same]
      exact StreamPriorityKey.nodup_link (sound.once queue) fun member => apart queue _ member keyId
  · rw [opens.get, ranks, OrdMap.find?_insert]
    split
    · rfl
    · exact sound.agree probe
  · rw [ranks, OrdMap.find?_insert] at found
    rw [serial]
    split at found
    · rename_i same
      cases found
      rw [same]
      refine ⟨keyId, ?_⟩
      rw [new]
      exact Nat.lt_succ_self _
    · have kept := sound.keyed probe held found
      exact ⟨kept.1, Nat.lt_succ_of_lt kept.2⟩
  · rw [opens.get] at found
    split at found
    · rename_i same
      cases found
      rcases opens.origin with old | ⟨_, _, maxRxData, maxWindow, made⟩
      · rw [sound.get_of_absent absent] at old
        cases old
      · rw [same, made]
        exact ⟨rfl, side, RecvBuf.regular_new _ _⟩
    · exact sound.streams probe held found

/-- A stream that is found or made is there, in a sound state. -/
theorem Sound.getOrCreate {endpoint : Endpoint} (sound : Sound endpoint.isServer conn)
    (done : conn.getOrCreate endpoint id isLocal = .ok (stream, ranking, after)) :
    Linked endpoint.isServer after id stream ranking := by
  unfold QueuedStreams.getOrCreate at done
  split at done
  · rename_i found
    cases done
    exact ⟨sound, found⟩
  · rename_i absent
    split at done
    · cases done
    · rename_i opened
      have side := isLocal_of_new (sound.get_of_absent absent) opened
      have opens := StreamMap.getOrCreate_ok opened
      cases done
      refine sound.opened absent (StreamMap.initialLimits endpoint.localParams endpoint.peerParams isLocal
        (isBidiId id)).2 ?_ side rfl ?_ ?_ fun queue => ?_
      · split
        · rw [map_withQueue]
          exact opens
        · exact opens
      · split <;> simp
      · split <;> simp
      · split
        · rw [queue_withQueue]
          split
          · rename_i same
            rw [same]
            exact Or.inr rfl
          · left
            cases queue <;> rfl
        · left
          cases queue <;> rfl

/-- Collecting a stream takes its key out of every queue. -/
theorem Sound.collect (sound : Sound isServer conn) (id : Nat) (isLocal : Bool) :
    Sound isServer (conn.collect id isLocal) := by
  cases ranked : conn.rankings.find? id with
  | none =>
    rw [QueuedStreams.collect, ranked]
    exact sound
  | some ranking =>
    have queues : ∀ queue, (conn.collect id isLocal).queue queue =
        (conn.queue queue).erase ranking.priorityKey := by
      intro queue
      rw [QueuedStreams.collect, ranked]
      cases queue <;> simp [removeReadable, removeWritable, removeFlushable] <;> rfl
    have map : (conn.collect id isLocal).map = conn.map.collect id isLocal := by
      rw [QueuedStreams.collect, ranked]
      simp [removeReadable, removeWritable, removeFlushable]
    have ranks : (conn.collect id isLocal).rankings = conn.rankings.erase id := by
      rw [QueuedStreams.collect, ranked]
      simp [removeReadable, removeWritable, removeFlushable]
    have serial : (conn.collect id isLocal).serial = conn.serial := by
      rw [QueuedStreams.collect, ranked]
      simp [removeReadable, removeWritable, removeFlushable]
    refine ⟨fun queue key member => ?_, fun queue => ?_, fun probe => ?_, fun probe held found => ?_,
      fun probe held found => ?_⟩
    · rw [queues] at member
      obtain ⟨other, old⟩ := (sound.once queue).mem_erase_iff.mp member
      obtain ⟨stream', ranking', found, same⟩ := sound.live queue key old
      obtain ⟨there, ranked'⟩ := find_eq_some_iff.mp found
      -- The only key of the stream in a queue was its current one.
      have apart : key.id ≠ id := by
        intro this
        rw [this, ranked] at ranked'
        cases ranked'
        exact other same.symm
      refine ⟨stream', ranking', find_eq_some_iff.mpr ⟨?_, ?_⟩, same⟩
      · rw [map, StreamMap.get_collect, if_neg apart]
        exact there
      · rw [ranks, OrdMap.find?_erase, if_neg apart]
        exact ranked'
    · rw [queues]
      exact (sound.once queue).erase _
    · rw [map, ranks, StreamMap.get_collect, OrdMap.find?_erase]
      split
      · rfl
      · exact sound.agree probe
    · rw [ranks, OrdMap.find?_erase] at found
      split at found
      · cases found
      · rw [serial]
        exact sound.keyed probe held found
    · rw [map, StreamMap.get_collect] at found
      split at found
      · cases found
      · exact sound.streams probe held found

/-- A stream is no longer there once it was collected. -/
theorem find_collect (conn : QueuedStreams) (id : Nat) (isLocal : Bool) :
    (conn.collect id isLocal).find id = none := by
  cases ranked : conn.rankings.find? id with
  | none =>
    rw [QueuedStreams.collect, ranked]
    unfold find
    rw [ranked]
    split
    · rename_i found
      cases found
    · rfl
  | some ranking =>
    rw [QueuedStreams.collect, ranked]
    simp [removeReadable, removeWritable, removeFlushable, find]

theorem queue_relink (conn : QueuedStreams) (old new : StreamPriorityKey) (queue other : Queue) :
    (conn.relink old new queue).queue other =
      if other = queue ∧ old ∈ conn.queue queue then new.link ((conn.queue queue).erase old)
      else conn.queue other := by
  unfold relink
  by_cases linked : old ∈ conn.queue queue
  · simp only [linked, if_true, queue_withQueue, and_true, queue_removeQueue]
    split
    · rfl
    · simp
  · simp [linked]

theorem relink_frame (conn : QueuedStreams) (old new : StreamPriorityKey) (queue : Queue) :
    (conn.relink old new queue).map = conn.map ∧ (conn.relink old new queue).rankings = conn.rankings ∧
      (conn.relink old new queue).serial = conn.serial := by
  unfold relink
  split
  · simp
  · exact ⟨rfl, rfl, rfl⟩

theorem queue_updatePriority (conn : QueuedStreams) (old new : StreamPriorityKey) (queue : Queue) :
    (conn.updatePriority old new).queue queue =
      if old ∈ conn.queue queue then new.link ((conn.queue queue).erase old) else conn.queue queue := by
  unfold updatePriority
  cases queue <;> simp [queue_relink]

theorem updatePriority_frame (conn : QueuedStreams) (old new : StreamPriorityKey) :
    (conn.updatePriority old new).map = conn.map ∧ (conn.updatePriority old new).rankings = conn.rankings ∧
      (conn.updatePriority old new).serial = conn.serial := by
  unfold updatePriority
  simp only [relink_frame, and_self]

/-- A stream gets a new key in place of its old one. -/
theorem Linked.rekey (linked : Linked isServer conn id stream ranking) {fresh : Ranking}
    (new : fresh.priorityKey.id = id) (made : fresh.priorityKey.serial = conn.serial) :
    Sound isServer (({ conn.rank id fresh with serial := conn.serial + 1 } : QueuedStreams).updatePriority
      ranking.priorityKey fresh.priorityKey) := by
  obtain ⟨there, ranked⟩ := find_eq_some_iff.mp linked.found
  have sound := linked.sound
  generalize start : ({ conn.rank id fresh with serial := conn.serial + 1 } : QueuedStreams) = base
  obtain ⟨map, ranks, serial⟩ := updatePriority_frame base ranking.priorityKey fresh.priorityKey
  have queues := queue_updatePriority base ranking.priorityKey fresh.priorityKey
  have same : ∀ queue, base.queue queue = conn.queue queue := by
    intro queue
    rw [← start]
    cases queue <;> rfl
  have ranks' : base.rankings = conn.rankings.insert id fresh := by
    rw [← start]
    rfl
  have map' : base.map = conn.map := by
    rw [← start]
    rfl
  have serial' : base.serial = conn.serial + 1 := by
    rw [← start]
  generalize base.updatePriority ranking.priorityKey fresh.priorityKey = after at *
  rw [ranks'] at ranks
  rw [map'] at map
  rw [serial'] at serial
  simp only [same] at queues
  -- Keys of other streams stay current, and the old key of this one is in no queue any more.
  have old : ∀ queue, ∀ key ∈ conn.queue queue, key ≠ ranking.priorityKey → after.Current key := by
    intro queue key member other
    obtain ⟨stream', ranking', found, current⟩ := sound.live queue key member
    obtain ⟨there', ranked'⟩ := find_eq_some_iff.mp found
    have apart : key.id ≠ id := fun this => other (linked.key_eq member this)
    refine ⟨stream', ranking', find_eq_some_iff.mpr ⟨?_, ?_⟩, current⟩
    · rw [map]
      exact there'
    · rw [ranks, OrdMap.find?_insert, if_neg apart]
      exact ranked'
  have here : after.Current fresh.priorityKey := by
    refine ⟨stream, fresh, find_eq_some_iff.mpr ⟨?_, ?_⟩, rfl⟩
    · rw [map, new]
      exact there
    · rw [ranks, OrdMap.find?_insert, if_pos new]
  have unseen : ∀ queue, fresh.priorityKey ∉ conn.queue queue := by
    intro queue member
    obtain ⟨_, ranking', found, current⟩ := sound.live queue _ member
    have before := (sound.keyed _ _ (find_eq_some_iff.mp found).2).2
    rw [current, made] at before
    exact Nat.lt_irrefl _ before
  refine ⟨fun queue key member => ?_, fun queue => ?_, fun probe => ?_, fun probe held found => ?_,
    fun probe held found => ?_⟩
  · rw [queues] at member
    split at member
    · rcases StreamPriorityKey.mem_link.mp member with this | member
      · rw [this]
        exact here
      · obtain ⟨other, member⟩ := (sound.once queue).mem_erase_iff.mp member
        exact old queue key member other
    · rename_i unlinked
      exact old queue key member fun this => unlinked (this ▸ member)
  · rw [queues]
    split
    · exact StreamPriorityKey.nodup_link ((sound.once queue).erase _) fun member =>
        unseen queue (List.mem_of_mem_erase member)
    · exact sound.once queue
  · rw [map, ranks, OrdMap.find?_insert]
    split
    · rename_i this
      rw [this, there]
      rfl
    · exact sound.agree probe
  · rw [ranks, OrdMap.find?_insert] at found
    rw [serial]
    split at found
    · rename_i this
      cases found
      rw [this]
      exact ⟨new, by omega⟩
    · have kept := sound.keyed probe held found
      exact ⟨kept.1, Nat.lt_succ_of_lt kept.2⟩
  · rw [map] at found
    exact sound.streams probe held found

/-- A stream may get another mark from which on it counts as writable. -/
theorem Linked.lowat (linked : Linked isServer conn id stream ranking) (sendLowat : Nat) :
    Linked isServer (conn.rank id { ranking with sendLowat := sendLowat }) id stream
      { ranking with sendLowat := sendLowat } := by
  obtain ⟨there, ranked⟩ := find_eq_some_iff.mp linked.found
  have sound := linked.sound
  have ranks : (conn.rank id { ranking with sendLowat := sendLowat }).rankings =
      conn.rankings.insert id { ranking with sendLowat := sendLowat } := rfl
  have same : ∀ queue, (conn.rank id { ranking with sendLowat := sendLowat }).queue queue = conn.queue queue := by
    intro queue
    cases queue <;> rfl
  refine ⟨⟨fun queue key member => ?_, fun queue => ?_, fun probe => ?_, fun probe held found => ?_,
    sound.streams⟩, ?_⟩
  · rw [same] at member
    obtain ⟨stream', ranking', found, current⟩ := sound.live queue key member
    obtain ⟨there', ranked'⟩ := find_eq_some_iff.mp found
    by_cases this : key.id = id
    · -- The ranking is another one, with the same key.
      refine ⟨stream', { ranking with sendLowat := sendLowat }, find_eq_some_iff.mpr ⟨there', ?_⟩,
        (linked.key_eq member this).symm⟩
      rw [ranks, OrdMap.find?_insert, if_pos this]
    · refine ⟨stream', ranking', find_eq_some_iff.mpr ⟨there', ?_⟩, current⟩
      rw [ranks, OrdMap.find?_insert, if_neg this]
      exact ranked'
  · rw [same]
    exact sound.once queue
  · rw [ranks, OrdMap.find?_insert]
    split
    · rename_i this
      show (conn.map.get probe).isSome = _
      rw [this, there]
      rfl
    · exact sound.agree probe
  · rw [ranks, OrdMap.find?_insert] at found
    split at found
    · rename_i this
      cases found
      rw [this]
      exact sound.keyed id ranking ranked
    · exact sound.keyed probe held found
  · refine find_eq_some_iff.mpr ⟨there, ?_⟩
    rw [ranks, OrdMap.find?_insert, if_pos rfl]

end Keeping

end QueuedStreams

end Flexicast
