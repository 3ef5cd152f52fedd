import Flexicast.Lib.Runs
import Flexicast.Stream.Linking

/-! What the queues of streams hold over a whole run: streams that exist, unless a read wakes a collected one. -/

namespace Flexicast

namespace QueuedStreams

/-- A read without room that would put a stream back into the queue that it has just been collected from. -/
def wakesCollected (endpoint : Endpoint) (conn : QueuedStreams) : QueueEvent → Bool
  | .streamRecv id 0 =>
    match conn.find id with
    | some (stream, ranking) =>
      (isBidiId id || !isLocalId id endpoint.isServer) && stream.isReadable && stream.isComplete &&
        ranking.priorityKey.incremental && stream.recv.error.isNone
    | none => false
  | _ => false

section Events

variable {endpoint : Endpoint} {conn : QueuedStreams} {id : Nat} {stream : Stream} {ranking : Ranking}

theorem Sound.collectComplete {isServer : Bool} (sound : Sound isServer conn) (id : Nat) (stream : Stream) :
    Sound isServer (conn.collectComplete id stream) := by
  unfold QueuedStreams.collectComplete
  split
  · exact sound.collect id stream.isLocal
  · exact sound

theorem Linked.isFin_of_complete {isServer : Bool} (linked : Linked isServer conn id stream ranking)
    (mine : (!isBidiId id && isLocalId id isServer) = false) (complete : stream.isComplete = true) :
    stream.recv.isFin = true := by
  obtain ⟨bidi, side, _⟩ := linked.sound.streams id stream (find_eq_some_iff.mp linked.found).1
  unfold Stream.isComplete at complete
  rw [bidi, side] at complete
  cases isBidi : isBidiId id <;> cases isLocal : isLocalId id isServer <;> simp_all

/-- A read keeps the state sound, unless it wakes a stream that it collected. -/
theorem Sound.streamRecv (sound : Sound endpoint.isServer conn) {id outLen : Nat}
    (quiet : conn.wakesCollected endpoint (.streamRecv id outLen) = false) :
    Sound endpoint.isServer (conn.streamRecv endpoint id outLen).2 := by
  unfold QueuedStreams.streamRecv
  split
  · exact sound
  rename_i mine
  split
  · exact sound
  rename_i stream ranking found
  have linked : Linked endpoint.isServer conn id stream ranking := ⟨sound, found⟩
  split
  · exact sound
  rename_i ready
  have regular := linked.regular.emit outLen
  dsimp only
  split
  · rename_i error recv read
    rw [read] at regular
    have set := linked.setRecv regular
    dsimp only
    split
    · exact (set.sound.collect id _).removeQueue .readable _
    · exact set.sound.removeQueue .readable _
  · rename_i out fin recv read
    rw [read] at regular
    have set := linked.setRecv regular
    have removed : Linked endpoint.isServer
        (if (!({ stream with recv := recv } : Stream).isReadable) = true then
          (conn.set id { stream with recv := recv }).removeReadable ranking.priorityKey
          else conn.set id { stream with recv := recv }) id { stream with recv := recv } ranking :=
      (set.removeQueue .readable _).either set
    dsimp only
    by_cases complete : ({ stream with recv := recv } : Stream).isComplete = true
    · -- A stream that is collected is not put back, for it has nothing to be read any more.
      have final : recv.isFin = true := set.isFin_of_complete (by simpa using mine) complete
      have rest : (ranking.priorityKey.incremental && ({ stream with recv := recv } : Stream).isReadable) = false := by
        cases outLen with
        | succ outLen =>
          have unready : recv.ready = false := linked.regular.emit_unready (Nat.succ_pos outLen) read final
          simp [Stream.isReadable, unready]
        | zero =>
          obtain ⟨still, ends⟩ := RecvBuf.emit_nothing read
          have clean : stream.recv.error = none := by
            cases failed : stream.recv.error with
            | none => rfl
            | some code =>
              have ready' : ¬ stream.recv.ready = false := by simpa [Stream.isReadable] using ready
              rw [RecvBuf.emit, if_neg ready', failed] at read
              cases read
          have same : ({ stream with recv := recv } : Stream).isComplete = stream.isComplete := by
            unfold Stream.isComplete
            simp [ends]
          rw [same] at complete
          have ready' : stream.isReadable = true := by simpa using ready
          have theirs : (isBidiId id || !isLocalId id endpoint.isServer) = true := by
            cases isBidi : isBidiId id <;> simp_all
          simp only [wakesCollected, found, theirs, ready', complete, clean, Option.isNone_none, Bool.true_and,
            Bool.and_true] at quiet
          simp [quiet]
      rw [if_pos complete, if_neg (by simp [rest])]
      exact removed.sound.collect id _
    · rw [if_neg complete]
      exact (((removed.removeQueue .readable _).insertQueue .readable).either removed).sound

/-- A write keeps the state sound. -/
theorem Sound.streamSend (sound : Sound endpoint.isServer conn) (id : Nat) (buf : Bytes) (fin : Bool) (cap : Nat) :
    Sound endpoint.isServer (conn.streamSend endpoint id buf fin cap).2 := by
  unfold QueuedStreams.streamSend
  split
  · exact sound
  split
  · exact sound
  rename_i stream ranking opened made
  have linked := sound.getOrCreate made
  dsimp only
  split
  · exact Sound.either (linked.insertQueue .writable).sound linked.sound
  -- What of the data fits does not matter here.
  generalize (if decide (cap < buf.length) = true then buf.take cap else buf) = data
  generalize (if decide (cap < buf.length) = true then false else fin) = fin'
  split
  · exact linked.sound.removeQueue .writable _
  · rename_i sent send wrote
    have set := linked.setSend send
    have flushed := fun queued : Prop => fun [Decidable queued] =>
      @Linked.either _ _ _ _ _ queued _ _ (set.insertQueue .flushable) set
    -- The stream stays whatever queue its key is put into or taken out of.
    have written := fun (queued full kept : Prop) => fun [Decidable queued] [Decidable full] [Decidable kept] =>
      @Linked.either _ _ _ _ _ full _ _ ((flushed queued).removeQueue .writable ranking.priorityKey)
        (@Linked.either _ _ _ _ _ kept _ _ ((flushed queued).insertQueue .writable) (flushed queued))
    split
    · exact (written _ _ _).sound
    · exact Sound.either (((written _ _ _).removeQueue .writable _).insertQueue .writable).sound (written _ _ _).sound

theorem Sound.streamPriority (sound : Sound endpoint.isServer conn) (id urgency : Nat) (incremental : Bool) :
    Sound endpoint.isServer (conn.streamPriority endpoint id urgency incremental).2 := by
  unfold QueuedStreams.streamPriority
  split
  · exact sound
  · exact sound
  · rename_i made
    have linked := sound.getOrCreate made
    split
    · exact linked.sound
    · exact linked.rekey rfl rfl

/-- Shutting down one side keeps the state sound. -/
theorem Sound.streamShutdown (sound : Sound endpoint.isServer conn) (id : Nat) (direction : Shutdown) :
    Sound endpoint.isServer (conn.streamShutdown endpoint id direction).2 := by
  unfold QueuedStreams.streamShutdown
  dsimp only
  split
  · exact sound
  split
  · exact sound
  split
  · exact sound
  rename_i stream ranking found
  have linked : Linked endpoint.isServer conn id stream ranking := ⟨sound, found⟩
  cases direction with
  | read =>
    dsimp only
    split
    · exact sound
    · rename_i recv shut
      exact ((linked.setRecv (RecvBuf.Regular.shutDown shut)).removeQueue .readable _).sound
  | write =>
    dsimp only
    split
    · exact sound
    · exact ((linked.setSend _).removeQueue .writable _).sound

theorem writableNextLoop_cases (conn : QueuedStreams) (txCap : Nat) (keys : List StreamPriorityKey) :
    (conn.writableNextLoop txCap keys).2 = conn ∨
      ∃ key, (conn.writableNextLoop txCap keys).2 = conn.removeWritable key := by
  induction keys with
  | nil => exact Or.inl rfl
  | cons key rest ih =>
    unfold writableNextLoop
    split
    · exact ih
    · split
      · exact Or.inr ⟨key, rfl⟩
      · split
        · exact Or.inr ⟨key, rfl⟩
        · exact ih

/-- Asking for a stream to read or to write keeps the state sound. -/
theorem Sound.nexts (sound : Sound endpoint.isServer conn) (txCap : Nat) :
    Sound endpoint.isServer conn.streamReadableNext.2 ∧
      Sound endpoint.isServer (conn.streamWritableNext txCap).2 := by
  constructor
  · unfold QueuedStreams.streamReadableNext
    split
    · exact sound
    · exact sound.removeQueue .readable _
  · unfold QueuedStreams.streamWritableNext
    split
    · exact sound
    · rcases writableNextLoop_cases conn txCap conn.writable with same | ⟨key, same⟩
      · rw [same]
        exact sound
      · rw [same]
        exact sound.removeQueue .writable key

/-- Asking for room keeps the state sound. -/
theorem Sound.streamWritable (sound : Sound endpoint.isServer conn) (id len txCap : Nat) :
    Sound endpoint.isServer (conn.streamWritable id len txCap).2 := by
  unfold QueuedStreams.streamWritable
  split
  · exact sound
  rename_i stream ranking found
  have linked : Linked endpoint.isServer conn id stream ranking := ⟨sound, found⟩
  split
  · exact sound
  split
  · exact sound
  · have marked := linked.lowat (max 1 len)
    exact Sound.either (marked.insertQueue .writable).sound marked.sound

/-- A STREAM frame keeps the state sound. -/
theorem Sound.onStream (sound : Sound endpoint.isServer conn) (id : Nat) (data : Bytes) (off : Nat) (fin : Bool)
    (left : Nat) :
    Sound endpoint.isServer (conn.onStream endpoint id (RangeBuf.fromSlice data off fin) left).2 := by
  unfold QueuedStreams.onStream
  split
  · exact sound
  split
  · exact sound
  · exact sound
  rename_i made
  have linked := sound.getOrCreate made
  split
  · exact linked.sound
  split
  · exact linked.sound
  · rename_i recv wrote
    have set := linked.setRecv (linked.regular.write wrote)
    exact Sound.either (set.insertQueue .readable).sound set.sound

/-- A RESET_STREAM frame keeps the state sound. -/
theorem Sound.onResetStream (sound : Sound endpoint.isServer conn) (id errorCode finalSize left : Nat) :
    Sound endpoint.isServer (conn.onResetStream endpoint id errorCode finalSize left).2 := by
  unfold QueuedStreams.onResetStream
  split
  · exact sound
  split
  · exact sound
  · exact sound
  rename_i stream ranking opened made
  have linked := sound.getOrCreate made
  have regular := linked.regular.reset errorCode finalSize
  split
  · rename_i reset
    rw [reset] at regular
    exact (linked.setRecv regular).sound
  · rename_i reset
    rw [reset] at regular
    have set := linked.setRecv regular
    dsimp only
    split
    · exact set.sound
    · exact Sound.either (set.insertQueue .readable).sound set.sound

/-- A STOP_SENDING frame keeps the state sound. -/
theorem Sound.onStopSending (sound : Sound endpoint.isServer conn) (id errorCode : Nat) :
    Sound endpoint.isServer (conn.onStopSending endpoint id errorCode).2 := by
  unfold QueuedStreams.onStopSending
  split
  · exact sound
  split
  · exact sound
  · exact sound
  rename_i made
  have linked := sound.getOrCreate made
  split
  · exact linked.sound
  · rename_i send stopped
    have set := linked.setSend send
    exact Sound.either (set.insertQueue .writable).sound set.sound

/-- A MAX_STREAM_DATA frame keeps the state sound. -/
theorem Sound.onMaxStreamData (sound : Sound endpoint.isServer conn) (id max : Nat) :
    Sound endpoint.isServer (conn.onMaxStreamData endpoint id max).2 := by
  unfold QueuedStreams.onMaxStreamData
  split
  · exact sound
  split
  · exact sound
  · exact sound
  rename_i stream ranking opened made
  have linked := sound.getOrCreate made
  have set := linked.setSend { stream.send with main := stream.send.main.updateMaxData max }
  have flushed := fun queued : Prop => fun [Decidable queued] =>
    @Linked.either _ _ _ _ _ queued _ _ (set.insertQueue .flushable) set
  exact Sound.either ((flushed _).insertQueue .writable).sound (flushed _).sound

theorem Sound.onStreamAcked (sound : Sound endpoint.isServer conn) (id off len : Nat) :
    Sound endpoint.isServer (conn.onStreamAcked id off len) := by
  unfold QueuedStreams.onStreamAcked
  split
  · exact sound
  · rename_i stream ranking found
    have linked : Linked endpoint.isServer conn id stream ranking := ⟨sound, found⟩
    exact (linked.setSend _).sound.collectComplete id _

theorem Sound.onResetAcked (sound : Sound endpoint.isServer conn) (id : Nat) :
    Sound endpoint.isServer (conn.onResetAcked id) := by
  unfold QueuedStreams.onResetAcked
  split
  · exact sound
  · exact sound.collectComplete id _

theorem Sound.onStreamLost (sound : Sound endpoint.isServer conn) (id off len : Nat) (fin : Bool) :
    Sound endpoint.isServer (conn.onStreamLost id off len fin) := by
  unfold QueuedStreams.onStreamLost
  split
  · exact sound
  · rename_i stream ranking found
    have linked : Linked endpoint.isServer conn id stream ranking := ⟨sound, found⟩
    have set := linked.setSend (stream.send.retransmit off len)
    exact Sound.either (set.insertQueue .flushable).sound set.sound

/-- The loop that writes a STREAM frame keeps the state sound. -/
theorem Sound.flushLoop (left fuel : Nat) : ∀ {conn : QueuedStreams}, Sound endpoint.isServer conn →
    Sound endpoint.isServer (flushLoop left fuel conn) := by
  induction fuel with
  | zero => exact fun sound => sound
  | succ fuel ih =>
    intro conn sound
    unfold QueuedStreams.flushLoop
    split
    · exact sound
    rename_i key rest queued
    split
    · exact ih (sound.removeQueue .flushable key)
    rename_i stream ranking found
    have linked : Linked endpoint.isServer conn key.id stream ranking := ⟨sound, found⟩
    split
    · exact ih (sound.removeQueue .flushable key)
    split
    · exact sound
    split
    · exact ih (sound.removeQueue .flushable _)
    split
    · exact (linked.setSend _).sound
    · -- The stream leaves the queue, moves to the back of it, or stays where it is.
      rename_i sent send emitted
      have set := linked.setSend send
      have removed := set.removeQueue .flushable ranking.priorityKey
      exact removed.sound.either ((removed.insertQueue .flushable).sound.either set.sound)

/-- New limits on the number of streams keep the state sound. -/
theorem Sound.limits {isServer : Bool} (sound : Sound isServer conn) {map : StreamMap}
    (same : map.streams = conn.map.streams) : Sound isServer { conn with map := map } := by
  have get : ∀ id, map.get id = conn.map.get id := fun id => by rw [StreamMap.get, same, StreamMap.get]
  have find : ∀ id, ({ conn with map := map } : QueuedStreams).find id = conn.find id := by
    intro id
    unfold QueuedStreams.find
    rw [get]
  refine ⟨fun queue key member => ?_, fun queue => ?_, fun id => ?_, sound.keyed, fun id stream found => ?_⟩
  · have old : key ∈ conn.queue queue := by
      cases queue <;> exact member
    obtain ⟨stream, ranking, found, current⟩ := sound.live queue key old
    exact ⟨stream, ranking, by rw [find, found], current⟩
  · cases queue
    · exact sound.once .flushable
    · exact sound.once .readable
    · exact sound.once .writable
  · rw [get]
    exact sound.agree id
  · rw [get] at found
    exact sound.streams id stream found

/-- Whatever happens keeps the state sound, but for a read that wakes a stream that it collects. -/
theorem Sound.next (sound : Sound endpoint.isServer conn) (event : QueueEvent)
    (quiet : conn.wakesCollected endpoint event = false) : Sound endpoint.isServer (conn.next endpoint event) := by
  cases event with
  | streamRecv id outLen => exact sound.streamRecv quiet
  | streamSend id buf fin cap => exact sound.streamSend id buf fin cap
  | streamPriority id urgency incremental => exact sound.streamPriority id urgency incremental
  | streamShutdown id direction => exact sound.streamShutdown id direction
  | streamReadableNext => exact (sound.nexts 0).1
  | streamWritableNext txCap => exact (sound.nexts txCap).2
  | streamWritable id len txCap => exact sound.streamWritable id len txCap
  | stream id data off fin left => exact sound.onStream id data off fin left
  | resetStream id errorCode finalSize left => exact sound.onResetStream id errorCode finalSize left
  | stopSending id errorCode => exact sound.onStopSending id errorCode
  | maxStreamData id max => exact sound.onMaxStreamData id max
  | maxStreams bidi max => exact sound.limits (by cases bidi <;> rfl)
  | streamAcked id off len => exact sound.onStreamAcked id off len
  | resetAcked id => exact sound.onResetAcked id
  | streamLost id off len fin => exact sound.onStreamLost id off len fin
  | flush left => exact sound.flushLoop left _
  | sentMaxStreams bidi => exact sound.limits (by cases bidi <;> rfl)
  | recvFlow id flowControl =>
    unfold QueuedStreams.next
    dsimp only
    split
    · exact sound
    · rename_i stream ranking found
      have linked : Linked endpoint.isServer conn id stream ranking := ⟨sound, found⟩
      exact (linked.setRecv (linked.regular.flow flowControl)).sound

/-- A stream that is woken after it was collected is in a queue, and no longer there. -/
theorem Sound.not_live_of_wakes (sound : Sound endpoint.isServer conn) {event : QueueEvent}
    (wakes : conn.wakesCollected endpoint event = true) : ¬ (conn.next endpoint event).Live := by
  unfold wakesCollected at wakes
  split at wakes
  · rename_i id
    split at wakes
    · rename_i stream ranking found
      simp only [Bool.and_eq_true] at wakes
      obtain ⟨⟨⟨⟨theirs, ready⟩, complete⟩, incremental⟩, clean⟩ := wakes
      have linked : Linked endpoint.isServer conn id stream ranking := ⟨sound, found⟩
      have keyId := (sound.keyed id ranking (find_eq_some_iff.mp found).2).1
      have mine : ¬ (!isBidiId id && isLocalId id endpoint.isServer) = true := by
        cases isBidi : isBidiId id <;> simp_all
      have ready' : ¬ stream.recv.ready = false := by
        rw [Stream.isReadable] at ready
        simp [ready]
      -- A read without room returns at once, with the empty final chunk still there.
      obtain ⟨result, recv, read⟩ : ∃ result recv, stream.recv.emit 0 = (.ok result, recv) := by
        unfold RecvBuf.emit
        rw [if_neg ready', Option.isNone_iff_eq_none.mp clean]
        exact ⟨_, _, rfl⟩
      obtain ⟨still, ends⟩ := RecvBuf.emit_nothing read
      have ready'' : ({ stream with recv := recv } : Stream).isReadable = true := by
        rw [Stream.isReadable] at ready ⊢
        rw [still, ready]
      have complete' : ({ stream with recv := recv } : Stream).isComplete = true := by
        rw [← complete]
        unfold Stream.isComplete
        simp [ends]
      have after : conn.next endpoint (.streamRecv id 0) =
          ((((conn.set id { stream with recv := recv }).collect id stream.isLocal).removeReadable
            ranking.priorityKey).insertReadable ranking.priorityKey) := by
        show (conn.streamRecv endpoint id 0).2 = _
        unfold QueuedStreams.streamRecv
        rw [if_neg mine, found]
        dsimp only
        rw [if_neg (by simp [ready]), read]
        dsimp only
        simp only [ready'', complete', incremental, Bool.not_true, Bool.false_eq_true, if_false, if_true,
          Bool.and_self]
      intro live
      rw [after] at live
      have member : ranking.priorityKey ∈ ((((conn.set id { stream with recv := recv }).collect id
          stream.isLocal).removeReadable ranking.priorityKey).insertReadable ranking.priorityKey).queue
            .readable := by
        rw [insertReadable, queue_insertQueue]
        split
        · exact StreamPriorityKey.mem_link.mpr (Or.inl rfl)
        · rename_i linked
          simpa using linked
      obtain ⟨_, _, there, _⟩ := live .readable _ member
      rw [insertReadable, find_insertQueue, removeReadable, find_removeQueue, keyId, find_collect] at there
      cases there
    · cases wakes
  · cases wakes

/--
The queues hold keys of streams that exist, as long as no read without room wakes a stream that it collects.

A read into an empty output leaves an empty final chunk in place: the stream is complete, still readable, collected,
and then moved to the back of the queue.
-/
theorem live_iff (endpoint : Endpoint) (maxStreamsBidi maxStreamsUni maxStreamWindow : Nat)
    (events : List QueueEvent)
    (quiet : Runs.Along (next endpoint) (fun conn event => conn.wakesCollected endpoint event = false)
      (new maxStreamsBidi maxStreamsUni maxStreamWindow) events) :
    (Runs.run (next endpoint) (new maxStreamsBidi maxStreamsUni maxStreamWindow) events).Live ∧
      ∀ event,
        ((Runs.run (next endpoint) (new maxStreamsBidi maxStreamsUni maxStreamWindow) events).next endpoint
            event).Live ↔
          (Runs.run (next endpoint) (new maxStreamsBidi maxStreamsUni maxStreamWindow) events).wakesCollected
            endpoint event = false := by
  have keeps : ∀ (conn : QueuedStreams) event, Sound endpoint.isServer conn →
      conn.wakesCollected endpoint event = false → Sound endpoint.isServer (conn.next endpoint event) :=
    fun conn event sound calm => sound.next event calm
  have sound := Runs.Along.keeps keeps (sound_new maxStreamsBidi maxStreamsUni maxStreamWindow) quiet
  refine ⟨sound.live, fun event => ⟨fun live => ?_, fun calm => (sound.next event calm).live⟩⟩
  cases wakes : (Runs.run (next endpoint) (new maxStreamsBidi maxStreamsUni maxStreamWindow) events).wakesCollected
      endpoint event with
  | false => rfl
  | true => exact absurd live (sound.not_live_of_wakes wakes)

/-- A server with room for a few streams of its peer. -/
def server : Endpoint := ⟨true, ⟨100, 100, 100⟩, ⟨100, 100, 100⟩⟩

/-- A unidirectional stream of the peer brings three bytes, which are read, and its end in a frame of its own. -/
def lateEnd : List QueueEvent :=
  [.stream 2 [1, 2, 3] 0 false 100, .streamRecv 2 10, .stream 2 [] 3 true 100]

theorem live_iff_lateEnd :
    (Runs.run (next server) (new 10 10 100) lateEnd).Live ∧
      ∀ event, ((Runs.run (next server) (new 10 10 100) lateEnd).next server event).Live ↔
        (Runs.run (next server) (new 10 10 100) lateEnd).wakesCollected server event = false :=
  live_iff server 10 10 100 lateEnd ⟨by decide, by decide, by decide, trivial⟩

/-- Reading the end of the stream into an empty output leaves a stream in the queue that is no longer there. -/
theorem collected_stays_readable :
    ¬ ∀ (endpoint : Endpoint) (maxStreamsBidi maxStreamsUni maxStreamWindow : Nat) (events : List QueueEvent),
      (Runs.run (next endpoint) (new maxStreamsBidi maxStreamsUni maxStreamWindow) events).Live := by
  intro always
  have live := always server 10 10 100 (lateEnd ++ [.streamRecv 2 0])
  have member : (⟨0, 127, true, 2⟩ : StreamPriorityKey) ∈
      (Runs.run (next server) (new 10 10 100) (lateEnd ++ [.streamRecv 2 0])).queue .readable := by
    decide
  obtain ⟨_, _, found, _⟩ := live .readable _ member
  have gone : (Runs.run (next server) (new 10 10 100) (lateEnd ++ [.streamRecv 2 0])).find 2 = none := by
    decide
  rw [gone] at found
  cases found

end Events

end QueuedStreams

end Flexicast
