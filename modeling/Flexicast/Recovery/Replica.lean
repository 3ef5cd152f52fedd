import Flexicast.Lib.Runs
import Flexicast.Recovery.Marks

/-! The replica that a unicast instance keeps of the packets of its flow, of `control.rs` and `asynchronous/uc.rs`. -/

namespace Flexicast

namespace Loss

open Channel (FcError)

section Definitions

/-- The queue of sent packets of a flexicast source, and the number of its next packet. -/
structure SentQueue where
  packets : List Sent
  nextPn : Nat
  deriving DecidableEq

/-- A copy of the packets from a number on; without any the call reports that it is done. -/
def SentQueue.fcGetSentPkt (self : SentQueue) (start : Option Nat) : Option (List Sent) :=
  let sent := self.packets.filter fun pkt => start.getD 0 ≤ pkt.pktNum
  if sent.isEmpty then none else some sent

/-- The next packet number, while there is a packet in the queue. -/
def SentQueue.fcNextPn (self : SentQueue) : Option Nat := if self.packets.isEmpty then none else some self.nextPn

/-- What the controller sends to a unicast instance about the packets of a flow. -/
inductive CtlMsg where
  | newHighestPn (fcId pn : Nat)
  | sent (fcId : Nat) (packets : List Sent)
  deriving DecidableEq

/-- Sets the number behind the highest packet of the flow. -/
def Connection.fcSetHighestFcPn (self : Connection) (pn : Nat) : Connection × Except FcError Unit :=
  match self.flexicast with
  | none => (self, .error .mcDisabled)
  | some flexicast =>
    -- A connection without a reliable flow has no number to set.
    ({ self with flexicast := some { flexicast with fcHighestPn := flexicast.fcHighestPn.map fun _ => some pn } },
      .ok ())

/-- Handles a message of the controller; the flow that a new highest number is about is not looked at. -/
def Connection.handleCtlMsg (self : Connection) (now : Int) : CtlMsg → Connection
  | .newHighestPn _ pn => (self.fcSetHighestFcPn pn).1
  | .sent fcId packets => (self.fcOnNewPktSent fcId packets now).1

/-- The packet numbers that a step adds to the application epoch. -/
def appended (before after : Connection) : List Nat :=
  ((after.recovery.epochs .application).sentPackets.drop
    (before.recovery.epochs .application).sentPackets.length).map Sent.pktNum

/-- The sources, the messages to a unicast instance in the order of their channel, the instance, and what it did. -/
structure Replica where
  sources : Nat → SentQueue
  channel : List CtlMsg
  connection : Connection
  /-- Whether the receiver has joined a flow and not left it. -/
  member : Bool
  firstPn : Nat
  /-- The numbers in the copies of the joined flow that came since it was joined. -/
  offered : List Nat
  /-- The next packet numbers that came since the flow was joined, of whatever flow. -/
  told : List Nat
  /-- The packets that were registered since the flow was joined, each with the flow it came for. -/
  registered : List (Nat × Nat)
  /-- The connection before and after each call for another flow than the joined one. -/
  foreignCalls : List (Connection × Connection)

/-- What happens to the sources and to the instance. -/
inductive ReplicaEvent where
  | sends (fcId : Nat) (pkt : Sent)
  /-- A source marks and drains packets of its queue. -/
  | settles (fcId : Nat) (packets : List Sent)
  /-- A source posts a copy of its queue. -/
  | posts (fcId : Nat)
  /-- A source posts its next packet number. -/
  | tells (fcId : Nat)
  /-- The instance handles the first message of its channel. -/
  | receives (now : Int)
  /-- The receiver joins a flow, or changes to it; a server that was aware of the flows starts over. A mark may be set
  if there is none. -/
  | joins (fcId : Nat) (aware : Bool) (mark : Option Nat)
  | opensPath
  | leaves
  /-- Anything else that happens to the recovery of the flexicast path. -/
  | other (event : Event)

namespace Replica

/-- The joined flow; a receiver that left is still on record with the flow that it left. -/
def joined (self : Replica) : Option Nat :=
  if self.member then self.connection.flexicast.bind FcState.fcChanId else none

/-- Whether the flexicast path exists. -/
def hasPath (self : Replica) : Bool := (self.connection.flexicast.map FcState.hasPath).getD false

/-- The mark behind the highest packet. -/
def mark (self : Replica) : Option Nat := (self.connection.flexicast.bind FcState.fcHighestPn).join

/-- Changes the queue of a source. -/
def setSource (self : Replica) (fcId : Nat) (queue : SentQueue) : Replica :=
  { self with sources := fun other => if other = fcId then queue else self.sources other }

/-- The instance handles a message. -/
def handle (self : Replica) (now : Int) (msg : CtlMsg) : Replica :=
  let after := self.connection.handleCtlMsg now msg
  match msg with
  | .newHighestPn _ pn => { self with connection := after, told := self.told ++ [pn] }
  | .sent fcId packets =>
    let self := { self with
      registered := self.registered ++ (appended self.connection after).map fun num => (fcId, num) }
    if self.joined = some fcId then
      { self with connection := after, offered := self.offered ++ packets.map Sent.pktNum }
    else { self with connection := after, foreignCalls := self.foreignCalls ++ [(self.connection, after)] }

/-- One event; no result means that the program panics. -/
def step? (search : List Nat → Nat → Nat) (self : Replica) : ReplicaEvent → Option Replica
  | .sends fcId pkt =>
    some (self.setSource fcId ⟨(self.sources fcId).packets ++ [pkt], pkt.pktNum + 1⟩)
  | .settles fcId packets => some (self.setSource fcId { self.sources fcId with packets := packets })
  | .posts fcId =>
    match (self.sources fcId).fcGetSentPkt none with
    | some packets => some { self with channel := self.channel ++ [.sent fcId packets] }
    | none => some self
  | .tells fcId =>
    match (self.sources fcId).fcNextPn with
    | some pn => some { self with channel := self.channel ++ [.newHighestPn fcId pn] }
    | none => some self
  | .receives now =>
    match self.channel with
    | [] => some self
    | msg :: rest => some ({ self with channel := rest }.handle now msg)
  | .joins fcId aware mark =>
    some { self with
      connection := { self.connection with flexicast := self.connection.flexicast.map fun flexicast =>
        { flexicast with
          -- Joining resets the reliable state of a server that was aware of the flows.
          fcHighestPn := if aware then some mark else flexicast.fcHighestPn.map fun held => held.or mark
          fcChanId := some fcId } }
      member := true
      firstPn := (if aware then mark else self.mark.or mark).getD 0
      offered := []
      told := []
      registered := [] }
  | .opensPath =>
    -- A path that is opened has a recovery of its own.
    some { self with
      connection :=
        { flexicast := self.connection.flexicast.map fun flexicast => { flexicast with hasPath := true }
          recovery := if self.hasPath then self.connection.recovery
            else (Connection.new none (.serverUnicast ()) false).recovery } }
  | .leaves =>
    some { self with
      connection := { self.connection with flexicast := self.connection.flexicast.map fun flexicast =>
        { flexicast with hasPath := false } }
      member := false
      offered := []
      told := []
      registered := [] }
  | .other event => (self.connection.step? search event).map fun connection => { self with connection := connection }

/-- One event, after which there is no state once the program has panicked. -/
def next (search : List Nat → Nat → Nat) (state : Option Replica) (event : ReplicaEvent) : Option Replica :=
  state.bind fun self => self.step? search event

/-- A new unicast instance, which has joined no flow, and sources that have sent nothing. -/
def new : Replica :=
  ⟨fun _ => ⟨[], 0⟩, [], Connection.new (some ⟨.serverUnicast (), some none, none, false⟩) (.serverUnicast ()) false,
    false, 0, [], [], [], []⟩

/-- The registered packets are those of the joined flow that came, from the first one on, once and in order. -/
def Replicates (self : Replica) : Prop :=
  (∀ entry ∈ self.registered, some entry.1 = self.joined) ∧
    (self.registered.map Prod.snd).Pairwise (· < ·) ∧
    ∀ num, num ∈ self.registered.map Prod.snd ↔ self.firstPn ≤ num ∧ num ∈ self.offered

/-- A call for another flow changes nothing. -/
def ForeignKept (self : Replica) : Prop := ∀ call ∈ self.foreignCalls, call.1 = call.2

/-- Sources send with increasing numbers, and only mark what they sent and drain the front of it; a path is opened for a
receiver that joined, and its packets come by messages only. -/
def Orderly : Option Replica → ReplicaEvent → Prop
  | some self, .sends fcId pkt => (self.sources fcId).nextPn ≤ pkt.pktNum
  | some self, .settles fcId packets =>
    (packets.map Sent.pktNum) <:+ ((self.sources fcId).packets.map Sent.pktNum)
  | some self, .opensPath => self.member = true
  | some _, .other (.copied ..) => False
  | some _, .other (.changed ..) => False
  | _, _ => True

/--
A next packet number comes behind all packets that came. A copy comes of the joined flow only, and reaches the first
packet number; what is new in it comes when the path is open, and is not below a next packet number that came before.
-/
def InTurn (self : Replica) : CtlMsg → Prop
  | .newHighestPn _ pn => self.member = true → self.firstPn ≤ pn ∧ ∀ num ∈ self.offered, num < pn
  | .sent fcId packets =>
    if self.joined = some fcId then
      (∀ last ∈ packets.getLast?, self.firstPn ≤ last.pktNum + 1) ∧
        ∀ pkt ∈ packets, self.firstPn ≤ pkt.pktNum → pkt.pktNum ∉ self.offered →
          self.hasPath = true ∧ ∀ pn ∈ self.told, pn ≤ pkt.pktNum
    else packets = []

/-- The messages that the instance handles come in turn. -/
def MessagesInTurn : Option Replica → ReplicaEvent → Prop
  | some self, .receives _ => ∀ msg ∈ self.channel.head?, self.InTurn msg
  | _, _ => True

end Replica

end Definitions

section Calls

variable {self : Connection} {mark fcChanId : Option Nat} {hasPath : Bool}

theorem fcOnNewPktSent_flexicast (shape : self.flexicast = some ⟨.serverUnicast (), some mark, fcChanId, hasPath⟩)
    (fcId : Nat) (packets : List Sent) (now : Int) :
    (self.fcOnNewPktSent fcId packets now).1.flexicast =
      some ⟨.serverUnicast (), some ((packets.getLast?.map (·.pktNum + 1)).or mark), fcChanId, hasPath⟩ := by
  obtain ⟨flexicast, recovery⟩ := self
  cases shape
  unfold Connection.fcOnNewPktSent
  -- What is registered leaves the flexicast state alone.
  by_cases joined : fcChanId = some fcId
  · cases hasPath <;> cases last : packets.getLast? <;> simp [joined]
  · cases hasPath <;> cases last : packets.getLast? <;> simp [joined]

theorem foldl_onPacketSent_queue (now : Int) (packets : List Sent) : ∀ recovery : Recovery,
    ((packets.foldl (fun recovery pkt => recovery.onPacketSent pkt .application now) recovery).epochs
      .application).sentPackets = (recovery.epochs .application).sentPackets ++ packets := by
  -- Induction on the packets: each one is pushed behind the queue.
  induction packets with
  | nil => simp
  | cons pkt rest ih =>
    intro recovery
    rw [List.foldl_cons, ih, (onPacketSent_queue recovery pkt .application now).1.queue, List.append_assoc]
    rfl

theorem appended_fcOnNewPktSent (self : Connection) (fcId : Nat) (packets : List Sent) (now : Int) :
    appended self (self.fcOnNewPktSent fcId packets now).1 =
      (packets.filter fun pkt => (self.records fcId).any fun first => first ≤ pkt.pktNum).map Sent.pktNum := by
  unfold appended
  rw [fcOnNewPktSent_recovery]
  -- A connection that does not record the flow appends nothing.
  cases records : self.records fcId with
  | none => simp
  | some first =>
    simp only [foldl_onPacketSent_queue, List.drop_left, Option.any_some]

theorem fcOnNewPktSent_nil (self : Connection) (fcId : Nat) (now : Int) :
    (self.fcOnNewPktSent fcId [] now).1 = self := by
  obtain ⟨flexicast, recovery⟩ := self
  unfold Connection.fcOnNewPktSent
  -- Every branch returns the state as it was.
  cases flexicast with
  | none => rfl
  | some flexicast =>
    dsimp only
    split
    · rfl
    · cases flexicast.fcHighestPn with
      | none => rfl
      | some highestPn =>
        by_cases joined : flexicast.fcChanId = some fcId
        · cases path : flexicast.hasPath <;> simp [joined, path]
        · simp [joined]

theorem records_joined (shape : self.flexicast = some ⟨.serverUnicast (), some mark, fcChanId, hasPath⟩) {fcId : Nat}
    (joined : fcChanId = some fcId) : self.records fcId = if hasPath then some (mark.getD 0) else none := by
  obtain ⟨flexicast, recovery⟩ := self
  cases shape
  cases hasPath <;> simp [Connection.records, joined]

end Calls

section Copies

/-- A later copy of a queue holds numbers of an earlier one, or larger ones, and reaches as far. -/
structure Cumulative (before after : List Nat) : Prop where
  known : ∀ num ∈ after, num ∈ before ∨ ∀ earlier ∈ before, earlier < num
  reaches : after ≠ [] → ∀ earlier ∈ before, ∃ num ∈ after, earlier ≤ num

theorem cumulative_nil (after : List Nat) : Cumulative [] after where
  known := fun _ _ => .inr fun _ member => absurd member List.not_mem_nil
  reaches := fun _ _ member => absurd member List.not_mem_nil

theorem cumulative_refl (nums : List Nat) : Cumulative nums nums where
  known := fun _ member => .inl member
  reaches := fun _ num member => ⟨num, member, Nat.le_refl num⟩

/-- Two earlier copies taken together. -/
theorem Cumulative.append {first second after : List Nat} (left : Cumulative first after)
    (right : Cumulative second after) : Cumulative (first ++ second) after where
  known := by
    -- A number that is new to both copies is larger than all of either.
    intro num member
    rcases left.known num member with held | largerThanFirst
    · exact .inl (List.mem_append_left _ held)
    · rcases right.known num member with held | largerThanSecond
      · exact .inl (List.mem_append_right _ held)
      · refine .inr fun earlier there => ?_
        rcases List.mem_append.mp there with front | back
        · exact largerThanFirst earlier front
        · exact largerThanSecond earlier back
  reaches := by
    intro some_ earlier there
    rcases List.mem_append.mp there with front | back
    · exact left.reaches some_ earlier front
    · exact right.reaches some_ earlier back

/-- What is left of a queue reaches as far as the queue did, since only its front is drained. -/
theorem Cumulative.suffix {before after part : List Nat} (cumulative : Cumulative before after)
    (increasing : after.Pairwise (· < ·)) (suffix : part <:+ after) : Cumulative before part where
  known := fun num member => cumulative.known num (suffix.subset member)
  reaches := by
    intro some_ earlier there
    obtain ⟨front, rfl⟩ := suffix
    obtain ⟨num, member, reached⟩ := cumulative.reaches (by simp [some_]) earlier there
    rcases List.mem_append.mp member with drained | left_
    · -- Whatever is left is larger than what was drained.
      obtain ⟨first, held⟩ := List.exists_mem_of_ne_nil part some_
      have larger := (List.pairwise_append.mp increasing).2.2 num drained first held
      exact ⟨first, held, by omega⟩
    · exact ⟨num, left_, reached⟩

theorem Cumulative.snoc {before after : List Nat} (cumulative : Cumulative before after) {new : Nat}
    (larger : ∀ earlier ∈ before, earlier < new) : Cumulative before (after ++ [new]) where
  known := by
    intro num member
    rcases List.mem_append.mp member with held | alone
    · exact cumulative.known num held
    · rw [List.mem_singleton.mp alone]
      exact .inr larger
  reaches := fun _ earlier there =>
    ⟨new, List.mem_append_right _ List.mem_cons_self, Nat.le_of_lt (larger earlier there)⟩

/-- What becomes of the copies of a flow: some are forgotten, a new list starts, or the first two are put together. -/
inductive Shrinks (before : List (List Nat)) : List (List Nat) → Prop where
  | forgets {after : List (List Nat)} (sub : after.Sublist before) : Shrinks before after
  | starts {part : List (List Nat)} (sub : part.Sublist before) : Shrinks before ([] :: part)
  | joins {first second : List Nat} {rest : List (List Nat)} (split : before = first :: second :: rest) :
    Shrinks before ((first ++ second) :: rest)

/-- Copies that shrink stay cumulative. -/
theorem Shrinks.cumulative {before after : List (List Nat)} (shrinks : Shrinks before after)
    (cumulative : before.Pairwise Cumulative) : after.Pairwise Cumulative := by
  -- Copies are forgotten, a new one starts, or the first two become one.
  cases shrinks with
  | forgets sub => exact cumulative.sublist sub
  | starts sub => exact List.pairwise_cons.mpr ⟨fun copy _ => cumulative_nil copy, cumulative.sublist sub⟩
  | joins split =>
    subst split
    obtain ⟨fromFirst, others⟩ := List.pairwise_cons.mp cumulative
    obtain ⟨fromSecond, rest⟩ := List.pairwise_cons.mp others
    refine List.pairwise_cons.mpr ⟨fun copy member => ?_, rest⟩
    exact (fromFirst copy (List.mem_cons_of_mem _ member)).append (fromSecond copy member)

/-- Copies that shrink hold no new number. -/
theorem Shrinks.below {before after : List (List Nat)} (shrinks : Shrinks before after) {bound : Nat}
    (below : ∀ copy ∈ before, ∀ num ∈ copy, num < bound) : ∀ copy ∈ after, ∀ num ∈ copy, num < bound := by
  -- Each way of shrinking keeps the numbers that there were, or drops them.
  cases shrinks with
  | forgets sub => exact fun copy member => below copy (sub.subset member)
  | starts sub =>
    rw [List.forall_mem_cons]
    exact ⟨fun num member => absurd member List.not_mem_nil, fun copy member => below copy (sub.subset member)⟩
  | joins split =>
    subst split
    rw [List.forall_mem_cons, List.forall_mem_cons] at below
    obtain ⟨inFirst, inSecond, inRest⟩ := below
    rw [List.forall_mem_cons, List.forall_mem_append]
    exact ⟨⟨inFirst, inSecond⟩, inRest⟩

/-- The numbers that a message offers of a flow. -/
def CtlMsg.offers (fcId : Nat) : CtlMsg → Option (List Nat)
  | .sent other packets => if other = fcId then some (packets.map Sent.pktNum) else none
  | .newHighestPn _ _ => none

namespace Replica

/-- What came of a flow since it was joined, the copies on their way, and the queue as it is now. -/
def copies (self : Replica) (fcId : Nat) : List (List Nat) :=
  (if self.joined = some fcId then [self.offered] else []) ++ self.channel.filterMap (CtlMsg.offers fcId) ++
    [(self.sources fcId).packets.map Sent.pktNum]

/-- What every event keeps, whether the condition is met or not. -/
structure Sound (replica : Replica) : Prop where
  shape : ∃ mark fcChanId hasPath,
    replica.connection.flexicast = some ⟨.serverUnicast (), some mark, fcChanId, hasPath⟩
  left : replica.member = false → replica.hasPath = false
  cumulative : ∀ fcId, (replica.copies fcId).Pairwise Cumulative
  below : ∀ fcId, ∀ copy ∈ replica.copies fcId, ∀ num ∈ copy, num < (replica.sources fcId).nextPn
  queue : ∀ fcId, Increasing (replica.sources fcId).packets
  channel : ∀ fcId packets, CtlMsg.sent fcId packets ∈ replica.channel → Increasing packets

variable {self after : Replica}

theorem sound_new : new.Sound where
  shape := ⟨none, none, false, rfl⟩
  left := fun _ => rfl
  cumulative := fun fcId => by simp [copies, new, joined, Connection.new]
  below := fun fcId => by simp [copies, new, joined, Connection.new]
  queue := fun _ => List.Pairwise.nil
  channel := fun _ _ member => absurd member List.not_mem_nil

/-- The copies of a flow that are older than its queue. -/
def older (self : Replica) (fcId : Nat) : List (List Nat) :=
  (if self.joined = some fcId then [self.offered] else []) ++ self.channel.filterMap (CtlMsg.offers fcId)

theorem copies_eq (self : Replica) (fcId : Nat) :
    self.copies fcId = self.older fcId ++ [(self.sources fcId).packets.map Sent.pktNum] := rfl

variable {fcId : Nat} {packets : List Sent}

variable {queue : SentQueue} {rest : List CtlMsg} {search : List Nat → Nat → Nat}

/-- Another queue takes the place of one, and follows the same copies. -/
theorem Sound.setSource (sound : self.Sound) (increasing : Increasing queue.packets)
    (follows : ∀ copy ∈ self.older fcId, Cumulative copy (queue.packets.map Sent.pktNum))
    (below : ∀ num ∈ queue.packets.map Sent.pktNum, num < queue.nextPn)
    (later : (self.sources fcId).nextPn ≤ queue.nextPn) : (self.setSource fcId queue).Sound := by
  -- The queue of the flow is the last copy; the others follow it as before.
  have there : (self.setSource fcId queue).sources fcId = queue := by simp [Replica.setSource]
  have elsewhere : ∀ other, other ≠ fcId → (self.setSource fcId queue).sources other = self.sources other :=
    fun other apart => by simp [Replica.setSource, apart]
  have same : ∀ other, (self.setSource fcId queue).older other = self.older other := fun _ => rfl
  refine ⟨sound.shape, sound.left, fun other => ?_, fun other => ?_, fun other => ?_, sound.channel⟩
  · have before := sound.cumulative other
    rw [copies_eq] at before ⊢
    by_cases flow : other = fcId
    · subst flow
      rw [same, there]
      obtain ⟨old, -, -⟩ := List.pairwise_append.mp before
      refine List.pairwise_append.mpr ⟨old, List.pairwise_singleton _ _, fun copy member queue_ alone => ?_⟩
      rw [List.mem_singleton.mp alone]
      exact follows copy member
    · rw [same, elsewhere other flow]
      exact before
  · have before := sound.below other
    rw [copies_eq] at before ⊢
    by_cases flow : other = fcId
    · subst flow
      rw [same, there]
      intro copy member num inside
      rcases List.mem_append.mp member with old | alone
      · exact Nat.lt_of_lt_of_le (before copy (List.mem_append_left _ old) num inside) later
      · rw [List.mem_singleton.mp alone] at inside
        exact below num inside
    · rw [same, elsewhere other flow]
      exact before
  · by_cases flow : other = fcId
    · rw [flow, there]
      exact increasing
    · rw [elsewhere other flow]
      exact sound.queue other

/-- The queue of a source follows its copies. -/
theorem Sound.follows (sound : self.Sound) (fcId : Nat) :
    ∀ copy ∈ self.older fcId, Cumulative copy ((self.sources fcId).packets.map Sent.pktNum) := by
  intro copy member
  have cumulative := sound.cumulative fcId
  rw [copies_eq] at cumulative
  exact (List.pairwise_append.mp cumulative).2.2 copy member _ List.mem_cons_self

/-- A source sends a packet with a new number. -/
theorem Sound.sends (sound : self.Sound) {pkt : Sent} (new : (self.sources fcId).nextPn ≤ pkt.pktNum) :
    (self.setSource fcId ⟨(self.sources fcId).packets ++ [pkt], pkt.pktNum + 1⟩).Sound := by
  have below := sound.below fcId
  rw [copies_eq] at below
  -- Every number sent so far is smaller than the next one of the source.
  refine sound.setSource ?_ (fun copy member => ?_) (fun num member => ?_) (Nat.le_succ_of_le new)
  · refine (sound.queue fcId).snoc fun held there => ?_
    have smaller := below _ (List.mem_append_right _ List.mem_cons_self) held.pktNum (List.mem_map_of_mem there)
    omega
  · rw [List.map_append]
    refine (sound.follows fcId copy member).snoc fun earlier there => ?_
    have smaller := below copy (List.mem_append_left _ member) earlier there
    omega
  · rw [List.map_append, List.mem_append] at member
    rcases member with held | alone
    · have smaller := below _ (List.mem_append_right _ List.mem_cons_self) num held
      show num < pkt.pktNum + 1
      omega
    · rw [List.map_singleton, List.mem_singleton] at alone
      rw [alone]
      exact Nat.lt_succ_self _

theorem Sound.settles (sound : self.Sound)
    (suffix : (packets.map Sent.pktNum) <:+ ((self.sources fcId).packets.map Sent.pktNum)) :
    (self.setSource fcId { self.sources fcId with packets := packets }).Sound := by
  have below := sound.below fcId
  rw [copies_eq] at below
  refine sound.setSource (List.Pairwise.sublist suffix.sublist (sound.queue fcId))
    (fun copy member => (sound.follows fcId copy member).suffix (sound.queue fcId) suffix) (fun num member => ?_)
    (Nat.le_refl _)
  exact below _ (List.mem_append_right _ List.mem_cons_self) num (suffix.subset member)

theorem fcGetSentPkt_none (done : queue.fcGetSentPkt none = some packets) : packets = queue.packets := by
  unfold SentQueue.fcGetSentPkt at done
  simp only [Option.getD_none, Nat.zero_le, decide_true, List.filter_true] at done
  split at done
  · simp at done
  · exact (Option.some.inj done).symm

/-- A source posts a copy of its queue. -/
theorem Sound.posts (sound : self.Sound) (fcId : Nat) :
    Replica.Sound { self with channel := self.channel ++ [.sent fcId (self.sources fcId).packets] } := by
  -- The copy is the queue, so what follows the queue's copies follows this one.
  have older_ : ∀ other, ({ self with channel := self.channel ++ [.sent fcId (self.sources fcId).packets] } :
      Replica).older other = self.older other ++
        if fcId = other then [(self.sources fcId).packets.map Sent.pktNum] else [] := by
    intro other
    unfold older
    rw [List.filterMap_append, ← List.append_assoc]
    congr 1
    by_cases same : fcId = other <;> simp [CtlMsg.offers, same]
  refine ⟨sound.shape, sound.left, fun other => ?_, fun other => ?_, sound.queue, fun other packets member => ?_⟩
  · have before := sound.cumulative other
    rw [copies_eq] at before ⊢
    rw [older_]
    by_cases same : fcId = other
    · subst same
      obtain ⟨old, -, follow⟩ := List.pairwise_append.mp before
      rw [if_pos rfl]
      refine List.pairwise_append.mpr ⟨before, List.pairwise_singleton _ _, fun copy member queue alone => ?_⟩
      rw [List.mem_singleton.mp alone]
      rcases List.mem_append.mp member with held | last
      · exact follow copy held _ List.mem_cons_self
      · rw [List.mem_singleton.mp last]
        exact cumulative_refl _
    · rw [if_neg same, List.append_nil]
      exact before
  · have before := sound.below other
    rw [copies_eq] at before ⊢
    rw [older_]
    by_cases same : fcId = other
    · subst same
      rw [if_pos rfl]
      intro copy member
      rcases List.mem_append.mp member with held | last
      · exact before copy held
      · exact before copy (List.mem_append_right _ last)
    · rw [if_neg same, List.append_nil]
      exact before
  · rcases List.mem_append.mp member with held | last
    · exact sound.channel other packets held
    · cases List.mem_singleton.mp last
      exact sound.queue fcId

/-- What changes no source and lets the copies shrink keeps everything. -/
theorem Sound.shrink (sound : self.Sound) (sources : after.sources = self.sources)
    (shape : ∃ mark fcChanId hasPath,
      after.connection.flexicast = some ⟨.serverUnicast (), some mark, fcChanId, hasPath⟩)
    (left : after.member = false → after.hasPath = false)
    (channel : ∀ msg ∈ after.channel, msg ∈ self.channel ∨ ∃ fcId pn, msg = CtlMsg.newHighestPn fcId pn)
    (shrinks : ∀ fcId, Shrinks (self.copies fcId) (after.copies fcId)) : after.Sound where
  shape := shape
  left := left
  cumulative := fun fcId => (shrinks fcId).cumulative (sound.cumulative fcId)
  below := fun fcId => by
    rw [sources]
    exact (shrinks fcId).below (sound.below fcId)
  queue := fun fcId => by
    rw [sources]
    exact sound.queue fcId
  channel := by
    intro fcId packets member
    rcases channel _ member with held | ⟨_, _, same⟩
    · exact sound.channel fcId packets held
    · simp at same

theorem copies_congr (fcId : Nat) (joined : after.joined = self.joined) (offered : after.offered = self.offered)
    (channel : after.channel.filterMap (CtlMsg.offers fcId) = self.channel.filterMap (CtlMsg.offers fcId))
    (sources : after.sources = self.sources) : after.copies fcId = self.copies fcId := by
  simp only [copies, joined, offered, channel, sources]

/-- A message about the next packet number offers nothing. -/
theorem Sound.tells (sound : self.Sound) (fcId pn : Nat) :
    Replica.Sound { self with channel := self.channel ++ [.newHighestPn fcId pn] } := by
  -- The message carries no packets, so the copies stay.
  refine sound.shrink rfl sound.shape sound.left (fun msg member => ?_) fun other => .forgets ?_
  · rcases List.mem_append.mp member with held | last
    · exact .inl held
    · exact .inr ⟨fcId, pn, List.mem_singleton.mp last⟩
  · have same : (self.channel ++ [CtlMsg.newHighestPn fcId pn]).filterMap (CtlMsg.offers other) =
        self.channel.filterMap (CtlMsg.offers other) := by
      simp [CtlMsg.offers]
    have alike : Replica.copies { self with channel := self.channel ++ [.newHighestPn fcId pn] } other =
        self.copies other := copies_congr other rfl rfl same rfl
    rw [alike]

theorem joined_eq {mark fcChanId : Option Nat} {hasPath : Bool}
    (shape : self.connection.flexicast = some ⟨.serverUnicast (), some mark, fcChanId, hasPath⟩) :
    self.joined = (if self.member then fcChanId else none) ∧ self.hasPath = hasPath ∧ self.mark = mark := by
  simp [Replica.joined, Replica.hasPath, Replica.mark, shape]

/-- A message that sets the mark. -/
theorem Sound.marked (sound : self.Sound) (now : Int) {pn : Nat}
    (channel : self.channel = .newHighestPn fcId pn :: rest) :
    (Replica.handle { self with channel := rest } now (.newHighestPn fcId pn)).Sound ∧
      (Replica.handle { self with channel := rest } now (.newHighestPn fcId pn)).joined = self.joined ∧
      (Replica.handle { self with channel := rest } now (.newHighestPn fcId pn)).mark = some pn := by
  obtain ⟨mark, fcChanId, hasPath, shape⟩ := sound.shape
  have flexicast : (Replica.handle { self with channel := rest } now (.newHighestPn fcId pn)).connection.flexicast =
      some ⟨.serverUnicast (), some (some pn), fcChanId, hasPath⟩ := by
    simp [Replica.handle, Connection.handleCtlMsg, Connection.fcSetHighestFcPn, shape]
  obtain ⟨before, path, -⟩ := joined_eq shape
  obtain ⟨joined, path', mark'⟩ := joined_eq flexicast
  -- The mark moves, and the copies stay.
  have same : (Replica.handle { self with channel := rest } now (.newHighestPn fcId pn)).joined = self.joined :=
    joined.trans before.symm
  refine ⟨?_, same, mark'⟩
  refine sound.shrink rfl ⟨some pn, fcChanId, hasPath, flexicast⟩ (fun absent => ?_) (fun msg member => .inl ?_)
    fun other => .forgets ?_
  · rw [path', ← path]
    exact sound.left absent
  · rw [channel]
    exact List.mem_cons_of_mem _ member
  · rw [copies_congr other same rfl (by rw [channel]; rfl) rfl]

/-- What handling packets of a flow comes to. -/
structure Brings (before : Replica) (now : Int) (rest : List CtlMsg) (fcId : Nat) (packets : List Sent)
    (after : Replica) : Prop where
  joined : after.joined = before.joined
  member : after.member = before.member
  hasPath : after.hasPath = before.hasPath
  mark : after.mark = (packets.getLast?.map fun last => last.pktNum + 1).or before.mark
  channel : after.channel = rest
  sources : after.sources = before.sources
  firstPn : after.firstPn = before.firstPn
  told : after.told = before.told
  connection : after.connection = (before.connection.fcOnNewPktSent fcId packets now).1
  registered : after.registered = before.registered ++ ((packets.filter fun pkt =>
    (before.connection.records fcId).any fun first => first ≤ pkt.pktNum).map Sent.pktNum).map fun num => (fcId, num)
  offered : after.offered = before.offered ++ if before.joined = some fcId then packets.map Sent.pktNum else []
  foreignCalls : after.foreignCalls =
    before.foreignCalls ++ if before.joined = some fcId then [] else [(before.connection, after.connection)]

/-- What handling packets of a flow comes to. -/
theorem handle_sent (sound : self.Sound) (now : Int) (rest : List CtlMsg) (fcId : Nat) (packets : List Sent) :
    Brings self now rest fcId packets (Replica.handle { self with channel := rest } now (.sent fcId packets)) := by
  obtain ⟨mark, fcChanId, hasPath, shape⟩ := sound.shape
  have registered := appended_fcOnNewPktSent self.connection fcId packets now
  -- The two branches differ in what is noted; the connection is the same.
  have connection : (Replica.handle { self with channel := rest } now (.sent fcId packets)).connection =
      (self.connection.fcOnNewPktSent fcId packets now).1 := by
    unfold Replica.handle
    simp only
    split <;> rfl
  have member : (Replica.handle { self with channel := rest } now (.sent fcId packets)).member = self.member := by
    unfold Replica.handle
    simp only
    split <;> rfl
  have flexicast := fcOnNewPktSent_flexicast shape fcId packets now
  rw [← connection] at flexicast
  obtain ⟨before, path, held⟩ := joined_eq shape
  obtain ⟨after, path', held'⟩ := joined_eq flexicast
  by_cases joined : self.joined = some fcId
  · have branch : Replica.handle { self with channel := rest } now (.sent fcId packets) = { self with
        channel := rest
        connection := (self.connection.fcOnNewPktSent fcId packets now).1
        registered := self.registered ++
          (appended self.connection (self.connection.fcOnNewPktSent fcId packets now).1).map fun num => (fcId, num)
        offered := self.offered ++ packets.map Sent.pktNum } := if_pos joined
    refine ⟨by rw [after, before, member], member, path'.trans path.symm, by rw [held', held], ?_, ?_, ?_, ?_,
      connection, ?_, ?_, ?_⟩
    all_goals rw [branch]
    · rw [registered]
    · rw [if_pos joined]
    · rw [if_pos joined, List.append_nil]
  · have branch : Replica.handle { self with channel := rest } now (.sent fcId packets) = { self with
        channel := rest
        connection := (self.connection.fcOnNewPktSent fcId packets now).1
        registered := self.registered ++
          (appended self.connection (self.connection.fcOnNewPktSent fcId packets now).1).map fun num => (fcId, num)
        foreignCalls := self.foreignCalls ++
          [(self.connection, (self.connection.fcOnNewPktSent fcId packets now).1)] } := if_neg joined
    refine ⟨by rw [after, before, member], member, path'.trans path.symm, by rw [held', held], ?_, ?_, ?_, ?_,
      connection, ?_, ?_, ?_⟩
    all_goals rw [branch]
    · rw [registered]
    · rw [if_neg joined, List.append_nil]
    · rw [if_neg joined]

/-- A message that brings packets. -/
theorem Sound.brought (sound : self.Sound) (now : Int) (channel : self.channel = .sent fcId packets :: rest) :
    (Replica.handle { self with channel := rest } now (.sent fcId packets)).Sound := by
  obtain ⟨mark, fcChanId, hasPath, shape⟩ := sound.shape
  have flexicast := fcOnNewPktSent_flexicast shape fcId packets now
  have brings := handle_sent sound now rest fcId packets
  have same := brings.joined
  have left := brings.channel
  have sources := brings.sources
  have offered := brings.offered
  refine sound.shrink sources ⟨_, _, _, by rw [brings.connection]; exact flexicast⟩ (fun absent => ?_)
    (fun msg member => .inl ?_) fun other => ?_
  · rw [brings.hasPath]
    exact sound.left (brings.member ▸ absent)
  · rw [left] at member
    rw [channel]
    exact List.mem_cons_of_mem _ member
  · by_cases flow : fcId = other
    · subst flow
      simp only [copies, same, left, sources, offered, channel, List.filterMap_cons, CtlMsg.offers, if_true]
      by_cases joined : self.joined = some fcId
      · -- What came is put together with this copy.
        simp only [joined, if_true]
        exact .joins rfl
      · simp only [joined, if_false]
        exact .forgets (List.sublist_cons_self _ _)
    · simp only [copies, same, left, sources, offered, channel, List.filterMap_cons, CtlMsg.offers, flow, if_false]
      by_cases joined : self.joined = some other
      · have apart : self.joined ≠ some fcId := by
          rw [joined]
          simpa using Ne.symm flow
        simp only [joined, if_true, Option.some.injEq, Ne.symm flow, if_false, List.append_nil]
        exact .forgets (List.Sublist.refl _)
      · simp only [joined, if_false]
        exact .forgets (List.Sublist.refl _)

/-- What happens to the recovery leaves the flexicast state alone. -/
theorem step_flexicast {event : Event} {connection : Connection} (orderly : Orderly (some self) (.other event))
    (done : self.connection.step? search event = some connection) :
    connection.flexicast = self.connection.flexicast := by
  cases event with
  | sent pkt epoch now =>
    cases done
    rfl
  | acked | lossDetection | timeout | discarded =>
    obtain ⟨recovery, -, stored⟩ := Option.map_eq_some_iff.mp done
    cases stored
    rfl
  | markedAll =>
    cases done
    rfl
  | copied fcId packets now => exact orderly.elim
  | changed flexicast => exact orderly.elim
  | initialised role =>
    unfold Connection.step? at done
    simp only at done
    split at done
    · cases done
      rfl
    · cases done
      rfl

/-- Every orderly event keeps everything. -/
theorem Sound.step (sound : self.Sound) {event : ReplicaEvent} (orderly : Orderly (some self) event)
    (done : self.step? search event = some after) : after.Sound := by
  cases event with
  | sends fcId pkt =>
    cases done
    exact sound.sends orderly
  | settles fcId packets =>
    cases done
    exact sound.settles orderly
  | posts fcId =>
    unfold step? at done
    cases copied : (self.sources fcId).fcGetSentPkt none with
    | none =>
      simp only [copied] at done
      cases done
      exact sound
    | some packets =>
      simp only [copied] at done
      cases done
      rw [fcGetSentPkt_none copied]
      exact sound.posts fcId
  | tells fcId =>
    unfold step? at done
    cases told : (self.sources fcId).fcNextPn with
    | none =>
      simp only [told] at done
      cases done
      exact sound
    | some pn =>
      simp only [told] at done
      cases done
      exact sound.tells fcId pn
  | receives now =>
    unfold step? at done
    cases channel : self.channel with
    | nil =>
      simp only [channel] at done
      cases done
      exact sound
    | cons msg rest =>
      simp only [channel] at done
      cases done
      cases msg with
      | newHighestPn fcId pn => exact (sound.marked now channel).1
      | sent fcId packets => exact sound.brought now channel
  | joins fcId aware mark =>
    cases done
    obtain ⟨held, fcChanId, hasPath, shape⟩ := sound.shape
    refine sound.shrink rfl ⟨if aware then mark else held.or mark, some fcId, hasPath, ?_⟩
      (fun absent => nomatch absent) (fun msg member => .inl member) fun other => ?_
    · cases aware <;> simp [shape]
    -- The joined flow starts a new list, and the others keep none.
    have part : (self.channel.filterMap (CtlMsg.offers other) ++ [(self.sources other).packets.map Sent.pktNum]).Sublist
        (self.copies other) := by
      rw [copies, List.append_assoc]
      exact List.sublist_append_right _ _
    by_cases same : fcId = other
    · simpa [copies, Replica.joined, shape, same] using Shrinks.starts part
    · simpa [copies, Replica.joined, shape, same] using Shrinks.forgets part
  | opensPath =>
    cases done
    obtain ⟨mark, fcChanId, hasPath, shape⟩ := sound.shape
    have joined : Replica.joined { self with connection :=
        { flexicast := self.connection.flexicast.map fun flexicast => { flexicast with hasPath := true }
          recovery := if self.hasPath then self.connection.recovery
            else (Connection.new none (.serverUnicast ()) false).recovery } } = self.joined := by
      simp [Replica.joined, shape]
    refine sound.shrink rfl ⟨mark, fcChanId, true, by simp [shape]⟩ (fun absent => ?_) (fun msg member => .inl member)
      fun other => .forgets ?_
    · have present : self.member = true := orderly
      simp [present] at absent
    · rw [copies_congr other joined rfl rfl rfl]
  | leaves =>
    cases done
    obtain ⟨mark, fcChanId, hasPath, shape⟩ := sound.shape
    refine sound.shrink rfl ⟨mark, fcChanId, false, by simp [shape]⟩ (fun _ => by simp [Replica.hasPath, shape])
      (fun msg member => .inl member) fun other => .forgets ?_
    -- A receiver that left has joined no flow, so what came is forgotten.
    rw [copies, copies, List.append_assoc, List.append_assoc]
    exact List.sublist_append_right _ _
  | other event =>
    obtain ⟨connection, stepped, stored⟩ := Option.map_eq_some_iff.mp done
    subst stored
    have flexicast := step_flexicast orderly stepped
    have joined : Replica.joined { self with connection := connection } = self.joined := by
      simp [Replica.joined, flexicast]
    refine sound.shrink rfl ?_ (fun absent => ?_) (fun msg member => .inl member) fun other => .forgets ?_
    · rw [flexicast]
      exact sound.shape
    · have left := sound.left absent
      simpa [Replica.hasPath, flexicast] using left
    · rw [copies_congr other joined rfl rfl rfl]

end Replica

end Copies

section Replicating

namespace Replica

variable {self after : Replica}

/-- The mark is not below the first packet number and behind all packets that came, and something put it there. -/
structure Marked (replica : Replica) : Prop where
  first : replica.firstPn ≤ replica.mark.getD 0
  behind : ∀ num ∈ replica.offered, num < replica.mark.getD 0
  put : replica.mark.getD 0 = replica.firstPn ∨ replica.mark.getD 0 ∈ replica.told ∨
    ∃ num ∈ replica.offered, replica.mark.getD 0 = num + 1

/-- What a run keeps: the replica is right, and so is the mark of a receiver that joined. -/
structure Faithful (replica : Replica) : Prop where
  sound : replica.Sound
  replicates : replica.Replicates
  foreignKept : replica.ForeignKept
  marked : replica.member = true → replica.Marked

theorem replicates_congr (joined : after.joined = self.joined) (firstPn : after.firstPn = self.firstPn)
    (offered : after.offered = self.offered) (registered : after.registered = self.registered) :
    after.Replicates ↔ self.Replicates := by
  simp only [Replicates, joined, firstPn, offered, registered]

/-- An event that concerns neither the mark nor what came. -/
theorem Faithful.same (faithful : self.Faithful) (sound : after.Sound) (joined : after.joined = self.joined)
    (member : after.member = self.member) (mark : after.mark = self.mark) (firstPn : after.firstPn = self.firstPn)
    (offered : after.offered = self.offered) (told : after.told = self.told)
    (registered : after.registered = self.registered) (foreignCalls : after.foreignCalls = self.foreignCalls) :
    after.Faithful where
  sound := sound
  replicates := (replicates_congr joined firstPn offered registered).mpr faithful.replicates
  foreignKept := by
    rw [ForeignKept, foreignCalls]
    exact faithful.foreignKept
  marked := by
    intro present
    obtain ⟨first, behind, put⟩ := faithful.marked (member ▸ present)
    refine ⟨?_, ?_, ?_⟩
    · rw [mark, firstPn]
      exact first
    · rw [mark, offered]
      exact behind
    · rw [mark, firstPn, offered, told]
      exact put

/-- Without packets on record nothing is wrong. -/
theorem replicates_nil (offered : self.offered = []) (registered : self.registered = []) : self.Replicates := by
  simp [Replicates, offered, registered]

variable {fcId : Nat} {packets : List Sent} {rest : List CtlMsg}

theorem Sound.news (sound : self.Sound) (channel : self.channel = .sent fcId packets :: rest)
    (joined : self.joined = some fcId) : Cumulative self.offered (packets.map Sent.pktNum) ∧ Increasing packets := by
  refine ⟨?_, sound.channel fcId packets (by rw [channel]; exact List.mem_cons_self)⟩
  have cumulative := sound.cumulative fcId
  simp only [copies, joined, channel, List.filterMap_cons, CtlMsg.offers, if_true, List.cons_append, List.nil_append]
    at cumulative
  exact (List.pairwise_cons.mp cumulative).1 _ List.mem_cons_self

/-- Of a copy that comes in turn, the connection registers the packets that are new from the first packet number on. -/
theorem Marked.separates (marked : self.Marked)
    (records : self.connection.records fcId = if self.hasPath then some (self.mark.getD 0) else none)
    (cumulative : Cumulative self.offered (packets.map Sent.pktNum))
    (inTurn : ∀ pkt ∈ packets, self.firstPn ≤ pkt.pktNum → pkt.pktNum ∉ self.offered →
      self.hasPath = true ∧ ∀ pn ∈ self.told, pn ≤ pkt.pktNum) {pkt : Sent} (member : pkt ∈ packets) :
    (∃ first ∈ self.connection.records fcId, first ≤ pkt.pktNum) ↔
      self.firstPn ≤ pkt.pktNum ∧ pkt.pktNum ∉ self.offered := by
  obtain ⟨first, behind, put⟩ := marked
  rw [records]
  constructor
  · rintro ⟨bound, held, reached⟩
    cases path : self.hasPath with
    | false => simp [path] at held
    | true =>
      obtain rfl : self.mark.getD 0 = bound := by simpa [path] using held
      exact ⟨by omega, fun already => absurd (behind _ already) (by omega)⟩
  · rintro ⟨reached, new⟩
    obtain ⟨path, told⟩ := inTurn pkt member reached new
    refine ⟨self.mark.getD 0, by simp [path], ?_⟩
    -- The mark stands at the first number, where a message put it, or behind a packet that came.
    rcases put with same | message | ⟨num, came, same⟩
    · omega
    · exact told _ message
    · have larger := (cumulative.known _ (List.mem_map_of_mem member)).resolve_left new num came
      omega

/-- The mark after a copy that comes in turn. -/
theorem Marked.brought (marked : self.Marked) (increasing : Increasing packets)
    (cumulative : Cumulative self.offered (packets.map Sent.pktNum))
    (reaches : ∀ last ∈ packets.getLast?, self.firstPn ≤ last.pktNum + 1) (firstPn : after.firstPn = self.firstPn)
    (offered : after.offered = self.offered ++ packets.map Sent.pktNum) (told : after.told = self.told)
    (mark : after.mark = (packets.getLast?.map fun last => last.pktNum + 1).or self.mark) : after.Marked := by
  cases ends : packets.getLast? with
  | none =>
    obtain rfl := List.getLast?_eq_none_iff.mp ends
    obtain ⟨first, behind, put⟩ := marked
    simp only [ends, Option.map_none, Option.none_or, List.map_nil, List.append_nil] at mark offered
    refine ⟨?_, ?_, ?_⟩
    · rw [mark, firstPn]
      exact first
    · rw [mark, offered]
      exact behind
    · rw [mark, firstPn, offered, told]
      exact put
  | some last =>
    obtain ⟨front, rfl⟩ := List.getLast?_eq_some_iff.mp ends
    -- The last packet of the copy has the largest number of all that came.
    have largest : ∀ num ∈ (front ++ [last]).map Sent.pktNum, num ≤ last.pktNum := by
      intro num member
      rw [List.map_append, List.mem_append] at member
      rcases member with earlier | alone
      · rw [Increasing, List.map_append] at increasing
        exact Nat.le_of_lt ((List.pairwise_append.mp increasing).2.2 num earlier last.pktNum (by simp))
      · obtain rfl : num = last.pktNum := by simpa using alone
        exact Nat.le_refl _
    simp only [ends, Option.map_some, Option.some_or] at mark
    have placed : after.mark.getD 0 = last.pktNum + 1 := by rw [mark]; rfl
    refine ⟨?_, ?_, .inr (.inr ⟨last.pktNum, ?_, placed⟩)⟩
    · rw [placed, firstPn]
      exact reaches last ends
    · rw [placed, offered, List.forall_mem_append]
      refine ⟨fun num came => ?_, fun num member => Nat.lt_succ_of_le (largest num member)⟩
      obtain ⟨further, member, reached⟩ := cumulative.reaches (by simp) num came
      have last_ := largest further member
      omega
    · rw [offered]
      simp

/-- A copy of the joined flow that comes in turn. -/
theorem Faithful.joinedCopy (faithful : self.Faithful) (now : Int)
    (channel : self.channel = .sent fcId packets :: rest) (joined : self.joined = some fcId)
    (inTurn : self.InTurn (.sent fcId packets)) :
    (Replica.handle { self with channel := rest } now (.sent fcId packets)).Faithful := by
  obtain ⟨mark, fcChanId, hasPath, shape⟩ := faithful.sound.shape
  have brings := handle_sent faithful.sound now rest fcId packets
  obtain ⟨held, path, marks⟩ := joined_eq shape
  obtain ⟨cumulative, increasing⟩ := faithful.sound.news channel joined
  have member : self.member = true := by
    cases present : self.member with
    | true => rfl
    | false => simp [held, present] at joined
  obtain ⟨reaches, news⟩ : _ ∧ _ := by simpa only [InTurn, joined, if_true] using inTurn
  have marked := faithful.marked member
  have records : self.connection.records fcId = if self.hasPath then some (self.mark.getD 0) else none := by
    rw [path, marks]
    exact records_joined shape (by simpa [held, member] using joined)
  have separates := fun pkt (there : pkt ∈ packets) => marked.separates records cumulative news there
  have offered := brings.offered
  have foreignCalls := brings.foreignCalls
  rw [if_pos joined] at offered foreignCalls
  have fresh : ∀ num, num ∈ (packets.filter fun pkt => (self.connection.records fcId).any fun first =>
        first ≤ pkt.pktNum).map Sent.pktNum ↔
      ∃ pkt ∈ packets, (self.firstPn ≤ pkt.pktNum ∧ pkt.pktNum ∉ self.offered) ∧ pkt.pktNum = num := by
    intro num
    have passes : ∀ pkt : Sent, ((self.connection.records fcId).any fun first => decide (first ≤ pkt.pktNum)) = true ↔
        ∃ first ∈ self.connection.records fcId, first ≤ pkt.pktNum := by
      intro pkt
      cases self.connection.records fcId <;> simp
    simp only [List.mem_map, List.mem_filter, passes, and_assoc]
    exact exists_congr fun pkt => and_congr_right fun there => by rw [separates pkt there, and_assoc]
  obtain ⟨tagged, sorted, members⟩ := faithful.replicates
  refine ⟨faithful.sound.brought now channel, ⟨?_, ?_, fun num => ?_⟩, ?_, fun _ => ?_⟩
  · rw [brings.registered, brings.joined, List.forall_mem_append]
    refine ⟨tagged, ?_⟩
    rw [List.forall_mem_map]
    exact fun num _ => joined.symm
  · rw [brings.registered, List.map_append, List.map_map]
    refine List.pairwise_append.mpr ⟨sorted, ?_, fun earlier before num new => ?_⟩
    · rw [Function.comp_def, List.map_id']
      exact List.Pairwise.sublist (List.filter_sublist.map _) increasing
    · -- What is new follows everything that came before.
      rw [Function.comp_def, List.map_id'] at new
      obtain ⟨pkt, there, ⟨-, unseen⟩, rfl⟩ := (fresh num).mp new
      have larger := (cumulative.known _ (List.mem_map_of_mem there)).resolve_left unseen
      exact larger earlier ((members earlier).mp before).2
  · rw [brings.registered, brings.firstPn, offered, List.map_append, List.map_map, Function.comp_def, List.map_id',
      List.mem_append, List.mem_append, members, fresh]
    constructor
    · rintro (⟨first, came⟩ | ⟨pkt, there, ⟨first, -⟩, rfl⟩)
      · exact ⟨first, .inl came⟩
      · exact ⟨first, .inr (List.mem_map_of_mem there)⟩
    · rintro ⟨first, came | comes⟩
      · exact .inl ⟨first, came⟩
      · by_cases already : num ∈ self.offered
        · exact .inl ⟨first, already⟩
        · obtain ⟨pkt, there, rfl⟩ := List.mem_map.mp comes
          exact .inr ⟨pkt, there, ⟨first, already⟩, rfl⟩
  · rw [ForeignKept, foreignCalls, List.append_nil]
    exact faithful.foreignKept
  · exact marked.brought increasing cumulative reaches brings.firstPn offered brings.told brings.mark

/-- A copy of another flow without packets changes nothing. -/
theorem Faithful.foreignCopy (faithful : self.Faithful) (now : Int) (channel : self.channel = .sent fcId [] :: rest)
    (foreign : self.joined ≠ some fcId) :
    (Replica.handle { self with channel := rest } now (.sent fcId [])).Faithful := by
  have brings := handle_sent faithful.sound now rest fcId []
  have registered := brings.registered
  have offered := brings.offered
  have foreignCalls := brings.foreignCalls
  simp only [foreign, if_false, List.append_nil, List.filter_nil, List.map_nil] at registered offered foreignCalls
  refine ⟨faithful.sound.brought now channel, ?_, ?_, fun present => ?_⟩
  · exact (replicates_congr brings.joined brings.firstPn offered registered).mpr faithful.replicates
  · rw [ForeignKept, foreignCalls, List.forall_mem_append, List.forall_mem_singleton]
    refine ⟨faithful.foreignKept, ?_⟩
    rw [brings.connection, fcOnNewPktSent_nil]
  · obtain ⟨first, behind, put⟩ := faithful.marked (brings.member ▸ present)
    have mark := brings.mark
    rw [List.getLast?_nil, Option.map_none, Option.none_or] at mark
    refine ⟨?_, ?_, ?_⟩
    · rw [mark, brings.firstPn]
      exact first
    · rw [mark, offered]
      exact behind
    · rw [mark, brings.firstPn, offered, brings.told]
      exact put

/-- A next packet number that comes in turn. -/
theorem Faithful.told (faithful : self.Faithful) (now : Int) {pn : Nat}
    (channel : self.channel = .newHighestPn fcId pn :: rest) (inTurn : self.InTurn (.newHighestPn fcId pn)) :
    (Replica.handle { self with channel := rest } now (.newHighestPn fcId pn)).Faithful := by
  obtain ⟨sound, joined, mark⟩ := faithful.sound.marked now channel
  refine ⟨sound, (replicates_congr joined rfl rfl rfl).mpr faithful.replicates, faithful.foreignKept, fun present => ?_⟩
  obtain ⟨first, behind⟩ := inTurn present
  have placed : (Replica.handle { self with channel := rest } now (.newHighestPn fcId pn)).mark.getD 0 = pn := by
    rw [mark]
    rfl
  refine ⟨?_, ?_, .inr (.inl ?_)⟩
  · rw [placed]
    exact first
  · rw [placed]
    exact behind
  · rw [placed]
    exact List.mem_append_right _ List.mem_cons_self

/-- A receiver that joins or changes its flow has got nothing of it. -/
theorem Faithful.joins (faithful : self.Faithful) {search : List Nat → Nat → Nat} {aware : Bool} {mark : Option Nat}
    (done : self.step? search (.joins fcId aware mark) = some after) : after.Faithful := by
  have sound := faithful.sound.step (show Orderly (some self) (.joins fcId aware mark) from trivial) done
  cases done
  obtain ⟨held, fcChanId, hasPath, shape⟩ := faithful.sound.shape
  refine ⟨sound, replicates_nil rfl rfl, faithful.foreignKept, fun _ => ?_⟩
  -- The mark is where the flow was joined.
  refine ⟨Nat.le_of_eq ?_, fun num came => absurd came List.not_mem_nil, .inl ?_⟩
  all_goals cases aware <;> simp [Replica.mark, shape]

/-- Every event whose messages come in turn keeps the replica right. -/
theorem Faithful.step {search : List Nat → Nat → Nat} {event : ReplicaEvent} (faithful : self.Faithful)
    (orderly : Orderly (some self) event) (inTurn : MessagesInTurn (some self) event)
    (done : self.step? search event = some after) : after.Faithful := by
  have sound := faithful.sound.step orderly done
  obtain ⟨mark, fcChanId, hasPath, shape⟩ := faithful.sound.shape
  -- Only where the connection receives does the mark matter; nothing else brings packets to it.
  cases event with
  | sends fcId pkt | settles fcId packets =>
    cases done
    exact faithful.same sound rfl rfl rfl rfl rfl rfl rfl rfl
  | posts fcId =>
    unfold step? at done
    cases copied : (self.sources fcId).fcGetSentPkt none with
    | none =>
      simp only [copied, Option.some.injEq] at done
      exact done ▸ faithful
    | some packets =>
      simp only [copied, Option.some.injEq] at done
      subst done
      exact faithful.same sound rfl rfl rfl rfl rfl rfl rfl rfl
  | tells fcId =>
    unfold step? at done
    cases told : (self.sources fcId).fcNextPn with
    | none =>
      simp only [told, Option.some.injEq] at done
      exact done ▸ faithful
    | some pn =>
      simp only [told, Option.some.injEq] at done
      subst done
      exact faithful.same sound rfl rfl rfl rfl rfl rfl rfl rfl
  | receives now =>
    unfold step? at done
    cases channel : self.channel with
    | nil =>
      simp only [channel, Option.some.injEq] at done
      exact done ▸ faithful
    | cons msg rest =>
      simp only [channel, Option.some.injEq] at done
      subst done
      have comes : self.InTurn msg := inTurn msg (by rw [channel]; rfl)
      cases msg with
      | newHighestPn fcId pn => exact faithful.told now channel comes
      | sent fcId packets =>
        by_cases joined : self.joined = some fcId
        · exact faithful.joinedCopy now channel joined comes
        · obtain rfl : packets = [] := by simpa only [InTurn, joined, if_false] using comes
          exact faithful.foreignCopy now channel joined
  | joins fcId aware mark => exact faithful.joins done
  | opensPath =>
    cases done
    exact faithful.same sound (by simp [Replica.joined, shape]) rfl (by simp [Replica.mark, shape]) rfl rfl rfl rfl rfl
  | leaves =>
    cases done
    exact ⟨sound, replicates_nil rfl rfl, faithful.foreignKept, fun present => nomatch present⟩
  | other event =>
    obtain ⟨connection, stepped, stored⟩ := Option.map_eq_some_iff.mp done
    subst stored
    have flexicast := step_flexicast orderly stepped
    exact faithful.same sound (by simp [Replica.joined, flexicast]) rfl (by simp [Replica.mark, flexicast]) rfl rfl rfl
      rfl rfl

theorem new_faithful : new.Faithful where
  sound := sound_new
  replicates := replicates_nil rfl rfl
  foreignKept := fun _ member => absurd member List.not_mem_nil
  marked := fun present => nomatch present

instance : (state : Option Replica) → (event : ReplicaEvent) → Decidable (Orderly state event)
  | some self, .sends fcId pkt => inferInstanceAs (Decidable ((self.sources fcId).nextPn ≤ pkt.pktNum))
  | some self, .settles fcId packets => inferInstanceAs (Decidable
      ((packets.map Sent.pktNum) <:+ ((self.sources fcId).packets.map Sent.pktNum)))
  | some self, .opensPath => inferInstanceAs (Decidable (self.member = true))
  | some _, .other (.copied ..) | some _, .other (.changed ..) => isFalse id
  | some _, .other (.sent ..) | some _, .other (.acked ..) | some _, .other (.lossDetection ..)
  | some _, .other (.timeout ..) | some _, .other (.discarded ..) | some _, .other .markedAll
  | some _, .other (.initialised ..) => isTrue trivial
  | some _, .posts _ | some _, .tells _ | some _, .receives _ | some _, .joins .. | some _, .leaves
  | none, _ => isTrue trivial

instance (self : Replica) : (msg : CtlMsg) → Decidable (self.InTurn msg)
  | .newHighestPn _ pn => inferInstanceAs (Decidable (
      self.member = true → self.firstPn ≤ pn ∧ ∀ num ∈ self.offered, num < pn))
  | .sent fcId packets => inferInstanceAs (Decidable (
      if self.joined = some fcId then
        (∀ last ∈ packets.getLast?, self.firstPn ≤ last.pktNum + 1) ∧
          ∀ pkt ∈ packets, self.firstPn ≤ pkt.pktNum → pkt.pktNum ∉ self.offered →
            self.hasPath = true ∧ ∀ pn ∈ self.told, pn ≤ pkt.pktNum
      else packets = []))

instance : (state : Option Replica) → (event : ReplicaEvent) → Decidable (MessagesInTurn state event)
  | some self, .receives _ => inferInstanceAs (Decidable (∀ msg ∈ self.channel.head?, self.InTurn msg))
  | some _, .sends .. | some _, .settles .. | some _, .posts _ | some _, .tells _ | some _, .joins ..
  | some _, .opensPath | some _, .leaves | some _, .other _ | none, _ => isTrue trivial

/-- A receiver joins a flow that has sent two packets. Two copies of the queue come, the first packet is acknowledged
before the third is sent, and one more copy comes with the next packet number behind it. -/
def threeCopies : List ReplicaEvent :=
  [.sends 0 (flightPacket 0), .sends 0 (flightPacket 1), .joins 0 true (some 1), .opensPath, .posts 0, .posts 0,
    .settles 0 [flightPacket 1], .sends 0 (flightPacket 2), .posts 0, .tells 0, .receives 5, .receives 6, .receives 7,
    .receives 8]

/-- The receiver leaves the flow and joins it again, which forgets the mark, so all packets of the queue are new. -/
def joinsAgain : List ReplicaEvent :=
  threeCopies ++ [.leaves, .joins 0 true none, .opensPath, .sends 0 (flightPacket 3), .posts 0, .receives 9]

/-- A packet of another flow comes before the first packet of the joined flow, and moves the mark past it. -/
def lateCopy : List ReplicaEvent :=
  [.joins 0 true none, .opensPath, .sends 1 (flightPacket 7), .posts 1, .sends 0 (flightPacket 0), .posts 0,
    .receives 5, .receives 6]

end Replica

end Replicating

end Loss

end Flexicast
