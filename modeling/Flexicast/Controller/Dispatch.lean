import Flexicast.Controller.Members
import Flexicast.Ranges.Refinement

/-! Which lost pieces the controller gives to which clients, and how often. -/

namespace Flexicast

section Passes

/-- The acknowledgments that are kept of a client after it was visited once. -/
def trimmed (maxPn : Option Nat) (acks : RangeSet) : RangeSet :=
  match maxPn with
  | some maxPn => acks.removeUntil maxPn
  | none => acks

/-- The pieces whose packets are not among the acknowledgments of a client. -/
def unacked (pieces : List FcDelegatedStream) (acks : RangeSet) : List FcDelegatedStream :=
  pieces.filter fun piece => !acks.flatten.contains piece.pn

/-- What a client is sent that is visited several times. -/
def passes (pieces : List FcDelegatedStream) (maxPn : Option Nat) : Nat → RangeSet → List FcDelegatedStream
  | 0, _ => []
  | visits + 1, acks => unacked pieces acks ++ passes pieces maxPn visits (trimmed maxPn acks)

/-- The pieces that messages give to a client. -/
def sentTo (client : Nat) (posts : List Post) : List FcDelegatedStream :=
  posts.flatMap fun post =>
    match post with
    | .client id (.delegateStreams _ pieces) => if id = client then pieces else []
    | _ => []

theorem count_unacked (pieces : List FcDelegatedStream) (acks : RangeSet) (piece : FcDelegatedStream) :
    (unacked pieces acks).count piece = if piece.pn ∈ acks.flatten then 0 else pieces.count piece := by
  unfold unacked
  split
  · rename_i acked
    rw [List.count_eq_zero]
    intro member
    simp [acked] at member
  · rename_i missing
    exact List.count_filter (by simpa using missing)

theorem mem_trimmed {maxPn : Option Nat} {acks : RangeSet} {numbers : Set Nat} (represents : Represents acks numbers)
    (pn : Nat) : pn ∈ (trimmed maxPn acks).flatten ↔ pn ∈ acks.flatten ∧ ∀ expired ∈ maxPn, expired < pn := by
  cases maxPn with
  | none => simp [trimmed]
  | some expired =>
    rw [trimmed, RangeSet.mem_flatten, RangeSet.mem_flatten, (represents.removed expired).covers,
      represents.covers]
    simp [RangeOp.denote]

theorem count_passes_one (pieces : List FcDelegatedStream) (maxPn : Option Nat) (acks : RangeSet)
    (piece : FcDelegatedStream) :
    (passes pieces maxPn 1 acks).count piece = if piece.pn ∈ acks.flatten then 0 else pieces.count piece := by
  simp only [passes, List.append_nil]
  exact count_unacked pieces acks piece

theorem count_passes_two (pieces : List FcDelegatedStream) (maxPn : Option Nat) {acks : RangeSet} {numbers : Set Nat}
    (represents : Represents acks numbers) (piece : FcDelegatedStream) :
    (passes pieces maxPn 2 acks).count piece =
      if piece.pn ∈ acks.flatten then
        if ∃ expired ∈ maxPn, piece.pn ≤ expired then pieces.count piece else 0
      else pieces.count piece + pieces.count piece := by
  rw [passes, List.count_append, count_unacked, count_passes_one]
  by_cases acked : piece.pn ∈ acks.flatten
  · rw [if_pos acked, if_pos acked, Nat.zero_add]
    by_cases expired : ∃ expired ∈ maxPn, piece.pn ≤ expired
    · rw [if_pos expired, if_neg]
      intro kept
      obtain ⟨last, held, below⟩ := expired
      exact absurd ((mem_trimmed represents piece.pn).mp kept |>.2 last held) (not_lt.mpr below)
    · rw [if_neg expired, if_pos]
      apply (mem_trimmed represents piece.pn).mpr
      exact ⟨acked, fun last held => not_le.mp fun below => expired ⟨last, held, below⟩⟩
  · rw [if_neg acked, if_neg acked, if_neg]
    exact fun kept => acked ((mem_trimmed represents piece.pn).mp kept).1

end Passes

namespace FcController

/-- The clients of a dispatch are sent what their visits give. -/
theorem delegateTo_sent (fcId : Nat) (pieces : List FcDelegatedStream) (clients : List Nat) (client : Nat) :
    ∀ {ctl : FcController}, (∀ id ∈ clients, id < ctl.txClients) →
      ∃ after posts, delegateTo fcId pieces clients ctl = some (after, posts) ∧
        sentTo client posts =
          passes pieces (ctl.lastDrainedPn fcId) (clients.count client) (ctl.recvAck client) := by
  -- Induction on the clients; a visit changes what is kept of its own client only.
  induction clients with
  | nil => exact fun _ => ⟨_, _, rfl, rfl⟩
  | cons id rest ih =>
    intro ctl known
    have released : (ctl.releaseAcks fcId id).txClients = ctl.txClients ∧
        (ctl.releaseAcks fcId id).lastDrainedPn = ctl.lastDrainedPn ∧
        (ctl.releaseAcks fcId id).recvAck =
          Function.update ctl.recvAck id (trimmed (ctl.lastDrainedPn fcId) (ctl.recvAck id)) := by
      unfold releaseAcks trimmed
      cases ctl.lastDrainedPn fcId with
      | none => exact ⟨rfl, rfl, (Function.update_eq_self id _).symm⟩
      | some expired => exact ⟨rfl, rfl, rfl⟩
    obtain ⟨same, drained, acks⟩ := released
    have known' : ∀ other ∈ rest, other < (ctl.releaseAcks fcId id).txClients := by
      intro other member
      rw [same]
      exact known other (List.mem_cons_of_mem _ member)
    obtain ⟨after, posts, ran, sent⟩ := ih known'
    refine ⟨after, .client id (.delegateStreams fcId (ctl.lostPieces id pieces)) :: posts, ?_, ?_⟩
    · rw [delegateTo, if_pos (known id List.mem_cons_self), ran]
      rfl
    · rw [drained, acks] at sent
      simp only [sentTo, List.flatMap_cons] at sent ⊢
      rw [sent]
      by_cases here : id = client
      · subst here
        rw [if_pos rfl, Function.update_self, List.count_cons_self]
        rfl
      · rw [if_neg here, Function.update_of_ne (Ne.symm here), List.count_cons_of_ne (by simpa using here)]
        rfl

/-- Acknowledgments that stand for some packet numbers. -/
def Kept (ctl : FcController) (client : Nat) : Prop := ∃ numbers, Represents (ctl.recvAck client) numbers

/-- A handler adds no client that waits for an early retransmission, and keeps well-formed acknowledgments. -/
structure Trims (ctl after : FcController) : Prop where
  delegated : ∀ fcId, after.delegatedRecv fcId ⊆ ctl.delegatedRecv fcId
  kept : (∀ client, ctl.Kept client) → ∀ client, after.Kept client

variable {ctl after : FcController} {fcId : Nat} {posts : List Post}

/-- A handler that changes neither adds nothing. -/
theorem Trims.same (delegated : after.delegatedRecv = ctl.delegatedRecv) (acks : after.recvAck = ctl.recvAck) :
    Trims ctl after where
  delegated := fun fcId => by rw [delegated]
  kept := fun kept client => by
    unfold Kept
    rw [acks]
    exact kept client

theorem Trims.replace {id : Nat} {acks : RangeSet} (delegated : after.delegatedRecv = ctl.delegatedRecv)
    (replaced : after.recvAck = Function.update ctl.recvAck id acks)
    (formed : ctl.Kept id → ∃ numbers, Represents acks numbers) : Trims ctl after where
  delegated := fun fcId => by rw [delegated]
  kept := fun kept client => by
    unfold Kept
    rw [replaced]
    by_cases here : client = id
    · subst here
      rw [Function.update_self]
      exact formed (kept client)
    · rw [Function.update_of_ne here]
      exact kept client

theorem Trims.trans {middle : FcController} (left : Trims ctl middle) (right : Trims middle after) :
    Trims ctl after :=
  ⟨fun fcId => (right.delegated fcId).trans (left.delegated fcId), fun kept => right.kept (left.kept kept)⟩

theorem represents_inserts (ranges : List (Nat × Nat)) (valid : ∀ range ∈ ranges, range.1 < range.2) :
    ∀ {acks : RangeSet} {numbers : Set Nat}, Represents acks numbers →
      ∃ after, Represents (ranges.foldl (fun held range => held.insert range.1 range.2) acks) after := by
  induction ranges with
  | nil => exact fun represents => ⟨_, represents⟩
  | cons range rest ih =>
    intro acks numbers represents
    obtain ⟨after, ran, represents'⟩ := represents.insert (valid range List.mem_cons_self)
    have inserted : acks.insert range.1 range.2 = after := by rw [RangeSet.insert, ran]; rfl
    rw [List.foldl_cons, inserted]
    exact ih (fun other member => valid other (List.mem_cons_of_mem _ member)) represents'

/-- Storing acknowledged packets keeps acknowledgments well formed. -/
theorem ackPackets_trims {recvId : Nat} {ackPn : Option RangeSet}
    (valid : ∀ ranges ∈ ackPn, ∀ range ∈ ranges.iter, range.1 < range.2)
    (handled : ctl.ackPackets recvId fcId ackPn = some after) : Trims ctl after := by
  cases ackPn with
  | none =>
    cases handled
    exact Trims.same rfl rfl
  | some ranges =>
    simp only [ackPackets] at handled
    split at handled
    · cases handled
      exact Trims.same rfl rfl
    · split at handled
      · cases handled
        refine Trims.replace rfl rfl ?_
        rintro ⟨numbers, represents⟩
        exact represents_inserts ranges.iter (valid ranges rfl) represents
      · cases handled

/-- Visits trim acknowledgments, and leave the waiting clients alone. -/
theorem delegateTo_trims (fcId : Nat) (pieces : List FcDelegatedStream) (clients : List Nat) :
    ∀ {ctl after : FcController} {posts : List Post},
      delegateTo fcId pieces clients ctl = some (after, posts) → Trims ctl after := by
  induction clients with
  | nil =>
    intro ctl after posts handled
    cases handled
    exact Trims.same rfl rfl
  | cons id rest ih =>
    intro ctl after posts handled
    simp only [delegateTo] at handled
    split at handled
    · obtain ⟨⟨later, sent⟩, ran, same⟩ := Option.map_eq_some_iff.mp handled
      cases same
      refine Trims.trans ?_ (ih ran)
      unfold releaseAcks
      split
      · rename_i maxPn _
        refine Trims.replace rfl rfl ?_
        rintro ⟨numbers, represents⟩
        exact ⟨_, represents.removed maxPn⟩
      · exact Trims.same rfl rfl
    · cases handled

/-- The ranges of an acknowledgment are not empty. -/
def Valid : MsgFcCtl → Prop
  | .ackData _ _ (some ranges) _ => ∀ range ∈ ranges.iter, range.1 < range.2
  | _ => True

instance : (msg : MsgFcCtl) → Decidable (Valid msg)
  | .ackData _ _ (some _) _ => inferInstanceAs (Decidable (∀ _ ∈ _, _ < _))
  | .ackData _ _ none _ => isTrue trivial
  | .newClient _ => isTrue trivial
  | .join _ _ => isTrue trivial
  | .change _ _ _ => isTrue trivial
  | .recvUcFallBack _ _ => isTrue trivial
  | .closeRtp _ => isTrue trivial
  | .newHighestPn _ _ _ => isTrue trivial
  | .sent _ _ => isTrue trivial
  | .delegateStreams _ _ _ => isTrue trivial
  | .recvReady _ => isTrue trivial
  | .rtpData _ _ => isTrue trivial
  | .cwnd _ _ _ => isTrue trivial

theorem sendClients_trims {ids : List Nat} {msg : MsgRecv} (handled : ctl.sendClients ids msg = some (after, posts)) :
    Trims ctl after := by
  obtain ⟨rfl, -⟩ := sendClients_eq handled
  exact Trims.same rfl rfl

theorem forwardAcks_trims (handled : ctl.forwardAcks fcId = some (after, posts)) : Trims ctl after := by
  obtain ⟨rfl, -⟩ := sendSource_eq handled
  exact Trims.same rfl rfl

/-- Only joining, connecting and falling back are not among these. -/
theorem dispatch_trims {order : HashOrder} {msg : MsgFcCtl} (other : isAside msg = true) (valid : Valid msg)
    (handled : ctl.dispatch order msg = some (after, posts)) : Trims ctl after := by
  cases msg with
  | newClient id => cases other
  | join clientId fcId => cases other
  | change clientId oldFcId newFcId => cases other
  | recvUcFallBack id fcId => cases other
  | cwnd recvId fcId cwnd => cases other
  | closeRtp id =>
    obtain ⟨⟨sent, told⟩, ran, same⟩ := Option.map_eq_some_iff.mp handled
    cases same
    exact (sendClients_trims ran).trans (Trims.same rfl rfl)
  | newHighestPn fcId highestPn lowestPn =>
    have first : Trims ctl { ctl with lastDrainedPn := Function.update ctl.lastDrainedPn fcId (some (lowestPn - 1)) } :=
      Trims.same rfl rfl
    exact first.trans (sendClients_trims handled)
  | ackData recvId fcId ackPn pieces =>
    obtain ⟨packets, counted, handled⟩ := Option.bind_eq_some_iff.mp handled
    obtain ⟨stored, counted', handled⟩ := Option.bind_eq_some_iff.mp handled
    have wellFormed : ∀ ranges ∈ ackPn, ∀ range ∈ ranges.iter, range.1 < range.2 := by
      intro ranges some_
      cases some_
      exact valid
    have first := ackPackets_trims wellFormed counted
    have second : Trims packets stored := by
      cases pieces with
      | none =>
        cases counted'
        exact Trims.same rfl rfl
      | some entries =>
        obtain ⟨mcAck, -, rfl⟩ := Option.map_eq_some_iff.mp counted'
        exact Trims.same rfl rfl
    have both := first.trans second
    split at handled
    · exact both.trans (forwardAcks_trims handled)
    · cases handled
      exact both
  | sent fcId packets => exact sendClients_trims handled
  | delegateStreams fcId pieces early =>
    obtain ⟨⟨later, sent⟩, ran, same⟩ := Option.map_eq_some_iff.mp handled
    cases same
    refine (delegateTo_trims fcId pieces _ ran).trans ?_
    split
    · refine ⟨fun flow => ?_, fun kept => kept⟩
      by_cases here : flow = fcId
      · subst here
        simp
      · simp [Function.update_of_ne here]
    · exact Trims.same rfl rfl
  | recvReady id =>
    simp only [dispatch, handleNewReady, Option.some.injEq] at handled
    split at handled
    · cases handled
      exact Trims.same rfl rfl
    · cases handled
      exact Trims.same rfl rfl
  | rtpData data streamId => exact sendClients_trims handled

/-- The timer changes nothing of what clients wait for. -/
theorem forwardAll_trims (flows : List Nat) :
    ∀ {ctl after : FcController} {posts : List Post},
      forwardAll flows ctl = some (after, posts) → Trims ctl after := by
  induction flows with
  | nil =>
    intro ctl after posts handled
    cases handled
    exact Trims.same rfl rfl
  | cons fcId rest ih =>
    intro ctl after posts handled
    obtain ⟨first, told, handled⟩ := Option.bind_eq_some_iff.mp handled
    obtain ⟨others, told', handled⟩ := Option.bind_eq_some_iff.mp handled
    cases handled
    exact (forwardAcks_trims told).trans (ih told')

theorem recvWindow_trims {order : HashOrder} {recvId cwnd : Nat}
    (handled : ctl.recvWindow order recvId fcId cwnd = some (after, posts)) : Trims ctl after := by
  unfold recvWindow at handled
  split at handled
  · dsimp only at handled
    split at handled
    · cases handled
      exact Trims.same rfl rfl
    · obtain ⟨rfl, -⟩ := sendSource_eq handled
      exact Trims.same rfl rfl
  · cases handled
    exact Trims.same rfl rfl

end FcController

/-- A client acknowledged a packet on a flow with a message. -/
def MsgFcCtl.acknowledges (fcId client pn : Nat) : MsgFcCtl → Bool
  | .ackData recvId flow (some ranges) _ => recvId == client && flow == fcId && ranges.flatten.contains pn
  | _ => false

namespace ControllerRun

/-- A client acknowledged a packet on a flow. -/
def Acknowledged (run : ControllerRun) (fcId client pn : Nat) : Prop :=
  run.history.any (MsgFcCtl.acknowledges fcId client pn) = true

/-- Messages are about connected clients, and acknowledge ranges that are not empty. -/
def Proper (run : ControllerRun) (event : CtlEvent) : Prop :=
  run.Connected event ∧ ∀ msg ∈ handledMsgs event, FcController.Valid msg

instance (run : ControllerRun) : (event : CtlEvent) → Decidable (run.Connected event)
  | .message _ (.newClient _) => isTrue trivial
  | .message _ (.join _ _) => inferInstanceAs (Decidable (_ < _))
  | .message _ (.change _ _ _) => inferInstanceAs (Decidable (_ < _))
  | .message _ (.recvUcFallBack _ _) => inferInstanceAs (Decidable (_ < _))
  | .message _ (.closeRtp _) => isTrue trivial
  | .message _ (.newHighestPn _ _ _) => isTrue trivial
  | .message _ (.ackData _ _ _ _) => isTrue trivial
  | .message _ (.sent _ _) => isTrue trivial
  | .message _ (.delegateStreams _ _ _) => isTrue trivial
  | .message _ (.recvReady _) => isTrue trivial
  | .message _ (.rtpData _ _) => isTrue trivial
  | .message _ (.cwnd _ _ _) => isTrue trivial
  | .sendAck => isTrue trivial

instance (run : ControllerRun) (event : CtlEvent) : Decidable (run.Proper event) :=
  inferInstanceAs (Decidable (_ ∧ ∀ _ ∈ _, _))

instance (run : ControllerRun) (fcId client pn : Nat) : Decidable (run.Acknowledged fcId client pn) :=
  inferInstanceAs (Decidable (_ = true))

/-- Every client of the flow is sent once what it did not acknowledge, and nobody is sent a piece twice. -/
def Dispatched (run : ControllerRun) (order : HashOrder) (fcId : Nat) (pieces : List FcDelegatedStream) : Prop :=
  ∃ after posts, run.ctl.handleFcMsg order (.delegateStreams fcId pieces false) = some (after, posts) ∧
    (∀ client ∈ run.ctl.activeClients fcId, ∀ piece ∈ pieces, ¬ run.Acknowledged fcId client piece.pn →
      (sentTo client posts).count piece = pieces.count piece) ∧
    ∀ client piece, (sentTo client posts).count piece ≤ pieces.count piece

/--
What is kept of the clients fits a dispatch.

The acknowledgments kept of a client name a packet that it did not acknowledge on the flow only when it is visited
twice, and then the packet is not above the last expired one, so that the second visit does not find it.
-/
def Clear (run : ControllerRun) (fcId : Nat) (pieces : List FcDelegatedStream) : Prop :=
  ∀ client ∈ run.ctl.activeClients fcId, ∀ piece ∈ pieces,
    if client ∈ run.ctl.delegatedRecv fcId then
      piece.pn ∈ (run.ctl.recvAck client).flatten ∧
        (¬ run.Acknowledged fcId client piece.pn → ∃ expired ∈ run.ctl.lastDrainedPn fcId, piece.pn ≤ expired)
    else ¬ run.Acknowledged fcId client piece.pn → piece.pn ∉ (run.ctl.recvAck client).flatten

/-- What a run keeps of its clients. -/
structure Sound (run : ControllerRun) : Prop where
  /-- Only connected clients are in a flow. -/
  known : run.ctl.Known
  /-- Only connected clients wait for an early retransmission. -/
  waiting : ∀ fcId, ∀ client ∈ run.ctl.delegatedRecv fcId, client < run.ctl.txClients
  /-- The acknowledgments kept of a client are well formed. -/
  kept : ∀ client, run.ctl.Kept client

variable {run : ControllerRun}

theorem Sound.trims {ctl : FcController} {msgs : List MsgFcCtl} {posts : List Post} (sound : run.Sound)
    (known : ctl.Known) (trims : FcController.Trims run.ctl ctl) (clients : ctl.txClients = run.ctl.txClients) :
    Sound ⟨ctl, msgs, posts⟩ where
  known := known
  waiting := fun fcId client member => by
    dsimp only
    rw [clients]
    exact sound.waiting fcId client (trims.delegated fcId member)
  kept := trims.kept sound.kept

/-- A proper step keeps things in order. -/
theorem next_sound {event : CtlEvent} (sound : run.Sound) (proper : run.Proper event) : (run.next event).Sound := by
  have known := next_known sound.known proper.1
  rcases run.next_eq event with same | ⟨ctl, posts, reacts, step⟩
  · rw [same]
    exact sound
  rw [step] at known ⊢
  cases event with
  | sendAck =>
    have trims : FcController.Trims run.ctl ctl := by
      unfold Reacts FcController.handleSendAck at reacts
      dsimp only at reacts
      split at reacts
      · cases reacts
        exact FcController.Trims.same rfl rfl
      · exact FcController.forwardAll_trims _ reacts
    exact sound.trims known trims (FcController.handleSendAck_aside reacts).txClients
  | message order msg =>
    obtain ⟨-, handled⟩ := reacts
    have valid := proper.2 msg List.mem_cons_self
    have others : FcController.isAside msg = true → Sound ⟨ctl, run.history ++ [msg], run.posts ++ posts⟩ :=
      fun other => sound.trims known (FcController.dispatch_trims other valid handled)
        (FcController.dispatch_aside other handled).txClients
    cases msg with
    | newClient id =>
      cases handled
      refine ⟨known, fun fcId client member => Nat.lt_succ_of_lt (sound.waiting fcId client member), ?_⟩
      intro client
      -- The new client acknowledged nothing.
      by_cases here : client = run.ctl.txClients
      · subst here
        refine ⟨∅, ?_⟩
        simp only [FcController.newClient, Function.update_self]
        exact represents_default
      · obtain ⟨numbers, represents⟩ := sound.kept client
        refine ⟨numbers, ?_⟩
        simp only [FcController.newClient, Function.update_of_ne here]
        exact represents
    | join clientId flow =>
      cases handled
      exact sound.trims known (FcController.Trims.same rfl rfl) rfl
    | change clientId oldFcId newFcId =>
      cases handled
      exact sound.trims known (FcController.Trims.same rfl rfl) rfl
    | recvUcFallBack id flow =>
      obtain ⟨mcAck, -, clients, -, -, -, delegated, -, acks⟩ := FcController.recvUcFallBack_members handled
      refine ⟨known, fun fcId client member => ?_, fun client => ?_⟩
      · -- The client that falls back is connected.
        dsimp only at member ⊢
        rw [delegated] at member
        rw [clients]
        by_cases here : fcId = flow
        · subst here
          rw [Function.update_self, Finset.mem_insert] at member
          rcases member with rfl | member
          · exact proper.1
          · exact sound.waiting fcId client member
        · rw [Function.update_of_ne here] at member
          exact sound.waiting fcId client member
      · unfold FcController.Kept
        rw [acks]
        exact sound.kept client
    | cwnd recvId flow cwnd =>
      exact sound.trims known (FcController.recvWindow_trims handled) (FcController.recvWindow_still handled).txClients
    | closeRtp id => exact others rfl
    | newHighestPn flow highestPn lowestPn => exact others rfl
    | ackData recvId flow ackPn pieces => exact others rfl
    | sent flow packets => exact others rfl
    | delegateStreams flow pieces early => exact others rfl
    | recvReady id => exact others rfl
    | rtpData data streamId => exact others rfl

theorem start_sound (flows txFcSources : Nat) (wait ackDelay : Option Nat) :
    (start flows txFcSources wait ackDelay).Sound where
  known := fun _ _ member => absurd member (Finset.notMem_empty _)
  waiting := fun _ _ member => absurd member (Finset.notMem_empty _)
  kept := fun _ => ⟨∅, represents_default⟩

theorem count_visits (order : HashOrder) (waiting active : Finset Nat) (client : Nat) :
    (order.visit waiting ++ order.visit active).count client =
      (if client ∈ waiting then 1 else 0) + if client ∈ active then 1 else 0 := by
  rw [List.count_append, (order.nodup waiting).count, (order.nodup active).count]
  simp only [order.mem_visit]

/-- What a dispatch sends to a client. -/
theorem dispatch_sent (sound : run.Sound) (order : HashOrder) {fcId : Nat} (inside : fcId < run.ctl.flows)
    (pieces : List FcDelegatedStream) :
    ∃ after posts, run.ctl.handleFcMsg order (.delegateStreams fcId pieces false) = some (after, posts) ∧
      ∀ client, sentTo client posts = passes pieces (run.ctl.lastDrainedPn fcId)
        ((if client ∈ run.ctl.delegatedRecv fcId then 1 else 0) +
          if client ∈ run.ctl.activeClients fcId then 1 else 0) (run.ctl.recvAck client) := by
  have known : ∀ id ∈ order.visit (run.ctl.delegatedRecv fcId) ++ order.visit (run.ctl.activeClients fcId),
      id < run.ctl.txClients := by
    intro id member
    rcases List.mem_append.mp member with waits | active
    · exact sound.waiting fcId id ((order.mem_visit _ _).mp waits)
    · exact sound.known fcId id ((order.mem_visit _ _).mp active)
  obtain ⟨after, posts, ran, -⟩ := FcController.delegateTo_sent fcId pieces _ 0 known
  refine ⟨after, posts, ?_, fun client => ?_⟩
  · simp only [FcController.handleFcMsg, FcController.indexed, List.all_cons, inside, List.all_nil]
    simp only [decide_true, Bool.and_self, if_true, FcController.dispatch, FcController.handleDelegatedStreams]
    simp [ran]
  · obtain ⟨after', posts', ran', sent⟩ := FcController.delegateTo_sent fcId pieces _ client known
    rw [ran] at ran'
    cases ran'
    rw [sent, count_visits]

/-- A dispatch is right just when what is kept of the clients fits it. -/
theorem Sound.dispatched_iff (sound : run.Sound) (order : HashOrder) {fcId : Nat} (inside : fcId < run.ctl.flows)
    (pieces : List FcDelegatedStream) : run.Dispatched order fcId pieces ↔ run.Clear fcId pieces := by
  obtain ⟨after, posts, ran, sent⟩ := dispatch_sent sound order inside pieces
  constructor
  · rintro ⟨after', posts', ran', once, atMost⟩ client active piece member
    rw [ran] at ran'
    cases ran'
    have some_ : 0 < pieces.count piece := List.count_pos_iff.mpr member
    have most := atMost client piece
    have exact_ := once client active piece member
    obtain ⟨numbers, represents⟩ := sound.kept client
    rw [sent, if_pos active] at most exact_
    split
    · -- The client is visited twice.
      rename_i waits
      rw [if_pos waits, count_passes_two pieces _ represents] at most exact_
      have acked : piece.pn ∈ (run.ctl.recvAck client).flatten := by
        by_contra missing
        rw [if_neg missing] at most
        omega
      refine ⟨acked, fun unheard => ?_⟩
      by_contra above
      have counted := exact_ unheard
      rw [if_pos acked, if_neg above] at counted
      omega
    · -- The client is visited once.
      rename_i waits
      intro unheard acked
      have counted := exact_ unheard
      rw [if_neg waits, count_passes_one, if_pos acked] at counted
      omega
  · intro clear
    refine ⟨after, posts, ran, fun client active piece member unheard => ?_, fun client piece => ?_⟩
    · have fits := clear client active piece member
      obtain ⟨numbers, represents⟩ := sound.kept client
      rw [sent, if_pos active]
      split at fits
      · rename_i waits
        rw [if_pos waits, count_passes_two pieces _ represents, if_pos fits.1, if_pos (fits.2 unheard)]
      · rename_i waits
        rw [if_neg waits, count_passes_one, if_neg (fits unheard)]
    · obtain ⟨numbers, represents⟩ := sound.kept client
      rw [sent]
      by_cases waits : client ∈ run.ctl.delegatedRecv fcId
      · by_cases active : client ∈ run.ctl.activeClients fcId
        · rw [if_pos waits, if_pos active, count_passes_two pieces _ represents]
          by_cases member : piece ∈ pieces
          · have fits := clear client active piece member
            rw [if_pos waits] at fits
            rw [if_pos fits.1]
            split <;> omega
          · have none_ := List.count_eq_zero.mpr member
            rw [none_]
            split <;> simp
        · rw [if_pos waits, if_neg active, count_passes_one]
          split <;> omega
      · by_cases active : client ∈ run.ctl.activeClients fcId
        · rw [if_neg waits, if_pos active, count_passes_one]
          split <;> omega
        · rw [if_neg waits, if_neg active]
          exact Nat.zero_le _

/-- In every run, a dispatch is right just when what is kept of the clients fits it. -/
theorem dispatched_iff_clear {flows txFcSources : Nat} {wait ackDelay : Option Nat} {events : List CtlEvent}
    (proper : Runs.Along next Proper (start flows txFcSources wait ackDelay) events) (order : HashOrder) {fcId : Nat}
    (inside : fcId < (Runs.run next (start flows txFcSources wait ackDelay) events).ctl.flows)
    (pieces : List FcDelegatedStream) :
    (Runs.run next (start flows txFcSources wait ackDelay) events).Dispatched order fcId pieces ↔
      (Runs.run next (start flows txFcSources wait ackDelay) events).Clear fcId pieces := by
  have step : ∀ (run : ControllerRun) event, run.Sound → run.Proper event → (run.next event).Sound :=
    fun _ _ => next_sound
  exact (Runs.Along.keeps step (start_sound _ _ _ _) proper).dispatched_iff order inside pieces

/-- A piece that was sent in packet 3. -/
def lostPiece : FcDelegatedStream := ⟨3, 0, [7], 3, false⟩

/-- A client joins a flow and acknowledges a packet on it. -/
def joinThenAck : List CtlEvent :=
  [.message .ascending (.newClient 0), .message .ascending (.join 0 0),
    .message .ascending (.ackData 0 0 (some (RangeSet.default.insert 5 6)) none)]

/-- A dispatch after a client joined and acknowledged another packet. -/
theorem dispatched_iff_clear_join :
    (Runs.run next (start 2 2 none none) joinThenAck).Dispatched .ascending 0 [lostPiece] ↔
      (Runs.run next (start 2 2 none none) joinThenAck).Clear 0 [lostPiece] :=
  dispatched_iff_clear (by decide) .ascending (by decide) [lostPiece]

/-- A client acknowledges packet 3 of one flow and changes to another one. -/
def ackThenChange : List CtlEvent :=
  [.message .ascending (.newClient 0), .message .ascending (.join 0 0),
    .message .ascending (.ackData 0 0 (some (RangeSet.default.insert 3 4)) none),
    .message .ascending (.change 0 0 1)]

/-- The client is not sent packet 3 of the other flow. -/
theorem other_flow_suppresses :
    Runs.Along next Proper (start 2 2 none none) ackThenChange ∧
      ¬ (Runs.run next (start 2 2 none none) ackThenChange).Dispatched .ascending 1 [lostPiece] := by
  refine ⟨by decide, ?_⟩
  rintro ⟨after, posts, ran, once, -⟩
  -- The handler returns one message for the client, which is empty.
  have sent : ((Runs.run next (start 2 2 none none) ackThenChange).ctl.handleFcMsg .ascending
      (.delegateStreams 1 [lostPiece] false)).map (fun handled => (sentTo 0 handled.2).count lostPiece) = some 0 := by
    decide
  rw [ran, Option.map_some, Option.some.injEq] at sent
  have counted := once 0 (by decide) lostPiece List.mem_cons_self (by decide)
  rw [sent] at counted
  exact absurd counted (by decide)

end ControllerRun

end Flexicast
