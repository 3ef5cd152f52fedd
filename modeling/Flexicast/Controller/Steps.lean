import Flexicast.Controller.FcController
import Flexicast.Lib.Runs

/-! What the handlers of the controller leave alone. -/

namespace Flexicast

namespace McAck

theorem ackPacket_nbRecv (state : McAck × RangeSet) (recvPn : Nat) :
    (ackPacket state recvPn).1.nbRecv = state.1.nbRecv := by
  unfold ackPacket
  split <;> simp only <;> split <;> rfl

theorem onAckReceived_nbRecv (mcAck : McAck) (ranges : RangeSet) :
    (mcAck.onAckReceived ranges).nbRecv = mcAck.nbRecv := by
  -- The loop counts packet after packet.
  have loop : ∀ (packets : List Nat) (state : McAck × RangeSet),
      (packets.foldl ackPacket state).1.nbRecv = state.1.nbRecv := by
    intro packets
    induction packets with
    | nil => exact fun _ => rfl
    | cons packet rest ih =>
      intro state
      rw [List.foldl_cons, ih, ackPacket_nbRecv]
  unfold onAckReceived
  simp only
  split <;> exact loop _ _

theorem onStreamAckReceived_nbRecv {mcAck after : McAck} {streamId off len : Nat}
    (acked : mcAck.onStreamAckReceived streamId off len = some after) : after.nbRecv = mcAck.nbRecv := by
  unfold onStreamAckReceived at acked
  split at acked
  · cases acked; rfl
  · split at acked
    · cases acked; rfl
    · split at acked
      · cases acked
      · cases acked; rfl

theorem ackPieces_nbRecv (pieces : List (Nat × Nat × Nat)) :
    ∀ {mcAck after : McAck}, mcAck.ackPieces pieces = some after → after.nbRecv = mcAck.nbRecv := by
  induction pieces with
  | nil =>
    intro mcAck after acked
    cases acked
    rfl
  | cons piece rest ih =>
    intro mcAck after acked
    simp only [ackPieces] at acked
    split at acked
    · cases acked
    · rename_i first counted
      rw [ih acked, onStreamAckReceived_nbRecv counted]

theorem handedOver_nbRecv (mcAck : McAck) : mcAck.fullAck.2.ackedStreamOff.2.nbRecv = mcAck.nbRecv := by
  unfold ackedStreamOff fullAck
  split <;> rfl

end McAck

/-- The window that is announced to a source. -/
def Post.window (fcId : Nat) : Post → Option Nat
  | .source flow (.newCwnd cwnd) => if flow = fcId then some cwnd else none
  | _ => none

@[simp] theorem Post.window_self (fcId cwnd : Nat) :
    (Post.source fcId (.newCwnd cwnd)).window fcId = some cwnd := if_pos rfl

theorem Post.window_other {fcId flow : Nat} (other : flow ≠ fcId) (cwnd : Nat) :
    (Post.source fcId (.newCwnd cwnd)).window flow = none := if_neg (Ne.symm other)

namespace FcController

/-- A handler leaves the members of the flows and their number alone. -/
structure Still (ctl after : FcController) : Prop where
  txClients : after.txClients = ctl.txClients
  flows : after.flows = ctl.flows
  active : after.activeClients = ctl.activeClients
  unicast : after.unicastRecv = ctl.unicastRecv
  nbRecv : ∀ fcId, (after.mcAcks fcId).nbRecv = (ctl.mcAcks fcId).nbRecv

/-- A handler leaves the members of the flows, their number and their windows alone. -/
structure Aside (ctl after : FcController) (posts : List Post) : Prop extends Still ctl after where
  lastCwnd : after.lastCwnd = ctl.lastCwnd
  quiet : ∀ post ∈ posts, ∀ fcId, post.window fcId = none

theorem Aside.refl (ctl : FcController) : Aside ctl ctl [] :=
  ⟨⟨rfl, rfl, rfl, rfl, fun _ => rfl⟩, rfl, fun _ member => by simp at member⟩

variable {ctl after : FcController} {posts : List Post} {fcId : Nat}

/-- Two handlers in a row leave alone what both do. -/
theorem Aside.trans {middle : FcController} {first second : List Post} (left : Aside ctl middle first)
    (right : Aside middle after second) :
    Aside ctl after (first ++ second) where
  txClients := right.txClients.trans left.txClients
  flows := right.flows.trans left.flows
  active := right.active.trans left.active
  unicast := right.unicast.trans left.unicast
  nbRecv := fun fcId => (right.nbRecv fcId).trans (left.nbRecv fcId)
  lastCwnd := right.lastCwnd.trans left.lastCwnd
  quiet := fun post member fcId => by
    rcases List.mem_append.mp member with early | late
    · exact left.quiet post early fcId
    · exact right.quiet post late fcId

variable {ids : List Nat} {msg : MsgRecv} {recvId : Nat} {ackPn : Option RangeSet}
  {ackStreamPieces : Option (List (Nat × RangeSet))}

theorem sendClients_eq (handled : ctl.sendClients ids msg = some (after, posts)) :
    after = ctl ∧ posts = ids.map (Post.client · msg) := by
  unfold sendClients at handled
  split at handled
  · cases handled; exact ⟨rfl, rfl⟩
  · cases handled

theorem sendSource_eq {msgs : List MsgFcSource} (handled : ctl.sendSource fcId msgs = some (after, posts)) :
    after = ctl ∧ posts = msgs.map (Post.source fcId) := by
  unfold sendSource at handled
  split at handled
  · cases handled; exact ⟨rfl, rfl⟩
  · cases handled

theorem sendClients_aside (handled : ctl.sendClients ids msg = some (after, posts)) : Aside ctl after posts := by
  obtain ⟨same, sent⟩ := sendClients_eq handled
  subst same sent
  refine { Aside.refl after with quiet := ?_ }
  intro post member fcId
  obtain ⟨id, -, rfl⟩ := List.mem_map.mp member
  rfl

theorem aside_mcAcks (ctl : FcController) (fcId : Nat) {mcAck : McAck}
    (kept : mcAck.nbRecv = (ctl.mcAcks fcId).nbRecv) :
    Aside ctl { ctl with mcAcks := Function.update ctl.mcAcks fcId mcAck } [] := by
  refine { Aside.refl ctl with nbRecv := ?_, quiet := fun _ member => by simp at member }
  intro flow
  by_cases same : flow = fcId
  · subst same
    simpa using kept
  · simp [Function.update_of_ne same]

theorem forwardAcks_aside (handled : ctl.forwardAcks fcId = some (after, posts)) : Aside ctl after posts := by
  obtain ⟨same, sent⟩ := sendSource_eq handled
  subst same sent
  refine { aside_mcAcks ctl fcId (ctl.mcAcks fcId).handedOver_nbRecv with quiet := ?_ }
  -- The messages carry packets and pieces of streams, not windows.
  intro post member flow
  obtain ⟨msg, among, rfl⟩ := List.mem_map.mp member
  rcases List.mem_append.mp among with packets | pieces
  · obtain ⟨ranges, -, rfl⟩ := Option.map_eq_some_iff.mp (Option.mem_toList.mp packets)
    rfl
  · obtain ⟨ranges, -, rfl⟩ := Option.map_eq_some_iff.mp (Option.mem_toList.mp pieces)
    rfl

theorem ackPackets_aside (handled : ctl.ackPackets recvId fcId ackPn = some after) : Aside ctl after [] := by
  cases ackPn with
  | none =>
    cases handled
    exact Aside.refl ctl
  | some ranges =>
    have counted := aside_mcAcks ctl fcId ((ctl.mcAcks fcId).onAckReceived_nbRecv ranges)
    simp only [ackPackets] at handled
    split at handled
    · cases handled
      exact counted
    · split at handled
      · cases handled
        exact { counted with }
      · cases handled

theorem ackPieces_aside (handled : ctl.ackPieces fcId ackStreamPieces = some after) : Aside ctl after [] := by
  cases ackStreamPieces with
  | none =>
    cases handled
    exact Aside.refl ctl
  | some pieces =>
    obtain ⟨mcAck, counted, rfl⟩ := Option.map_eq_some_iff.mp handled
    exact aside_mcAcks ctl fcId (McAck.ackPieces_nbRecv _ counted)

theorem handleAckPnStreamPieces_aside
    (handled : ctl.handleAckPnStreamPieces recvId fcId ackPn ackStreamPieces = some (after, posts)) :
    Aside ctl after posts := by
  -- The packets are counted first, then the pieces, and the source may be told last.
  obtain ⟨packets, counted, handled⟩ := Option.bind_eq_some_iff.mp handled
  obtain ⟨pieces, counted', handled⟩ := Option.bind_eq_some_iff.mp handled
  have both := (ackPackets_aside counted).trans (ackPieces_aside counted')
  split at handled
  · exact both.trans (forwardAcks_aside handled)
  · cases handled
    exact both

/-- Dispatching pieces leaves members and windows alone. -/
theorem delegateTo_aside (fcId : Nat) (delegatedStreams : List FcDelegatedStream) (clients : List Nat) :
    ∀ {ctl after : FcController} {posts : List Post},
      delegateTo fcId delegatedStreams clients ctl = some (after, posts) → Aside ctl after posts := by
  -- Induction on the clients; each of them is sent one message, and its acknowledgments are trimmed.
  induction clients with
  | nil =>
    intro ctl after posts handled
    cases handled
    exact Aside.refl ctl
  | cons clientId rest ih =>
    intro ctl after posts handled
    simp only [delegateTo] at handled
    split at handled
    · obtain ⟨⟨later, sent⟩, ran, same⟩ := Option.map_eq_some_iff.mp handled
      cases same
      have trimmed : Aside ctl (ctl.releaseAcks fcId clientId)
          [.client clientId (.delegateStreams fcId (ctl.lostPieces clientId delegatedStreams))] := by
        have silent : ∀ post ∈ [Post.client clientId
            (.delegateStreams fcId (ctl.lostPieces clientId delegatedStreams))], ∀ flow, post.window flow = none := by
          intro post member flow
          rw [List.mem_singleton.mp member]
          rfl
        unfold releaseAcks
        split <;> exact { Aside.refl ctl with quiet := silent }
      exact trimmed.trans (ih ran)
    · cases handled

/-- The messages that concern neither the members of flows nor their windows. -/
def isAside : MsgFcCtl → Bool
  | .newClient _ | .join _ _ | .change _ _ _ | .recvUcFallBack _ _ | .cwnd _ _ _ => false
  | _ => true

/-- The other messages leave members and windows alone. -/
theorem dispatch_aside {order : HashOrder} {msg : MsgFcCtl} (other : isAside msg = true)
    (handled : ctl.dispatch order msg = some (after, posts)) : Aside ctl after posts := by
  cases msg with
  | newClient id => cases other
  | join clientId fcId => cases other
  | change clientId oldFcId newFcId => cases other
  | recvUcFallBack id fcId => cases other
  | cwnd recvId fcId cwnd => cases other
  | closeRtp id =>
    obtain ⟨⟨sent, told⟩, ran, same⟩ := Option.map_eq_some_iff.mp handled
    cases same
    have sending := sendClients_aside ran
    refine { sending with quiet := ?_ }
    intro post member flow
    rcases List.mem_append.mp member with early | last
    · exact sending.quiet post early flow
    · rw [List.mem_singleton.mp last]
      rfl
  | newHighestPn fcId highestPn lowestPn => exact { sendClients_aside handled with }
  | ackData recvId fcId ackPn pieces => exact handleAckPnStreamPieces_aside handled
  | sent fcId packets => exact sendClients_aside handled
  | delegateStreams fcId pieces early =>
    obtain ⟨⟨later, sent⟩, ran, same⟩ := Option.map_eq_some_iff.mp handled
    cases same
    have sending := delegateTo_aside fcId pieces _ ran
    split <;> exact { sending with }
  | recvReady id =>
    simp only [dispatch, handleNewReady, Option.some.injEq] at handled
    split at handled
    · cases handled
      refine { Aside.refl ctl with quiet := ?_ }
      intro post member flow
      obtain ⟨fcId, -, rfl⟩ := List.mem_map.mp member
      rfl
    · cases handled
      exact { Aside.refl ctl with }
  | rtpData data streamId => exact sendClients_aside handled

theorem forwardAll_aside (flows : List Nat) :
    ∀ {ctl after : FcController} {posts : List Post},
      forwardAll flows ctl = some (after, posts) → Aside ctl after posts := by
  induction flows with
  | nil =>
    intro ctl after posts handled
    cases handled
    exact Aside.refl ctl
  | cons fcId rest ih =>
    intro ctl after posts handled
    obtain ⟨first, told, handled⟩ := Option.bind_eq_some_iff.mp handled
    obtain ⟨others, told', handled⟩ := Option.bind_eq_some_iff.mp handled
    cases handled
    exact (forwardAcks_aside told).trans (ih told')

theorem handleSendAck_aside (handled : ctl.handleSendAck = some (after, posts)) : Aside ctl after posts := by
  unfold handleSendAck at handled
  split at handled
  · cases handled
    exact Aside.refl ctl
  · exact forwardAll_aside _ handled

end FcController

namespace FcController

theorem electCwnd_keeps (order : HashOrder) (ctl : FcController) (id fcChanId : Nat) :
    (ctl.electCwnd order id fcChanId).1 = { ctl with lastCwnd := (ctl.electCwnd order id fcChanId).1.lastCwnd } := by
  unfold electCwnd
  split
  · rfl
  · split
    · split <;> rfl
    · rfl

variable {ctl after : FcController} {order : HashOrder} {posts : List Post}

theorem recvUcFallBack_members {id fcChanId : Nat}
    (handled : ctl.recvUcFallBack order id fcChanId = some (after, posts)) :
    ∃ mcAck, (ctl.mcAcks fcChanId).removeRecv = some mcAck ∧
      after.txClients = ctl.txClients ∧ after.flows = ctl.flows ∧
      after.activeClients = Function.update ctl.activeClients fcChanId ((ctl.activeClients fcChanId).erase id) ∧
      after.unicastRecv = insert id ctl.unicastRecv ∧
      after.delegatedRecv = Function.update ctl.delegatedRecv fcChanId (insert id (ctl.delegatedRecv fcChanId)) ∧
      after.mcAcks = Function.update ctl.mcAcks fcChanId mcAck ∧
      after.recvAck = ctl.recvAck := by
  obtain ⟨mcAck, removed, handled⟩ := Option.bind_eq_some_iff.mp handled
  obtain ⟨rfl, -⟩ := sendSource_eq handled
  rw [electCwnd_keeps]
  exact ⟨mcAck, removed, rfl, rfl, rfl, rfl, rfl, rfl, rfl⟩

/-- A report of a window leaves the members alone. -/
theorem recvWindow_still {recvId fcId cwnd : Nat}
    (handled : ctl.recvWindow order recvId fcId cwnd = some (after, posts)) : Still ctl after := by
  unfold recvWindow at handled
  split at handled
  · dsimp only at handled
    split at handled
    · cases handled
      exact ⟨rfl, rfl, rfl, rfl, fun _ => rfl⟩
    · obtain ⟨rfl, -⟩ := sendSource_eq handled
      exact ⟨rfl, rfl, rfl, rfl, fun _ => rfl⟩
  · cases handled
    exact ⟨rfl, rfl, rfl, rfl, fun _ => rfl⟩

end FcController

namespace ControllerRun

/-- What the messages were that a step handled: none for the timer. -/
def handledMsgs : CtlEvent → List MsgFcCtl
  | .message _ msg => [msg]
  | .sendAck => []

/-- What the controller does on an event, unless it panics. -/
def Reacts (ctl : FcController) (event : CtlEvent) (after : FcController) (posts : List Post) : Prop :=
  match event with
  | .message order msg =>
    (∀ fcId ∈ FcController.indexed msg, fcId < ctl.flows) ∧ ctl.dispatch order msg = some (after, posts)
  | .sendAck => ctl.handleSendAck = some (after, posts)

/-- A step does nothing, or what the controller does. -/
theorem next_eq (run : ControllerRun) (event : CtlEvent) :
    run.next event = run ∨
      ∃ ctl posts, Reacts run.ctl event ctl posts ∧
        run.next event = ⟨ctl, run.history ++ handledMsgs event, run.posts ++ posts⟩ := by
  cases event with
  | sendAck =>
    cases handled : run.ctl.handleSendAck with
    | none => exact Or.inl (by simp [next, after, handled])
    | some result => exact Or.inr ⟨result.1, result.2, handled, by simp [next, after, handled, handledMsgs]⟩
  | message order msg =>
    cases handled : run.ctl.handleFcMsg order msg with
    | none => exact Or.inl (by simp [next, after, handled])
    | some result =>
      refine Or.inr ⟨result.1, result.2, ?_, by simp [next, after, handled, handledMsgs]⟩
      unfold FcController.handleFcMsg at handled
      split at handled
      · rename_i inside
        exact ⟨fun fcId member => of_decide_eq_true (List.all_eq_true.mp inside fcId member), handled⟩
      · cases handled

/-- A step does nothing, leaves members and windows alone, or handles a message about them. -/
theorem next_cases (run : ControllerRun) (event : CtlEvent) :
    run.next event = run ∨
      (∃ ctl posts, FcController.Aside run.ctl ctl posts ∧
        (∀ msg ∈ handledMsgs event, FcController.isAside msg = true) ∧
        run.next event = ⟨ctl, run.history ++ handledMsgs event, run.posts ++ posts⟩) ∨
      ∃ order msg ctl posts, event = .message order msg ∧ FcController.isAside msg = false ∧
        run.ctl.dispatch order msg = some (ctl, posts) ∧
        run.next event = ⟨ctl, run.history ++ [msg], run.posts ++ posts⟩ := by
  rcases run.next_eq event with same | ⟨ctl, posts, reacts, step⟩
  · exact Or.inl same
  · cases event with
    | sendAck =>
      exact Or.inr (Or.inl ⟨ctl, posts, FcController.handleSendAck_aside reacts,
        fun _ member => absurd member List.not_mem_nil, step⟩)
    | message order msg =>
      obtain ⟨-, handled⟩ := reacts
      cases other : FcController.isAside msg with
      | false => exact Or.inr (Or.inr ⟨order, msg, ctl, posts, rfl, other, handled, step⟩)
      | true =>
        refine Or.inr (Or.inl ⟨ctl, posts, FcController.dispatch_aside other handled, ?_, step⟩)
        intro msg' member
        rw [List.mem_singleton.mp member]
        exact other

end ControllerRun

end Flexicast
