import Flexicast.Controller.Steps

/-! The members of the flows, and the number of receivers that their aggregators count. -/

namespace Flexicast

namespace FcController

/-- Every client is in one place, and every aggregator counts the clients of its flow. -/
structure Partitioned (ctl : FcController) : Prop where
  /-- A client listens to unicast only, or to exactly one flow. -/
  placed : ∀ client < ctl.txClients,
    (client ∈ ctl.unicastRecv ∧ ∀ fcId < ctl.flows, client ∉ ctl.activeClients fcId) ∨
      (client ∉ ctl.unicastRecv ∧ ∃! fcId, fcId < ctl.flows ∧ client ∈ ctl.activeClients fcId)
  counted : ∀ fcId < ctl.flows, (ctl.mcAcks fcId).nbRecv = (ctl.activeClients fcId).card
  /-- Taking a client out of a flow does not underflow. -/
  removable : ∀ fcId < ctl.flows, ∀ client ∈ ctl.activeClients fcId, (ctl.mcAcks fcId).removeRecv ≠ none

/-- Only clients that are connected are in a flow. -/
def Known (ctl : FcController) : Prop := ∀ fcId, ∀ client ∈ ctl.activeClients fcId, client < ctl.txClients

variable {ctl : FcController} {clientId : Nat}

variable {fcId client fcChanId oldFcChanId newFcChanId : Nat} {after : FcController}

theorem removable_of_counted (counted : (ctl.mcAcks fcId).nbRecv = (ctl.activeClients fcId).card)
    (member : client ∈ ctl.activeClients fcId) : (ctl.mcAcks fcId).removeRecv ≠ none := by
  have positive : 0 < (ctl.activeClients fcId).card := Finset.card_pos.mpr ⟨client, member⟩
  unfold McAck.removeRecv
  rw [if_neg (by omega)]
  exact nofun

/-- What is in place stays there, when members and counters are left alone. -/
theorem Partitioned.still (parted : ctl.Partitioned) (still : Still ctl after) : after.Partitioned := by
  have counted : ∀ fcId < after.flows, (after.mcAcks fcId).nbRecv = (after.activeClients fcId).card := by
    intro fcId inside
    rw [still.nbRecv, still.active]
    exact parted.counted fcId (still.flows ▸ inside)
  refine ⟨?_, counted, fun fcId inside client member => removable_of_counted (counted fcId inside) member⟩
  rw [still.txClients, still.unicast, still.flows, still.active]
  exact parted.placed

/-- A client with the next number connects. -/
theorem Partitioned.newClient (parted : ctl.Partitioned) (known : ctl.Known) :
    (ctl.newClient ctl.txClients).Partitioned where
  placed := by
    intro client below
    simp only [FcController.newClient, Finset.mem_insert]
    rcases Nat.lt_succ_iff_lt_or_eq.mp below with older | new
    · rcases parted.placed client older with ⟨unicast, nowhere⟩ | ⟨flow, once⟩
      · exact Or.inl ⟨Or.inr unicast, nowhere⟩
      · exact Or.inr ⟨fun either => either.elim (by omega) flow, once⟩
    · -- The new client is in no flow yet.
      refine Or.inl ⟨Or.inl new, fun fcId _ member => ?_⟩
      have older := known fcId client member
      omega
  counted := parted.counted
  removable := parted.removable

/-- A client joins: it is in one flow then, unless it is in another one already. -/
theorem Partitioned.join (parted : ctl.Partitioned) (known : clientId < ctl.txClients) (inside : fcChanId < ctl.flows) :
    (ctl.join clientId fcChanId).Partitioned ↔
      ∀ fcId < ctl.flows, clientId ∈ ctl.activeClients fcId → fcId = fcChanId := by
  have joined : clientId ∈ (ctl.join clientId fcChanId).activeClients fcChanId := by
    simp [FcController.join]
  constructor
  · intro after fcId below member
    by_contra other
    have still : clientId ∈ (ctl.join clientId fcChanId).activeClients fcId := by
      simpa [FcController.join, Function.update_of_ne other] using member
    rcases after.placed clientId known with ⟨-, nowhere⟩ | ⟨-, once⟩
    · exact nowhere fcChanId inside joined
    · exact other (once.unique ⟨below, still⟩ ⟨inside, joined⟩)
  · intro single
    have counted : ∀ fcId < ctl.flows, ((ctl.join clientId fcChanId).mcAcks fcId).nbRecv =
        ((ctl.join clientId fcChanId).activeClients fcId).card := by
      intro fcId below
      have before := parted.counted fcId below
      by_cases here : fcId = fcChanId
      · subst here
        by_cases member : clientId ∈ ctl.activeClients fcId
        · simpa [FcController.join, member, Finset.insert_eq_of_mem] using before
        · simp [FcController.join, member, Finset.card_insert_of_notMem, McAck.newRecv, before]
      · by_cases member : clientId ∈ ctl.activeClients fcChanId
        · simpa [FcController.join, member, Function.update_of_ne here] using before
        · simpa [FcController.join, member, Function.update_of_ne here] using before
    refine ⟨?_, counted, fun fcId below client member => removable_of_counted (counted fcId below) member⟩
    intro client below
    by_cases same : client = clientId
    · -- The client that joins is in the flow, and in no other one.
      subst same
      refine Or.inr ⟨by simp [FcController.join], fcChanId, ⟨inside, joined⟩, ?_⟩
      rintro fcId ⟨below', member⟩
      by_contra other
      simp only [FcController.join, Function.update_of_ne other] at member
      exact other (single fcId below' member)
    · -- The others stay where they are.
      have stays : ∀ fcId, client ∈ (ctl.join clientId fcChanId).activeClients fcId ↔
          client ∈ ctl.activeClients fcId := by
        intro fcId
        by_cases here : fcId = fcChanId
        · subst here
          simp [FcController.join, same]
        · simp [FcController.join, Function.update_of_ne here]
      have unicast : client ∈ (ctl.join clientId fcChanId).unicastRecv ↔ client ∈ ctl.unicastRecv := by
        simp [FcController.join, same]
      simp only [stays, unicast]
      exact parted.placed client below

/-- A client changes its flow: it is counted in the new flow only if that is the old one. -/
theorem Partitioned.change (parted : ctl.Partitioned) (inside : oldFcChanId < ctl.flows)
    (member : clientId ∈ ctl.activeClients oldFcChanId) :
    (ctl.change clientId oldFcChanId newFcChanId).Partitioned ↔ oldFcChanId = newFcChanId := by
  constructor
  · intro after
    by_contra other
    -- The old flow loses a client that its aggregator still counts.
    have counted := after.counted oldFcChanId inside
    have before := parted.counted oldFcChanId inside
    simp only [FcController.change, Function.update_of_ne other, Function.update_self,
      Finset.card_erase_of_mem member] at counted
    have positive : 0 < (ctl.activeClients oldFcChanId).card := Finset.card_pos.mpr ⟨clientId, member⟩
    omega
  · rintro rfl
    have same : ctl.change clientId oldFcChanId oldFcChanId = ctl := by
      simp [FcController.change, Finset.insert_erase member]
    rw [same]
    exact parted

/-- A change puts its client into a flow, and nobody else. -/
theorem mem_change (member : client ∈ (ctl.change clientId oldFcChanId newFcChanId).activeClients fcId) :
    client = clientId ∨ client ∈ ctl.activeClients fcId := by
  -- Before it is put into the new flow, the client is taken out of the old one.
  have left : ∀ flow, client ∈ Function.update ctl.activeClients oldFcChanId
      ((ctl.activeClients oldFcChanId).erase clientId) flow → client ∈ ctl.activeClients flow := by
    intro flow among
    by_cases here : flow = oldFcChanId
    · subst here
      rw [Function.update_self] at among
      exact Finset.mem_of_mem_erase among
    · rwa [Function.update_of_ne here] at among
  simp only [change] at member
  by_cases here : fcId = newFcChanId
  · subst here
    rw [Function.update_self, Finset.mem_insert] at member
    exact member.imp_right (left fcId)
  · rw [Function.update_of_ne here] at member
    exact Or.inr (left fcId member)

/-- A client of a flow falls back. -/
theorem Partitioned.fallBack {order : HashOrder} {id : Nat} {posts : List Post} (parted : ctl.Partitioned)
    (inside : fcChanId < ctl.flows) (member : id ∈ ctl.activeClients fcChanId)
    (handled : ctl.recvUcFallBack order id fcChanId = some (after, posts)) : after.Partitioned := by
  obtain ⟨mcAck, removed, clients, flows, active, unicast, -, mcAcks, -⟩ := recvUcFallBack_members handled
  have fewer : mcAck.nbRecv = (ctl.mcAcks fcChanId).nbRecv - 1 := by
    unfold McAck.removeRecv at removed
    split at removed
    · cases removed
    · cases removed
      rfl
  have counted : ∀ fcId < after.flows, (after.mcAcks fcId).nbRecv = (after.activeClients fcId).card := by
    intro fcId below
    rw [flows] at below
    have before := parted.counted fcId below
    rw [mcAcks, active]
    by_cases here : fcId = fcChanId
    · subst here
      rw [Function.update_self, Function.update_self, Finset.card_erase_of_mem member, fewer, before]
    · rw [Function.update_of_ne here, Function.update_of_ne here, before]
  refine ⟨?_, counted, fun fcId below client member => removable_of_counted (counted fcId below) member⟩
  rw [clients, flows, unicast, active]
  intro client below
  by_cases same : client = id
  · -- The client that falls back was in this flow only.
    subst same
    refine Or.inl ⟨Finset.mem_insert_self _ _, fun fcId below' still => ?_⟩
    by_cases here : fcId = fcChanId
    · subst here
      simp at still
    · rw [Function.update_of_ne here] at still
      rcases parted.placed client below with ⟨-, nowhere⟩ | ⟨-, once⟩
      · exact nowhere fcId below' still
      · exact here (once.unique ⟨below', still⟩ ⟨inside, member⟩)
  · -- The others stay where they are.
    have stays : ∀ fcId, client ∈ Function.update ctl.activeClients fcChanId
        ((ctl.activeClients fcChanId).erase id) fcId ↔ client ∈ ctl.activeClients fcId := by
      intro fcId
      by_cases here : fcId = fcChanId
      · subst here
        simp [same]
      · rw [Function.update_of_ne here]
    simp only [stays, Finset.mem_insert, same, false_or]
    exact parted.placed client below

end FcController

namespace ControllerRun

/-- What the unicast instances and the main thread can send. -/
def Sendable (run : ControllerRun) : CtlEvent → Prop
  | .message _ msg =>
    (∀ fcId ∈ FcController.indexed msg, fcId < run.ctl.flows) ∧
      match msg with
      -- Clients are numbered in the order they connect.
      | .newClient id => id = run.ctl.txClients
      | .join clientId _ => clientId < run.ctl.txClients
      | .change clientId oldFcId _ => clientId ∈ run.ctl.activeClients oldFcId
      | .recvUcFallBack id fcId => id ∈ run.ctl.activeClients fcId
      | _ => True
  | .sendAck => True

/-- The clients that a message moves are connected. -/
def Connected (run : ControllerRun) : CtlEvent → Prop
  | .message _ (.join clientId _) => clientId < run.ctl.txClients
  | .message _ (.change clientId _ _) => clientId < run.ctl.txClients
  | .message _ (.recvUcFallBack id _) => id < run.ctl.txClients
  | _ => True

variable {run : ControllerRun} {event : CtlEvent}

/-- What can be sent is about connected clients. -/
theorem Sendable.connected (sendable : run.Sendable event) (known : run.ctl.Known) : run.Connected event := by
  cases event with
  | sendAck => trivial
  | message order msg =>
    cases msg with
    | join clientId fcId => exact sendable.2
    | change clientId oldFcId newFcId => exact known oldFcId clientId sendable.2
    | recvUcFallBack id fcId => exact known fcId id sendable.2
    | newClient id => trivial
    | cwnd recvId fcId cwnd => trivial
    | closeRtp id => trivial
    | newHighestPn fcId highestPn lowestPn => trivial
    | ackData recvId fcId ackPn pieces => trivial
    | sent fcId packets => trivial
    | delegateStreams fcId pieces early => trivial
    | recvReady id => trivial
    | rtpData data streamId => trivial

/-- Nobody moves from one flow to another. -/
def Stays (run : ControllerRun) : CtlEvent → Prop
  | .message _ (.change _ oldFcId newFcId) => oldFcId = newFcId
  | .message _ (.join clientId fcChanId) =>
    ∀ fcId < run.ctl.flows, clientId ∈ run.ctl.activeClients fcId → fcId = fcChanId
  | _ => True

/-- Only connected clients get into a flow. -/
theorem next_known (known : run.ctl.Known) (connected : run.Connected event) : (run.next event).ctl.Known := by
  rcases run.next_cases event with same | ⟨ctl, posts, aside, -, step⟩ |
    ⟨order, msg, ctl, posts, rfl, member, handled, step⟩
  · rw [same]
    exact known
  · rw [step]
    intro fcId client
    rw [aside.active, aside.txClients]
    exact known fcId client
  · rw [step]
    intro fcId client among
    cases msg with
    | newClient id =>
      cases handled
      exact Nat.lt_succ_of_lt (known fcId client among)
    | join clientId flow =>
      cases handled
      by_cases here : fcId = flow
      · subst here
        simp only [FcController.join, Function.update_self, Finset.mem_insert] at among
        rcases among with rfl | among
        · exact connected
        · exact known fcId client among
      · simp only [FcController.join, Function.update_of_ne here] at among
        exact known fcId client among
    | change clientId oldFcId newFcId =>
      cases handled
      rcases FcController.mem_change among with rfl | among
      · exact connected
      · exact known fcId client among
    | recvUcFallBack id flow =>
      obtain ⟨mcAck, -, clients, -, active, -⟩ := FcController.recvUcFallBack_members handled
      dsimp only at among ⊢
      rw [active] at among
      rw [clients]
      by_cases here : fcId = flow
      · subst here
        rw [Function.update_self] at among
        exact known fcId client (Finset.mem_of_mem_erase among)
      · rw [Function.update_of_ne here] at among
        exact known fcId client among
    | cwnd recvId flow cwnd =>
      have still := FcController.recvWindow_still handled
      dsimp only at among ⊢
      rw [still.active] at among
      rw [still.txClients]
      exact known fcId client among
    | closeRtp id => cases member
    | newHighestPn flow highestPn lowestPn => cases member
    | ackData recvId flow ackPn pieces => cases member
    | sent flow packets => cases member
    | delegateStreams flow pieces early => cases member
    | recvReady id => cases member
    | rtpData data streamId => cases member

/-- A step keeps everybody in place unless it moves somebody from one flow to another. -/
theorem next_partitioned (known : run.ctl.Known) (parted : run.ctl.Partitioned) (sendable : run.Sendable event) :
    (run.next event).ctl.Partitioned ↔ run.Stays event := by
  cases event with
  | sendAck =>
    rcases run.next_cases .sendAck with same | ⟨ctl, posts, aside, -, step⟩ | ⟨_, _, _, _, timer, -⟩
    · rw [same]
      exact iff_of_true parted trivial
    · rw [step]
      exact iff_of_true (parted.still aside.toStill) trivial
    · cases timer
  | message order msg =>
    obtain ⟨inside, sendable⟩ := sendable
    have inBounds : (FcController.indexed msg).all (· < run.ctl.flows) = true :=
      List.all_eq_true.mpr fun fcId member => decide_eq_true (inside fcId member)
    have taken : run.next (.message order msg) = run.after (run.ctl.dispatch order msg) [msg] := by
      rw [next, FcController.handleFcMsg, if_pos inBounds]
    rw [taken]
    have others : FcController.isAside msg = true → (run.after (run.ctl.dispatch order msg) [msg]).ctl.Partitioned := by
      intro other
      cases handled : run.ctl.dispatch order msg with
      | none => exact parted
      | some result => exact parted.still (FcController.dispatch_aside other handled).toStill
    cases msg with
    | newClient id =>
      have new : id = run.ctl.txClients := sendable
      subst new
      exact iff_of_true (parted.newClient known) trivial
    | join clientId flow => exact parted.join sendable (inside flow List.mem_cons_self)
    | change clientId oldFcId newFcId => exact parted.change (inside oldFcId List.mem_cons_self) sendable
    | recvUcFallBack id flow =>
      refine iff_of_true ?_ trivial
      cases handled : run.ctl.dispatch order (.recvUcFallBack id flow) with
      | none => exact parted
      | some result => exact parted.fallBack (inside flow List.mem_cons_self) sendable handled
    | cwnd recvId flow cwnd =>
      refine iff_of_true ?_ trivial
      cases handled : run.ctl.dispatch order (.cwnd recvId flow cwnd) with
      | none => exact parted
      | some result => exact parted.still (FcController.recvWindow_still handled)
    | closeRtp id => exact iff_of_true (others rfl) trivial
    | newHighestPn flow highestPn lowestPn => exact iff_of_true (others rfl) trivial
    | ackData recvId flow ackPn pieces => exact iff_of_true (others rfl) trivial
    | sent flow packets => exact iff_of_true (others rfl) trivial
    | delegateStreams flow pieces early => exact iff_of_true (others rfl) trivial
    | recvReady id => exact iff_of_true (others rfl) trivial
    | rtpData data streamId => exact iff_of_true (others rfl) trivial

theorem start_partitioned (flows txFcSources : Nat) (wait ackDelay : Option Nat) :
    (start flows txFcSources wait ackDelay).ctl.Partitioned where
  placed := fun _ below => absurd below (Nat.not_lt_zero _)
  counted := fun _ _ => rfl
  removable := fun _ _ _ member => absurd member (Finset.notMem_empty _)

/-- The members are in place all along a run just when nobody moves from one flow to another. -/
theorem partitioned_iff_stays {flows txFcSources : Nat} {wait ackDelay : Option Nat} {events : List CtlEvent}
    (sendable : Runs.Along next Sendable (start flows txFcSources wait ackDelay) events) :
    (∀ done, done <+: events → (Runs.run next (start flows txFcSources wait ackDelay) done).ctl.Partitioned) ↔
      Runs.Along next Stays (start flows txFcSources wait ackDelay) events := by
  have keeps : ∀ (run : ControllerRun) event, run.ctl.Known → run.Sendable event → (run.next event).ctl.Known :=
    fun _ _ known sendable => next_known known (sendable.connected known)
  have step : ∀ (run : ControllerRun) event, run.ctl.Known → run.ctl.Partitioned → run.Sendable event →
      ((run.next event).ctl.Partitioned ↔ run.Stays event) := fun _ _ => next_partitioned
  have nobody : (start flows txFcSources wait ackDelay).ctl.Known := fun _ _ member =>
    absurd member (Finset.notMem_empty _)
  exact Runs.always_iff_along keeps step events nobody (start_partitioned _ _ _ _) sendable

instance (run : ControllerRun) : (event : CtlEvent) → Decidable (run.Sendable event)
  | .message _ (.newClient _) => inferInstanceAs (Decidable ((∀ _ ∈ _, _) ∧ _ = _))
  | .message _ (.join _ _) => inferInstanceAs (Decidable ((∀ _ ∈ _, _) ∧ _ < _))
  | .message _ (.change _ _ _) => inferInstanceAs (Decidable ((∀ _ ∈ _, _) ∧ _ ∈ _))
  | .message _ (.recvUcFallBack _ _) => inferInstanceAs (Decidable ((∀ _ ∈ _, _) ∧ _ ∈ _))
  | .message _ (.closeRtp _) => inferInstanceAs (Decidable ((∀ _ ∈ _, _) ∧ True))
  | .message _ (.newHighestPn _ _ _) => inferInstanceAs (Decidable ((∀ _ ∈ _, _) ∧ True))
  | .message _ (.ackData _ _ _ _) => inferInstanceAs (Decidable ((∀ _ ∈ _, _) ∧ True))
  | .message _ (.sent _ _) => inferInstanceAs (Decidable ((∀ _ ∈ _, _) ∧ True))
  | .message _ (.delegateStreams _ _ _) => inferInstanceAs (Decidable ((∀ _ ∈ _, _) ∧ True))
  | .message _ (.recvReady _) => inferInstanceAs (Decidable ((∀ _ ∈ _, _) ∧ True))
  | .message _ (.rtpData _ _) => inferInstanceAs (Decidable ((∀ _ ∈ _, _) ∧ True))
  | .message _ (.cwnd _ _ _) => inferInstanceAs (Decidable ((∀ _ ∈ _, _) ∧ True))
  | .sendAck => isTrue trivial

/-- A client that joins a flow and falls back stays in place. -/
theorem partitioned_iff_stays_fallBack :
    (∀ done, done <+: [.message .ascending (.newClient 0), .message .ascending (.join 0 0),
        .message .ascending (.recvUcFallBack 0 0)] →
      (Runs.run next (start 2 2 none none) done).ctl.Partitioned) ↔
    Runs.Along next Stays (start 2 2 none none)
      [.message .ascending (.newClient 0), .message .ascending (.join 0 0),
        .message .ascending (.recvUcFallBack 0 0)] :=
  partitioned_iff_stays (by decide)

/-- A client joins a flow and changes to another one. -/
def joinThenChange : List CtlEvent :=
  [.message .ascending (.newClient 0), .message .ascending (.join 0 0), .message .ascending (.change 0 0 1)]

/-- The unicast instances can send this, and then the aggregators do not count the clients of their flows. -/
theorem change_not_counted :
    Runs.Along next Sendable (start 2 2 none none) joinThenChange ∧
      ¬ (Runs.run next (start 2 2 none none) joinThenChange).ctl.Partitioned :=
  ⟨by decide, fun parted => absurd (parted.counted 0 (by decide)) (by decide)⟩

end ControllerRun

end Flexicast
