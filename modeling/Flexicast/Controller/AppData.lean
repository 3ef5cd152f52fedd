import Flexicast.Controller.FcController
import Flexicast.Lib.Runs

/-! The data of the application at a flexicast source, which `asynchronous/fc.rs` forwards for unicast fall-back. -/

namespace Flexicast

section Definitions

/-- What `stream_send` answers. -/
inductive SendAnswer where
  | written (count : Nat)
  | done
  /-- Any other error, on which the task panics. -/
  | failed

/-- What the application gives to the source. -/
inductive FileTransferSrcMsg where
  | close
  | data (data : Bytes) (fin : Bool)

/-- The task of a flexicast source, as far as it handles the data of the application. -/
structure FcChannelAsync where
  /-- Whether the source must wait to send packets on the wire. -/
  mustWait : Bool
  allowUnicast : Bool
  doFlexicast : Bool
  /-- Data of the application that is not yet delivered to QUIC, and whether it is the last piece. -/
  pendingData : Option (Bytes × Bool)
  /-- Whether the application has nothing more to give. -/
  appStopped : Bool
  /-- Whether the task has panicked or has returned an error. -/
  ended : Bool

namespace FcChannelAsync

/-- Keeps a piece of the application until it is delivered. -/
def handleAppData (self : FcChannelAsync) (msg : FileTransferSrcMsg) : FcChannelAsync :=
  if self.pendingData.isSome then { self with ended := true }
  else
    match msg with
    | .close => { self with appStopped := true }
    | .data data fin => { self with pendingData := some (data, fin) }

/-- The arm of `select!` for the application, which is closed as long as data is pending, and the message it takes. -/
def selectApp (self : FcChannelAsync) (msg : FileTransferSrcMsg) : FcChannelAsync × Option FileTransferSrcMsg :=
  if self.pendingData.isNone then (self.handleAppData msg, some msg) else (self, none)

/-- All intended receivers are ready. -/
def handleReady (self : FcChannelAsync) : FcChannelAsync := { self with mustWait := false }

/-- Takes what was written off the pending data. -/
def cutPending (self : FcChannelAsync) (appData : Bytes) (fin : Bool) (written : Nat) : FcChannelAsync :=
  if written = appData.length then { self with pendingData := none }
  -- A slice that starts behind the end panics.
  else if appData.length < written then { self with ended := true }
  else
    let rest := appData.drop written
    { self with pendingData := if rest.isEmpty then none else some (rest, fin) }

/-- The stream on which the source sends the data of the application. -/
def rtpStreamId : Nat := 3

/-- One turn of the `'rtp` loop with the answer of `stream_send`, and what it sends to the controller. -/
def rtpTurn (self : FcChannelAsync) (answer : SendAnswer) : FcChannelAsync × List MsgFcCtl :=
  if self.mustWait then (self, [])
  else
    match self.pendingData with
    | none => (self, [])
    | some (appData, fin) =>
      -- The controller gets the data before the stream does.
      let posts := if self.allowUnicast then [MsgFcCtl.rtpData appData rtpStreamId] else []
      if self.doFlexicast then
        match answer with
        | .written count => (self.cutPending appData fin count, posts)
        | .done => (self, posts)
        | .failed => ({ self with ended := true }, posts)
      else (self.cutPending appData fin appData.length, posts)

/-- A source before its first piece. -/
def new (mustWait allowUnicast doFlexicast : Bool) : FcChannelAsync :=
  ⟨mustWait, allowUnicast, doFlexicast, none, false, false⟩

end FcChannelAsync

/-- What happens to the source. -/
inductive AppEvent where
  | app (msg : FileTransferSrcMsg)
  | ready
  | rtpTurn (answer : SendAnswer)

/-- A source, with what it was given and what it has sent. -/
structure Forwarding where
  source : FcChannelAsync
  /-- The messages sent to the controller. -/
  posts : List MsgFcCtl
  /-- The pieces that the application gave. -/
  given : List Bytes
  /-- The pieces that the loop has accepted to deliver. -/
  accepted : List Bytes
  /-- Whether the pending data is what `stream_send` left of an accepted piece. -/
  leftOver : Bool

namespace Forwarding

/-- A source before its first piece. -/
def start (mustWait allowUnicast doFlexicast : Bool) : Forwarding :=
  ⟨FcChannelAsync.new mustWait allowUnicast doFlexicast, [], [], [], false⟩

/-- The piece in the message that was taken, if any was. -/
def brought : Option FileTransferSrcMsg → List Bytes
  | some (.data data _) => [data]
  | some .close | none => []

/-- The piece that the next turn of the loop accepts: what pends, unless it is left over. -/
def fresh (self : Forwarding) : List Bytes :=
  if self.source.mustWait || self.leftOver then [] else (self.source.pendingData.map Prod.fst).toList

/-- One step of the source; a task that has ended takes none. -/
def next (self : Forwarding) (event : AppEvent) : Forwarding :=
  if self.source.ended then self
  else
    match event with
    | .app msg =>
      let (source, taken) := self.source.selectApp msg
      { self with source := source, given := self.given ++ brought taken }
    | .ready => { self with source := self.source.handleReady }
    | .rtpTurn answer =>
      let (source, posts) := self.source.rtpTurn answer
      { self with
        source := source
        posts := self.posts ++ posts
        accepted := self.accepted ++ self.fresh
        leftOver := !source.mustWait && source.pendingData.isSome }

/-- The data in the messages that forward it. -/
def payloads (posts : List MsgFcCtl) : List Bytes :=
  posts.filterMap fun
    | .rtpData data _ => some data
    | _ => none

/-- Every byte of the accepted pieces was forwarded exactly once, in order. -/
def ForwardedOnce (self : Forwarding) : Prop := (payloads self.posts).flatten = self.accepted.flatten

/-- A turn of the loop does not come back to bytes that `stream_send` left of an accepted piece. -/
def TakenWhole (self : Forwarding) : AppEvent → Prop
  | .rtpTurn _ => self.source.ended = false → self.leftOver = true →
    ∀ pending ∈ self.source.pendingData, pending.1 = []
  | .app _ | .ready => True

end Forwarding

end Definitions

namespace FcChannelAsync

variable (self : FcChannelAsync)

theorem cutPending_flags (appData : Bytes) (fin : Bool) (written : Nat) :
    (self.cutPending appData fin written).mustWait = self.mustWait ∧
      (self.cutPending appData fin written).allowUnicast = self.allowUnicast := by
  unfold cutPending
  split
  · exact ⟨rfl, rfl⟩
  · split <;> exact ⟨rfl, rfl⟩

/-- A turn of the loop changes no flag of the source. -/
theorem rtpTurn_flags (answer : SendAnswer) :
    (self.rtpTurn answer).1.mustWait = self.mustWait ∧
      (self.rtpTurn answer).1.allowUnicast = self.allowUnicast := by
  -- Only the writes look further than the flags.
  unfold rtpTurn
  split
  · exact ⟨rfl, rfl⟩
  · cases self.pendingData with
    | none => exact ⟨rfl, rfl⟩
    | some pending =>
      dsimp only
      split
      · cases answer with
        | written count => exact self.cutPending_flags pending.1 pending.2 count
        | done => exact ⟨rfl, rfl⟩
        | failed => exact ⟨rfl, rfl⟩
      · exact self.cutPending_flags pending.1 pending.2 _

theorem rtpTurn_waiting {self : FcChannelAsync} (waiting : self.mustWait = true) (answer : SendAnswer) :
    self.rtpTurn answer = (self, []) := by
  rw [rtpTurn, if_pos waiting]

theorem selectApp_pending (msg : FileTransferSrcMsg) :
    ((self.selectApp msg).1.pendingData.map Prod.fst).toList =
      (self.pendingData.map Prod.fst).toList ++ Forwarding.brought (self.selectApp msg).2 := by
  -- The arm is closed as long as something pends.
  cases pending : self.pendingData <;> cases msg <;> simp [selectApp, handleAppData, Forwarding.brought, pending]

theorem selectApp_flags (msg : FileTransferSrcMsg) :
    (self.selectApp msg).1.mustWait = self.mustWait ∧ (self.selectApp msg).1.allowUnicast = self.allowUnicast := by
  cases pending : self.pendingData <;> cases msg <;> simp [selectApp, handleAppData, pending]

end FcChannelAsync

namespace Forwarding

section Forwarded

variable {self : Forwarding}

theorem payloads_append (posts more : List MsgFcCtl) : payloads (posts ++ more) = payloads posts ++ payloads more :=
  List.filterMap_append

theorem payloads_rtpTurn {source : FcChannelAsync} (unicast : source.allowUnicast = true)
    (running : source.mustWait = false) (answer : SendAnswer) :
    payloads (source.rtpTurn answer).2 = (source.pendingData.map Prod.fst).toList := by
  -- The message is sent before the stream answers, so no answer takes it back.
  rw [FcChannelAsync.rtpTurn, if_neg (by simp [running])]
  cases source.pendingData with
  | none => rfl
  | some pending =>
    dsimp only
    rw [if_pos unicast]
    cases source.doFlexicast <;> cases answer <;> rfl

/-- The flags of a run of a source that serves unicast receivers too. -/
structure Serving (run : Forwarding) : Prop where
  unicast : run.source.allowUnicast = true
  /-- As long as the source waits, no piece is accepted. -/
  untouched : run.source.mustWait = true → run.leftOver = false
  pends : run.leftOver = true → run.source.pendingData.isSome = true

/-- No step changes what the source serves. -/
theorem Serving.next (serving : self.Serving) (event : AppEvent) : (self.next event).Serving := by
  -- The flags move only when the source becomes ready; the record of left data is made afresh on every turn.
  unfold Forwarding.next
  split
  · exact serving
  · cases event with
    | app msg =>
      obtain ⟨waits, unicast⟩ := self.source.selectApp_flags msg
      constructor
      · exact unicast.trans serving.unicast
      · exact fun waiting => serving.untouched (waits ▸ waiting)
      · intro left
        -- The arm for the application is closed then, so what pends stays.
        have pends := serving.pends left
        obtain ⟨pending, same⟩ := Option.isSome_iff_exists.mp pends
        simp [FcChannelAsync.selectApp, same]
    | ready =>
      constructor
      · exact serving.unicast
      · exact fun waiting => by simp [FcChannelAsync.handleReady] at waiting
      · exact serving.pends
    | rtpTurn answer =>
      obtain ⟨_, unicast⟩ := self.source.rtpTurn_flags answer
      constructor
      · exact unicast.trans serving.unicast
      · exact fun waiting => by simp_all
      · exact fun left => (Bool.and_eq_true _ _ ▸ left).2

/-- A turn of the loop forwards every byte once just when it does not come back to left bytes. -/
theorem forwardedOnce_rtpTurn (serving : self.Serving) (once : self.ForwardedOnce) (answer : SendAnswer) :
    (self.next (.rtpTurn answer)).ForwardedOnce ↔ self.TakenWhole (.rtpTurn answer) := by
  unfold ForwardedOnce at once
  unfold Forwarding.next TakenWhole
  by_cases ended : self.source.ended = true
  · simp [ended, ForwardedOnce, once]
  · have alive : self.source.ended = false := by simpa using ended
    rw [if_neg ended]
    simp only [ForwardedOnce, payloads_append, List.flatten_append, alive, forall_const]
    cases waiting : self.source.mustWait with
    | true =>
      -- Nothing happens, and nothing is left over yet.
      have still : payloads [] = [] := rfl
      simp [FcChannelAsync.rtpTurn_waiting waiting, fresh, waiting, once, still, serving.untouched waiting]
    | false =>
      rw [payloads_rtpTurn serving.unicast waiting]
      cases left : self.leftOver with
      | false => simp [fresh, waiting, left, once]
      | true =>
        -- What pends belongs to an accepted piece, and it is forwarded again.
        cases self.source.pendingData <;> simp [fresh, left, once]

theorem forwardedOnce_next (serving : self.Serving) (once : self.ForwardedOnce) (event : AppEvent) :
    (self.next event).ForwardedOnce ↔ self.TakenWhole event := by
  cases event with
  | rtpTurn answer => exact forwardedOnce_rtpTurn serving once answer
  | app msg =>
    -- The application and the controller send nothing to the controller.
    unfold Forwarding.next
    split <;> simpa [TakenWhole, ForwardedOnce] using once
  | ready =>
    unfold Forwarding.next
    split <;> simpa [TakenWhole, ForwardedOnce] using once

/-- The bytes of the accepted pieces are forwarded exactly once, in every state of a run, just when no turn of the loop
comes back to bytes that `stream_send` left. -/
theorem forwardedOnce_iff_takenWhole (mustWait : Bool) (events : List AppEvent) :
    (∀ done, done <+: events → (Runs.run next (start mustWait true true) done).ForwardedOnce) ↔
      Runs.Along next TakenWhole (start mustWait true true) events := by
  -- Each step decides whether the next state is a good one, by what pends before it.
  have keeps : ∀ (state : Forwarding) (event : AppEvent), state.Serving → True → (state.next event).Serving :=
    fun _ event serving _ => serving.next event
  have step : ∀ (state : Forwarding) (event : AppEvent), state.Serving → state.ForwardedOnce → True →
      ((state.next event).ForwardedOnce ↔ state.TakenWhole event) :=
    fun _ event serving once _ => forwardedOnce_next serving once event
  have serving : (start mustWait true true).Serving := ⟨rfl, fun _ => rfl, fun left => nomatch left⟩
  exact Runs.always_iff_along keeps step events serving rfl (Runs.along_true next _ events)

/-- The rest of a piece is forwarded again after a partial write, and once more after a write that found no room. -/
theorem rest_forwarded_again : ¬ ∀ mustWait events done, done <+: events →
    (Runs.run next (start mustWait true true) done).ForwardedOnce := by
  -- The stream takes one byte of two, then none, then the other one.
  intro always
  have repeated := always false
    [.app (.data [1, 2] false), .rtpTurn (.written 1), .rtpTurn .done, .rtpTurn (.written 1)] _ (List.prefix_refl _)
  have bytes : (payloads (Runs.run next (start false true true)
    [.app (.data [1, 2] false), .rtpTurn (.written 1), .rtpTurn .done, .rtpTurn (.written 1)]).posts).flatten =
      [1, 2, 2, 2] := by decide
  rw [ForwardedOnce, bytes] at repeated
  exact absurd repeated (by decide)

end Forwarded

section Accepted

variable {self : Forwarding}

/-- What the application gave and the loop has not accepted yet. -/
def waiting (self : Forwarding) : List Bytes :=
  if self.leftOver then [] else (self.source.pendingData.map Prod.fst).toList

/-- Nothing that the application gives is left out: a piece is accepted, or it still waits. -/
def Complete (self : Forwarding) : Prop := self.given = self.accepted ++ self.waiting

theorem fresh_running (running : self.source.mustWait = false) : self.fresh = self.waiting := by
  simp [fresh, waiting, running]

/-- No step leaves a piece out. -/
theorem Complete.next (serving : self.Serving) (complete : self.Complete) (event : AppEvent) :
    (self.next event).Complete := by
  unfold Complete at complete ⊢
  unfold Forwarding.next
  split
  · exact complete
  · cases event with
    | ready => simpa [FcChannelAsync.handleReady, waiting] using complete
    | app msg =>
      -- A piece comes only when nothing pends, so nothing is left over then.
      simp only [complete, List.append_assoc, waiting]
      cases left : self.leftOver with
      | false => simp [FcChannelAsync.selectApp_pending]
      | true =>
        obtain ⟨pending, same⟩ := Option.isSome_iff_exists.mp (serving.pends left)
        simp [FcChannelAsync.selectApp, brought, same]
    | rtpTurn answer =>
      cases running : self.source.mustWait with
      | true =>
        have untouched := serving.untouched running
        simpa [FcChannelAsync.rtpTurn_waiting running, fresh, waiting, running, untouched] using complete
      | false =>
        rw [fresh_running running]
        have runs := (self.source.rtpTurn_flags answer).1.trans running
        simp only [complete, waiting, runs]
        cases (self.source.rtpTurn answer).1.pendingData <;> simp

/-- Every accepted piece is forwarded whole once at least. -/
theorem accepted_next (serving : self.Serving) (forwarded : self.accepted.Sublist (payloads self.posts))
    (event : AppEvent) : (self.next event).accepted.Sublist (payloads (self.next event).posts) := by
  unfold Forwarding.next
  split
  · exact forwarded
  · cases event with
    | app msg => exact forwarded
    | ready => exact forwarded
    | rtpTurn answer =>
      simp only [payloads_append]
      apply forwarded.append
      -- Only what pends is accepted, and a source that runs forwards all of that.
      cases running : self.source.mustWait with
      | true => simp [fresh, running]
      | false =>
        rw [payloads_rtpTurn serving.unicast running, fresh_running running, waiting]
        split
        · exact List.nil_sublist _
        · exact List.Sublist.refl _

/-- In every run the pieces given are those accepted and one that may wait, and no accepted piece is lost on the way to
the controller. -/
theorem given_accepted_forwarded (mustWait : Bool) (events : List AppEvent) :
    (Runs.run next (start mustWait true true) events).Complete ∧
      (Runs.run next (start mustWait true true) events).accepted.Sublist
        (payloads (Runs.run next (start mustWait true true) events).posts) := by
  -- Induction over the run, with what the flags say carried along.
  have step : ∀ (state : Forwarding) (event : AppEvent),
      (state.Serving ∧ state.Complete ∧ state.accepted.Sublist (payloads state.posts)) →
        (state.next event).Serving ∧ (state.next event).Complete ∧
          (state.next event).accepted.Sublist (payloads (state.next event).posts) := by
    intro state event held
    obtain ⟨serving, complete, forwarded⟩ := held
    exact ⟨serving.next event, complete.next serving event, accepted_next serving forwarded event⟩
  have serving : (start mustWait true true).Serving := ⟨rfl, fun _ => rfl, fun left => nomatch left⟩
  exact (Runs.run_keeps step ⟨serving, rfl, List.Sublist.refl []⟩ events).2

end Accepted

end Forwarding

end Flexicast
