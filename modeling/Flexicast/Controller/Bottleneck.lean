import Flexicast.Controller.Steps

/-! The common congestion window of a flow, and when it is the one of its slowest receiver. -/

namespace Flexicast

section Windows

/-- Some client of a flow reported a window. -/
def Reported (active : Finset Nat) (report : Nat → Option Nat) : Prop := ∃ client ∈ active, report client ≠ none

/-- A client of a flow whose last window is not above that of any other. -/
def IsBottleneck (active : Finset Nat) (report : Nat → Option Nat) (id cwnd : Nat) : Prop :=
  id ∈ active ∧ report id = some cwnd ∧ ∀ client ∈ active, ∀ other ∈ report client, cwnd ≤ other

/-- The window sent last and the one held are those of the slowest client, once there is a report. -/
def Tracks (active : Finset Nat) (report : Nat → Option Nat) (last : Option (Nat × Nat)) (sent : Option Nat) : Prop :=
  Reported active report → ∃ entry ∈ last, sent = some entry.2 ∧ IsBottleneck active report entry.1 entry.2

/-- A client that enters a flow may be followed: none of its reports is below what is held. -/
def Enters (active : Finset Nat) (report : Nat → Option Nat) (last : Option (Nat × Nat)) (sent : Option Nat)
    (client : Nat) : Prop :=
  client ∈ active ∨ ∀ cwnd ∈ report client, ∃ entry ∈ last, entry.2 ≤ cwnd ∧
    (Reported active report ∨ entry = (client, cwnd) ∧ sent = some cwnd)

/-- A client that leaves a flow for another one is not the slowest of several. -/
def Leaves (active : Finset Nat) (report : Nat → Option Nat) (last : Option (Nat × Nat)) (client : Nat) : Prop :=
  Reported (active.erase client) report → ∀ entry ∈ last, entry.1 ≠ client

/-- When the slowest client gets faster, every lowest window on record is the lowest reported one. -/
def Reelects (active : Finset Nat) (report : Nat → Option Nat) (last : Option (Nat × Nat)) (held : OrdMap Nat)
    (client cwnd : Nat) : Prop :=
  client ∈ active → ∀ entry ∈ last, entry.2 ≤ cwnd →
    (entry.1 = client →
      ∀ lowest ∈ (held.insert client cwnd).entries, HashOrder.Lowest (held.insert client cwnd) lowest →
        IsBottleneck active (Function.update report client (some cwnd)) lowest.1 lowest.2) ∧
    (entry.1 ≠ client → Reported active report)

/-- When the slowest client falls back, the next one has the same window, and is a client of the flow. -/
def FallsBack (active : Finset Nat) (report : Nat → Option Nat) (last : Option (Nat × Nat)) (held : OrdMap Nat)
    (client : Nat) : Prop :=
  ∀ entry ∈ last, entry.1 = client → Reported (active.erase client) report →
    (held.erase client).entries ≠ [] ∧
      ∀ lowest ∈ (held.erase client).entries, HashOrder.Lowest (held.erase client) lowest →
        lowest.2 = entry.2 ∧ IsBottleneck (active.erase client) report lowest.1 lowest.2

variable {active : Finset Nat} {report : Nat → Option Nat} {last : Option (Nat × Nat)} {sent : Option Nat}

instance : Decidable (Reported active report) := inferInstanceAs (Decidable (∃ _ ∈ active, _))

instance (id cwnd : Nat) : Decidable (IsBottleneck active report id cwnd) :=
  inferInstanceAs (Decidable (_ ∧ _ ∧ ∀ _ ∈ active, ∀ _ ∈ _, _))

instance : Decidable (Tracks active report last sent) :=
  inferInstanceAs (Decidable (_ → ∃ _ ∈ last, _))

instance (client : Nat) : Decidable (Enters active report last sent client) :=
  inferInstanceAs (Decidable (_ ∨ ∀ _ ∈ _, ∃ _ ∈ last, _))

instance (client : Nat) : Decidable (Leaves active report last client) :=
  inferInstanceAs (Decidable (_ → ∀ _ ∈ last, _))

instance (held : OrdMap Nat) (client cwnd : Nat) : Decidable (Reelects active report last held client cwnd) :=
  inferInstanceAs (Decidable (_ → ∀ _ ∈ last, _ → (_ → ∀ _ ∈ _, _ → _) ∧ (_ → _)))

instance (held : OrdMap Nat) (client : Nat) : Decidable (FallsBack active report last held client) :=
  inferInstanceAs (Decidable (∀ _ ∈ last, _ → _ → _ ∧ ∀ _ ∈ _, _ → _ ∧ _))

variable {client cwnd : Nat} {entry : Nat × Nat}

/-- A client enters. -/
theorem Tracks.enter (tracks : Tracks active report last sent) (enters : Enters active report last sent client) :
    Tracks (insert client active) report last sent := by
  by_cases inside : client ∈ active
  · rw [Finset.insert_eq_of_mem inside]
    exact tracks
  have quiet := enters.resolve_left inside
  intro reported
  by_cases before : Reported active report
  · -- The slowest client stays the slowest one.
    obtain ⟨entry, held, told, member, reports, lowest⟩ := tracks before
    refine ⟨entry, held, told, Finset.mem_insert_of_mem member, reports, ?_⟩
    intro other among cwnd heard
    rcases Finset.mem_insert.mp among with same | among
    · subst same
      obtain ⟨entry', held', below, -⟩ := quiet cwnd heard
      cases Option.mem_unique held held'
      exact below
    · exact lowest other among cwnd heard
  · -- The client that enters is the only one with a report, and the one that is held.
    obtain ⟨other, among, heard⟩ := reported
    rcases Finset.mem_insert.mp among with same | among
    · subst same
      obtain ⟨cwnd, reports⟩ := Option.ne_none_iff_exists'.mp heard
      obtain ⟨entry, held, -, either⟩ := quiet cwnd reports
      obtain ⟨same, told⟩ := either.resolve_left before
      subst same
      refine ⟨_, held, told, Finset.mem_insert_self _ _, reports, ?_⟩
      intro other' among' cwnd' heard'
      rcases Finset.mem_insert.mp among' with same | among'
      · subst same
        exact le_of_eq (Option.mem_unique reports heard')
      · exact absurd ⟨other', among', fun missing => by simp [missing] at heard'⟩ before
    · exact absurd ⟨other, among, heard⟩ before

/-- A client leaves that is not the slowest of several. -/
theorem Tracks.leave (tracks : Tracks active report last sent) (leaves : Leaves active report last client) :
    Tracks (active.erase client) report last sent := by
  intro reported
  have ⟨other, among, heard⟩ := reported
  obtain ⟨entry, held, told, member, reports, lowest⟩ := tracks ⟨other, Finset.mem_of_mem_erase among, heard⟩
  exact ⟨entry, held, told, Finset.mem_erase.mpr ⟨leaves reported entry held, member⟩, reports,
    fun other among => lowest other (Finset.mem_of_mem_erase among)⟩

/-- A client falls back: another one is elected, when it was the slowest. -/
theorem Tracks.fallBack {client : Nat} {held : OrdMap Nat} {entry : Nat × Nat} (order : HashOrder)
    (sent : Option Nat) (falls : FallsBack active report last held client) (slowest : entry ∈ last)
    (own : entry.1 = client) :
    match HashOrder.minBy (order.visitMap (held.erase client)) with
    | none => Tracks (active.erase client) report last sent
    | some elected => Tracks (active.erase client) report (some elected) (some entry.2) := by
  cases elected : HashOrder.minBy (order.visitMap (held.erase client)) with
  | none =>
    -- With a report left, there would be a window to elect.
    intro reported
    obtain ⟨some_, -⟩ := falls entry slowest own reported
    obtain ⟨first, rest, shape⟩ := List.exists_cons_of_ne_nil some_
    obtain ⟨other, elected'⟩ := HashOrder.minBy_some order (shape ▸ List.mem_cons_self : first ∈ _)
    rw [elected] at elected'
    cases elected'
  | some next =>
    intro reported
    obtain ⟨-, all⟩ := falls entry slowest own reported
    have lowest := HashOrder.minBy_lowest elected
    obtain ⟨equal, bottleneck⟩ := all next lowest.1 lowest
    exact ⟨next, rfl, by rw [equal], bottleneck⟩

theorem Tracks.fallBack_other (tracks : Tracks active report last sent) (other : ∀ entry ∈ last, entry.1 ≠ client) :
    Tracks (active.erase client) report last sent :=
  tracks.leave fun _ => other

/-- What a client outside the flow reports does not matter. -/
theorem Tracks.report_outside (tracks : Tracks active report last sent) (outside : client ∉ active)
    (heard : Option Nat) : Tracks active (Function.update report client heard) last sent := by
  -- On the clients of the flow, the reports are the same.
  have same : ∀ other ∈ active, Function.update report client heard other = report other := by
    intro other among
    apply Function.update_of_ne
    intro equal
    exact outside (equal ▸ among)
  rintro ⟨other, among, reported⟩
  obtain ⟨entry, held, told, member, reports, lowest⟩ := tracks ⟨other, among, same other among ▸ reported⟩
  refine ⟨entry, held, told, member, (same _ member).trans reports, ?_⟩
  intro other among cwnd heard
  rw [same other among] at heard
  exact lowest other among cwnd heard

theorem Tracks.report_above (tracks : Tracks active report last sent) (held : entry ∈ last) (above : entry.2 ≤ cwnd)
    (other : entry.1 ≠ client) (before : Reported active report) :
    Tracks active (Function.update report client (some cwnd)) last sent := by
  obtain ⟨entry', held', told, member, reports, lowest⟩ := tracks before
  cases Option.mem_unique held held'
  refine fun _ => ⟨entry, held, told, member, by rw [Function.update_of_ne other]; exact reports, ?_⟩
  intro probe among window heard
  by_cases same : probe = client
  · subst same
    rw [Function.update_self] at heard
    cases heard
    exact above
  · rw [Function.update_of_ne same] at heard
    exact lowest probe among window heard

theorem Tracks.report_below (tracks : Tracks active report last sent) (inside : client ∈ active)
    (below : ∀ entry ∈ last, cwnd < entry.2) :
    Tracks active (Function.update report client (some cwnd)) (some (client, cwnd)) (some cwnd) := by
  refine fun _ => ⟨(client, cwnd), rfl, rfl, inside, Function.update_self .., ?_⟩
  intro probe among window heard
  by_cases same : probe = client
  · subst same
    rw [Function.update_self] at heard
    cases heard
    exact le_refl _
  · -- Any other report is one that the slowest client was below before.
    rw [Function.update_of_ne same] at heard
    obtain ⟨entry, held, -, -, -, lowest⟩ := tracks ⟨probe, among, fun missing => by simp [missing] at heard⟩
    exact (below entry held).le.trans (lowest probe among window heard)

end Windows

section Histories

/-- The window that a client reported last for a flow. -/
def lastReport (history : List MsgFcCtl) (fcId clientId : Nat) : Option Nat :=
  history.foldl (fun last msg =>
    match msg with
    | .cwnd recvId flow cwnd => if recvId = clientId ∧ flow = fcId then some cwnd else last
    | _ => last) none

/-- The window that was sent last to a source. -/
def lastNewCwnd (posts : List Post) (fcId : Nat) : Option Nat :=
  posts.foldl (fun last post => (post.window fcId).or last) none

theorem lastNewCwnd_quiet {posts more : List Post} {fcId : Nat}
    (quiet : ∀ post ∈ more, post.window fcId = none) :
    lastNewCwnd (posts ++ more) fcId = lastNewCwnd posts fcId := by
  unfold lastNewCwnd
  rw [List.foldl_append]
  -- Induction on the new messages, none of which counts.
  induction more with
  | nil => rfl
  | cons post rest ih =>
    rw [List.foldl_cons, quiet post List.mem_cons_self, Option.none_or]
    exact ih fun post member => quiet post (List.mem_cons_of_mem _ member)

theorem lastNewCwnd_window {posts : List Post} (more : List Post) {fcId cwnd : Nat} :
    lastNewCwnd (posts ++ (more ++ [.source fcId (.newCwnd cwnd)])) fcId = some cwnd := by
  simp [lastNewCwnd, List.foldl_append]

theorem lastReport_other {history : List MsgFcCtl} {msg : MsgFcCtl}
    (other : ∀ recvId fcId cwnd, msg ≠ .cwnd recvId fcId cwnd) (fcId : Nat) :
    lastReport (history ++ [msg]) fcId = lastReport history fcId := by
  funext clientId
  unfold lastReport
  rw [List.foldl_append, List.foldl_cons, List.foldl_nil]
  split
  · exact absurd rfl (other _ _ _)
  · rfl

theorem lastReport_others {history msgs : List MsgFcCtl}
    (others : ∀ msg ∈ msgs, ∀ recvId fcId cwnd, msg ≠ .cwnd recvId fcId cwnd) (fcId : Nat) :
    lastReport (history ++ msgs) fcId = lastReport history fcId := by
  induction msgs generalizing history with
  | nil => rw [List.append_nil]
  | cons msg rest ih =>
    rw [List.append_cons, ih fun msg member => others msg (List.mem_cons_of_mem _ member),
      lastReport_other (others msg List.mem_cons_self)]

/-- A report replaces the one of its client before. -/
theorem lastReport_cwnd (history : List MsgFcCtl) (recvId fcId cwnd flow : Nat) :
    lastReport (history ++ [.cwnd recvId fcId cwnd]) flow =
      if flow = fcId then Function.update (lastReport history fcId) recvId (some cwnd)
      else lastReport history flow := by
  funext clientId
  have last : lastReport (history ++ [.cwnd recvId fcId cwnd]) flow clientId =
      if recvId = clientId ∧ fcId = flow then some cwnd else lastReport history flow clientId := by
    rw [lastReport, List.foldl_append]
    rfl
  rw [last]
  by_cases here : flow = fcId
  · subst here
    by_cases same : clientId = recvId
    · subst same
      simp
    · simp [Function.update_of_ne same, Ne.symm same]
  · simp [here, Ne.symm here]

end Histories

namespace FcController

variable {ctl after : FcController} {order : HashOrder} {fcId : Nat} {posts : List Post}

/-- What a report of a window can do. -/
theorem recvWindow_cases {recvId cwnd : Nat} (handled : ctl.recvWindow order recvId fcId cwnd = some (after, posts)) :
    after.activeClients = ctl.activeClients ∧
      ((recvId ∉ ctl.activeClients fcId ∧ after.lastCwnd = ctl.lastCwnd ∧ posts = []) ∨
        (recvId ∈ ctl.activeClients fcId ∧ ∃ entry ∈ ctl.lastCwnd fcId, entry.2 ≤ cwnd ∧ entry.1 ≠ recvId ∧
          after.lastCwnd = ctl.lastCwnd ∧ posts = []) ∨
        (recvId ∈ ctl.activeClients fcId ∧ ∃ minimum,
          after.lastCwnd = Function.update ctl.lastCwnd fcId (some minimum) ∧
          posts = [.source fcId (.newCwnd minimum.2)] ∧
          ((minimum = (recvId, cwnd) ∧ ∀ entry ∈ ctl.lastCwnd fcId, cwnd < entry.2) ∨
            ∃ entry ∈ ctl.lastCwnd fcId, entry.2 ≤ cwnd ∧ entry.1 = recvId ∧
              HashOrder.Lowest ((ctl.recvCwnd fcId).insert recvId cwnd) minimum))) := by
  unfold recvWindow at handled
  by_cases inside : recvId ∈ ctl.activeClients fcId
  · rw [if_pos inside] at handled
    simp only [newMinimum, Function.update_self] at handled
    cases last : ctl.lastCwnd fcId with
    | none =>
      -- There was no minimum.
      simp only [last] at handled
      obtain ⟨rfl, rfl⟩ := sendSource_eq handled
      have under : ∀ entry ∈ (none : Option (Nat × Nat)), cwnd < entry.2 := by
        intro entry held
        cases held
      exact ⟨rfl, Or.inr (Or.inr ⟨inside, _, rfl, rfl, Or.inl ⟨rfl, under⟩⟩)⟩
    | some entry =>
      simp only [last] at handled
      by_cases below : cwnd < entry.2
      · -- This is an absolute new minimum.
        rw [if_pos below] at handled
        obtain ⟨rfl, rfl⟩ := sendSource_eq handled
        have under : ∀ other ∈ some entry, cwnd < other.2 := by
          intro other held
          cases held
          exact below
        exact ⟨rfl, Or.inr (Or.inr ⟨inside, _, rfl, rfl, Or.inl ⟨rfl, under⟩⟩)⟩
      · rw [if_neg below] at handled
        by_cases own : recvId = entry.1
        · -- The map holds the new window, so that something is elected.
          rw [if_pos own] at handled
          have stored : ((ctl.recvCwnd fcId).insert recvId cwnd).find? recvId = some cwnd := by simp
          obtain ⟨elected, found⟩ := HashOrder.minBy_some order (OrdMap.find?_eq_some_iff.mp stored)
          simp only [found] at handled
          obtain ⟨rfl, rfl⟩ := sendSource_eq handled
          exact ⟨rfl, Or.inr (Or.inr ⟨inside, _, rfl, rfl,
            Or.inr ⟨entry, rfl, not_lt.mp below, own.symm, HashOrder.minBy_lowest found⟩⟩)⟩
        · rw [if_neg own] at handled
          cases handled
          exact ⟨rfl, Or.inr (Or.inl ⟨inside, entry, rfl, not_lt.mp below, Ne.symm own, rfl, rfl⟩)⟩
  · rw [if_neg inside] at handled
    cases handled
    exact ⟨rfl, Or.inl ⟨inside, rfl, rfl⟩⟩

/-- What falling back can do. -/
theorem recvUcFallBack_cases {id : Nat} (handled : ctl.recvUcFallBack order id fcId = some (after, posts)) :
    after.activeClients = Function.update ctl.activeClients fcId ((ctl.activeClients fcId).erase id) ∧
      (((∀ entry ∈ ctl.lastCwnd fcId, entry.1 ≠ id) ∧ after.lastCwnd = ctl.lastCwnd ∧
          posts = [.source fcId .askStreamPieces]) ∨
        (∃ entry, ctl.lastCwnd fcId = some entry ∧ entry.1 = id ∧
          HashOrder.minBy (order.visitMap ((ctl.recvCwnd fcId).erase id)) = none ∧
          after.lastCwnd = ctl.lastCwnd ∧ posts = [.source fcId .askStreamPieces]) ∨
        ∃ entry, ctl.lastCwnd fcId = some entry ∧ entry.1 = id ∧ ∃ elected,
          HashOrder.minBy (order.visitMap ((ctl.recvCwnd fcId).erase id)) = some elected ∧
          after.lastCwnd = Function.update ctl.lastCwnd fcId (some elected) ∧
          posts = [.source fcId .askStreamPieces, .source fcId (.newCwnd entry.2)]) := by
  obtain ⟨mcAck, removed, handled⟩ := Option.bind_eq_some_iff.mp handled
  simp only [electCwnd, takeOut, Function.update_self] at handled
  cases last : ctl.lastCwnd fcId with
  | none =>
    simp only [last] at handled
    obtain ⟨rfl, rfl⟩ := sendSource_eq handled
    have other : ∀ entry ∈ (none : Option (Nat × Nat)), entry.1 ≠ id := by
      intro entry held
      cases held
    exact ⟨rfl, Or.inl ⟨other, rfl, rfl⟩⟩
  | some entry =>
    simp only [last] at handled
    by_cases own : entry.1 = id
    · rw [if_pos own] at handled
      cases found : HashOrder.minBy (order.visitMap ((ctl.recvCwnd fcId).erase id)) with
      | none =>
        simp only [found] at handled
        obtain ⟨rfl, rfl⟩ := sendSource_eq handled
        exact ⟨rfl, Or.inr (Or.inl ⟨entry, rfl, own, rfl, rfl, rfl⟩)⟩
      | some elected =>
        simp only [found] at handled
        obtain ⟨rfl, rfl⟩ := sendSource_eq handled
        exact ⟨rfl, Or.inr (Or.inr ⟨entry, rfl, own, elected, rfl, rfl, rfl⟩)⟩
    · rw [if_neg own] at handled
      obtain ⟨rfl, rfl⟩ := sendSource_eq handled
      have other : ∀ held ∈ some entry, held.1 ≠ id := by
        intro held among
        cases among
        exact own
      exact ⟨rfl, Or.inl ⟨other, rfl, rfl⟩⟩

end FcController

namespace ControllerRun

/-- The window that a client reported last for a flow. -/
def report (run : ControllerRun) (fcId : Nat) : Nat → Option Nat := lastReport run.history fcId

/-- A source was told the window of the slowest client of its flow, and the controller holds it. -/
def Paced (run : ControllerRun) (fcId : Nat) : Prop :=
  Tracks (run.ctl.activeClients fcId) (run.report fcId) (run.ctl.lastCwnd fcId) (lastNewCwnd run.posts fcId)

/-- What must hold before a step for the slowest client to be followed. -/
def KeepsPace (run : ControllerRun) : CtlEvent → Prop
  | .message _ (.join clientId fcId) =>
    Enters (run.ctl.activeClients fcId) (run.report fcId) (run.ctl.lastCwnd fcId) (lastNewCwnd run.posts fcId)
      clientId
  | .message _ (.change clientId oldFcId newFcId) =>
    (oldFcId ≠ newFcId →
      Leaves (run.ctl.activeClients oldFcId) (run.report oldFcId) (run.ctl.lastCwnd oldFcId) clientId) ∧
    Enters (run.ctl.activeClients newFcId) (run.report newFcId) (run.ctl.lastCwnd newFcId)
      (lastNewCwnd run.posts newFcId) clientId
  | .message _ (.cwnd recvId fcId cwnd) =>
    Reelects (run.ctl.activeClients fcId) (run.report fcId) (run.ctl.lastCwnd fcId) (run.ctl.recvCwnd fcId)
      recvId cwnd
  | .message _ (.recvUcFallBack id fcId) =>
    FallsBack (run.ctl.activeClients fcId) (run.report fcId) (run.ctl.lastCwnd fcId) (run.ctl.recvCwnd fcId) id
  | _ => True

instance (run : ControllerRun) (fcId : Nat) : Decidable (run.Paced fcId) :=
  inferInstanceAs (Decidable (Tracks _ _ _ _))

variable {run : ControllerRun} {after : FcController} {posts : List Post} {fcId : Nat}

theorem Paced.aside {msgs : List MsgFcCtl} (paced : run.Paced fcId) (aside : FcController.Aside run.ctl after posts)
    (same : lastReport (run.history ++ msgs) fcId = lastReport run.history fcId) :
    Paced ⟨after, run.history ++ msgs, run.posts ++ posts⟩ fcId := by
  unfold Paced report
  dsimp only
  rw [aside.active, aside.lastCwnd, same, lastNewCwnd_quiet fun post member => aside.quiet post member fcId]
  exact paced

/-- A client joins a flow. -/
theorem Paced.join {clientId : Nat} (paced : ∀ flow, run.Paced flow)
    (enters : Enters (run.ctl.activeClients fcId) (run.report fcId) (run.ctl.lastCwnd fcId)
      (lastNewCwnd run.posts fcId) clientId) (flow : Nat) :
    Tracks ((run.ctl.join clientId fcId).activeClients flow) (run.report flow)
      ((run.ctl.join clientId fcId).lastCwnd flow) (lastNewCwnd run.posts flow) := by
  -- Only the flow that is joined has another member.
  by_cases here : flow = fcId
  · subst here
    simp only [FcController.join, Function.update_self]
    exact (paced flow).enter enters
  · simp only [FcController.join, Function.update_of_ne here]
    exact paced flow

/-- A client changes its flow. -/
theorem Paced.change {clientId oldFcId newFcId : Nat} (paced : ∀ flow, run.Paced flow) (leaves : oldFcId ≠ newFcId →
      Leaves (run.ctl.activeClients oldFcId) (run.report oldFcId) (run.ctl.lastCwnd oldFcId) clientId)
    (enters : Enters (run.ctl.activeClients newFcId) (run.report newFcId) (run.ctl.lastCwnd newFcId)
      (lastNewCwnd run.posts newFcId) clientId) (flow : Nat) :
    Tracks ((run.ctl.change clientId oldFcId newFcId).activeClients flow) (run.report flow)
      ((run.ctl.change clientId oldFcId newFcId).lastCwnd flow) (lastNewCwnd run.posts flow) := by
  simp only [FcController.change]
  by_cases here : flow = newFcId
  · subst here
    rw [Function.update_self]
    have entered := (paced flow).enter enters
    by_cases same : flow = oldFcId
    · -- The client leaves the flow and enters it again.
      subst same
      have back : insert clientId ((run.ctl.activeClients flow).erase clientId) =
          insert clientId (run.ctl.activeClients flow) := by
        ext other
        simp only [Finset.mem_insert, Finset.mem_erase]
        tauto
      rw [Function.update_self, back]
      exact entered
    · rw [Function.update_of_ne same]
      exact entered
  · rw [Function.update_of_ne here]
    by_cases left : flow = oldFcId
    · subst left
      rw [Function.update_self]
      exact (paced flow).leave (leaves here)
    · rw [Function.update_of_ne left]
      exact paced flow

/-- A client reports a window. -/
theorem Paced.cwnd {order : HashOrder} {recvId cwnd : Nat} (paced : ∀ flow, run.Paced flow)
    (reelects : Reelects (run.ctl.activeClients fcId) (run.report fcId) (run.ctl.lastCwnd fcId)
      (run.ctl.recvCwnd fcId) recvId cwnd) (handled : run.ctl.recvWindow order recvId fcId cwnd = some (after, posts))
    (flow : Nat) : Paced ⟨after, run.history ++ [.cwnd recvId fcId cwnd], run.posts ++ posts⟩ flow := by
  obtain ⟨members, outcome⟩ := FcController.recvWindow_cases handled
  unfold Paced report
  dsimp only
  rw [lastReport_cwnd, members]
  by_cases here : flow = fcId
  · subst here
    have last : ∀ window, lastNewCwnd (run.posts ++ [.source flow (.newCwnd window)]) flow = some window :=
      fun window => lastNewCwnd_window []
    rw [if_pos rfl]
    rcases outcome with ⟨outside, same, rfl⟩ | ⟨inside, entry, held, above, other, same, rfl⟩ |
      ⟨inside, minimum, elected, rfl, ⟨rfl, below⟩ | ⟨entry, held, above, own, lowest⟩⟩
    · rw [same, List.append_nil]
      exact (paced flow).report_outside outside _
    · rw [same, List.append_nil]
      exact (paced flow).report_above held above other ((reelects inside entry held above).2 other)
    · rw [elected, Function.update_self, last]
      exact (paced flow).report_below inside below
    · -- The slowest client has another window.
      rw [elected, Function.update_self, last]
      exact fun _ => ⟨minimum, rfl, rfl, (reelects inside entry held above).1 own minimum lowest.1 lowest⟩
  · -- The other flows have the same clients, reports and windows.
    rw [if_neg here]
    rcases outcome with ⟨-, same, rfl⟩ | ⟨-, _, -, -, -, same, rfl⟩ | ⟨-, minimum, elected, rfl, -⟩
    · rw [same, List.append_nil]
      exact paced flow
    · rw [same, List.append_nil]
      exact paced flow
    · rw [elected, Function.update_of_ne here, lastNewCwnd_quiet]
      · exact paced flow
      · intro post member
        rw [List.mem_singleton.mp member]
        exact Post.window_other here _

/-- A client falls back. -/
theorem Paced.fallBack {order : HashOrder} {id : Nat} (paced : ∀ flow, run.Paced flow)
    (falls : FallsBack (run.ctl.activeClients fcId) (run.report fcId) (run.ctl.lastCwnd fcId)
      (run.ctl.recvCwnd fcId) id) (handled : run.ctl.recvUcFallBack order id fcId = some (after, posts)) (flow : Nat) :
    Tracks (after.activeClients flow) (run.report flow) (after.lastCwnd flow)
      (lastNewCwnd (run.posts ++ posts) flow) := by
  obtain ⟨members, outcome⟩ := FcController.recvUcFallBack_cases handled
  rw [members]
  by_cases here : flow = fcId
  · subst here
    rw [Function.update_self]
    rcases outcome with ⟨other, same, rfl⟩ | ⟨entry, held, own, empty, same, rfl⟩ |
      ⟨entry, held, own, elected, found, same, rfl⟩
    · rw [same, lastNewCwnd_quiet fun post member => by rw [List.mem_singleton.mp member]; rfl]
      exact (paced flow).fallBack_other other
    · rw [same, lastNewCwnd_quiet fun post member => by rw [List.mem_singleton.mp member]; rfl]
      have left := Tracks.fallBack order (lastNewCwnd run.posts flow) falls held own
      rw [empty] at left
      exact held ▸ left
    · have last : lastNewCwnd (run.posts ++ [.source flow .askStreamPieces, .source flow (.newCwnd entry.2)]) flow =
          some entry.2 := lastNewCwnd_window [.source flow .askStreamPieces]
      have left := Tracks.fallBack order none falls held own
      rw [found] at left
      rw [same, Function.update_self, last]
      exact left
  · -- The other flows have the same clients and windows.
    rw [Function.update_of_ne here]
    have silent : ∀ cwnd, ∀ post ∈ [Post.source fcId .askStreamPieces, .source fcId (.newCwnd cwnd)],
        post.window flow = none := by
      intro cwnd post member
      simp only [List.mem_cons, List.not_mem_nil, or_false] at member
      rcases member with rfl | rfl
      · rfl
      · exact Post.window_other here _
    rcases outcome with ⟨-, same, rfl⟩ | ⟨_, -, -, -, same, rfl⟩ | ⟨entry, -, -, elected, -, same, rfl⟩
    · rw [same, lastNewCwnd_quiet fun post member =>
        silent 0 post (List.mem_cons.mpr (Or.inl (List.mem_singleton.mp member)))]
      exact paced flow
    · rw [same, lastNewCwnd_quiet fun post member =>
        silent 0 post (List.mem_cons.mpr (Or.inl (List.mem_singleton.mp member)))]
      exact paced flow
    · rw [same, Function.update_of_ne here, lastNewCwnd_quiet (silent entry.2)]
      exact paced flow

/-- Every step that meets its condition keeps the pace of every flow. -/
theorem next_paced {event : CtlEvent} (paced : ∀ fcId, run.Paced fcId) (keeps : run.KeepsPace event) (fcId : Nat) :
    (run.next event).Paced fcId := by
  rcases run.next_cases event with same | ⟨ctl, posts, aside, others, step⟩ |
    ⟨order, msg, ctl, posts, rfl, member, handled, step⟩
  · rw [same]
    exact paced fcId
  · rw [step]
    apply (paced fcId).aside aside
    apply lastReport_others
    intro msg among recvId flow cwnd same
    have other := others msg among
    subst same
    cases other
  · rw [step]
    -- Five messages change members or windows; of them, only a window is a report.
    cases msg with
    | newClient id =>
      cases handled
      unfold Paced report
      rw [List.append_nil, lastReport_other (by simp)]
      exact paced fcId
    | join clientId flow =>
      cases handled
      unfold Paced report
      rw [List.append_nil, lastReport_other (by simp)]
      exact Paced.join paced keeps fcId
    | change clientId oldFcId newFcId =>
      cases handled
      unfold Paced report
      rw [List.append_nil, lastReport_other (by simp)]
      exact Paced.change paced keeps.1 keeps.2 fcId
    | recvUcFallBack id flow =>
      unfold Paced report
      rw [lastReport_other (by simp)]
      exact Paced.fallBack paced keeps handled fcId
    | cwnd recvId flow cwnd => exact Paced.cwnd paced keeps handled fcId
    | closeRtp id => cases member
    | newHighestPn flow highestPn lowestPn => cases member
    | ackData recvId flow ackPn pieces => cases member
    | sent flow packets => cases member
    | delegateStreams flow pieces early => cases member
    | recvReady id => cases member
    | rtpData data streamId => cases member

theorem start_paced (flows txFcSources : Nat) (wait ackDelay : Option Nat) (fcId : Nat) :
    (start flows txFcSources wait ackDelay).Paced fcId := by
  rintro ⟨client, member, -⟩
  simp [start, FcController.new] at member

instance (run : ControllerRun) : (event : CtlEvent) → Decidable (run.KeepsPace event)
  | .message _ (.join _ _) => inferInstanceAs (Decidable (Enters _ _ _ _ _))
  | .message _ (.change _ _ _) => inferInstanceAs (Decidable ((_ → Leaves _ _ _ _) ∧ Enters _ _ _ _ _))
  | .message _ (.cwnd _ _ _) => inferInstanceAs (Decidable (Reelects _ _ _ _ _ _))
  | .message _ (.recvUcFallBack _ _) => inferInstanceAs (Decidable (FallsBack _ _ _ _ _))
  | .message _ (.closeRtp _) => isTrue trivial
  | .message _ (.newClient _) => isTrue trivial
  | .message _ (.newHighestPn _ _ _) => isTrue trivial
  | .message _ (.ackData _ _ _ _) => isTrue trivial
  | .message _ (.sent _ _) => isTrue trivial
  | .message _ (.delegateStreams _ _ _) => isTrue trivial
  | .message _ (.recvReady _) => isTrue trivial
  | .message _ (.rtpData _ _) => isTrue trivial
  | .sendAck => isTrue trivial

/-- In a run whose steps all meet their condition, every source is told the window of its slowest client. -/
theorem told_slowest {flows txFcSources : Nat} {wait ackDelay : Option Nat} {events : List CtlEvent}
    (keeps : Runs.Along next KeepsPace (start flows txFcSources wait ackDelay) events) (fcId : Nat) :
    (Runs.run next (start flows txFcSources wait ackDelay) events).Paced fcId := by
  have step : ∀ (run : ControllerRun) event, (∀ fcId, run.Paced fcId) → run.KeepsPace event →
      ∀ fcId, (run.next event).Paced fcId :=
    fun _ _ => next_paced
  exact Runs.Along.keeps step (start_paced flows txFcSources wait ackDelay) keeps fcId

/-- Two clients join a flow and report windows, and the slower one reports twice. -/
def twoClients : List CtlEvent :=
  [.message .ascending (.newClient 0), .message .ascending (.newClient 1), .message .ascending (.join 0 0),
    .message .ascending (.join 1 0), .message .ascending (.cwnd 0 0 10), .message .ascending (.cwnd 1 0 20),
    .message .ascending (.cwnd 0 0 15)]

/-- The source follows the slower of two clients. -/
theorem told_slowest_two : (Runs.run next (start 1 1 none none) twoClients).Paced 0 :=
  told_slowest (by decide) 0

/-- When the slower client falls back, the source is told its window again. -/
theorem fallBack_tells_former :
    ¬ (Runs.run next (start 1 1 none none)
      (twoClients ++ [.message .ascending (.recvUcFallBack 0 0)])).Paced 0 := by
  decide

end ControllerRun

end Flexicast
