import Flexicast.Recovery.Accounting

/-! The loss detection timer, of `recovery/mod.rs`. -/

namespace Flexicast

namespace Loss

section Choosing

/-- A time that an epoch may have, with the epoch. -/
abbrev Candidate := Option Int × Epoch

/-- Every candidate without a time has one behind it that is not later than the given time. -/
def Recovers (time : Int) : List Candidate → Prop
  | [] => True
  | candidate :: rest =>
    (candidate.1 = none → ∃ later ∈ rest, ∃ other, later.1 = some other ∧ other ≤ time) ∧ Recovers time rest

/-- No time is lost to a candidate without one: a time that is not later comes behind it. -/
def Recovered : List Candidate → Prop
  | [] => True
  | candidate :: rest => (∀ time, candidate.1 = some time → Recovers time rest) ∧ Recovered rest

/-- A choice is the earliest of the times there are, with its candidate, and nothing only if there are none. -/
structure Earliest (candidates : List Candidate) (chosen : Candidate) : Prop where
  earliest : ∀ time, chosen.1 = some time →
    chosen ∈ candidates ∧ ∀ candidate ∈ candidates, ∀ other, candidate.1 = some other → time ≤ other
  missing : chosen.1 = none → ∀ candidate ∈ candidates, candidate.1 = none

theorem earlier_cases (held new : Candidate) :
    (earlier held new = new ∧ (held.1 = none ∨ new.1 = none)) ∨
      ∃ time other, held.1 = some time ∧ new.1 = some other ∧
        ((earlier held new = new ∧ other < time) ∨ (earlier held new = held ∧ time ≤ other)) := by
  obtain ⟨heldTime, heldEpoch⟩ := held
  obtain ⟨newTime, newEpoch⟩ := new
  cases heldTime with
  | none => exact .inl ⟨by simp [earlier], .inl rfl⟩
  | some time =>
    cases newTime with
    -- No time counts as the earliest of all.
    | none => exact .inl ⟨by simp [earlier, instantLt], .inr rfl⟩
    | some other =>
      refine .inr ⟨time, other, rfl, rfl, ?_⟩
      by_cases before : other < time
      · exact .inl ⟨by simp [earlier, instantLt, before], before⟩
      · exact .inr ⟨by simp [earlier, instantLt, before], by omega⟩

/-- The loop chooses one of the candidates. -/
theorem foldl_earlier_mem (rest : List Candidate) (held : Candidate) :
    rest.foldl earlier held ∈ held :: rest := by
  induction rest generalizing held with
  | nil => simp
  | cons new rest ih =>
    have member := ih (earlier held new)
    have kept : earlier held new = held ∨ earlier held new = new := by
      rcases earlier_cases held new with ⟨same, -⟩ | ⟨_, _, -, -, ⟨same, -⟩ | ⟨same, -⟩⟩
      · exact .inr same
      · exact .inr same
      · exact .inl same
    simp only [List.foldl_cons, List.mem_cons] at member ⊢
    rcases member with same | member
    · rcases kept with kept | kept
      · exact .inl (same.trans kept)
      · exact .inr (.inl (same.trans kept))
    · exact .inr (.inr member)

variable {time : Int} {candidates : List Candidate} {chosen : Candidate}

variable {rest : List Candidate} {held candidate : Candidate}

/-- The chosen time comes behind every candidate without one. -/
theorem foldl_earlier_recovers (chosen : (rest.foldl earlier held).1 = some time) : Recovers time rest := by
  induction rest generalizing held with
  | nil => trivial
  | cons new rest ih =>
    refine ⟨fun timeless => ?_, ih chosen⟩
    -- The loop goes on with the candidate that has no time, so its choice is a later one.
    have replaced : earlier held new = new := by
      rcases earlier_cases held new with ⟨same, -⟩ | ⟨_, _, -, timed, -⟩
      · exact same
      · simp [timed] at timeless
    have member := foldl_earlier_mem rest (earlier held new)
    simp only [List.foldl_cons] at chosen
    rw [replaced] at member chosen
    rcases List.mem_cons.1 member with same | member
    · rw [same, timeless] at chosen
      exact absurd chosen (by simp)
    · exact ⟨_, member, time, chosen, by omega⟩

theorem Recovers.mono {later : Int} (recovers : Recovers time candidates) (ordered : time ≤ later) :
    Recovers later candidates := by
  induction candidates with
  | nil => trivial
  | cons candidate rest ih =>
    refine ⟨fun timeless => ?_, ih recovers.2⟩
    obtain ⟨other, member, earlier, timed, before⟩ := recovers.1 timeless
    exact ⟨other, member, earlier, timed, by omega⟩

theorem Recovers.recovered (recovers : Recovers time candidates)
    (least : ∀ candidate ∈ candidates, ∀ other, candidate.1 = some other → time ≤ other) : Recovered candidates := by
  induction candidates with
  | nil => trivial
  | cons candidate rest ih =>
    refine ⟨fun other timed => ?_, ih recovers.2 fun candidate member => least candidate (by simp [member])⟩
    exact recovers.2.mono (least candidate (by simp) other timed)

theorem recovered_of_timeless (timeless : ∀ candidate ∈ candidates, candidate.1 = none) : Recovered candidates := by
  induction candidates with
  | nil => trivial
  | cons candidate rest ih =>
    refine ⟨fun time timed => ?_, ih fun candidate member => timeless candidate (by simp [member])⟩
    rw [timeless candidate (by simp)] at timed
    exact absurd timed (by simp)

/-- A choice among the other candidates stays one when the first has no time or a later one. -/
theorem Earliest.cons (earliest : Earliest candidates chosen)
    (after : ∀ other, candidate.1 = some other → ∃ time, chosen.1 = some time ∧ time ≤ other) :
    Earliest (candidate :: candidates) chosen := by
  constructor
  · intro time timed
    refine ⟨by simp [(earliest.earliest time timed).1], fun another member other found => ?_⟩
    rcases List.mem_cons.1 member with rfl | member
    · obtain ⟨least, same, before⟩ := after other found
      rw [timed] at same
      cases same
      exact before
    · exact (earliest.earliest time timed).2 another member other found
  · intro timeless another member
    rcases List.mem_cons.1 member with rfl | member
    · cases found : another.1 with
      | none => rfl
      | some other =>
        obtain ⟨least, same, -⟩ := after other found
        rw [timeless] at same
        exact absurd same (by simp)
    · exact earliest.missing timeless another member

/-- A choice has a time once a candidate has one, and not a later one. -/
theorem Earliest.before {other : Int} (earliest : Earliest candidates chosen) (member : candidate ∈ candidates)
    (found : candidate.1 = some other) : ∃ time, chosen.1 = some time ∧ time ≤ other := by
  cases timed : chosen.1 with
  | none =>
    have timeless := earliest.missing timed candidate member
    rw [found] at timeless
    exact absurd timeless (by simp)
  | some time => exact ⟨time, rfl, (earliest.earliest time timed).2 candidate member other found⟩

theorem Earliest.congr {others : List Candidate} (earliest : Earliest candidates chosen)
    (same : ∀ candidate, candidate ∈ others ↔ candidate ∈ candidates) : Earliest others chosen :=
  ⟨fun time timed => ⟨(same _).2 (earliest.earliest time timed).1,
    fun candidate member => (earliest.earliest time timed).2 candidate ((same _).1 member)⟩,
    fun timeless candidate member => earliest.missing timeless candidate ((same _).1 member)⟩

/-- A loop that loses no time chooses the earliest. -/
theorem Recovered.earliest (recovered : Recovered (held :: rest)) :
    Earliest (held :: rest) (rest.foldl earlier held) := by
  induction rest generalizing held with
  | nil => exact ⟨fun time timed => ⟨by simp, by simp_all⟩, fun timeless => by simpa using timeless⟩
  | cons new rest ih =>
    simp only [List.foldl_cons]
    rcases earlier_cases held new with ⟨replaced, timeless⟩ | ⟨time, other, heldTimed, newTimed, choice⟩
    · rw [replaced]
      refine (ih recovered.2).cons fun lost timed => ?_
      -- The lost time has another behind it that is not later.
      have timeless : new.1 = none := timeless.resolve_left (by simp [timed])
      obtain ⟨later, member, other, found, before⟩ := (recovered.1 lost timed).1 timeless
      obtain ⟨least, chosen, least_le⟩ := (ih recovered.2).before (List.mem_cons_of_mem _ member) found
      exact ⟨least, chosen, by omega⟩
    · rcases choice with ⟨replaced, before⟩ | ⟨kept, before⟩
      · rw [replaced]
        refine (ih recovered.2).cons fun lost timed => ?_
        obtain ⟨least, chosen, least_le⟩ := (ih recovered.2).before (by simp) newTimed
        have same : time = lost := by simpa [heldTimed] using timed
        exact ⟨least, chosen, by omega⟩
      · rw [kept]
        have still : Recovered (held :: rest) :=
          ⟨fun lost timed => (recovered.1 lost timed).2, recovered.2.2⟩
        have earliest := ih still
        have inserted : Earliest (new :: held :: rest) (rest.foldl earlier held) := by
          refine earliest.cons fun lost timed => ?_
          obtain ⟨least, chosen, least_le⟩ := earliest.before (by simp) heldTimed
          have same : other = lost := by simpa [newTimed] using timed
          exact ⟨least, chosen, by omega⟩
        apply inserted.congr
        intro candidate
        simp only [List.mem_cons]
        exact or_left_comm

theorem earliest_iff_recovered (held : Candidate) (rest : List Candidate) :
    Earliest (held :: rest) (rest.foldl earlier held) ↔ Recovered (held :: rest) := by
  refine ⟨fun earliest => ?_, Recovered.earliest⟩
  cases chosen : (rest.foldl earlier held).1 with
  | none => exact recovered_of_timeless (earliest.missing chosen)
  | some time =>
    have least := (earliest.earliest time chosen).2
    have recovers := foldl_earlier_recovers chosen
    refine ⟨fun other timed => recovers.mono (least held (by simp) other timed), ?_⟩
    exact recovers.recovered fun candidate member => least candidate (by simp [member])

end Choosing

section Arming

/-- What the handshake has come to, with whether the peer has verified the address. -/
structure TimerStatus extends HandshakeStatus where
  peerVerifiedAddress : Bool

/-- The probe timeout that comes first; no result is an overflow of the backoff, which panics. -/
def Recovery.ptoTimeAndSpace? (state : Recovery) (status : HandshakeStatus) (timing : Timing) (now : Int) :
    Option Candidate :=
  -- The backoff is a power of two of 32 bits.
  if state.ptoCount < 32 then some (state.ptoTimeAndSpace status timing now) else none

/-- The timer after it is set anew; no result means that the program panics. -/
def Recovery.setLossDetectionTimer (state : Recovery) (lossTimer : Option Int) (status : TimerStatus)
    (timing : Timing) (now : Int) : Option (Option Int) :=
  match state.lossTimeAndSpace.1 with
  -- Time threshold loss detection.
  | some time => some (some time)
  | none =>
    if state.bytesInFlight = 0 && status.peerVerifiedAddress then some none
    else do
      let earliest ← state.ptoTimeAndSpace? status.toHandshakeStatus timing now
      match earliest.1 with
      | some timeout => return some timeout
      | none => return lossTimer

/-- The epochs in the order in which the loops visit them. -/
def allEpochs : List Epoch := [.initial, .handshake, .application]

/-- The loss times of the epochs. -/
def Recovery.lossCandidates (state : Recovery) : List Candidate :=
  allEpochs.map fun epoch => ((state.epochs epoch).lossTime, epoch)

/-- Whether an epoch is considered for a probe: application data only once the handshake is completed. -/
def Recovery.probeable (state : Recovery) (status : HandshakeStatus) (epoch : Epoch) : Bool :=
  (state.epochs epoch).inFlightCount ≠ 0 && (epoch ≠ .application || status.completed)

/-- How long an epoch waits for a probe. -/
def Recovery.probeDelay (state : Recovery) (timing : Timing) : Epoch → Int
  | .application => timing.pto * (2 ^ state.ptoCount : Nat) + timing.maxAckDelay * (2 ^ state.ptoCount : Nat)
  | _ => timing.pto * (2 ^ state.ptoCount : Nat)

/-- The probe times of the epochs that are considered. -/
def Recovery.probeCandidates (state : Recovery) (status : HandshakeStatus) (timing : Timing) : List Candidate :=
  (allEpochs.filter (state.probeable status)).map fun epoch =>
    ((state.epochs epoch).probeTime (state.probeDelay timing epoch), epoch)

theorem Recovery.lossTimeAndSpace_eq (state : Recovery) :
    state.lossTimeAndSpace = state.lossCandidates.tail.foldl earlier ((state.epochs .initial).lossTime, .initial) :=
  rfl

theorem Recovery.ptoTimeAndSpace_eq {state : Recovery} (status : HandshakeStatus) (timing : Timing) (now : Int)
    (flying : 0 < state.bytesInFlight) :
    state.ptoTimeAndSpace status timing now =
      (state.probeCandidates status timing).foldl earlier (none, .initial) := by
  have some_bytes : state.bytesInFlight ≠ 0 := by omega
  simp only [Recovery.ptoTimeAndSpace, some_bytes, if_false, Recovery.probeCandidates, allEpochs]
  by_cases first : (state.epochs .initial).inFlightCount = 0 <;>
    by_cases second : (state.epochs .handshake).inFlightCount = 0 <;>
      by_cases third : (state.epochs .application).inFlightCount = 0 <;>
        cases completed : status.completed <;>
          simp [Recovery.probeable, Recovery.probeDelay, first, second, third, completed]

/-- The loss detection timer serves the earliest time: of the losses, of the probes, and of the timer itself. -/
structure Recovery.Timely (state : Recovery) (lossTimer : Option Int) (status : TimerStatus) (timing : Timing)
    (now : Int) : Prop where
  loss : Earliest state.lossCandidates state.lossTimeAndSpace
  probe : 0 < state.bytesInFlight → ∃ earliest,
    state.ptoTimeAndSpace? status.toHandshakeStatus timing now = some earliest ∧
      Earliest (state.probeCandidates status.toHandshakeStatus timing) earliest
  timer : ∀ after, state.setLossDetectionTimer lossTimer status timing now = some after →
    ∀ epoch time, (state.epochs epoch).lossTime = some time → ∃ timeout, after = some timeout ∧ timeout ≤ time

theorem mem_lossCandidates (state : Recovery) (epoch : Epoch) :
    ((state.epochs epoch).lossTime, epoch) ∈ state.lossCandidates := by
  cases epoch <;> simp [Recovery.lossCandidates, allEpochs]

theorem earliest_iff_recovered_start (candidates : List Candidate) :
    Earliest candidates (candidates.foldl earlier (none, .initial)) ↔ Recovered candidates := by
  cases candidates with
  | nil => exact ⟨fun _ => trivial, fun _ => ⟨fun _ timed => by simp at timed, fun _ _ member => by simp at member⟩⟩
  | cons first rest =>
    have replaced : earlier (none, .initial) first = first := by simp [earlier]
    rw [List.foldl_cons, replaced]
    exact earliest_iff_recovered first rest

/--
The timer is right exactly if no time is hidden behind a later epoch that has none.

An epoch without a time counts as the earliest and is replaced by whatever comes behind it.
-/
theorem Recovery.timely_iff (state : Recovery) (lossTimer : Option Int) (status : TimerStatus) (timing : Timing)
    (now : Int) :
    state.Timely lossTimer status timing now ↔
      Recovered state.lossCandidates ∧ (0 < state.bytesInFlight →
        state.ptoCount < 32 ∧ Recovered (state.probeCandidates status.toHandshakeStatus timing)) := by
  have loss_iff : Earliest state.lossCandidates state.lossTimeAndSpace ↔ Recovered state.lossCandidates := by
    rw [state.lossTimeAndSpace_eq]
    exact earliest_iff_recovered _ _
  constructor
  · intro timely
    refine ⟨loss_iff.1 timely.loss, fun flying => ?_⟩
    obtain ⟨earliest, found, right⟩ := timely.probe flying
    simp only [Recovery.ptoTimeAndSpace?] at found
    split at found
    · rename_i fits
      rw [ptoTimeAndSpace_eq _ _ _ flying] at found
      cases found
      exact ⟨fits, (earliest_iff_recovered_start _).1 right⟩
    · exact absurd found (by simp)
  · rintro ⟨recovered, probes⟩
    have earliest := loss_iff.2 recovered
    refine ⟨earliest, fun flying => ?_, ?_⟩
    · obtain ⟨fits, recovered⟩ := probes flying
      refine ⟨_, by rw [Recovery.ptoTimeAndSpace?, if_pos fits], ?_⟩
      rw [ptoTimeAndSpace_eq _ _ _ flying]
      exact (earliest_iff_recovered_start _).2 recovered
    · -- A pending loss time is found, and the timer is set to the earliest.
      intro after set epoch time pending
      obtain ⟨least, found, before⟩ := earliest.before (mem_lossCandidates state epoch) pending
      simp only [Recovery.setLossDetectionTimer, found, Option.some.injEq] at set
      exact ⟨least, set.symm, before⟩

/-- Two initial packets are sent and the second one is acknowledged, so that the first has a loss time. -/
def hiddenLoss : List Event :=
  [.sent (flightPacket 0) .initial 0, .sent (flightPacket 1) .initial 1,
    .acked (ackOf 1) .initial secondTiming secondTiming 10]

/-- The only loss time is that of the initial packets, and is not found. -/
theorem Recovery.loss_time_hidden :
    ¬ ∀ (events : List Event) (final : Connection) (lossTimer : Option Int) (status : TimerStatus)
      (timing : Timing) (now : Int),
      Runs.run (Connection.next firstAtLeast) (some (Connection.new none .undefined false)) events = some final →
        final.recovery.Timely lossTimer status timing now := by
  intro always
  have found : (Runs.run (Connection.next firstAtLeast) (some (Connection.new none .undefined false))
      hiddenLoss).map (fun final => (final.recovery.lossTimeAndSpace.1, (final.recovery.epochs .initial).lossTime)) =
        some (none, some 1125000000) := by decide
  cases reached : Runs.run (Connection.next firstAtLeast) (some (Connection.new none .undefined false))
    hiddenLoss with
  | none => simp [reached] at found
  | some final =>
    have timely := always hiddenLoss final none ⟨⟨true, true⟩, true⟩ secondTiming 10 reached
    simp only [reached, Option.map_some, Option.some.injEq, Prod.mk.injEq] at found
    -- The choice is none although the first epoch has a time.
    have timeless := timely.loss.missing found.1 _ (mem_lossCandidates final.recovery .initial)
    rw [found.2] at timeless
    exact absurd timeless (by simp)

end Arming

end Loss

end Flexicast
