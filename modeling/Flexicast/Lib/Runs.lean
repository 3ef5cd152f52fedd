/-! Runs of a state machine, and the rule that carries an invariant along them. -/

namespace Flexicast

namespace Runs

variable {σ ε : Type}

/-- The state after a sequence of events. -/
def run (next : σ → ε → σ) (start : σ) (events : List ε) : σ := events.foldl next start

/-- Every event meets a condition in the state it happens in. -/
def Along (next : σ → ε → σ) (ok : σ → ε → Prop) : σ → List ε → Prop
  | _, [] => True
  | state, event :: rest => ok state event ∧ Along next ok (next state event) rest

instance decidableAlong (next : σ → ε → σ) (ok : σ → ε → Prop) [∀ state event, Decidable (ok state event)] :
    (state : σ) → (events : List ε) → Decidable (Along next ok state events)
  | _, [] => isTrue trivial
  | state, event :: rest =>
    have := decidableAlong next ok (next state event) rest
    inferInstanceAs (Decidable (ok state event ∧ Along next ok (next state event) rest))

@[simp] theorem run_nil (next : σ → ε → σ) (start : σ) : run next start [] = start := rfl

@[simp] theorem run_cons (next : σ → ε → σ) (start : σ) (event : ε) (rest : List ε) :
    run next start (event :: rest) = run next (next start event) rest := rfl

/-- A run splits into its first events and the others. -/
theorem run_append (next : σ → ε → σ) (start : σ) (done rest : List ε) :
    run next start (done ++ rest) = run next (run next start done) rest :=
  List.foldl_append

/-- A condition met along a run is met along its first events, and from there on. -/
theorem along_append {next : σ → ε → σ} {ok : σ → ε → Prop} {done rest : List ε} :
    ∀ {start : σ}, Along next ok start (done ++ rest) ↔
      Along next ok start done ∧ Along next ok (run next start done) rest := by
  -- The condition is met event by event, and the front of the run only moves the state.
  induction done with
  | nil => simp [Along]
  | cons event done ih =>
    intro start
    simp only [List.cons_append, Along, ih, run_cons, and_assoc]

/-- A weaker condition is met wherever the stronger one is. -/
theorem Along.imp {next : σ → ε → σ} {ok weaker : σ → ε → Prop}
    (weaken : ∀ state event, ok state event → weaker state event) {events : List ε} :
    ∀ {start : σ}, Along next ok start events → Along next weaker start events := by
  -- The states of the run stay the same, so the conditions are compared one by one.
  induction events with
  | nil => exact fun _ => trivial
  | cons event rest ih => exact fun along => ⟨weaken _ _ along.1, ih along.2⟩

/-- What holds at the start and survives every step holds at the end of every run. -/
theorem Along.keeps {next : σ → ε → σ} {ok : σ → ε → Prop} {inv : σ → Prop}
    (step : ∀ state event, inv state → ok state event → inv (next state event)) {events : List ε} :
    ∀ {start : σ}, inv start → Along next ok start events → inv (run next start events) := by
  -- Induction on the events, from whatever state they start in.
  induction events with
  | nil => exact fun held _ => held
  | cons event rest ih => exact fun held along => ih (step _ _ held along.1) along.2

/-- The condition that nothing violates is met along every run. -/
theorem along_true (next : σ → ε → σ) (start : σ) (events : List ε) : Along next (fun _ _ => True) start events := by
  induction events generalizing start with
  | nil => exact trivial
  | cons event rest ih => exact ⟨trivial, ih _⟩

/-- A condition that each event meets in any state is met along every run. -/
theorem along_of_mem {next : σ → ε → σ} {ok : σ → ε → Prop} {events : List ε}
    (each : ∀ event ∈ events, ∀ state, ok state event) : ∀ {start : σ}, Along next ok start events := by
  induction events with
  | nil => exact trivial
  | cons event rest ih =>
    intro start
    exact ⟨each event List.mem_cons_self start, ih fun other member => each other (List.mem_cons_of_mem _ member)⟩

/-- What holds at the start and survives every step, whatever it is, holds at the end of every run. -/
theorem run_keeps {next : σ → ε → σ} {inv : σ → Prop} (step : ∀ state event, inv state → inv (next state event))
    {start : σ} (held : inv start) (events : List ε) : inv (run next start events) :=
  Along.keeps (fun state event kept _ => step state event kept) held (along_true next start events)

/-- Two conditions are met along a run together. -/
theorem Along.and {next : σ → ε → σ} {ok other : σ → ε → Prop} {events : List ε} :
    ∀ {start : σ}, Along next ok start events → Along next other start events →
      Along next (fun state event => ok state event ∧ other state event) start events := by
  induction events with
  | nil => exact fun _ _ => trivial
  | cons event rest ih => exact fun left right => ⟨⟨left.1, right.1⟩, ih left.2 right.2⟩

/-- A condition that follows from an invariant of the run is met along it. -/
theorem Along.under {next : σ → ε → σ} {ok other : σ → ε → Prop} {inv : σ → Prop}
    (step : ∀ state event, inv state → ok state event → inv (next state event))
    (gives : ∀ state event, inv state → ok state event → other state event) {events : List ε} :
    ∀ {start : σ}, inv start → Along next ok start events → Along next other start events := by
  -- Induction on the events: the invariant holds in each state that the run goes through.
  induction events with
  | nil => exact fun _ _ => trivial
  | cons event rest ih =>
    intro start held along
    have first : other start event := gives start event held along.1
    have kept : inv (next start event) := step start event held along.1
    exact ⟨first, ih kept along.2⟩

/-- For steps that may fail, what survives every step that succeeds holds of every state that a run reaches. -/
theorem Along.keeps_some (step : σ → ε → Option σ) {ok : Option σ → ε → Prop} (inv : σ → Prop)
    (kept : ∀ state event after, inv state → ok (some state) event → step state event = some after → inv after)
    {start : σ} (held : inv start) {events : List ε}
    (along : Along (fun state event => state.bind (step · event)) ok (some start) events) {final : σ}
    (reached : run (fun state event => state.bind (step · event)) (some start) events = some final) : inv final := by
  -- A run that has failed has no state, so the invariant speaks of the states that there are.
  have each : ∀ state event, (∀ self, state = some self → inv self) → ok state event →
      ∀ after, state.bind (step · event) = some after → inv after := by
    intro state event held met after done
    cases state with
    | none => simp at done
    | some self => exact kept self event after (held self rfl) met done
  refine along.keeps each ?_ final reached
  intro self same
  cases same
  exact held

/-- Conditions that agree wherever an invariant holds are met along the same runs. -/
theorem along_congr {next : σ → ε → σ} {ok other : σ → ε → Prop} {inv : σ → Prop}
    (step : ∀ state event, inv state → inv (next state event))
    (same : ∀ state event, inv state → (ok state event ↔ other state event)) (events : List ε) :
    ∀ {start : σ}, inv start → (Along next ok start events ↔ Along next other start events) := by
  -- The states of the run are the same, and each meets the invariant.
  induction events with
  | nil => exact fun _ => Iff.rfl
  | cons event rest ih => exact fun held => and_congr (same _ _ held) (ih (step _ _ held))

/-- What follows from an invariant that a condition keeps, and fails as soon as the condition does, holds always just
when the condition is met. -/
theorem always_weak_iff_along {next : σ → ε → σ} {allowed ok : σ → ε → Prop} {base inv weak : σ → Prop}
    (keeps : ∀ state event, base state → allowed state event → base (next state event))
    (weaken : ∀ state, base state → inv state → weak state)
    (step : ∀ state event, base state → inv state → allowed state event →
      (ok state event → inv (next state event)) ∧ (weak (next state event) → ok state event))
    (events : List ε) :
    ∀ {start : σ}, base start → inv start → Along next allowed start events →
      ((∀ done, done <+: events → weak (run next start done)) ↔ Along next ok start events) := by
  -- Induction on the events; the first one decides whether the next state is a good one.
  induction events with
  | nil =>
    intro start based held _
    constructor
    · exact fun _ => trivial
    · intro _ done first
      rw [List.prefix_nil.mp first]
      exact weaken start based held
  | cons event rest ih =>
    intro start based held along
    obtain ⟨kept, decides⟩ := step start event based held along.1
    have based' := keeps start event based along.1
    constructor
    · intro always
      have met := decides (always [event] ⟨rest, rfl⟩)
      refine ⟨met, (ih based' (kept met) along.2).mp fun done first => ?_⟩
      exact always (event :: done) (List.cons_prefix_cons.mpr ⟨rfl, first⟩)
    · rintro ⟨met, later⟩ done first
      cases done with
      | nil => exact weaken start based held
      | cons head done =>
        obtain ⟨rfl, shorter⟩ := List.cons_prefix_cons.mp first
        exact (ih based' (kept met) along.2).mpr later done shorter

/-- What holds as long as a condition is met, and fails as soon as it is not, holds always just then. -/
theorem always_iff_along {next : σ → ε → σ} {allowed ok : σ → ε → Prop} {base inv : σ → Prop}
    (keeps : ∀ state event, base state → allowed state event → base (next state event))
    (step : ∀ state event, base state → inv state → allowed state event → (inv (next state event) ↔ ok state event))
    (events : List ε) {start : σ} (based : base start) (held : inv start) (along : Along next allowed start events) :
    (∀ done, done <+: events → inv (run next start done)) ↔ Along next ok start events :=
  always_weak_iff_along keeps (fun _ _ held => held)
    (fun state event based held met => ⟨(step state event based held met).mpr, (step state event based held met).mp⟩)
    events based held along

/-- What holds at the start is kept, and each step does right, just as long as a condition is met. -/
theorem always_along_iff {next : σ → ε → σ} {good ok : σ → ε → Prop} {base inv : σ → Prop}
    (keeps : ∀ state event, base state → base (next state event))
    (step : ∀ state event, base state → inv state → (inv (next state event) ∧ good state event ↔ ok state event))
    (events : List ε) {start : σ} (based : base start) (held : inv start) :
    ((∀ done, done <+: events → inv (run next start done)) ∧ Along next good start events) ↔
      Along next ok start events := by
  have always := @always_iff_along σ ε next (fun _ _ => True) (fun state event => inv (next state event)) base inv
    (fun state event kept _ => keeps state event kept) (fun _ _ _ _ _ => Iff.rfl) events _ based held
    (along_true next start events)
  rw [always]
  constructor
  · rintro ⟨kept, right⟩
    have both := kept.and right
    refine @Along.under _ _ _ _ _ (fun state => base state ∧ inv state) ?_ ?_ _ _ ⟨based, held⟩ both
    · exact fun state event held right => ⟨keeps state event held.1, right.1⟩
    · exact fun state event held right => (step state event held.1 held.2).mp right
  · intro met
    have split : Along next (fun state event => inv (next state event) ∧ good state event) start events := by
      refine @Along.under _ _ _ _ _ (fun state => base state ∧ inv state) ?_ ?_ _ _ ⟨based, held⟩ met
      · exact fun state event held met => ⟨keeps state event held.1, ((step state event held.1 held.2).mpr met).1⟩
      · exact fun state event held met => (step state event held.1 held.2).mpr met
    exact ⟨split.imp fun _ _ => And.left, split.imp fun _ _ => And.right⟩

/-- The states of a run never move against an order just when no step does. -/
theorem ordered_iff_along {next : σ → ε → σ} {before : σ → σ → Prop} (refl : ∀ state, before state state)
    (trans : ∀ early mid late, before early mid → before mid late → before early late) (events : List ε) :
    ∀ {start : σ},
      (∀ early late, early <+: late → late <+: events → before (run next start early) (run next start late)) ↔
        Along next (fun state event => before state (next state event)) start events := by
  -- Induction on the events: a later state is reached through the one after the first event.
  induction events with
  | nil =>
    intro start
    constructor
    · exact fun _ => trivial
    · intro _ early late short first
      obtain rfl := List.prefix_nil.mp first
      obtain rfl := List.prefix_nil.mp short
      exact refl start
  | cons event rest ih =>
    intro start
    constructor
    · intro always
      refine ⟨always [] [event] List.nil_prefix ⟨rest, rfl⟩, ih.mp fun early late short first => ?_⟩
      exact always (event :: early) (event :: late) (List.cons_prefix_cons.mpr ⟨rfl, short⟩)
        (List.cons_prefix_cons.mpr ⟨rfl, first⟩)
    · rintro ⟨step, later⟩ early late short first
      have later := ih.mpr later
      cases late with
      | nil =>
        obtain rfl := List.prefix_nil.mp short
        exact refl start
      | cons head late =>
        obtain ⟨rfl, within⟩ := List.cons_prefix_cons.mp first
        cases early with
        | nil => exact trans _ _ _ step (later [] late List.nil_prefix within)
        | cons head early =>
          obtain ⟨rfl, shorter⟩ := List.cons_prefix_cons.mp short
          exact later early late shorter within

end Runs

end Flexicast
