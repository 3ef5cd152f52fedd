import Mathlib.Algebra.Ring.Nat

/-! Work queues: a loop that pops a task, runs it, and queues the tasks it leaves behind. -/

namespace Flexicast

/-- What running one task did: it may queue more work, end the whole loop, or abort. -/
inductive Turn (σ α : Type) where
  /-- The task left a state and some tasks for the back of the queue. -/
  | next (state : σ) (pushed : List α)
  /-- The loop returned from inside the task, dropping whatever was still queued. -/
  | halt (state : σ)
  /-- The task aborted the program. -/
  | panic

namespace Turn

variable {σ α : Type}

/-- Puts tasks queued earlier in the same turn in front of those it queues later. -/
def queueFirst (earlier : List α) : Turn σ α → Turn σ α
  | .next state pushed => .next state (earlier ++ pushed)
  | .halt state => .halt state
  | .panic => .panic

/-- Finishes a turn that did not end the loop with one more change of the state. -/
def finish (f : σ → σ) : Turn σ α → Turn σ α
  | .next state pushed => .next (f state) pushed
  | .halt state => .halt state
  | .panic => .panic

/-- The turn with its state seen as part of another one. -/
def map {τ : Type} (f : σ → τ) : Turn σ α → Turn τ α
  | .next state pushed => .next (f state) pushed
  | .halt state => .halt (f state)
  | .panic => .panic

/-- The turn with its state and the tasks that it queues seen as others. -/
def bimap {τ β : Type} (f : σ → τ) (g : α → β) : Turn σ α → Turn τ β
  | .next state pushed => .next (f state) (pushed.map g)
  | .halt state => .halt (f state)
  | .panic => .panic

/-- The state that a turn left, unless it aborted. -/
def left : Turn σ α → Option σ
  | .next state _ => some state
  | .halt state => some state
  | .panic => none

@[simp] theorem left_queueFirst (earlier : List α) (turn : Turn σ α) :
    (turn.queueFirst earlier).left = turn.left := by
  cases turn <;> rfl

end Turn

namespace WorkQueue

variable {σ α : Type}

/-- Runs queued tasks in order until none is left, with a bound on the number of turns. -/
def drain (run : α → σ → Turn σ α) : Nat → List α → σ → Option σ
  | _, [], state => some state
  | 0, _ :: _, _ => none
  | fuel + 1, task :: queue, state =>
    match run task state with
    | .next state pushed => drain run fuel (queue ++ pushed) state
    | .halt state => some state
    | .panic => none

@[simp] theorem drain_nil (run : α → σ → Turn σ α) (fuel : Nat) (state : σ) :
    drain run fuel [] state = some state := by
  cases fuel <;> rfl

/-- A task that queues more work hands over to the rest of the queue. -/
theorem drain_next {run : α → σ → Turn σ α} {task : α} {queue pushed : List α} {state state' : σ}
    (ran : run task state = .next state' pushed) (fuel : Nat) :
    drain run (fuel + 1) (task :: queue) state = drain run fuel (queue ++ pushed) state' := by
  rw [drain, ran]

/-- A task that ends the loop decides its result. -/
theorem drain_halt {run : α → σ → Turn σ α} {task : α} {queue : List α} {state state' : σ}
    (ran : run task state = .halt state') (fuel : Nat) :
    drain run (fuel + 1) (task :: queue) state = some state' := by
  rw [drain, ran]

/-- The total weight of the queued tasks. -/
def load (weight : α → Nat) (queue : List α) : Nat := (queue.map weight).sum

@[simp] theorem load_nil (weight : α → Nat) : load weight [] = 0 := rfl

@[simp] theorem load_cons (weight : α → Nat) (task : α) (queue : List α) :
    load weight (task :: queue) = weight task + load weight queue := by
  simp [load]

@[simp] theorem load_append (weight : α → Nat) (front back : List α) :
    load weight (front ++ back) = load weight front + load weight back := by
  simp [load]

section Rules

variable {run : α → σ → Turn σ α} {task : α → Prop} {inv : σ → Prop} {weight : α → Nat}

/-- A task keeps the invariant and leaves strictly less work than it was. -/
def Settles (run : α → σ → Turn σ α) (task : α → Prop) (inv : σ → Prop) (weight : α → Nat) : Prop :=
  ∀ item state, task item → inv state →
    (∃ state', run item state = .halt state' ∧ inv state') ∨
    ∃ state' pushed, run item state = .next state' pushed ∧ inv state' ∧
      (∀ later ∈ pushed, task later) ∧ load weight pushed < weight item

/-- A loop over settling tasks returns within its load, in a state that keeps the invariant. -/
theorem drain_returns (settles : Settles run task inv weight)
    (positive : ∀ item, task item → 0 < weight item) :
    ∀ fuel queue state, (∀ item ∈ queue, task item) → inv state → load weight queue ≤ fuel →
      ∃ final, drain run fuel queue state = some final ∧ inv final := by
  -- Each turn spends at least one unit of load, so the fuel outlasts the queue.
  intro fuel
  induction fuel with
  | zero =>
    intro queue state tasks held enough
    cases queue with
    | nil => exact ⟨state, by simp, held⟩
    | cons item rest =>
      have heavy := positive item (tasks item List.mem_cons_self)
      simp at enough
      omega
  | succ fuel ih =>
    intro queue state tasks held enough
    cases queue with
    | nil => exact ⟨state, by simp, held⟩
    | cons item rest =>
      have later : ∀ other ∈ rest, task other := fun other member =>
        tasks other (List.mem_cons_of_mem _ member)
      rcases settles item state (tasks item List.mem_cons_self) held with
        ⟨state', halted, held'⟩ | ⟨state', pushed, moved, held', added, lighter⟩
      · exact ⟨state', by simp [drain, halted], held'⟩
      · simp only [load_cons] at enough
        obtain ⟨final, drained, kept⟩ := ih (rest ++ pushed) state'
          (fun other member => (List.mem_append.mp member).elim (later other) (added other)) held'
          (by simp only [load_append]; omega)
        exact ⟨final, by simpa [drain, moved] using drained, kept⟩

/-- A loop whose turns carry an invariant of the queue and the state ends with the queue empty. -/
theorem drain_keeps {inv : List α → σ → Prop}
    (turn : ∀ item queue state, inv (item :: queue) state → ∃ state' pushed,
      run item state = .next state' pushed ∧ inv (queue ++ pushed) state' ∧
      load weight pushed < weight item) :
    ∀ fuel queue state, inv queue state → load weight queue ≤ fuel →
      ∃ final, drain run fuel queue state = some final ∧ inv [] final := by
  -- A turn always has weight to spend, so the fuel outlasts the queue here too.
  intro fuel
  induction fuel with
  | zero =>
    intro queue state held enough
    cases queue with
    | nil => exact ⟨state, by simp, held⟩
    | cons item rest =>
      obtain ⟨_, _, _, _, lighter⟩ := turn item rest state held
      simp only [load_cons] at enough
      omega
  | succ fuel ih =>
    intro queue state held enough
    cases queue with
    | nil => exact ⟨state, by simp, held⟩
    | cons item rest =>
      obtain ⟨state', pushed, moved, held', lighter⟩ := turn item rest state held
      simp only [load_cons] at enough
      obtain ⟨final, drained, kept⟩ := ih (rest ++ pushed) state' held'
        (by simp only [load_append]; omega)
      exact ⟨final, by rw [drain_next moved, drained], kept⟩

/-- What every turn of a loop that goes through carries along is there at its end. -/
theorem drain_some {inv : List α → σ → Prop}
    (next : ∀ item queue state after pushed, inv (item :: queue) state →
      run item state = .next after pushed → inv (queue ++ pushed) after)
    (halt : ∀ item queue state after, inv (item :: queue) state → run item state = .halt after → inv [] after) :
    ∀ fuel queue state final, inv queue state → drain run fuel queue state = some final → inv [] final := by
  -- A loop that runs out of fuel does not go through, so only its turns matter.
  intro fuel
  induction fuel with
  | zero =>
    intro queue state final held drained
    cases queue with
    | nil =>
      cases drained
      exact held
    | cons item rest => cases drained
  | succ fuel ih =>
    intro queue state final held drained
    cases queue with
    | nil =>
      cases drained
      exact held
    | cons item rest =>
      rw [drain] at drained
      split at drained
      · rename_i after pushed ran
        exact ih _ _ _ (next _ _ _ _ _ held ran) drained
      · rename_i after ran
        cases drained
        exact halt _ _ _ _ held ran
      · cases drained

/-- A loop that mirrors another one turn by turn ends with what that one ends with. -/
theorem drain_map {τ : Type} {run' : α → τ → Turn τ α} {f : σ → τ}
    (mirrors : ∀ item state, run' item (f state) = (run item state).map f) :
    ∀ fuel queue state, drain run' fuel queue (f state) = (drain run fuel queue state).map f := by
  intro fuel
  induction fuel with
  | zero =>
    intro queue state
    cases queue with
    | nil => simp
    | cons item rest => rfl
  | succ fuel ih =>
    intro queue state
    cases queue with
    | nil => simp
    | cons item rest =>
      simp only [drain, mirrors]
      -- The two loops leave the same work behind, and one of them a state seen through the other.
      cases run item state with
      | next state' pushed => exact ih (rest ++ pushed) state'
      | halt state' => rfl
      | panic => rfl

/-- A loop that mirrors another one on mirrored tasks ends with the mirror of what that one ends with. -/
theorem drain_bimap {τ β : Type} {run' : β → τ → Turn τ β} {f : σ → τ} {g : α → β}
    (mirrors : ∀ item state, run' (g item) (f state) = (run item state).bimap f g) :
    ∀ fuel queue state, drain run' fuel (queue.map g) (f state) = (drain run fuel queue state).map f := by
  intro fuel
  induction fuel with
  | zero =>
    intro queue state
    cases queue with
    | nil => simp
    | cons item rest => rfl
  | succ fuel ih =>
    intro queue state
    cases queue with
    | nil => simp
    | cons item rest =>
      simp only [List.map_cons, drain, mirrors]
      cases run item state with
      | next state' pushed =>
        -- The mirrored loop queues the mirrors of the same tasks.
        simp only [Turn.bimap, ← List.map_append]
        exact ih (rest ++ pushed) state'
      | halt state' => rfl
      | panic => rfl

end Rules

end WorkQueue

end Flexicast
