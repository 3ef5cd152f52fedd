import Mathlib.Algebra.Ring.Nat

/-! Readers that consume a list from its front and writers that fill a bounded one. -/

namespace Flexicast

namespace Cursor

variable {ε β α γ : Type}

/-- A fallible reader of the items that are left. -/
abbrev Reader (ε β α : Type) := StateT (List β) (Except ε) α

/-- An output: what was written and how much room is left. -/
structure Output (β : Type) where
  written : List β
  cap : Nat

/-- A fallible writer. -/
abbrev Writer (ε β α : Type) := StateT (Output β) (Except ε) α

/-- The output after some items were written into it. -/
def Output.push (output : Output β) (items : List β) : Output β :=
  ⟨output.written ++ items, output.cap - items.length⟩

@[simp] theorem Output.push_nil (output : Output β) : output.push [] = output := by
  simp [Output.push]

/-- Two writes in a row are one write of both. -/
theorem Output.push_push (output : Output β) (front back : List β) :
    (output.push front).push back = output.push (front ++ back) := by
  simp [Output.push, Nat.sub_sub]

@[simp] theorem ok_bind (value : α) (next : α → Except ε γ) : (Except.ok value >>= next) = next value := rfl

@[simp] theorem pure_eq_ok (value : α) : (Pure.pure value : Except ε α) = .ok value := rfl

section Bind

variable {σ : Type} {first : StateT σ (Except ε) α} {next : α → StateT σ (Except ε) γ} {state : σ}

/-- A sequence goes on with what its first part gave. -/
theorem bind_ok {value : α} {later : σ} (ran : first state = .ok (value, later)) :
    (first >>= next) state = next value later := by
  -- A state transformer over errors runs its first part on the state.
  show (first state >>= fun result => next result.1 result.2) = _
  rw [ran]
  rfl

/-- A sequence fails where its first part does. -/
theorem bind_error {error : ε} (failed : first state = .error error) :
    (first >>= next) state = .error error := by
  show (first state >>= fun result => next result.1 result.2) = _
  rw [failed]
  rfl

/-- A sequence succeeds when both parts do. -/
theorem bind_eq_ok {result : γ × σ} :
    (first >>= next) state = .ok result ↔
      ∃ value later, first state = .ok (value, later) ∧ next value later = .ok result := by
  constructor
  · intro ran
    -- A failing first part would fail the sequence.
    cases start : first state with
    | error error =>
      rw [bind_error start] at ran
      cases ran
    | ok pair =>
      rw [bind_ok start] at ran
      exact ⟨pair.1, pair.2, rfl, ran⟩
  · intro parts
    obtain ⟨value, later, start, rest⟩ := parts
    rw [bind_ok start, rest]

/-- A sequence fails when one of its parts does. -/
theorem bind_eq_error {error : ε} :
    (first >>= next) state = .error error ↔
      first state = .error error ∨
        ∃ value later, first state = .ok (value, later) ∧ next value later = .error error := by
  constructor
  · intro ran
    -- The failure is that of the first part, or comes after it.
    cases start : first state with
    | error other =>
      rw [bind_error start] at ran
      exact Or.inl (congrArg Except.error (Except.error.inj ran))
    | ok pair =>
      rw [bind_ok start] at ran
      exact Or.inr ⟨pair.1, pair.2, rfl, ran⟩
  · intro parts
    cases parts with
    | inl failed => exact bind_error failed
    | inr parts =>
      obtain ⟨value, later, start, rest⟩ := parts
      rw [bind_ok start, rest]

end Bind

section Reads

/-- The reader takes exactly these items off the front, whatever follows, and gives the value. -/
def Reads (reader : Reader ε β α) (items : List β) (value : α) : Prop :=
  ∀ rest, reader (items ++ rest) = .ok (value, rest)

theorem Reads.pure (value : α) : Reads (Pure.pure value : Reader ε β α) [] value := fun _ => rfl

/-- Readers in a row take their items in a row. -/
theorem Reads.bind {first : Reader ε β α} {next : α → Reader ε β γ} {front back : List β} {value : α}
    {result : γ} (reads : Reads first front value) (later : Reads (next value) back result) :
    Reads (first >>= next) (front ++ back) result := by
  -- What the second reader takes is part of what follows the first one.
  intro rest
  rw [List.append_assoc, bind_ok (reads (back ++ rest))]
  exact later rest

/-- A reader that ends with one that takes nothing. -/
theorem Reads.bind_nil {first : Reader ε β α} {next : α → Reader ε β γ} {items : List β} {value : α} {result : γ}
    (reads : Reads first items value) (later : Reads (next value) [] result) : Reads (first >>= next) items result := by
  have both := reads.bind later
  rwa [List.append_nil] at both

/-- A reader that ends by wrapping up what it read. -/
theorem Reads.map {first : Reader ε β α} {wrap : α → γ} {items : List β} {value : α}
    (reads : Reads first items value) :
    Reads (first >>= fun value => Pure.pure (wrap value)) items (wrap value) := by
  -- Wrapping up takes nothing more from the input.
  intro rest
  rw [bind_ok (reads rest)]
  rfl

end Reads

section Writes

/-- The writer puts exactly these items behind what was written before, given the room. -/
def Writes (writer : Writer ε β Unit) (items : List β) : Prop :=
  ∀ output, items.length ≤ output.cap → writer output = .ok ((), output.push items)

theorem Writes.pure : Writes (Pure.pure () : Writer ε β Unit) [] := by
  intro output _
  rw [Output.push_nil]
  rfl

/-- Writers in a row put their items in a row. -/
theorem Writes.bind {first next : Writer ε β Unit} {front back : List β} (writes : Writes first front)
    (later : Writes next back) : Writes (first >>= fun _ => next) (front ++ back) := by
  -- The room that the first writer leaves is enough for the second one.
  intro output room
  rw [List.length_append] at room
  have left : back.length ≤ (output.push front).cap := by
    show back.length ≤ output.cap - front.length
    omega
  rw [bind_ok (writes output (by omega)), later _ left, Output.push_push]

end Writes

section Puts

/-- The writer succeeds exactly where there is room for these items, puts them there and gives the value. -/
def Puts (writer : Writer ε β α) (items : List β) (value : α) : Prop :=
  ∀ output, (items.length ≤ output.cap → writer output = .ok (value, output.push items)) ∧
    (output.cap < items.length → ∃ error, writer output = .error error)

theorem Puts.pure (value : α) : Puts (Pure.pure value : Writer ε β α) [] value := by
  intro output
  refine ⟨fun _ => ?_, fun none_ => absurd none_ (Nat.not_lt_zero _)⟩
  rw [Output.push_nil]
  rfl

/-- Writers in a row put their items in a row. -/
theorem Puts.bind {first : Writer ε β α} {next : α → Writer ε β γ} {front back : List β} {value : α} {result : γ}
    (puts : Puts first front value) (later : Puts (next value) back result) :
    Puts (first >>= next) (front ++ back) result := by
  intro output
  rw [List.length_append]
  constructor
  · intro room
    have left : back.length ≤ (output.push front).cap := by
      show back.length ≤ output.cap - front.length
      omega
    rw [bind_ok ((puts output).1 (by omega)), (later _).1 left, Output.push_push]
  · intro full
    -- Either the first part does not fit, or it leaves too little room for the second.
    by_cases fits : front.length ≤ output.cap
    · have left : (output.push front).cap < back.length := by
        show output.cap - front.length < back.length
        omega
      obtain ⟨error, failed⟩ := (later _).2 left
      exact ⟨error, by rw [bind_ok ((puts output).1 fits), failed]⟩
    · obtain ⟨error, failed⟩ := (puts output).2 (by omega)
      exact ⟨error, bind_error failed⟩

/-- What a writer that succeeds has done. -/
theorem Puts.eq_of_ok {writer : Writer ε β α} {items : List β} {value : α} (puts : Puts writer items value)
    {output : Output β} {result : α × Output β} (ran : writer output = .ok result) :
    items.length ≤ output.cap ∧ result = (value, output.push items) := by
  by_cases room : items.length ≤ output.cap
  · rw [(puts output).1 room] at ran
    exact ⟨room, (Except.ok.inj ran).symm⟩
  · obtain ⟨error, failed⟩ := (puts output).2 (by omega)
    rw [failed] at ran
    cases ran

end Puts

section Leaves

end Leaves

section Yields

/--
On inputs below a length the reader never fails in the given way, never makes the input longer,
and what it gives meets the condition.
-/
def Yields (bad : ε) (limit : Nat) (reader : Reader ε β α) (post : α → Prop) : Prop :=
  ∀ input, input.length < limit → reader input ≠ .error bad ∧
    ∀ value rest, reader input = .ok (value, rest) → rest.length ≤ input.length ∧ post value

variable {bad : ε} {limit : Nat} {post : α → Prop}

theorem Yields.pure {value : α} (holds : post value) :
    Yields bad limit (Pure.pure value : Reader ε β α) post := by
  -- Nothing is read, so the input keeps its length.
  intro input _
  refine ⟨fun failed => (nomatch failed), ?_⟩
  intro result rest ran
  obtain ⟨rfl, rfl⟩ := Prod.mk.inj (Except.ok.inj ran)
  exact ⟨Nat.le_refl _, holds⟩

/-- Failing in another way is allowed. -/
theorem Yields.throw {error : ε} (other : error ≠ bad) :
    Yields bad limit (MonadExcept.throw error : Reader ε β α) post := by
  -- There is no value that the condition could be about.
  intro input _
  refine ⟨fun failed => other (Except.error.inj failed), ?_⟩
  intro result rest ran
  cases ran

/-- Conditions pass from one reader to the next. -/
theorem Yields.bind {first : Reader ε β α} {next : α → Reader ε β γ} {finally_ : γ → Prop}
    (yields : Yields bad limit first post) (later : ∀ value, post value → Yields bad limit (next value) finally_) :
    Yields bad limit (first >>= next) finally_ := by
  -- The second reader runs on an input that the first one did not make longer.
  intro input short
  obtain ⟨fine, gives⟩ := yields input short
  constructor
  · intro failed
    cases bind_eq_error.mp failed with
    | inl failed => exact fine failed
    | inr parts =>
      obtain ⟨value, rest, start, failed⟩ := parts
      obtain ⟨shorter, holds⟩ := gives value rest start
      exact (later value holds rest (Nat.lt_of_le_of_lt shorter short)).1 failed
  · intro result rest ran
    obtain ⟨value, middle, start, finish⟩ := bind_eq_ok.mp ran
    obtain ⟨shorter, holds⟩ := gives value middle start
    have bounded := Nat.lt_of_le_of_lt shorter short
    obtain ⟨least, done⟩ := (later value holds middle bounded).2 result rest finish
    exact ⟨Nat.le_trans least shorter, done⟩

theorem Yields.imp {reader : Reader ε β α} {weaker : α → Prop} (yields : Yields bad limit reader post)
    (weaken : ∀ value, post value → weaker value) : Yields bad limit reader weaker := by
  -- Only what is said of the value changes.
  intro input short
  refine ⟨(yields input short).1, ?_⟩
  intro value rest ran
  obtain ⟨shorter, holds⟩ := (yields input short).2 value rest ran
  exact ⟨shorter, weaken value holds⟩

/-- On inputs below a length the reader never makes the input longer. -/
def Shrinks (limit : Nat) (reader : Reader ε β α) : Prop :=
  ∀ input value rest, input.length < limit → reader input = .ok (value, rest) → rest.length ≤ input.length

theorem Yields.shrinks {reader : Reader ε β α} (yields : Yields bad limit reader post) :
    Shrinks limit reader := by
  intro input value rest short ran
  exact ((yields input short).2 value rest ran).1

theorem Shrinks.bind {first : Reader ε β α} {next : α → Reader ε β γ} (shrinks : Shrinks limit first)
    (later : ∀ value, Shrinks limit (next value)) : Shrinks limit (first >>= next) := by
  -- Each reader leaves at most what it was given.
  intro input result rest short ran
  obtain ⟨value, middle, start, finish⟩ := bind_eq_ok.mp ran
  have shorter := shrinks input value middle short start
  exact Nat.le_trans (later value middle result rest (Nat.lt_of_le_of_lt shorter short) finish) shorter

end Yields

end Cursor

end Flexicast
