import Flexicast.Lib.OrdMap

/-! The largest value within a span of time, of `flexicast/congestion/window.rs`. -/

namespace Flexicast

namespace Congestion

/-- The largest count, which is a `u32`. -/
def maxCount : Nat := 2 ^ 32 - 1

/-- A window over the last data, with how often each value was added; instants count from the earliest one there is. -/
structure MaxTimeWindow where
  /-- The data by the instant it was added at. -/
  window : OrdMap Nat
  /-- The number of times each value counts. -/
  values : OrdMap Nat
  span : Nat
  deriving DecidableEq

namespace MaxTimeWindow

/-- An empty window. -/
def new (span : Nat) : MaxTimeWindow := ⟨.empty, .empty, span⟩

/-- Forgets one entry; it fails when its value counts no times. -/
def forget (data : MaxTimeWindow) (entry : Nat × Nat) : Option MaxTimeWindow := do
  let count ← data.values.find? entry.2
  let window := data.window.erase entry.1
  if count = 1 then return { data with window := window, values := data.values.erase entry.2 }
  else return { data with window := window, values := data.values.insert entry.2 (count - 1) }

/-- The entries added before an instant. -/
def before (data : MaxTimeWindow) (lowest : Nat) : List (Nat × Nat) :=
  data.window.entries.filter fun entry => entry.1 < lowest

/-- Forgets what was added before an instant. -/
def elapse (data : MaxTimeWindow) (lowest : Nat) : Option MaxTimeWindow := (data.before lowest).foldlM forget data

/-- Counts a value at an instant. -/
def record (data : MaxTimeWindow) (now value : Nat) : MaxTimeWindow :=
  { data with
    window := data.window.insert now value
    values := data.values.insert value (((data.values.find? value).map (· + 1)).getD 1) }

/-- Forgets what is older than the span; it fails when no instant lies so far back. -/
def timeElapsed (data : MaxTimeWindow) (now : Nat) : Option MaxTimeWindow :=
  if now < data.span then none else data.elapse (now - data.span)

/-- Adds a value; it fails when the value counts as often as a count can tell. -/
def addData (data : MaxTimeWindow) (now value : Nat) : Option MaxTimeWindow := do
  let data ← data.timeElapsed now
  if data.values.find? value = some maxCount then none else return data.record now value

/-- Adds a value where the arithmetic stays within its types. -/
def addDataWithin (data : MaxTimeWindow) (now value : Nat) : Option MaxTimeWindow :=
  (data.elapse (now - data.span)).map fun data => data.record now value

/-- The largest value that counts. -/
def max (data : MaxTimeWindow) : Option Nat := data.values.entries.getLast?.map Prod.fst

/-- How many entries of the window hold a value. -/
def held (data : MaxTimeWindow) (value : Nat) : Nat := data.window.entries.countP fun entry => entry.2 = value

/-- Every value counts at least as often as the window holds it. -/
def Counted (data : MaxTimeWindow) : Prop := ∀ value, data.held value ≤ (data.values.find? value).getD 0

theorem counted_new (span : Nat) : (new span).Counted := fun _ => Nat.le_refl _

variable {entry : Nat × Nat} {data : MaxTimeWindow}

theorem countP_erase {window : OrdMap Nat} (member : entry ∈ window.entries) (value : Nat) :
    (window.erase entry.1).entries.countP (fun other => other.2 = value) + (if entry.2 = value then 1 else 0) =
      window.entries.countP fun other => other.2 = value := by
  obtain ⟨front, back, split⟩ := List.append_of_mem member
  rw [OrdMap.entries_erase split, split, List.countP_append, List.countP_append, List.countP_cons]
  simp only [decide_eq_true_eq]
  omega

theorem forget_last (found : data.values.find? entry.2 = some 1) :
    data.forget entry =
      some { data with window := data.window.erase entry.1, values := data.values.erase entry.2 } := by
  simp [forget, found]

theorem forget_more {count : Nat} (found : data.values.find? entry.2 = some count) (more : count ≠ 1) :
    data.forget entry =
      some { data with window := data.window.erase entry.1, values := data.values.insert entry.2 (count - 1) } := by
  simp [forget, found, more]

/-- An entry of the window can be forgotten, and each value still counts often enough. -/
theorem forget_counted (counted : data.Counted) (member : entry ∈ data.window.entries) :
    ∃ after, data.forget entry = some after ∧ after.Counted ∧ after.window = data.window.erase entry.1 := by
  have erased := countP_erase member
  -- The entry itself makes its value count.
  have own := counted entry.2
  have here := erased entry.2
  rw [if_pos rfl] at here
  cases found : data.values.find? entry.2 with
  | none => rw [found, Option.getD_none, held] at own; omega
  | some count =>
    rw [found, Option.getD_some, held] at own
    by_cases last : count = 1
    · subst last
      refine ⟨_, forget_last found, fun value => ?_, rfl⟩
      have left := counted value
      have gone := erased value
      simp only [held, OrdMap.find?_erase] at left gone ⊢
      by_cases same : value = entry.2
      · subst same
        simp only [if_true, Option.getD_none]
        omega
      · rw [if_neg same]
        omega
    · refine ⟨_, forget_more found last, fun value => ?_, rfl⟩
      have left := counted value
      have gone := erased value
      simp only [held, OrdMap.find?_insert] at left gone ⊢
      by_cases same : value = entry.2
      · subst same
        simp only [if_true, Option.getD_some]
        omega
      · rw [if_neg same]
        omega

/-- What survives when an entry of the window is forgotten survives when entries at different instants are. -/
theorem foldlM_forget_keeps {inv : MaxTimeWindow → Prop}
    (step : ∀ data entry, inv data → entry ∈ data.window.entries →
      ∃ after, data.forget entry = some after ∧ inv after ∧ after.window = data.window.erase entry.1)
    {entries : List (Nat × Nat)} (apart : entries.Pairwise fun left right => left.1 < right.1) :
    ∀ {data : MaxTimeWindow}, inv data → (∀ entry ∈ entries, entry ∈ data.window.entries) →
      ∃ after, entries.foldlM forget data = some after ∧ inv after ∧
        ∀ time, after.window.find? time = if time ∈ entries.map Prod.fst then none else data.window.find? time := by
  -- Forgetting the first entry leaves the later ones, which stand at later instants.
  induction entries with
  | nil => exact fun held _ => ⟨_, rfl, held, fun time => by simp⟩
  | cons entry rest ih =>
    intro data held members
    obtain ⟨later, apart⟩ := List.pairwise_cons.mp apart
    obtain ⟨middle, forgot, kept, window⟩ := step data entry held (members entry List.mem_cons_self)
    have left : ∀ other ∈ rest, other ∈ middle.window.entries := by
      intro other member
      rw [window]
      have differs := later other member
      exact List.mem_filter.mpr ⟨members other (List.mem_cons_of_mem _ member), by simp; omega⟩
    obtain ⟨after, done, kept, found⟩ := ih apart kept left
    refine ⟨after, by rw [List.foldlM_cons, forgot]; exact done, kept, fun time => ?_⟩
    rw [found, window, OrdMap.find?_erase, List.map_cons]
    by_cases first : time = entry.1
    · simp [first]
    · simp only [List.mem_cons, first, false_or, if_false]

theorem elapse_counted (counted : data.Counted) (lowest : Nat) :
    ∃ after, data.elapse lowest = some after ∧ after.Counted := by
  obtain ⟨after, elapsed, counted, -⟩ := foldlM_forget_keeps (fun _ _ counted member => forget_counted counted member)
    (data.window.sorted.filter _) counted fun _ member => (List.mem_filter.mp member).1
  exact ⟨after, elapsed, counted⟩

/-- Storing a datum adds its value to the window once at most. -/
theorem countP_store_le (now value other : Nat) (list : List (Nat × Nat)) :
    (OrdMap.store now value list).countP (fun entry => entry.2 = other) ≤
      list.countP (fun entry => entry.2 = other) + (if other = value then 1 else 0) := by
  induction list with
  | nil => simp [OrdMap.store, List.countP_cons, eq_comm]
  | cons head rest ih =>
    rw [OrdMap.store]
    split
    · simp [List.countP_cons, eq_comm]
    · split
      · -- What stood at the same instant is replaced, though it still counts.
        simp only [List.countP_cons, decide_eq_true_eq, eq_comm (a := other)]
        omega
      · simp only [List.countP_cons]
        omega

theorem addDataWithin_counted (counted : data.Counted) (now value : Nat) :
    ∃ after, data.addDataWithin now value = some after ∧ after.Counted ∧ after.max.isSome := by
  obtain ⟨middle, elapsed, counted⟩ := elapse_counted counted (now - data.span)
  refine ⟨_, by rw [addDataWithin, elapsed]; rfl, fun other => ?_, ?_⟩
  · have before := counted other
    have stored := countP_store_le now value other middle.window.entries
    rw [held] at before
    show (OrdMap.store now value middle.window.entries).countP (fun entry => entry.2 = other) ≤
      ((middle.values.insert value _).find? other).getD 0
    rw [OrdMap.find?_insert]
    by_cases same : other = value
    · subst same
      rw [if_pos rfl] at stored ⊢
      cases found : middle.values.find? other with
      | none => rw [found, Option.getD_none] at before; simp; omega
      | some count => rw [found, Option.getD_some] at before; simp; omega
    · rw [if_neg same] at stored ⊢
      omega
  · have found := OrdMap.find?_insert middle.values value value ((middle.values.find? value).map (· + 1) |>.getD 1)
    rw [if_pos rfl, OrdMap.find?_eq_some_iff] at found
    rw [max, Option.isSome_map]
    exact List.getLast?_isSome.mpr (List.ne_nil_of_mem found)

end MaxTimeWindow

end Congestion

end Flexicast
