import Flexicast.Congestion.Window

/-! What the largest value of a window is over whole histories, of `flexicast/congestion/window.rs`. -/

namespace Flexicast

namespace Congestion

namespace MaxTimeWindow

section Histories

/-- What is done to a window. -/
inductive Call where
  | addData (now value : Nat)
  | timeElapsed (now : Nat)
  deriving DecidableEq

/-- The time of a call. -/
def Call.now : Call → Nat
  | addData now _ => now
  | timeElapsed now => now

/-- What a call does to a window; it fails when the program panics. -/
def turn (data : MaxTimeWindow) : Call → Option MaxTimeWindow
  | .addData now value => data.addData now value
  | .timeElapsed now => data.timeElapsed now

/-- The window after a history, whose latest call stands first. -/
def after (span : Nat) : List Call → Option MaxTimeWindow
  | [] => some (new span)
  | call :: earlier => (after span earlier).bind fun data => data.turn call

/-- The data of a history with their times, the latest first. -/
def added : List Call → List (Nat × Nat)
  | [] => []
  | .addData now value :: earlier => (now, value) :: added earlier
  | .timeElapsed _ :: earlier => added earlier

/-- The time never goes back in a history. -/
def Timely (history : List Call) : Prop := history.Pairwise fun later earlier => earlier.now ≤ later.now

/-- The values that were added within the span. -/
def recent (span now : Nat) (history : List Call) : List Nat :=
  ((added history).filter fun entry => now - span ≤ entry.1).map Prod.snd

/-- The data that a later datum of the same time took the place of. -/
def replaced : List Call → List (Nat × Nat)
  | [] => []
  | .addData now _ :: earlier => ((OrdMap.lookup now (added earlier)).map (Prod.mk now)).toList ++ replaced earlier
  | .timeElapsed _ :: earlier => replaced earlier

/-- Their values. -/
def overwritten (history : List Call) : List Nat := (replaced history).map Prod.snd

/-- How often a value counts at a time: once for each time it was added within the span, and once for each time it was
overwritten before. -/
def occurrences (span now : Nat) (history : List Call) (value : Nat) : Nat :=
  (recent span now history).count value +
    (((replaced history).filter fun entry => entry.1 < now - span).map Prod.snd).count value

/-- The times and the counts of a call stay within their types: an instant lies a span before it, and a value that is
added counts less often than a count can tell. -/
def FitsCall (span : Nat) (earlier : List Call) : Call → Prop
  | .addData now value => span ≤ now ∧ occurrences span now earlier value < maxCount
  | .timeElapsed now => span ≤ now

/-- This holds of every call of a history. -/
def Fits (span : Nat) (history : List Call) : Prop :=
  ∀ call earlier, call :: earlier <:+ history → FitsCall span earlier call

/-- After each call of a history the largest value is that of the data within the span. -/
def KeepsMaximum (span : Nat) (history : List Call) : Prop :=
  ∀ call earlier, call :: earlier <:+ history →
    ∃ data, after span (call :: earlier) = some data ∧ data.max = (recent span call.now (call :: earlier)).max?

/-- Each value that was overwritten is at most a value of the data within the span, at each later call. -/
def Covered (span : Nat) (history : List Call) : Prop :=
  ∀ call earlier, call :: earlier <:+ history → ∀ value ∈ overwritten (call :: earlier),
    ∃ larger ∈ recent span call.now (call :: earlier), value ≤ larger

end Histories

section Counts

/-- How a value that occurs some times is counted. -/
def counted (times : Nat) : Option Nat := if times = 0 then none else some times

/-- The values of the window count as often as it holds them, and some others on top. -/
def Counts (data : MaxTimeWindow) (others : List Nat) : Prop :=
  ∀ value, data.values.find? value = counted (data.held value + others.count value)

/-- Forgetting an entry of the window counts its value once less. -/
theorem Counts.forget {data : MaxTimeWindow} {others : List Nat} (counts : data.Counts others) {entry : Nat × Nat}
    (member : entry ∈ data.window.entries) :
    ∃ after, data.forget entry = some after ∧ after.Counts others ∧ after.window = data.window.erase entry.1 ∧
      after.span = data.span := by
  have erased := countP_erase member
  have here := erased entry.2
  rw [if_pos rfl] at here
  have found := counts entry.2
  rw [counted, if_neg (by rw [held]; omega), held] at found
  by_cases last : data.held entry.2 + others.count entry.2 = 1
  · rw [held] at last
    rw [last] at found
    refine ⟨_, forget_last found, fun value => ?_, rfl, rfl⟩
    have gone := erased value
    rw [OrdMap.find?_erase]
    by_cases same : value = entry.2
    · subst same
      rw [if_pos rfl, counted, if_pos (by simp only [held]; omega)]
    · rw [if_neg (fun eq => same eq.symm)] at gone
      rw [if_neg same, counts value]
      simp only [held]
      rw [← gone]
      rfl
  · rw [held] at last
    refine ⟨_, forget_more found last, fun value => ?_, rfl, rfl⟩
    have gone := erased value
    rw [OrdMap.find?_insert]
    by_cases same : value = entry.2
    · subst same
      rw [if_pos rfl, counted, if_neg (by simp only [held]; omega)]
      simp only [held]
      congr 1
      omega
    · rw [if_neg (fun eq => same eq.symm)] at gone
      rw [if_neg same, counts value]
      simp only [held]
      rw [← gone]
      rfl

/-- Storing a datum adds its value to the window, in the place of the value that stood at the same time. -/
theorem countP_store (now value other : Nat) {list : List (Nat × Nat)}
    (sorted : list.Pairwise fun left right => left.1 < right.1) :
    (OrdMap.store now value list).countP (fun entry => entry.2 = other) +
        (OrdMap.lookup now list).toList.count other =
      list.countP (fun entry => entry.2 = other) + (if value = other then 1 else 0) := by
  induction list with
  | nil => simp [OrdMap.store, OrdMap.lookup, List.countP_cons]
  | cons head rest ih =>
    rcases head with ⟨time, old⟩
    obtain ⟨above, tail⟩ := List.pairwise_cons.mp sorted
    rw [OrdMap.store]
    split
    case isTrue first =>
      -- Nothing stands at a time before all others.
      have absent : OrdMap.lookup now ((time, old) :: rest) = none := by
        apply OrdMap.lookup_below
        intro entry member
        rcases List.mem_cons.mp member with rfl | member
        · exact first
        · exact Nat.lt_trans first (above entry member)
      rw [absent]
      simp [List.countP_cons]
    case isFalse notFirst =>
      split
      case isTrue same =>
        subst same
        simp only [List.countP_cons, decide_eq_true_eq, OrdMap.lookup, if_true, Option.toList_some,
          List.count_singleton, beq_iff_eq]
        omega
      case isFalse apart =>
        have rest := ih tail
        simp only [List.countP_cons, decide_eq_true_eq, OrdMap.lookup, if_neg apart]
        omega

theorem counted_succ (times : Nat) : some (((counted times).map (· + 1)).getD 1) = counted (times + 1) := by
  unfold counted
  by_cases none_ : times = 0
  · simp [none_]
  · simp [none_]

end Counts

section Histories

variable {span now : Nat} {history : List Call} {data : MaxTimeWindow}

/-- A window that comes of a history: at each time within the span stands the latest datum, and what was overwritten
still counts. -/
structure Holds (span now : Nat) (history : List Call) (data : MaxTimeWindow) : Prop where
  length : data.span = span
  bounded : ∀ value, data.held value + (overwritten history).count value ≤ maxCount
  window : ∀ time, data.window.find? time =
    if now - span ≤ time then OrdMap.lookup time (added history) else none
  counts : data.Counts (overwritten history)

theorem holds_new (span now : Nat) : Holds span now [] (new span) where
  length := rfl
  bounded _ := Nat.zero_le _
  window _ := by simp [new, added, OrdMap.lookup]
  counts _ := rfl

theorem overwritten_addData (now value : Nat) (earlier : List Call) :
    overwritten (.addData now value :: earlier) =
      (OrdMap.lookup now (added earlier)).toList ++ overwritten earlier := by
  unfold overwritten
  rw [replaced, List.map_append]
  cases OrdMap.lookup now (added earlier) <;> rfl

/-- What is older than the span is forgotten, without a failure. -/
theorem Holds.elapse (holds : Holds span now history data) {next : Nat} (later : now ≤ next) :
    ∃ after, data.elapse (next - span) = some after ∧ Holds span next history after := by
  have sorted := data.window.sorted.filter fun entry => decide (entry.1 < next - span)
  -- Forgetting counts no value more often.
  have step : ∀ (other : MaxTimeWindow) (entry : Nat × Nat), (other.Counts (overwritten history) ∧ other.span = span ∧
      ∀ value, other.held value ≤ data.held value) → entry ∈ other.window.entries →
        ∃ after, other.forget entry = some after ∧ (after.Counts (overwritten history) ∧ after.span = span ∧
          ∀ value, after.held value ≤ data.held value) ∧ after.window = other.window.erase entry.1 := by
    rintro other entry ⟨counts, length, fewer⟩ member
    obtain ⟨after, forgot, counts, window, same⟩ := counts.forget member
    refine ⟨after, forgot, ⟨counts, same.trans length, fun value => Nat.le_trans ?_ (fewer value)⟩, window⟩
    have erased := countP_erase member value
    rw [held, held, window]
    omega
  obtain ⟨after, done, ⟨counts, length, fewer⟩, found⟩ :=
    foldlM_forget_keeps step sorted ⟨holds.counts, holds.length, fun _ => Nat.le_refl _⟩
      fun _ member => (List.mem_filter.mp member).1
  have bounded (value : Nat) : after.held value + (overwritten history).count value ≤ maxCount :=
    Nat.le_trans (Nat.add_le_add_right (fewer value) _) (holds.bounded value)
  refine ⟨after, done, length, bounded, fun time => ?_, counts⟩
  rw [found, holds.window]
  by_cases old : time < next - span
  · rw [if_neg (Nat.not_le.mpr old)]
    -- An entry of that time is among those that were forgotten, or there is none.
    split
    case isTrue => rfl
    case isFalse kept =>
      by_contra present
      obtain ⟨value, here⟩ := Option.ne_none_iff_exists'.mp present
      have entry := OrdMap.find?_eq_some_iff.mp ((holds.window time).trans here)
      exact kept (List.mem_map.mpr ⟨_, List.mem_filter.mpr ⟨entry, by simpa using old⟩, rfl⟩)
  · have fresh : next - span ≤ time := Nat.not_lt.mp old
    have kept : time ∉ (data.window.entries.filter fun entry => decide (entry.1 < next - span)).map Prod.fst := by
      intro member
      obtain ⟨entry, forgotten, rfl⟩ := List.mem_map.mp member
      exact old (of_decide_eq_true (List.mem_filter.mp forgotten).2)
    have before : now - span ≤ time := by omega
    rw [if_pos fresh, if_pos before]
    exact if_neg kept

theorem Holds.record (holds : Holds span now history data) {value : Nat}
    (fits : data.held value + (overwritten history).count value < maxCount) :
    Holds span now (.addData now value :: history) (data.record now value) := by
  -- What stood at the same time is still there, since it is within the span.
  have stood : OrdMap.lookup now data.window.entries = OrdMap.lookup now (added history) :=
    (holds.window now).trans (if_pos (Nat.sub_le _ _))
  have total (other : Nat) : (data.record now value).held other +
      (overwritten (.addData now value :: history)).count other =
        data.held other + (overwritten history).count other + (if value = other then 1 else 0) := by
    have stored := countP_store now value other data.window.sorted
    rw [stood] at stored
    show (OrdMap.store now value data.window.entries).countP (fun entry => entry.2 = other) + _ = _
    rw [overwritten_addData, List.count_append, held]
    omega
  refine ⟨holds.length, fun other => ?_, fun time => ?_, fun other => ?_⟩
  · have before := holds.bounded other
    rw [total]
    split
    · rename_i same
      rw [← same]
      omega
    · omega
  · show (data.window.insert now value).find? time = _
    rw [OrdMap.find?_insert, holds.window]
    by_cases same : time = now
    · subst same
      rw [if_pos rfl, if_pos (Nat.sub_le _ _), added, OrdMap.lookup, if_pos rfl]
    · rw [if_neg same, added, OrdMap.lookup, if_neg same]
  · show (data.values.insert value _).find? other = _
    rw [total, OrdMap.find?_insert]
    by_cases same : other = value
    · subst same
      rw [if_pos rfl, if_pos rfl, holds.counts other, counted_succ]
    · rw [if_neg same, if_neg (fun eq => same eq.symm), holds.counts other, Nat.add_zero]

/-- The latest data of each time from an instant on. -/
def standing (lowest : Nat) : List Call → OrdMap Nat
  | [] => .empty
  | .addData now value :: earlier =>
    if lowest ≤ now then (standing lowest earlier).insert now value else standing lowest earlier
  | .timeElapsed _ :: earlier => standing lowest earlier

theorem find?_standing (lowest time : Nat) : ∀ history : List Call,
    (standing lowest history).find? time = if lowest ≤ time then OrdMap.lookup time (added history) else none
  | [] => by simp [standing, added, OrdMap.lookup]
  | .timeElapsed _ :: earlier => find?_standing lowest time earlier
  | .addData now value :: earlier => by
    have before := find?_standing lowest time earlier
    rw [standing, added, OrdMap.lookup]
    by_cases same : time = now
    · subst same
      by_cases fresh : lowest ≤ time
      · simp [fresh]
      · simp [fresh, before]
    · by_cases fresh : lowest ≤ now
      · rw [if_pos fresh, OrdMap.find?_insert, if_neg same, before, if_neg same]
      · rw [if_neg fresh, before, if_neg same]

/-- Every datum from an instant on stands, or was replaced. -/
theorem countP_standing (lowest value : Nat) : ∀ history : List Call,
    (standing lowest history).entries.countP (fun entry => entry.2 = value) + (overwritten history).count value =
      (((added history).filter fun entry => lowest ≤ entry.1).map Prod.snd).count value +
        (((replaced history).filter fun entry => entry.1 < lowest).map Prod.snd).count value
  | [] => rfl
  | .timeElapsed _ :: earlier => countP_standing lowest value earlier
  | .addData now new :: earlier => by
    have before := countP_standing lowest value earlier
    have stood := find?_standing lowest now earlier
    rw [overwritten_addData, List.count_append, standing, added, replaced, List.filter_cons, List.filter_append,
      List.map_append, List.count_append]
    by_cases fresh : lowest ≤ now
    · have stored := countP_store now new value (standing lowest earlier).sorted
      rw [if_pos fresh] at stood
      rw [show OrdMap.lookup now (standing lowest earlier).entries = _ from stood] at stored
      have none_ : (((OrdMap.lookup now (added earlier)).map (Prod.mk now)).toList.filter
          fun entry => decide (entry.1 < lowest)) = [] := by
        cases OrdMap.lookup now (added earlier) <;> simp [fresh]
      rw [if_pos fresh, if_pos (decide_eq_true fresh), none_, List.map_cons, List.count_cons]
      show (OrdMap.store now new (standing lowest earlier).entries).countP _ + _ = _
      simp only [List.map_nil, List.count_nil, beq_iff_eq]
      omega
    · -- An old datum stands no more, and neither does what it replaces.
      have all : (((OrdMap.lookup now (added earlier)).map (Prod.mk now)).toList.filter
          fun entry => decide (entry.1 < lowest)).map Prod.snd = (OrdMap.lookup now (added earlier)).toList := by
        cases OrdMap.lookup now (added earlier) <;> simp [Nat.not_le.mp fresh]
      rw [if_neg fresh, if_neg (by simpa using fresh), all]
      omega

/-- A window of a history counts each value as often as it occurs. -/
theorem Holds.counts_occurrences (holds : Holds span now history data) (value : Nat) :
    data.held value + (overwritten history).count value = occurrences span now history value := by
  have same : data.window = standing (now - span) history :=
    OrdMap.ext_find? fun time => (holds.window time).trans (find?_standing (now - span) time history).symm
  rw [held, same]
  exact countP_standing (now - span) value history

/-- A call succeeds just when its times and counts stay within their types. -/
theorem Holds.turn (holds : Holds span now history data) {call : Call} (later : now ≤ call.now) :
    (FitsCall span history call → ∃ after, data.turn call = some after ∧ Holds span call.now (call :: history) after) ∧
      (¬ FitsCall span history call → data.turn call = none) := by
  obtain ⟨elapsed, ran, kept⟩ := holds.elapse later
  have length := holds.length
  have early (short : call.now < span) : data.timeElapsed call.now = none := by
    rw [MaxTimeWindow.timeElapsed, length, if_pos short]
  have timed (long : span ≤ call.now) : data.timeElapsed call.now = some elapsed := by
    rw [MaxTimeWindow.timeElapsed, length, if_neg (Nat.not_lt.mpr long), ran]
  cases call with
  | timeElapsed next =>
    constructor
    · exact fun fits => ⟨elapsed, timed fits, kept.length, kept.bounded, kept.window, kept.counts⟩
    · exact fun fails => early (Nat.not_le.mp fails)
  | addData next value =>
    have times := kept.counts_occurrences value
    have counts := kept.counts value
    constructor
    · rintro ⟨long, fewer⟩
      have below : elapsed.held value + (overwritten history).count value < maxCount := times ▸ fewer
      refine ⟨elapsed.record next value, ?_, kept.record below⟩
      have more : elapsed.values.find? value ≠ some maxCount := by
        rw [counts, counted]
        split
        · exact fun none_ => nomatch none_
        · exact fun same => Nat.ne_of_lt below (Option.some.inj same)
      simp [MaxTimeWindow.turn, MaxTimeWindow.addData, show data.timeElapsed next = some elapsed from timed long, more]
    · intro fails
      by_cases long : span ≤ next
      · -- The value counts as often as can be told.
        have most : elapsed.held value + (overwritten history).count value = maxCount := by
          have bound := kept.bounded value
          have many : ¬ occurrences span next history value < maxCount := fun fewer => fails ⟨long, fewer⟩
          have many : maxCount ≤ elapsed.held value + (overwritten history).count value :=
            times ▸ Nat.not_lt.mp many
          omega
        have full : elapsed.values.find? value = some maxCount := by
          rw [counts, most]
          rfl
        simp [MaxTimeWindow.turn, MaxTimeWindow.addData, show data.timeElapsed next = some elapsed from timed long,
          full]
      · simp [MaxTimeWindow.turn, MaxTimeWindow.addData,
          show data.timeElapsed next = none from early (Nat.not_le.mp long)]

/-- The time of the latest call. -/
def latest : List Call → Nat
  | [] => 0
  | call :: _ => call.now

/-- A history that does not fail leaves a window that comes of it. -/
theorem after_holds (span : Nat) : ∀ {history : List Call}, Timely history → ∀ {data : MaxTimeWindow},
    after span history = some data → Holds span (latest history) history data
  | [], _, _, done => by
    cases done
    exact holds_new span 0
  | call :: earlier, timely, data, done => by
    obtain ⟨before, timely⟩ := List.pairwise_cons.mp timely
    obtain ⟨middle, went, turned⟩ := Option.bind_eq_some_iff.mp done
    have later : latest earlier ≤ call.now := by
      cases earlier with
      | nil => exact Nat.zero_le _
      | cons last _ => exact before last List.mem_cons_self
    obtain ⟨fits, fails⟩ := (after_holds span timely went).turn later
    by_cases within_ : FitsCall span earlier call
    · obtain ⟨other, same, holds⟩ := fits within_
      cases turned.symm.trans same
      exact holds
    · cases turned.symm.trans (fails within_)

/-- A history fails nowhere just when all its times and counts stay within their types. -/
theorem after_iff_fits (span : Nat) (timely : Timely history) :
    (∃ data, after span history = some data) ↔ Fits span history := by
  -- Induction on the history, whose latest call is not before the others.
  induction history with
  | nil => exact ⟨fun _ call earlier part => (by simp at part), fun _ => ⟨_, rfl⟩⟩
  | cons call earlier ih =>
    obtain ⟨before, timely'⟩ := List.pairwise_cons.mp timely
    have later : latest earlier ≤ call.now := by
      cases earlier with
      | nil => exact Nat.zero_le _
      | cons last _ => exact before last List.mem_cons_self
    constructor
    · rintro ⟨data, done⟩ other rest part
      obtain ⟨middle, went, turned⟩ := Option.bind_eq_some_iff.mp done
      rcases List.suffix_cons_iff.mp part with same | part
      · cases same
        by_contra fails
        cases turned.symm.trans (((after_holds span timely' went).turn later).2 fails)
      · exact (ih timely').mp ⟨middle, went⟩ other rest part
    · intro fits
      obtain ⟨middle, went⟩ := (ih timely').mpr fun other rest part =>
        fits other rest (part.trans (List.suffix_cons _ _))
      obtain ⟨after_, turned, -⟩ :=
        ((after_holds span timely' went).turn later).1 (fits call earlier (List.suffix_refl _))
      exact ⟨after_, by rw [after, went]; exact turned⟩

end Histories

section Largest

variable {span now : Nat} {history : List Call} {data : MaxTimeWindow}

theorem getLast?_eq_max? {list : List Nat} (sorted : list.Pairwise (· < ·)) : list.getLast? = list.max? := by
  rcases List.eq_nil_or_concat list with rfl | ⟨front, last, rfl⟩
  · rfl
  · rw [List.concat_eq_append] at sorted ⊢
    rw [List.getLast?_append, List.getLast?_singleton, Option.some_or, eq_comm, List.max?_eq_some_iff]
    refine ⟨by simp, fun other member => ?_⟩
    rcases List.mem_append.mp member with front_ | same
    · exact Nat.le_of_lt ((List.pairwise_append.mp sorted).2.2 other front_ last List.mem_cons_self)
    · exact Nat.le_of_eq (List.mem_singleton.mp same)

variable {left right : List Nat} {time value : Nat}

theorem max?_congr (same : ∀ number, number ∈ left ↔ number ∈ right) : left.max? = right.max? := by
  ext number
  simp only [List.max?_eq_some_iff, same]

/-- More numbers leave the largest one as it is just when each of them is at most one that was there. -/
theorem max?_append_eq_iff : (left ++ right).max? = left.max? ↔ ∀ number ∈ right, ∃ larger ∈ left, number ≤ larger := by
  constructor
  · intro same number member
    obtain ⟨larger, largest⟩ := Option.isSome_iff_exists.mp
      (List.isSome_max?_of_mem (List.mem_append_right left member))
    have bound := (List.max?_eq_some_iff.mp largest).2 number (List.mem_append_right left member)
    exact ⟨larger, (List.max?_eq_some_iff.mp (same ▸ largest)).1, bound⟩
  · intro covered
    ext number
    rw [List.max?_eq_some_iff, List.max?_eq_some_iff]
    constructor
    · rintro ⟨member, bound⟩
      refine ⟨?_, fun other there => bound other (List.mem_append_left _ there)⟩
      rcases List.mem_append.mp member with there | extra
      · exact there
      · obtain ⟨larger, there, least⟩ := covered number extra
        rw [Nat.le_antisymm least (bound larger (List.mem_append_left _ there))]
        exact there
    · rintro ⟨member, bound⟩
      refine ⟨List.mem_append_left _ member, fun other either => ?_⟩
      rcases List.mem_append.mp either with there | extra
      · exact bound other there
      · obtain ⟨larger, there, least⟩ := covered other extra
        exact Nat.le_trans least (bound larger there)

theorem mem_of_lookup {list : List (Nat × Nat)} (found : OrdMap.lookup time list = some value) :
    (time, value) ∈ list := by
  induction list with
  | nil => cases found
  | cons head rest ih =>
    rw [OrdMap.lookup] at found
    split at found
    case isTrue same =>
      cases found
      exact List.mem_cons.mpr (Or.inl (Prod.ext same rfl))
    case isFalse => exact List.mem_cons_of_mem _ (ih found)

/-- A datum is the latest one of its time, or was overwritten. -/
theorem lookup_or_overwritten (member : (time, value) ∈ added history) :
    OrdMap.lookup time (added history) = some value ∨ value ∈ overwritten history := by
  induction history with
  | nil => cases member
  | cons call earlier ih =>
    cases call with
    | timeElapsed now => exact ih member
    | addData now newer =>
      rw [added, OrdMap.lookup]
      rw [overwritten_addData, List.mem_append]
      rcases List.mem_cons.mp member with same | member
      · cases same
        exact Or.inl (if_pos rfl)
      · rcases ih member with latest | overwritten
        · by_cases same : time = now
          · subst same
            right; left
            rw [latest]
            exact List.mem_singleton_self value
          · left
            rw [if_neg same]
            exact latest
        · exact Or.inr (Or.inr overwritten)

/-- The values that count are those within the span, and those that were overwritten at any time. -/
theorem Holds.mem_keys_iff (holds : Holds span now history data) (value : Nat) :
    value ∈ data.values.keys ↔ value ∈ recent span now history ++ overwritten history := by
  have known : value ∈ data.values.keys ↔ 0 < data.held value + (overwritten history).count value := by
    rw [OrdMap.mem_keys_iff, holds.counts value, counted]
    split
    case isTrue nothing => simp [nothing]
    case isFalse some_ => simp [Nat.pos_of_ne_zero some_]
  rw [known, List.mem_append, Nat.add_pos_iff_pos_or_pos, List.count_pos_iff, held, List.countP_pos_iff]
  constructor
  · rintro (⟨entry, member, same⟩ | overwritten)
    · left
      -- What the window holds was added within the span.
      have found := (holds.window entry.1).symm.trans (OrdMap.find?_eq_some_iff.mpr member)
      split at found
      case isTrue fresh =>
        refine List.mem_map.mpr ⟨entry, List.mem_filter.mpr ⟨mem_of_lookup found, by simpa using fresh⟩, ?_⟩
        simpa using same
      case isFalse => cases found
    · exact Or.inr overwritten
  · rintro (recent_ | overwritten)
    · obtain ⟨entry, member, rfl⟩ := List.mem_map.mp recent_
      obtain ⟨member, fresh⟩ := List.mem_filter.mp member
      rw [decide_eq_true_eq] at fresh
      rcases lookup_or_overwritten member with latest | overwritten
      · left
        have found := (holds.window entry.1).trans ((if_pos fresh).trans latest)
        exact ⟨entry, OrdMap.find?_eq_some_iff.mp found, by simp⟩
      · exact Or.inr overwritten
    · exact Or.inr overwritten

theorem Holds.max_eq (holds : Holds span now history data) :
    data.max = (recent span now history ++ overwritten history).max? := by
  have last : data.max = data.values.keys.getLast? := by
    rw [max, OrdMap.keys, List.getLast?_map]
  rw [last, getLast?_eq_max? data.values.keys_sorted]
  exact max?_congr holds.mem_keys_iff

theorem Timely.suffix {whole part : List Call} (timely : Timely whole) (part_ : part <:+ whole) : Timely part :=
  List.Pairwise.sublist part_.sublist timely

/--
The largest value is that of the data within the span, and no call fails, just when no value that was overwritten is
above them and all times and counts stay within their types.
-/
theorem keepsMaximum_iff_covered (span : Nat) {history : List Call} (timely : Timely history) :
    KeepsMaximum span history ↔ Covered span history ∧ Fits span history := by
  -- After each call the window is known, so the two largest values can be compared.
  have each : ∀ call earlier data, call :: earlier <:+ history → after span (call :: earlier) = some data →
      (data.max = (recent span call.now (call :: earlier)).max? ↔
        ∀ value ∈ overwritten (call :: earlier),
          ∃ larger ∈ recent span call.now (call :: earlier), value ≤ larger) := by
    intro call earlier data part done
    have holds : Holds span call.now (call :: earlier) data := after_holds span (timely.suffix part) done
    rw [← max?_append_eq_iff, ← holds.max_eq]
  constructor
  · intro keeps
    refine ⟨fun call earlier part => ?_, fun call earlier part => ?_⟩
    · obtain ⟨data, done, largest⟩ := keeps call earlier part
      exact (each call earlier data part done).mp largest
    · obtain ⟨data, done, -⟩ := keeps call earlier part
      exact (after_iff_fits span (timely.suffix part)).mp ⟨data, done⟩ call earlier (List.suffix_refl _)
  · rintro ⟨covered, fits⟩ call earlier part
    obtain ⟨data, done⟩ := (after_iff_fits span (timely.suffix part)).mpr fun other rest inner =>
      fits other rest (inner.trans part)
    exact ⟨data, done, (each call earlier data part done).mpr (covered call earlier part)⟩

/-- A value that was overwritten stays the largest one when everything else is long past. -/
theorem overwritten_stays :
    ¬ ∀ span history, Timely history → KeepsMaximum span history := by
  intro keeps
  have timely : Timely [.timeElapsed 1200, .addData 1000 3, .addData 1000 5] := by
    unfold Timely
    decide
  obtain ⟨data, done, largest⟩ := keeps 100 _ timely _ _ (List.suffix_refl _)
  have stays : (after 100 [.timeElapsed 1200, .addData 1000 3, .addData 1000 5]).map max = some (some 5) := by decide
  rw [done, Option.map_some, largest] at stays
  revert stays
  decide

theorem keepsMaximum_iff_covered_once :
    KeepsMaximum 100 [.timeElapsed 1200, .addData 1050 3, .addData 1000 5] ↔
      Covered 100 [.timeElapsed 1200, .addData 1050 3, .addData 1000 5] ∧
        Fits 100 [.timeElapsed 1200, .addData 1050 3, .addData 1000 5] :=
  keepsMaximum_iff_covered 100 (by unfold Timely; decide)

end Largest

end MaxTimeWindow

end Congestion

end Flexicast
