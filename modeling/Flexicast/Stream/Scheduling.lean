import Flexicast.Lib.Runs
import Flexicast.Stream.Linking

/-! The order in which the streams of a queue take their turns. -/

namespace Flexicast

section Sorted

variable {α : Type} {r : α → α → Prop} {list front back : List α}

theorem exists_split {p : α → Prop} [DecidablePred p] (sorted : list.Pairwise r)
    (later : ∀ a ∈ list, ∀ b ∈ list, r a b → p a → p b) :
    ∃ front back, list = front ++ back ∧ (∀ a ∈ front, ¬ p a) ∧ ∀ b ∈ back, p b := by
  -- Induction on the list: behind the first element that passes all do.
  induction list with
  | nil => exact ⟨[], [], rfl, fun a member => (by cases member), fun b member => (by cases member)⟩
  | cons head rest ih =>
    obtain ⟨first, tail⟩ := List.pairwise_cons.mp sorted
    by_cases passes : p head
    · refine ⟨[], head :: rest, rfl, fun a member => (by cases member), fun b member => ?_⟩
      rcases List.mem_cons.mp member with rfl | member
      · exact passes
      · exact later head List.mem_cons_self b (List.mem_cons_of_mem _ member) (first b member) passes
    · obtain ⟨front, back, rfl, fail, pass⟩ := ih tail fun a ha b hb =>
        later a (List.mem_cons_of_mem _ ha) b (List.mem_cons_of_mem _ hb)
      refine ⟨head :: front, back, rfl, fun a member => ?_, pass⟩
      rcases List.mem_cons.mp member with rfl | member
      · exact passes
      · exact fail a member

theorem pairwise_between {new : α} (sorted : (front ++ back).Pairwise r) (left : ∀ a ∈ front, r a new)
    (right : ∀ b ∈ back, r new b) : (front ++ new :: back).Pairwise r := by
  obtain ⟨front_, back_, across⟩ := List.pairwise_append.mp sorted
  refine List.pairwise_append.mpr ⟨front_, List.pairwise_cons.mpr ⟨right, back_⟩, fun a ha b hb => ?_⟩
  rcases List.mem_cons.mp hb with rfl | hb
  · exact left a ha
  · exact across a ha b hb

end Sorted

namespace StreamPriorityKey

/-- How a key compares to another one. -/
def partialCmp (key other : StreamPriorityKey) : Ordering :=
  if key.id = other.id then .eq
  else if key.urgency ≠ other.urgency then compare key.urgency other.urgency
  else if !key.incremental && !other.incremental then compare key.id other.id
  else if key.incremental && !other.incremental then .gt
  else if !key.incremental && other.incremental then .lt
  -- Of two incremental streams, the one that is compared comes last, whichever it is.
  else .gt

theorem before_iff {key other : StreamPriorityKey} : key.before other = true ↔ key.partialCmp other = .lt := by
  unfold before partialCmp
  by_cases same : key.id = other.id
  · simp [same]
  by_cases urgent : key.urgency = other.urgency
  · cases key.incremental <;> cases other.incremental <;> simp [same, urgent, Nat.compare_eq_lt]
  · simp [same, urgent, Nat.compare_eq_lt]

/-- What a tree does with a new key: it puts it behind the keys that it does not compare below, and in front of the
others, when these are in this sequence. -/
structure Places (place : StreamPriorityKey → List StreamPriorityKey → List StreamPriorityKey) : Prop where
  /-- The new key comes between the two parts, which stay as they are. -/
  between : ∀ key front back, (∀ other ∈ front, key.partialCmp other ≠ .lt) →
    (∀ other ∈ back, key.partialCmp other = .lt) → place key (front ++ back) = front ++ key :: back

/-- The queues of a connection do so. -/
theorem link_places : Places link := by
  refine ⟨fun key front back left right => ?_⟩
  -- Induction on the keys in front, which the new one is not sorted before.
  induction front with
  | nil =>
    cases back with
    | nil => rfl
    | cons head rest => exact if_pos (before_iff.mpr (right head List.mem_cons_self))
  | cons head front ih =>
    have behind : ¬ key.before head = true := fun before => left head List.mem_cons_self (before_iff.mp before)
    have rest := ih fun other member => left other (List.mem_cons_of_mem _ member)
    rw [List.cons_append, link, if_neg behind, rest, List.cons_append]

end StreamPriorityKey

/-- A queue of streams, with the times of the last insertions. -/
structure PriorityQueue where
  /-- The keys in the order of iteration. -/
  keys : List StreamPriorityKey
  inserted : StreamPriorityKey → Nat
  clock : Nat

/-- What happens to a queue of streams. -/
inductive PriorityEvent where
  /-- A key is inserted, unless it is linked. -/
  | insert (key : StreamPriorityKey)
  | remove (key : StreamPriorityKey)
  /-- A key is replaced, if it is linked. -/
  | updatePriority (old new : StreamPriorityKey)

namespace PriorityQueue

/-- An empty queue. -/
def empty : PriorityQueue := ⟨[], fun _ => 0, 0⟩

variable (place : StreamPriorityKey → List StreamPriorityKey → List StreamPriorityKey)

/-- The queue with a key that is not linked. -/
def enqueue (queue : PriorityQueue) (key : StreamPriorityKey) : PriorityQueue where
  keys := place key queue.keys
  inserted := Function.update queue.inserted key queue.clock
  clock := queue.clock + 1

/-- One operation. -/
def next (queue : PriorityQueue) : PriorityEvent → PriorityQueue
  | .insert key => if key ∈ queue.keys then queue else queue.enqueue place key
  | .remove key => if key ∈ queue.keys then { queue with keys := queue.keys.erase key } else queue
  | .updatePriority old new =>
    if old ∈ queue.keys then { queue with keys := queue.keys.erase old }.enqueue place new else queue

/-- No other key of the same stream is linked when one is inserted. -/
def Linkable (queue : PriorityQueue) : PriorityEvent → Prop
  | .insert key => key ∉ queue.keys → ∀ other ∈ queue.keys, other.id ≠ key.id
  | .remove _ => True
  | .updatePriority old new => old ∈ queue.keys → ∀ other ∈ queue.keys.erase old, other.id ≠ new.id

instance decidableLinkable (queue : PriorityQueue) : (event : PriorityEvent) → Decidable (queue.Linkable event)
  | .insert key => inferInstanceAs (Decidable (key ∉ queue.keys → ∀ other ∈ queue.keys, other.id ≠ key.id))
  | .remove _ => isTrue trivial
  | .updatePriority old new =>
    inferInstanceAs (Decidable (old ∈ queue.keys → ∀ other ∈ queue.keys.erase old, other.id ≠ new.id))

/-- A stream takes its turn before another one. -/
def Precedes (inserted : StreamPriorityKey → Nat) (key other : StreamPriorityKey) : Prop :=
  key.urgency < other.urgency ∨ (key.urgency = other.urgency ∧
    ((key.incremental = false ∧ other.incremental = true) ∨
      (key.incremental = false ∧ other.incremental = false ∧ key.id < other.id) ∨
      (key.incremental = true ∧ other.incremental = true ∧ inserted key < inserted other)))

/-- Every stream takes its turn before the ones behind it. -/
def Ordered (queue : PriorityQueue) : Prop := queue.keys.Pairwise (Precedes queue.inserted)

/-- What every run keeps: the order, and insertions in the past. -/
structure Timed (queue : PriorityQueue) : Prop where
  ordered : queue.Ordered
  past : ∀ key ∈ queue.keys, queue.inserted key < queue.clock

variable {place} {queue : PriorityQueue} {key other late : StreamPriorityKey} {inserted : StreamPriorityKey → Nat}

/-- A key that compares less than another one also does so than the ones behind that. -/
theorem lt_of_precedes (apart : late.id ≠ key.id) (less : key.partialCmp other = .lt)
    (precedes : Precedes inserted other late) : key.partialCmp late = .lt := by
  rw [← StreamPriorityKey.before_iff] at less ⊢
  unfold StreamPriorityKey.before at less ⊢
  unfold Precedes at precedes
  rw [if_neg (Ne.symm apart)]
  split at less
  · cases less
  split at less
  · -- The other key is less urgent, and so are the ones behind it.
    rename_i urgent
    have urgent := of_decide_eq_true less
    have below : key.urgency < late.urgency := by omega
    rw [if_pos (Nat.ne_of_lt below)]
    exact decide_eq_true below
  rename_i urgent
  have urgent := Classical.not_not.mp urgent
  rcases precedes with below | ⟨same, turns⟩
  · rw [if_pos (by omega)]
    exact decide_eq_true (by omega)
  rw [if_neg (by omega)]
  split at less
  · -- Neither key takes turns, so the identifiers decide, unless the late one takes turns.
    rename_i plain
    have plain : key.incremental = false ∧ other.incremental = false := by simpa using plain
    have small := of_decide_eq_true less
    rcases turns with ⟨-, turns⟩ | ⟨-, still, smaller⟩ | ⟨taking, -, -⟩
    · simp [plain.1, turns]
    · simp only [plain.1, still, Bool.not_false, Bool.and_self, if_true]
      exact decide_eq_true (by omega)
    · rw [plain.2] at taking
      cases taking
  · have mixed : key.incremental = false ∧ other.incremental = true := by simpa using less
    rcases turns with ⟨still, -⟩ | ⟨still, -, -⟩ | ⟨-, turns, -⟩
    · rw [mixed.2] at still
      cases still
    · rw [mixed.2] at still
      cases still
    · simp [mixed.1, turns]

/-- A key that compares less than another one takes its turn before. -/
theorem precedes_of_lt (less : key.partialCmp other = .lt) : Precedes inserted key other := by
  rw [← StreamPriorityKey.before_iff] at less
  unfold StreamPriorityKey.before at less
  unfold Precedes
  -- The comparison looks at the stream, the urgency, and whether both take turns, in this order.
  split at less
  · cases less
  split at less
  · exact .inl (of_decide_eq_true less)
  rename_i urgent
  have urgent := Classical.not_not.mp urgent
  split at less
  · rename_i plain
    have plain : key.incremental = false ∧ other.incremental = false := by simpa using plain
    exact .inr ⟨urgent, .inr (.inl ⟨plain.1, plain.2, of_decide_eq_true less⟩)⟩
  · have mixed : key.incremental = false ∧ other.incremental = true := by simpa using less
    exact .inr ⟨urgent, .inl mixed⟩

/-- A key that does not compare less than another one, which was inserted earlier, takes its turn after it. -/
theorem precedes_of_not_lt (apart : other.id ≠ key.id) (early : inserted other < inserted key)
    (more : key.partialCmp other ≠ .lt) : Precedes inserted other key := by
  rw [ne_eq, ← StreamPriorityKey.before_iff] at more
  unfold StreamPriorityKey.before at more
  unfold Precedes
  rw [if_neg (Ne.symm apart)] at more
  by_cases urgent : key.urgency = other.urgency
  · rw [if_neg (Classical.not_not.mpr urgent)] at more
    refine .inr ⟨urgent.symm, ?_⟩
    -- Of two streams that take turns the later one is never less, which puts it behind.
    cases taking : key.incremental with
    | false =>
      cases turns : other.incremental with
      | false =>
        simp only [taking, turns, Bool.not_false, Bool.and_self, if_true, decide_eq_true_eq] at more
        exact .inr (.inl ⟨rfl, rfl, by omega⟩)
      | true => simp [taking, turns] at more
    | true =>
      cases turns : other.incremental with
      | false => exact .inl ⟨rfl, rfl⟩
      | true => exact .inr (.inr ⟨rfl, rfl, early⟩)
  · rw [if_pos urgent, decide_eq_true_eq] at more
    exact .inl (by omega)

/-- A key that is inserted takes its turn in order. -/
theorem Timed.enqueue (timed : queue.Timed) (places : StreamPriorityKey.Places place)
    (apart : ∀ other ∈ queue.keys, other.id ≠ key.id) : (queue.enqueue place key).Timed := by
  -- Other keys keep their times.
  have kept : ∀ other ∈ queue.keys,
      Function.update queue.inserted key queue.clock other = queue.inserted other := by
    intro other member
    exact Function.update_of_ne (fun same => apart other member (congrArg StreamPriorityKey.id same)) _ _
  have own : Function.update queue.inserted key queue.clock key = queue.clock := Function.update_self _ _ _
  have sorted : queue.keys.Pairwise (Precedes (Function.update queue.inserted key queue.clock)) := by
    refine List.Pairwise.imp_of_mem ?_ timed.ordered
    intro other late member member' precedes
    unfold Precedes at precedes ⊢
    rw [kept other member, kept late member']
    exact precedes
  -- The keys that the new one compares below are the last ones.
  have split := @exists_split _ _ _ (fun other => key.partialCmp other = .lt) _ sorted
    fun other _ late member precedes less => lt_of_precedes (apart late member) less precedes
  obtain ⟨front, back, whole, left, right⟩ := split
  have placed := places.between key front back left right
  rw [whole] at kept apart sorted
  have past := timed.past
  rw [whole] at past
  constructor
  · unfold Ordered PriorityQueue.enqueue
    rw [whole, placed]
    -- Behind the keys in front because they came earlier, and before the others by comparison.
    refine pairwise_between sorted (fun other member => ?_) fun other member => precedes_of_lt (right other member)
    have listed := List.mem_append_left back member
    refine precedes_of_not_lt (apart other listed) ?_ (left other member)
    show Function.update queue.inserted key queue.clock other < Function.update queue.inserted key queue.clock key
    rw [kept other listed, own]
    exact past other listed
  · unfold PriorityQueue.enqueue
    rw [whole, placed]
    intro other member
    show Function.update queue.inserted key queue.clock other < queue.clock + 1
    rcases List.mem_append.mp member with member | member
    · rw [kept other (List.mem_append_left _ member)]
      exact Nat.lt_succ_of_lt (past other (List.mem_append_left _ member))
    · rcases List.mem_cons.mp member with rfl | member
      · rw [own]
        exact Nat.lt_succ_self _
      · rw [kept other (List.mem_append_right _ member)]
        exact Nat.lt_succ_of_lt (past other (List.mem_append_right _ member))

theorem Timed.erase (timed : queue.Timed) (key : StreamPriorityKey) :
    Timed { queue with keys := queue.keys.erase key } :=
  ⟨timed.ordered.sublist List.erase_sublist, fun other member => timed.past other (List.mem_of_mem_erase member)⟩

/-- Every operation keeps the order. -/
theorem Timed.next (timed : queue.Timed) (places : StreamPriorityKey.Places place) {event : PriorityEvent}
    (linkable : queue.Linkable event) : (queue.next place event).Timed := by
  -- A key that is linked already is not inserted, and one that is not linked is not removed.
  cases event with
  | insert key =>
    unfold PriorityQueue.next
    by_cases linked : key ∈ queue.keys
    · simp only [if_pos linked]
      exact timed
    · simp only [if_neg linked]
      exact timed.enqueue places (linkable linked)
  | remove key =>
    unfold PriorityQueue.next
    dsimp only
    split
    · exact timed.erase key
    · exact timed
  | updatePriority old new =>
    unfold PriorityQueue.next
    by_cases linked : old ∈ queue.keys
    · simp only [if_pos linked]
      exact (timed.erase old).enqueue places (linkable linked)
    · simp only [if_neg linked]
      exact timed

/-- In every run in which a stream is linked at most once, the streams of a queue take their turns in order. -/
theorem always_ordered (places : StreamPriorityKey.Places place) (events : List PriorityEvent)
    (linkable : Runs.Along (next place) Linkable empty events) :
    (Runs.run (next place) empty events).Ordered := by
  have start : empty.Timed := ⟨List.Pairwise.nil, fun key member => by cases member⟩
  have timed : (Runs.run (next place) empty events).Timed :=
    linkable.keeps (fun _ _ timed linkable => timed.next places linkable) start
  exact timed.ordered

/-- Streams that take turns stand in the order in which they came, behind one that does not. -/
theorem ordered_after_turn :
    let events : List PriorityEvent := [.insert ⟨0, 127, true, 4⟩, .insert ⟨1, 127, true, 0⟩,
      .insert ⟨2, 127, false, 8⟩, .insert ⟨3, 20, true, 12⟩, .remove ⟨0, 127, true, 4⟩, .insert ⟨0, 127, true, 4⟩,
      .updatePriority ⟨3, 20, true, 12⟩ ⟨4, 127, false, 12⟩]
    let final := Runs.run (next StreamPriorityKey.link) empty events
    final.keys.map StreamPriorityKey.id = [8, 12, 0, 4] ∧ final.Ordered :=
  ⟨by decide, always_ordered StreamPriorityKey.link_places _ (by decide)⟩

end PriorityQueue

end Flexicast
