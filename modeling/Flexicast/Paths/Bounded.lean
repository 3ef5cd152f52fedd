import Mathlib.Data.List.Nodup

/-! The bounded collections of `cid.rs`: a queue of values with distinct numbers, and a set of numbers. -/

namespace Flexicast

/-- Errors of the connection identifiers and of the paths. -/
inductive PathError where
  /-- Too many identifiers. -/
  | idLimit
  /-- The identifier would be the last one. -/
  | outOfIdentifiers
  /-- The state does not allow the operation. -/
  | invalidState
  /-- The frame does not fit what was received before. -/
  | invalidFrame
  /-- There is no path identifier left, or it is closed. -/
  | outOfPathId
  /-- The path identifier is beyond the allowed ones. -/
  | pathIdViolation
  | unavailablePath
  /-- The last active path cannot be closed. -/
  | noMorePath
  /-- There is no room for another path. -/
  | done
  deriving DecidableEq

/-- Values with a number. -/
class Identifiable (α : Type) where
  id : α → Nat

/-- A queue of values with distinct numbers, up to a bound. -/
structure BoundedNonEmptyVecDeque (α : Type) [Identifiable α] where
  inner : List α
  capacity : Nat
  unique : (inner.map Identifiable.id).Nodup

namespace BoundedNonEmptyVecDeque

variable {α : Type} [Identifiable α]

/-- A queue with one value. -/
def new (capacity : Nat) (initialEntry : α) : BoundedNonEmptyVecDeque α :=
  ⟨[initialEntry], capacity, by simp⟩

/-- Raises the maximum number of values. -/
def resize (queue : BoundedNonEmptyVecDeque α) (newCapacity : Nat) : BoundedNonEmptyVecDeque α :=
  if queue.capacity < newCapacity then { queue with capacity := newCapacity } else queue

/-- The value with a number. -/
def get (queue : BoundedNonEmptyVecDeque α) (id : Nat) : Option α :=
  queue.inner.find? fun e => Identifiable.id e == id

/-- The number of values. -/
def len (queue : BoundedNonEmptyVecDeque α) : Nat := queue.inner.length

theorem ids_replaced (inner : List α) (e : α) :
    (inner.map fun old => if Identifiable.id old = Identifiable.id e then e else old).map Identifiable.id =
      inner.map Identifiable.id := by
  rw [List.map_map]
  apply List.map_congr_left
  intro old _
  simp only [Function.comp_apply]
  split
  · rename_i equal
    exact equal.symm
  · rfl

/-- Replaces the value with the same number. -/
def replace (queue : BoundedNonEmptyVecDeque α) (e : α) : BoundedNonEmptyVecDeque α where
  inner := queue.inner.map fun old => if Identifiable.id old = Identifiable.id e then e else old
  capacity := queue.capacity
  unique := by
    rw [ids_replaced]
    exact queue.unique

/-- Changes every value, none of which gets another number. -/
def mapValues (queue : BoundedNonEmptyVecDeque α) (f : α → α)
    (same : ∀ e, Identifiable.id (f e) = Identifiable.id e) : BoundedNonEmptyVecDeque α where
  inner := queue.inner.map f
  capacity := queue.capacity
  unique := by
    have numbers : (queue.inner.map f).map Identifiable.id = queue.inner.map Identifiable.id := by
      rw [List.map_map]
      exact List.map_congr_left fun e _ => same e
    rw [numbers]
    exact queue.unique

theorem not_mem_of_get {queue : BoundedNonEmptyVecDeque α} {id : Nat} (absent : queue.get id = none) :
    id ∉ queue.inner.map Identifiable.id := by
  intro member
  obtain ⟨e, listed, same⟩ := List.mem_map.mp member
  have other := List.find?_eq_none.mp absent e listed
  simp [same] at other

/-- Adds a value at the end. -/
def pushBack (queue : BoundedNonEmptyVecDeque α) (e : α) (absent : queue.get (Identifiable.id e) = none) :
    BoundedNonEmptyVecDeque α where
  inner := queue.inner ++ [e]
  capacity := queue.capacity
  unique := by
    rw [List.map_append]
    apply List.Nodup.append queue.unique (by simp)
    intro id member single
    rw [List.map_singleton, List.mem_singleton] at single
    rw [single] at member
    exact not_mem_of_get absent member

/-- Inserts a value, in place of the one with the same number if there is one. -/
def insert (queue : BoundedNonEmptyVecDeque α) (e : α) : Except PathError (BoundedNonEmptyVecDeque α) :=
  match absent : queue.get (Identifiable.id e) with
  | some _ => .ok (queue.replace e)
  | none => if queue.capacity ≤ queue.len then .error .idLimit else .ok (queue.pushBack e absent)

/-- Removes all values and inserts one. -/
def clearAndInsert (queue : BoundedNonEmptyVecDeque α) (e : α) : BoundedNonEmptyVecDeque α :=
  ⟨[e], queue.capacity, by simp⟩

/-- Keeps some of the values, in their order. -/
def keep (queue : BoundedNonEmptyVecDeque α) (inner : List α) (sub : List.Sublist inner queue.inner) :
    BoundedNonEmptyVecDeque α :=
  ⟨inner, queue.capacity, queue.unique.sublist (sub.map _)⟩

/-- Removes the value with a number, unless it would be the last one. -/
def remove (queue : BoundedNonEmptyVecDeque α) (id : Nat) (allowEmpty : Bool) :
    Except PathError (Option α × BoundedNonEmptyVecDeque α) :=
  if queue.len ≤ 1 then
    -- On a path that is being closed the removal is delayed.
    if allowEmpty then .ok (none, queue) else .error .outOfIdentifiers
  else
    .ok (queue.get id, queue.keep (queue.inner.eraseP fun e => Identifiable.id e == id) List.eraseP_sublist)

section Laws

variable {queue after : BoundedNonEmptyVecDeque α} {id : Nat} {e : α}

theorem id_of_get (found : queue.get id = some e) : Identifiable.id e = id := by
  have same := List.find?_some found
  simpa using same

theorem get_of_mem (member : e ∈ queue.inner) : queue.get (Identifiable.id e) = some e := by
  -- The first value with this number is the only one.
  cases found : queue.get (Identifiable.id e) with
  | none => exact absurd (List.mem_map_of_mem member) (not_mem_of_get found)
  | some other =>
    have same := id_of_get found
    have listed := List.mem_of_find?_eq_some found
    rw [List.inj_on_of_nodup_map queue.unique listed member same]

theorem get_eq_some_iff : queue.get id = some e ↔ e ∈ queue.inner ∧ Identifiable.id e = id := by
  constructor
  · intro found
    exact ⟨List.mem_of_find?_eq_some found, id_of_get found⟩
  · rintro ⟨member, rfl⟩
    exact get_of_mem member

@[simp] theorem get_resize (queue : BoundedNonEmptyVecDeque α) (newCapacity id : Nat) :
    (queue.resize newCapacity).get id = queue.get id := by
  unfold resize
  split <;> rfl

@[simp] theorem len_resize (queue : BoundedNonEmptyVecDeque α) (newCapacity : Nat) :
    (queue.resize newCapacity).len = queue.len := by
  unfold resize
  split <;> rfl

@[simp] theorem get_mapValues (queue : BoundedNonEmptyVecDeque α) (f : α → α)
    (same : ∀ e, Identifiable.id (f e) = Identifiable.id e) (probe : Nat) :
    (queue.mapValues f same).get probe = (queue.get probe).map f := by
  unfold get mapValues
  simp only
  rw [List.find?_map]
  have hits : (fun e : α => Identifiable.id e == probe) ∘ f = fun e => Identifiable.id e == probe := by
    funext e
    simp only [Function.comp_apply, same e]
  rw [hits]

/-- Replacing a value by itself changes nothing. -/
theorem replace_self (member : e ∈ queue.inner) : queue.replace e = queue := by
  have same : (queue.inner.map fun old => if Identifiable.id old = Identifiable.id e then e else old) =
      queue.inner := by
    have kept : ∀ old ∈ queue.inner, (if Identifiable.id old = Identifiable.id e then e else old) = id old := by
      intro old listed
      split
      · rename_i equal
        exact (List.inj_on_of_nodup_map queue.unique listed member equal).symm
      · rfl
    exact (List.map_congr_left kept).trans (List.map_id queue.inner)
  unfold replace
  simp only [same]

/-- Replacing a value changes only what is found under its number. -/
theorem get_replace (queue : BoundedNonEmptyVecDeque α) (e : α) (probe : Nat) :
    (queue.replace e).get probe =
      if probe = Identifiable.id e then (queue.get probe).map fun _ => e else queue.get probe := by
  unfold get replace
  simp only
  -- Each value keeps its number, so the first one that matches stands at the same place.
  induction queue.inner with
  | nil => split <;> rfl
  | cons head rest ih =>
    simp only [List.map_cons, List.find?_cons]
    by_cases own : Identifiable.id head = Identifiable.id e
    · rw [if_pos own]
      by_cases hit : Identifiable.id e = probe
      · simp [hit, own]
      · have miss : ¬ probe = Identifiable.id e := fun same => hit same.symm
        have hit' : (Identifiable.id e == probe) = false := by simpa using hit
        rw [if_neg miss] at ih ⊢
        rw [own, hit']
        exact ih
    · rw [if_neg own]
      by_cases hit : Identifiable.id head = probe
      · have miss : ¬ probe = Identifiable.id e := fun same => own (hit.trans same)
        simp [hit, miss]
      · have hit' : (Identifiable.id head == probe) = false := by simpa using hit
        rw [hit']
        simpa using ih

theorem get_pushBack (absent : queue.get (Identifiable.id e) = none) (probe : Nat) :
    (queue.pushBack e absent).get probe = if probe = Identifiable.id e then some e else queue.get probe := by
  unfold get pushBack
  rw [List.find?_append]
  by_cases hit : probe = Identifiable.id e
  · have none : queue.inner.find? (fun e => Identifiable.id e == probe) = none := by
      rw [hit]
      exact absent
    rw [if_pos hit, none]
    simp [hit]
  · have other : ¬ Identifiable.id e = probe := fun same => hit same.symm
    rw [if_neg hit]
    cases queue.inner.find? (fun e => Identifiable.id e == probe) <;> simp [other]

theorem get_insert (inserted : queue.insert e = .ok after) (probe : Nat) :
    after.get probe = if probe = Identifiable.id e then some e else queue.get probe := by
  unfold insert at inserted
  split at inserted
  · rename_i old found
    cases inserted
    rw [get_replace]
    split
    · rename_i hit
      rw [hit, found]
      rfl
    · rfl
  · rename_i absent
    split at inserted
    · cases inserted
    · cases inserted
      exact get_pushBack absent probe

theorem insert_of_some {old : α} (found : queue.get (Identifiable.id e) = some old) :
    queue.insert e = .ok (queue.replace e) := by
  unfold insert
  split
  · rfl
  · rename_i absent
    rw [found] at absent
    cases absent

theorem insert_of_none (absent : queue.get (Identifiable.id e) = none) :
    queue.insert e = if queue.capacity ≤ queue.len then .error .idLimit else .ok (queue.pushBack e absent) := by
  unfold insert
  split
  · rename_i old found
    rw [absent] at found
    cases found
  · rfl

theorem mem_insert (inserted : queue.insert e = .ok after) {value : α} :
    value ∈ after.inner ↔ value = e ∨ (value ∈ queue.inner ∧ Identifiable.id value ≠ Identifiable.id e) := by
  have listed : value ∈ after.inner ↔ after.get (Identifiable.id value) = some value :=
    ⟨get_of_mem, fun found => (get_eq_some_iff.mp found).1⟩
  rw [listed, get_insert inserted]
  by_cases own : Identifiable.id value = Identifiable.id e
  · rw [if_pos own]
    simp only [Option.some.injEq, own, ne_eq, not_true_eq_false, and_false, or_false]
    exact eq_comm
  · rw [if_neg own, get_eq_some_iff]
    have other : value ≠ e := fun same => own (congrArg Identifiable.id same)
    simp [other, own]

theorem full_of_insert {error : PathError} (refused : queue.insert e = .error error) :
    queue.capacity ≤ queue.len := by
  unfold insert at refused
  split at refused
  · cases refused
  · split at refused
    · rename_i full
      exact full
    · cases refused

theorem remove_of_none {allowEmpty : Bool} (long : 1 < queue.len) (absent : queue.get id = none) :
    queue.remove id allowEmpty = .ok (none, queue) := by
  have kept : queue.inner.eraseP (fun e => Identifiable.id e == id) = queue.inner :=
    List.eraseP_of_forall_not (List.find?_eq_none.mp absent)
  unfold remove keep
  rw [if_neg (Nat.not_le.mpr long), absent]
  simp only [kept]

/-- A removal returns what was found under the number, and changes nothing else. -/
theorem get_remove {allowEmpty : Bool} {removed : Option α} (done : queue.remove id allowEmpty = .ok (removed, after))
    (probe : Nat) :
    (removed = none → after = queue ∨ queue.get id = none) ∧
      (∀ e, removed = some e → 1 < queue.len ∧ queue.get id = some e) ∧
      after.get probe = if probe = id ∧ removed.isSome = true then none else queue.get probe := by
  unfold remove at done
  split at done
  · split at done
    · cases done
      exact ⟨fun _ => .inl rfl, fun _ none => by simp at none, by simp⟩
    · cases done
  · rename_i long
    cases done
    refine ⟨fun none => .inr none, fun e found => ⟨by omega, found⟩, ?_⟩
    -- Values with other numbers stay, and with this one there was at most one.
    apply Option.ext
    intro value
    have kept : (queue.keep (queue.inner.eraseP fun e => Identifiable.id e == id) List.eraseP_sublist).get probe =
        some value ↔ value ∈ queue.inner.eraseP (fun e => Identifiable.id e == id) ∧
          Identifiable.id value = probe := get_eq_some_iff
    rw [kept]
    by_cases hit : probe = id
    · subst hit
      cases found : queue.get probe with
      | none =>
        have gone : ∀ e ∈ queue.inner, ¬ (Identifiable.id e == probe) = true := List.find?_eq_none.mp found
        rw [List.eraseP_of_forall_not gone]
        simp only [Option.isSome_none, Bool.false_eq_true, and_false, if_false]
        rw [← found]
        exact get_eq_some_iff.symm
      | some old =>
        simp only [Option.isSome_some, and_self, if_true, reduceCtorEq, iff_false, not_and]
        intro member same
        -- The one value with this number is erased, so a second one would repeat it.
        have listed := List.mem_of_find?_eq_some found
        have hits : (Identifiable.id old == probe) = true := by simpa using id_of_get found
        obtain ⟨first, front, back, before, own, split, erased⟩ :=
          List.exists_of_eraseP (p := fun e => Identifiable.id e == probe) listed hits
        rw [erased] at member
        have unique := queue.unique
        rw [split, List.map_append, List.map_cons] at unique
        have own : Identifiable.id first = probe := by simpa using own
        rcases List.mem_append.mp member with early | late
        · exact before value early (by simpa using same)
        · have distinct := (List.nodup_cons.mp (List.nodup_append.mp unique).2.1).1
          exact distinct (List.mem_map.mpr ⟨value, late, same.trans own.symm⟩)
    · rw [if_neg (fun both => hit both.1)]
      constructor
      · rintro ⟨member, same⟩
        exact get_eq_some_iff.mpr ⟨List.mem_of_mem_eraseP member, same⟩
      · intro found
        obtain ⟨member, same⟩ := get_eq_some_iff.mp found
        refine ⟨?_, same⟩
        apply (List.mem_eraseP_of_neg _).mpr member
        simp [same, hit]

/-- A removal that finds nothing changes nothing. -/
theorem remove_none_same {allowEmpty : Bool} (done : queue.remove id allowEmpty = .ok (none, after)) :
    after = queue := by
  rcases (get_remove done 0).1 rfl with same | absent
  · exact same
  · by_cases short : queue.len ≤ 1
    · unfold remove at done
      rw [if_pos short] at done
      split at done
      · cases done
        rfl
      · cases done
    · rw [remove_of_none (Nat.not_le.mp short) absent] at done
      cases done
      rfl

theorem mem_remove {allowEmpty : Bool} (done : queue.remove id allowEmpty = .ok (some e, after)) {value : α} :
    value ∈ after.inner ↔ value ∈ queue.inner ∧ Identifiable.id value ≠ id := by
  have listed : value ∈ after.inner ↔ after.get (Identifiable.id value) = some value :=
    ⟨get_of_mem, fun found => (get_eq_some_iff.mp found).1⟩
  rw [listed, (get_remove done (Identifiable.id value)).2.2]
  by_cases own : Identifiable.id value = id
  · simp [own]
  · simp [own, get_eq_some_iff]

end Laws

end BoundedNonEmptyVecDeque

/-- A set of sequence numbers, up to a bound. -/
structure BoundedConnectionIdSeqSet where
  inner : List Nat
  capacity : Nat
  deriving DecidableEq

namespace BoundedConnectionIdSeqSet

/-- A set without numbers. -/
def new (capacity : Nat) : BoundedConnectionIdSeqSet := ⟨[], capacity⟩

/-- Inserts a number, if the set is not full. -/
def insert (set : BoundedConnectionIdSeqSet) (e : Nat) : Except PathError BoundedConnectionIdSeqSet :=
  if set.capacity ≤ set.inner.length then .error .idLimit
  else if set.inner.contains e then .ok set
  else .ok { set with inner := e :: set.inner }

/-- Removes a number. -/
def remove (set : BoundedConnectionIdSeqSet) (e : Nat) : BoundedConnectionIdSeqSet :=
  { set with inner := set.inner.filter fun listed => listed != e }

/-- A number that was inserted is in the set, and all others stay. -/
theorem mem_insert {set after : BoundedConnectionIdSeqSet} {e : Nat} (inserted : set.insert e = .ok after)
    (probe : Nat) : probe ∈ after.inner ↔ probe = e ∨ probe ∈ set.inner := by
  unfold insert at inserted
  split at inserted
  · cases inserted
  split at inserted
  · rename_i listed
    cases inserted
    have listed : e ∈ set.inner := List.contains_iff_mem.mp listed
    constructor
    · exact .inr
    · rintro (rfl | member)
      · exact listed
      · exact member
  · cases inserted
    exact List.mem_cons

end BoundedConnectionIdSeqSet

end Flexicast
