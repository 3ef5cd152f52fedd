import Mathlib.Algebra.Ring.Nat

/-! Finite maps keyed by natural numbers, held as a strictly increasing list of entries. -/

namespace Flexicast

/-- A map whose entries are listed by strictly increasing key, as an ordered tree iterates them. -/
structure OrdMap (V : Type) where
  entries : List (Nat × V)
  /-- No key occurs twice, and iteration meets the keys in increasing order. -/
  sorted : entries.Pairwise (fun left right => left.1 < right.1)
  deriving DecidableEq

namespace OrdMap

variable {V : Type}

/-- The value stored under a key of an entry list. -/
def lookup (key : Nat) : List (Nat × V) → Option V
  | [] => none
  | (held, value) :: rest => if key = held then some value else lookup key rest

/-- Storing a value replaces the entry of its key, or opens one in key order. -/
def store (key : Nat) (value : V) : List (Nat × V) → List (Nat × V)
  | [] => [(key, value)]
  | (held, old) :: rest =>
    if key < held then (key, value) :: (held, old) :: rest
    else if key = held then (key, value) :: rest
    else (held, old) :: store key value rest

variable {key : Nat} {value : V} {list : List (Nat × V)} {map : OrdMap V}

/-- Every key after storing is the stored key or one that was already there. -/
theorem store_keys {entry : Nat × V} (member : entry ∈ store key value list) :
    entry.1 = key ∨ ∃ old ∈ list, old.1 = entry.1 := by
  -- The stored entry stands in front of, in place of, or behind the head.
  induction list with
  | nil => left; simp [store] at member; simp [member]
  | cons head rest ih =>
    rcases head with ⟨held, old⟩
    simp only [store] at member
    split at member
    · rcases List.mem_cons.mp member with same | member
      · left; simp [same]
      · right; exact ⟨entry, member, rfl⟩
    · split at member
      · rcases List.mem_cons.mp member with same | member
        · left; simp [same]
        · right; exact ⟨entry, List.mem_cons_of_mem _ member, rfl⟩
      · rcases List.mem_cons.mp member with same | member
        · right; exact ⟨(held, old), List.mem_cons_self, by simp [same]⟩
        · rcases ih member with same | ⟨kept, inRest, keyed⟩
          · left; exact same
          · right; exact ⟨kept, List.mem_cons_of_mem _ inRest, keyed⟩

/-- Storing keeps the entries in key order. -/
theorem store_sorted (key : Nat) (value : V) (sorted : list.Pairwise (fun left right => left.1 < right.1)) :
    (store key value list).Pairwise (fun left right => left.1 < right.1) := by
  -- Whatever stands behind the head has a key above it, the new entry included.
  induction list with
  | nil => simp [store]
  | cons head rest ih =>
    rcases head with ⟨held, old⟩
    obtain ⟨above, tail⟩ := List.pairwise_cons.mp sorted
    simp only [store]
    split
    · rename_i below
      refine List.pairwise_cons.mpr ⟨?_, sorted⟩
      intro entry member
      rcases List.mem_cons.mp member with same | member
      · subst same; exact below
      · exact Nat.lt_trans below (above entry member)
    · split
      · rename_i same
        subst same
        exact List.pairwise_cons.mpr ⟨above, tail⟩
      · refine List.pairwise_cons.mpr ⟨?_, ih tail⟩
        intro entry member
        rcases store_keys member with same | ⟨kept, inRest, keyed⟩
        · show held < entry.1
          omega
        · have := above kept inRest
          show held < entry.1
          omega

/-- The empty map. -/
def empty : OrdMap V := ⟨[], List.Pairwise.nil⟩

instance : Inhabited (OrdMap V) := ⟨empty⟩

/-- The value under a key. -/
def find? (map : OrdMap V) (key : Nat) : Option V := lookup key map.entries

/-- Whether a key has an entry. -/
def contains (map : OrdMap V) (key : Nat) : Bool := (map.find? key).isSome

/-- Sets the value of a key. -/
def insert (map : OrdMap V) (key : Nat) (value : V) : OrdMap V :=
  ⟨store key value map.entries, store_sorted key value map.sorted⟩

/-- Forgets a key. -/
def erase (map : OrdMap V) (key : Nat) : OrdMap V :=
  ⟨map.entries.filter (fun entry => entry.1 ≠ key), map.sorted.filter _⟩

/-- The keys, in increasing order. -/
def keys (map : OrdMap V) : List Nat := map.entries.map Prod.fst

/-- Whether no key has an entry. -/
def isEmpty (map : OrdMap V) : Bool := map.entries.isEmpty

/-- Rewrites every value with its key in view. -/
def mapValues (f : Nat → V → V) (map : OrdMap V) : OrdMap V :=
  ⟨map.entries.map (fun entry => (entry.1, f entry.1 entry.2)),
    List.pairwise_map.mpr (map.sorted.imp (fun below => below))⟩

/-- Keeps the entries whose key is at least the given one, as `split_off` returns them. -/
def splitOff (map : OrdMap V) (key : Nat) : OrdMap V :=
  ⟨map.entries.filter (fun entry => key ≤ entry.1), map.sorted.filter _⟩

/-- The map without its smallest key. -/
def popFirst (map : OrdMap V) : OrdMap V :=
  ⟨map.entries.tail, map.sorted.sublist (List.tail_sublist _)⟩

/-- On a sorted list a lookup finds exactly the listed entries. -/
theorem lookup_eq_some_iff (sorted : list.Pairwise (fun left right => left.1 < right.1)) :
    lookup key list = some value ↔ (key, value) ∈ list := by
  -- Keys are distinct, so the first entry of a key is its only one.
  induction list with
  | nil => simp [lookup]
  | cons head rest ih =>
    rcases head with ⟨held, old⟩
    obtain ⟨above, tail⟩ := List.pairwise_cons.mp sorted
    simp only [lookup, List.mem_cons, Prod.mk.injEq]
    split
    · rename_i same
      subst same
      constructor
      · intro found
        left
        exact ⟨rfl, (Option.some.inj found).symm⟩
      · rintro (⟨-, rfl⟩ | member)
        · rfl
        · exact absurd (above _ member) (Nat.lt_irrefl _)
    · rename_i apart
      rw [ih tail]
      simp [apart]

/-- Storing changes the value of its own key only. -/
theorem lookup_store (key probe : Nat) (value : V) (sorted : list.Pairwise (fun left right => left.1 < right.1)) :
    lookup probe (store key value list) = if probe = key then some value else lookup probe list := by
  -- The key is stored before the first larger one, or in place of itself.
  induction list with
  | nil => simp [store, lookup]
  | cons head rest ih =>
    rcases head with ⟨held, old⟩
    obtain ⟨above, tail⟩ := List.pairwise_cons.mp sorted
    simp only [store]
    split
    · simp [lookup]
    · split
      · rename_i same
        subst same
        by_cases hit : probe = key <;> simp [lookup, hit]
      · rename_i apart
        simp only [lookup, ih tail]
        by_cases hit : probe = held
        · have other : ¬ held = key := fun same => apart same.symm
          simp [hit, other]
        · simp [hit]

@[simp] theorem find?_empty (key : Nat) : (empty : OrdMap V).find? key = none := rfl

/-- Reading a map after a write. -/
@[simp] theorem find?_insert (map : OrdMap V) (key probe : Nat) (value : V) :
    (map.insert key value).find? probe = if probe = key then some value else map.find? probe :=
  lookup_store key probe value map.sorted

/-- An entry found under a key is listed, and every listed entry is found. -/
theorem find?_eq_some_iff : map.find? key = some value ↔ (key, value) ∈ map.entries :=
  lookup_eq_some_iff map.sorted

/-- A map is what its lookups are. -/
theorem ext_find? {left right : OrdMap V} (same : ∀ key, left.find? key = right.find? key) : left = right := by
  have member (entry : Nat × V) : entry ∈ left.entries ↔ entry ∈ right.entries := by
    rw [← find?_eq_some_iff, ← find?_eq_some_iff, same]
  have distinct (map : OrdMap V) : map.entries.Nodup := map.sorted.imp fun below equal => by
    rw [equal] at below
    exact Nat.lt_irrefl _ below
  have perm := (List.perm_ext_iff_of_nodup (distinct left) (distinct right)).mpr member
  have entries : left.entries = right.entries :=
    perm.eq_of_pairwise (fun _ _ _ _ below above => absurd below (Nat.lt_asymm above)) left.sorted right.sorted
  cases left
  cases right
  cases entries
  rfl

/-- An entry after a write is the written one, or an old one under another key. -/
theorem mem_insert_iff {entry : Nat × V} :
    entry ∈ (map.insert key value).entries ↔
      entry = (key, value) ∨ (entry ∈ map.entries ∧ entry.1 ≠ key) := by
  -- Entries are what a lookup of their keys finds, so the law of lookups decides.
  have found : entry ∈ (map.insert key value).entries ↔
      (map.insert key value).find? entry.1 = some entry.2 := find?_eq_some_iff.symm
  rw [found, find?_insert]
  by_cases same : entry.1 = key
  · rw [if_pos same]
    constructor
    · intro stored
      left
      exact Prod.ext same (Option.some.inj stored).symm
    · intro either
      rcases either with this | this
      · rw [this]
      · exact absurd same this.2
  · rw [if_neg same, find?_eq_some_iff]
    constructor
    · exact fun member => Or.inr ⟨member, same⟩
    · intro either
      rcases either with this | this
      · exact absurd (by rw [this]) same
      · exact this.1

/-- What holds of every value of a map, and of a value that is written, holds of every value afterwards. -/
theorem each_insert {property : V → Prop} (new : property value)
    (each : ∀ probe held, map.find? probe = some held → property held) :
    ∀ probe held, (map.insert key value).find? probe = some held → property held := by
  intro probe held found
  rw [find?_insert] at found
  split at found
  · cases found
    exact new
  · exact each probe held found

/-- Reading a map after a removal. -/
@[simp] theorem find?_erase (map : OrdMap V) (key probe : Nat) :
    (map.erase key).find? probe = if probe = key then none else map.find? probe := by
  -- Both sides are determined by which pairs are still listed.
  apply Option.ext
  intro value
  rw [find?_eq_some_iff]
  simp only [erase, List.mem_filter, decide_eq_true_eq]
  by_cases hit : probe = key
  · simp [hit]
  · simp [hit, find?_eq_some_iff]

/-- Removing a key without an entry changes nothing. -/
theorem erase_absent (absent : map.find? key = none) : map.erase key = map := by
  have kept : map.entries.filter (fun entry => decide (entry.1 ≠ key)) = map.entries := by
    refine List.filter_eq_self.mpr fun entry member => ?_
    -- An entry under this key would have been found.
    have found : map.find? entry.1 = some entry.2 := find?_eq_some_iff.mpr member
    refine decide_eq_true fun same => ?_
    rw [same, absent] at found
    simp at found
  cases map with
  | mk entries sorted => simpa [erase] using kept

/-- Storing a rewritten value among rewritten ones rewrites the stored list. -/
theorem store_map (f : V → V) (key : Nat) (value : V) (list : List (Nat × V)) :
    store key (f value) (list.map fun entry => (entry.1, f entry.2)) =
      (store key value list).map fun entry => (entry.1, f entry.2) := by
  -- The keys stay, so the new entry finds the same place.
  induction list with
  | nil => rfl
  | cons head rest ih =>
    rcases head with ⟨held, old⟩
    simp only [List.map_cons, store]
    split
    · rfl
    · split
      · rfl
      · rw [ih]
        rfl

/-- Rewriting the values of a map after a write writes the rewritten value. -/
theorem mapValues_insert (f : V → V) (map : OrdMap V) (key : Nat) (value : V) :
    (map.insert key value).mapValues (fun _ => f) = (map.mapValues fun _ => f).insert key (f value) := by
  simp only [insert, mapValues, store_map]

/-- Rewriting the values of a map commutes with removing a key. -/
theorem mapValues_erase (f : V → V) (map : OrdMap V) (key : Nat) :
    (map.erase key).mapValues (fun _ => f) = (map.mapValues fun _ => f).erase key := by
  simp only [erase, mapValues, List.filter_map]
  rfl

/-- Reading a map after its lower keys were split away. -/
@[simp] theorem find?_splitOff (map : OrdMap V) (key probe : Nat) :
    (map.splitOff key).find? probe = if key ≤ probe then map.find? probe else none := by
  -- Both sides find the same entries, those whose keys are not below the bound.
  apply Option.ext
  intro value
  rw [find?_eq_some_iff]
  simp only [splitOff, List.mem_filter, decide_eq_true_eq]
  by_cases kept : key ≤ probe
  · simp [kept, find?_eq_some_iff]
  · simp [kept]

/-- The listed keys are exactly those with an entry. -/
theorem mem_keys_iff : key ∈ map.keys ↔ ∃ value, map.find? key = some value := by
  simp [keys, find?_eq_some_iff]

/-- Keys are listed in strictly increasing order. -/
theorem keys_sorted (map : OrdMap V) : map.keys.Pairwise (· < ·) :=
  List.pairwise_map.mpr map.sorted

/-- Erasing a listed key drops its entry from its place. -/
theorem entries_erase {front back : List (Nat × V)} (listed : map.entries = front ++ (key, value) :: back) :
    (map.erase key).entries = front ++ back := by
  -- Every other entry has another key, so the filter keeps it.
  have sorted := map.sorted
  rw [listed] at sorted
  obtain ⟨-, behind, before⟩ := List.pairwise_append.mp sorted
  obtain ⟨above, -⟩ := List.pairwise_cons.mp behind
  have keepFront : front.filter (fun entry => decide (entry.1 ≠ key)) = front := by
    refine List.filter_eq_self.mpr fun entry member => ?_
    have := before entry member (key, value) List.mem_cons_self
    simp only [decide_eq_true_eq]
    omega
  have keepBack : back.filter (fun entry => decide (entry.1 ≠ key)) = back := by
    refine List.filter_eq_self.mpr fun entry member => ?_
    have := above entry member
    simp only [decide_eq_true_eq]
    omega
  simp only [erase, listed, List.filter_append, List.filter_cons, keepFront, keepBack]
  simp

/-- A new key is listed between the smaller and the larger ones. -/
theorem store_between (front back : List (Nat × V)) (key : Nat) (value : V)
    (below : ∀ entry ∈ front, entry.1 < key) (above : ∀ entry ∈ back, key < entry.1) :
    store key value (front ++ back) = front ++ (key, value) :: back := by
  induction front with
  | nil =>
    cases back with
    | nil => rfl
    | cons head rest => simp [store, above head List.mem_cons_self]
  | cons head rest ih =>
    -- The head is smaller, so the new entry goes further back.
    have smaller := below head List.mem_cons_self
    simp only [List.cons_append, store]
    rw [if_neg (by omega), if_neg (by omega),
      ih fun entry member => below entry (List.mem_cons_of_mem _ member)]

/-- A map without entries is the empty map. -/
theorem eq_empty_of_isEmpty (none : map.isEmpty = true) : map = empty := by
  cases map with
  | mk entries sorted =>
    simp only [isEmpty, List.isEmpty_iff] at none
    subst none
    rfl

/-- Whether every value of a map meets a condition can be decided. -/
@[reducible] def decidableAll (p : V → Prop) [DecidablePred p] (map : OrdMap V) :
    Decidable (∀ key value, map.find? key = some value → p value) :=
  decidable_of_iff (∀ entry ∈ map.entries, p entry.2)
    ⟨fun all key value found => all (key, value) (find?_eq_some_iff.mp found),
      fun all entry member => all entry.1 entry.2 (find?_eq_some_iff.mpr member)⟩

/-- The sum of a weight over the values of a map. -/
def total (weight : V → Nat) (map : OrdMap V) : Nat := (map.entries.map fun entry => weight entry.2).sum

/-- A key below all others finds nothing. -/
theorem lookup_below (below : ∀ entry ∈ list, key < entry.1) : lookup key list = none := by
  induction list with
  | nil => rfl
  | cons head rest ih =>
    have smaller := below head List.mem_cons_self
    rw [lookup, if_neg (by omega)]
    exact ih fun entry member => below entry (List.mem_cons_of_mem _ member)

/-- Storing a value adds its weight, and takes away that of the value it replaces. -/
theorem sum_store (weight : V → Nat) (key : Nat) (value : V)
    (sorted : list.Pairwise (fun left right => left.1 < right.1)) :
    ((store key value list).map fun entry => weight entry.2).sum + ((lookup key list).map weight).getD 0 =
      (list.map fun entry => weight entry.2).sum + weight value := by
  -- The new entry stands in front of the head, in its place, or behind it.
  induction list with
  | nil => simp [store, lookup]
  | cons head rest ih =>
    rcases head with ⟨held, old⟩
    obtain ⟨above, tail⟩ := List.pairwise_cons.mp sorted
    simp only [store]
    split
    · rename_i below
      have absent : lookup key rest = none :=
        lookup_below fun entry member => Nat.lt_trans below (above entry member)
      have other : ¬ key = held := by omega
      simp only [lookup, if_neg other, absent, Option.map_none, Option.getD_none, List.map_cons, List.sum_cons]
      omega
    · split
      · rename_i same
        simp only [lookup, if_pos same, Option.map_some, Option.getD_some, List.map_cons, List.sum_cons]
        omega
      · rename_i other
        have behind := ih tail
        simp only [lookup, if_neg other, List.map_cons, List.sum_cons]
        omega

/-- A value under a new key adds its weight to the total. -/
theorem total_insert_new (weight : V → Nat) (absent : map.find? key = none) (value : V) :
    (map.insert key value).total weight = map.total weight + weight value := by
  have sums := sum_store weight key value map.sorted
  have none : lookup key map.entries = none := absent
  rw [none] at sums
  exact sums

/-- A value under a key that has one replaces its weight in the total. -/
theorem total_insert_found (weight : V → Nat) {old : V} (found : map.find? key = some old) (value : V) :
    (map.insert key value).total weight + weight old = map.total weight + weight value := by
  have sums := sum_store weight key value map.sorted
  have held : lookup key map.entries = some old := found
  rw [held] at sums
  exact sums

end OrdMap

end Flexicast
