import Flexicast.Lib.OrdMap
import Mathlib.Data.Finset.Card
import Mathlib.Data.Finset.Range
import Mathlib.Data.Finset.Lattice.Fold
import Mathlib.Data.Finset.Image
import Mathlib.Order.Lattice.Nat

/-! Hash sets and hash maps, whose elements are visited in an order that nothing promises. -/

namespace Flexicast

/-- An order in which the elements of sets are visited. -/
structure HashOrder where
  /-- The elements of a set, one after another. -/
  visit : Finset Nat → List Nat
  nodup : ∀ set, (visit set).Nodup
  /-- The elements of the set are visited, and nothing else is. -/
  mem_visit : ∀ set element, element ∈ visit set ↔ element ∈ set

namespace HashOrder

/-- The increasing order. -/
def ascending : HashOrder where
  visit := fun set => (List.range (set.sup id + 1)).filter (· ∈ set)
  nodup := fun _ => List.nodup_range.filter _
  mem_visit := fun set element => by
    -- An element of the set is at most the largest one.
    have bounded : element ∈ set → element < set.sup id + 1 := fun member =>
      Nat.lt_succ_of_le (Finset.le_sup (f := id) member)
    simpa using bounded

/-- The entries of a map, one after another. -/
def visitMap (order : HashOrder) (map : OrdMap Nat) : List (Nat × Nat) :=
  (order.visit map.keys.toFinset).filterMap fun key => (map.find? key).map (key, ·)

variable {map : OrdMap Nat} {entry : Nat × Nat}

/-- A visit to a map returns its entries. -/
theorem mem_visitMap (order : HashOrder) : entry ∈ order.visitMap map ↔ entry ∈ map.entries := by
  -- The keys that are visited are those of the map, each with its own value.
  rcases entry with ⟨key, value⟩
  rw [← OrdMap.find?_eq_some_iff]
  simp only [visitMap, List.mem_filterMap, order.mem_visit, List.mem_toFinset]
  constructor
  · rintro ⟨visited, _, entry⟩
    cases found : map.find? visited with
    | none => simp [found] at entry
    | some held =>
      simp only [found, Option.map_some, Option.some.injEq, Prod.mk.injEq] at entry
      rw [← entry.1, ← entry.2, found]
  · intro found
    refine ⟨key, OrdMap.mem_keys_iff.mpr ?_, by rw [found]; rfl⟩
    simp [found]

/-- The entry with the lower value; the one visited first stays when both are equal. -/
def lower (best next : Nat × Nat) : Nat × Nat := if next.2 < best.2 then next else best

/-- The first entry with the lowest value, as `Iterator::min_by` returns it. -/
def minBy : List (Nat × Nat) → Option (Nat × Nat)
  | [] => none
  | entry :: rest => some (rest.foldl lower entry)

/-- The lower of two entries is one of them, and above none. -/
theorem lower_spec (best next : Nat × Nat) :
    (lower best next = best ∨ lower best next = next) ∧
      (lower best next).2 ≤ best.2 ∧ (lower best next).2 ≤ next.2 := by
  unfold lower
  split
  · exact ⟨Or.inr rfl, by omega, by omega⟩
  · exact ⟨Or.inl rfl, by omega, by omega⟩

/-- The fold of `minBy` ends at an entry of the list that is not above any other. -/
theorem foldl_lower (rest : List (Nat × Nat)) (best : Nat × Nat) :
    rest.foldl lower best ∈ best :: rest ∧ ∀ entry ∈ best :: rest, (rest.foldl lower best).2 ≤ entry.2 := by
  -- Induction on the entries still to come, with the best one so far in front.
  induction rest generalizing best with
  | nil => simp
  | cons next rest ih =>
    obtain ⟨member, below⟩ := ih (lower best next)
    obtain ⟨either, underBest, underNext⟩ := lower_spec best next
    have under := below _ List.mem_cons_self
    simp only [List.foldl_cons]
    constructor
    · rcases List.mem_cons.mp member with same | later
      · rw [same]
        rcases either with same | same <;> simp [same]
      · simp [later]
    · intro entry among
      simp only [List.mem_cons] at among
      rcases among with same | same | among
      · rw [same]
        exact under.trans underBest
      · rw [same]
        exact under.trans underNext
      · exact below entry (List.mem_cons_of_mem _ among)

/-- An entry of a map that is not above any other. -/
def Lowest (map : OrdMap Nat) (entry : Nat × Nat) : Prop :=
  entry ∈ map.entries ∧ ∀ other ∈ map.entries, entry.2 ≤ other.2

instance (map : OrdMap Nat) (entry : Nat × Nat) : Decidable (Lowest map entry) :=
  inferInstanceAs (Decidable (_ ∧ _))

/-- What is elected among the entries of a map is a lowest one. -/
theorem minBy_lowest {order : HashOrder} (elected : minBy (order.visitMap map) = some entry) : Lowest map entry := by
  cases visited : order.visitMap map with
  | nil => simp [visited, minBy] at elected
  | cons first rest =>
    simp only [visited, minBy, Option.some.injEq] at elected
    obtain ⟨member, below⟩ := foldl_lower rest first
    rw [elected, ← visited] at member
    rw [elected, ← visited] at below
    exact ⟨(mem_visitMap order).mp member, fun other found => below other ((mem_visitMap order).mpr found)⟩

/-- Something is elected in every map with an entry. -/
theorem minBy_some (order : HashOrder) (member : entry ∈ map.entries) :
    ∃ elected, minBy (order.visitMap map) = some elected := by
  cases visited : order.visitMap map with
  | nil =>
    have among := (mem_visitMap order).mpr member
    simp [visited] at among
  | cons first rest => exact ⟨_, rfl⟩

end HashOrder

end Flexicast
