import Flexicast.Paths.PathMap

/-! The status of the paths, which a path that a packet is built on may lose. -/

namespace Flexicast

/-- Whether a path is to be used, as long as another one can be. -/
inductive PathStatus where
  /-- Only probing packets should be sent. -/
  | standby
  /-- The path may be used for all packets. -/
  | available
  deriving DecidableEq

/-- A network path with its status. -/
structure StatusPath extends Path where
  status : PathStatus
  deriving DecidableEq

/-- The path is a backup. -/
def StatusPath.isBackup (path : StatusPath) : Bool :=
  match path.status with
  | .standby => true
  | .available => false

/-- The paths of a connection, with their status. -/
structure StatusMap where
  /-- The paths, by their internal identifiers. -/
  paths : OrdMap StatusPath

namespace StatusMap

variable (self : StatusMap)

/-- Sets the status of a path. -/
def setPathStatus (pid : Nat) (status : PathStatus) : Except PathError StatusMap :=
  match self.paths.find? pid with
  | some path => .ok ⟨self.paths.insert pid { path with status := status }⟩
  | none => .error .invalidState

/-- All paths are in the backup state, as the source tests it. -/
def allAvailablePathsBackup : Bool := !self.paths.entries.all fun entry => entry.2.active && !entry.2.isBackup

/-- A packet is built on a path, which becomes available if all are in the backup state. -/
def sendSingle (sendPid : Nat) : Except PathError StatusMap :=
  if self.allAvailablePathsBackup then self.setPathStatus sendPid .available else .ok self

/-- Every active path is a backup. -/
def OnlyBackups : Prop := ∀ entry ∈ self.paths.entries, entry.2.active = true → entry.2.status = .standby

instance : Decidable self.OnlyBackups := inferInstanceAs (Decidable (∀ entry ∈ self.paths.entries, _))

/-- Building a packet makes a path available that was not. -/
def Overrides (sendPid : Nat) : Prop :=
  ∃ before ∈ self.paths.find? sendPid, before.status ≠ .available ∧
    ∃ after, self.sendSingle sendPid = .ok after ∧ ∃ path ∈ after.paths.find? sendPid, path.status = .available

/-- There are paths, and all of them or none are active and available. -/
def Alike : Prop :=
  self.paths.entries ≠ [] ∧
    ((∀ entry ∈ self.paths.entries, entry.2.active = true ∧ entry.2.status = .available) ∨
      ∀ entry ∈ self.paths.entries, ¬ (entry.2.active = true ∧ entry.2.status = .available))

variable {self}

@[simp] theorem isBackup_iff {path : StatusPath} : path.isBackup = true ↔ path.status = .standby := by
  unfold StatusPath.isBackup
  cases path.status <;> simp

@[simp] theorem status_ne_standby {path : StatusPath} : ¬ path.status = .standby ↔ path.status = .available := by
  cases path.status <;> simp

theorem allAvailablePathsBackup_iff : self.allAvailablePathsBackup = true ↔
    ∃ entry ∈ self.paths.entries, ¬ (entry.2.active = true ∧ entry.2.status = .available) := by
  -- The negation stands before the whole test, not inside it.
  unfold allAvailablePathsBackup
  rw [Bool.not_eq_true', ← Bool.not_eq_true, List.all_eq_true, not_forall]
  refine exists_congr fun entry => ?_
  rw [Classical.not_imp, Bool.and_eq_true, Bool.not_eq_true', ← Bool.not_eq_true, isBackup_iff, status_ne_standby]

theorem onlyBackups_iff : self.OnlyBackups ↔
    ∀ entry ∈ self.paths.entries, ¬ (entry.2.active = true ∧ entry.2.status = .available) := by
  unfold OnlyBackups
  refine forall_congr' fun entry => imp_congr_right fun _ => ?_
  rw [not_and, ← status_ne_standby, Classical.not_not]

theorem fails_iff_all_fail {α : Type} {list : List α} {p : α → Prop} :
    ((∃ e ∈ list, ¬ p e) ↔ ∀ e ∈ list, ¬ p e) ↔ list ≠ [] ∧ ((∀ e ∈ list, p e) ∨ ∀ e ∈ list, ¬ p e) := by
  constructor
  · intro agree
    constructor
    · -- In an empty list all elements fail, and none does.
      rintro rfl
      obtain ⟨e, member, -⟩ := agree.mpr fun e member => by cases member
      cases member
    · by_cases fails : ∃ e ∈ list, ¬ p e
      · exact .inr (agree.mp fails)
      · refine .inl fun e member => ?_
        by_contra fail
        exact fails ⟨e, member, fail⟩
  · rintro ⟨some_, all | none_⟩
    · obtain ⟨e, member⟩ := List.exists_mem_of_ne_nil list some_
      exact iff_of_false (fun ⟨e, member, fail⟩ => fail (all e member)) fun none_ => none_ e member (all e member)
    · obtain ⟨e, member⟩ := List.exists_mem_of_ne_nil list some_
      exact iff_of_true ⟨e, member, none_ e member⟩ none_

theorem allAvailablePathsBackup_of_overrides {sendPid : Nat} (overrides : self.Overrides sendPid) :
    self.allAvailablePathsBackup = true := by
  obtain ⟨before, found, other, after, sent, path, found', available⟩ := overrides
  by_contra fails
  unfold sendSingle at sent
  rw [if_neg fails] at sent
  cases sent
  -- The paths are the same, so the path had become available before.
  rw [show self.paths.find? sendPid = some before from found] at found'
  cases found'
  exact other available

/-- A status is overridden only when it has to be, just when all paths or none are active and available. -/
theorem overridesOnlyWhenNeeded_iff_alike (self : StatusMap) (sendPid : Nat) :
    ((self.allAvailablePathsBackup = true ↔ self.OnlyBackups) ∧ (self.Overrides sendPid → self.OnlyBackups)) ↔
      self.Alike := by
  -- That the test is right already says that the override is, so only the test decides.
  have tests : (self.allAvailablePathsBackup = true ↔ self.OnlyBackups) ↔ self.Alike := by
    rw [allAvailablePathsBackup_iff, onlyBackups_iff]
    exact fails_iff_all_fail
  rw [← tests]
  refine and_iff_left_of_imp fun agree overrides => ?_
  exact agree.mp (allAvailablePathsBackup_of_overrides overrides)

/-- A backup is made available although the other path can be used. -/
theorem backup_made_available :
    let usable : StatusPath := ⟨{ Path.new 0 3 true with state := .active }, .available⟩
    let spare : StatusPath := ⟨{ Path.new 1 3 true with state := .active }, .standby⟩
    let map : StatusMap := ⟨(OrdMap.empty.insert 0 usable).insert 1 spare⟩
    map.allAvailablePathsBackup = true ∧ ¬ map.OnlyBackups ∧ map.Overrides 1 := by
  intro usable spare map
  -- The usable path is enough for the test of the source to fail on the spare one.
  refine ⟨by decide, by decide, spare, rfl, by decide, ?_⟩
  exact ⟨⟨map.paths.insert 1 { spare with status := .available }⟩, rfl, _, rfl, rfl⟩

end StatusMap

end Flexicast
