import BranchCatalog.Proofs.Disk.Tree
import BranchCatalog.Proofs.Store.Archive

namespace BranchCatalog.Disk

variable {disk : Disk} {path : Path} {place : Route}

/-- The place that the text of a path leads to. A path that leads anywhere leads there. -/
def target (disk : Disk) (path : Path) : Route :=
  goal (disk.startOf path) (Text.split '/' path)

/-- A path that can be followed leads to its target. -/
theorem eq_target_of_locate (located : disk.locate path = .ok place) : place = disk.target path :=
  eq_goal_of_follow (locate_eq_ok_iff.mp located).2

theorem madeFrom_target {made : Disk} (derived : disk.MadeFrom made) (path : Path) :
    made.target path = disk.target path := by
  simp only [target, startOf, derived.home]

/-- What is left of a disk when something else stands at a place, and companions of the place may be gone. -/
structure Leaves (disk : Disk) (place : Route) (here : Option Entry) (left : Disk) : Prop where
  here : left.entryAt? place = here
  others : ∀ other ≠ place, left.entryAt? other = disk.entryAt? other ∨
    IsCompanion place other ∧ left.entryAt? other = none

theorem Leaves.of_swept {left : Disk} {entry : Entry} (below : place ≠ [])
    (swept : (disk.put place entry).SweptTo place left) : disk.Leaves place (some entry) left := by
  constructor
  · rw [swept.entryAt?_eq below, entryAt?_put _ _ _ _ below, if_pos rfl]
  · intro other elsewhere
    rcases swept.kept other with same | ⟨companion, gone, -⟩
    · left
      rw [same, entryAt?_put _ _ _ _ below, if_neg elsewhere]
    · exact Or.inr ⟨companion, gone⟩

/-- Writing to the place leaves the rest of the disk as it was left. -/
theorem Leaves.put {left : Disk} {here : Option Entry} (leaves : disk.Leaves place here left)
    (below : place ≠ []) (entry : Entry) : disk.Leaves place (some entry) (left.put place entry) := by
  constructor
  · rw [entryAt?_put _ _ _ _ below, if_pos rfl]
  · intro other elsewhere
    rw [entryAt?_put _ _ _ _ below, if_neg elsewhere]
    exact leaves.others other elsewhere

/-- What is left of a disk without an entry is left of the disk itself. -/
theorem Leaves.of_remove {left : Disk} {here : Option Entry} (below : place ≠ [])
    (leaves : (disk.remove place).Leaves place here left) : disk.Leaves place here left := by
  refine ⟨leaves.here, fun other elsewhere => ?_⟩
  have same : (disk.remove place).entryAt? other = disk.entryAt? other := by
    rw [entryAt?_remove _ _ _ below, if_neg elsewhere]
  rw [← same]
  exact leaves.others other elsewhere

/-- Where nothing stands an empty store is opened, or an empty file is left, or nothing. -/
theorem openStore_cases (ordinary : isTransient path = false)
    (nothing : disk.entryAt? (disk.target path) = none) :
    (∃ cause left here, disk.openStore path = (.error cause, left) ∧ (here = none ∨ here = some (.file [])) ∧
      disk.Leaves (disk.target path) here left) ∨
      ∃ left, disk.openStore path = (.ok ⟨some (disk.target path), .empty, false⟩, left) ∧
        disk.Leaves (disk.target path) (some (.file (Archive.write .empty))) left := by
  have below : disk.target path ≠ [] := disk.ne_root (by simp [nothing])
  unfold openStore
  rw [ordinary, if_neg Bool.false_ne_true]
  cases found : disk.storePlace? path with
  | none => exact Or.inl ⟨_, disk, none, rfl, Or.inl rfl, nothing, fun _ _ => Or.inl rfl⟩
  | some place =>
      obtain rfl : place = disk.target path := eq_goal_of_storePlace? found
      simp only [nothing]
      rcases openEmpty_cases (disk.put (disk.target path) (.file [])) (disk.target path) with
        ⟨cause, left, failed, swept⟩ | ⟨swept, gone, opened⟩
      · rw [failed]
        exact Or.inl ⟨_, left, _, rfl, Or.inr rfl, .of_swept below swept⟩
      · rw [opened]
        exact Or.inr ⟨_, rfl, (Leaves.of_swept below gone).put below _⟩

/-- In a tree, a store is created where the text of its path leads, or the path is left without a store: as it
was, with nothing or with an empty file. -/
theorem createStore_cases (ordinary : isTransient path = false) (parent : disk.HasParent path) :
    (∃ fault, disk.createStore path = (.error fault, disk)) ∨
      (∃ fault left here, disk.createStore path = (.error fault, left) ∧
        (here = none ∨ here = some (.file [])) ∧ disk.Leaves (disk.target path) here left) ∨
      ∃ left, disk.createStore path = (.ok ⟨some (disk.target path), .empty, false⟩, left) ∧
        disk.Leaves (disk.target path) (some (.file (Archive.write .empty))) left := by
  have nonempty : path ≠ [] := by
    rintro rfl
    cases ordinary
  unfold Disk.createStore
  split
  · next removed removal =>
      obtain ⟨place, entry, located, stands, noDirectory, rfl⟩ := removeFile_eq_ok_iff.mp removal
      obtain rfl := eq_target_of_locate located
      have below : disk.target path ≠ [] := disk.ne_root (by simpa [stands] using noDirectory)
      have nothing : (disk.remove (disk.target path)).entryAt? (disk.target path) = none := by
        rw [entryAt?_remove _ _ _ below, if_pos rfl]
      rcases openStore_cases ordinary nothing with ⟨cause, left, here, failed, empty, leaves⟩ | ⟨left, opened, leaves⟩
      · exact Or.inr (Or.inl ⟨cause, left, here, failed, empty, leaves.of_remove below⟩)
      · exact Or.inr (Or.inr ⟨left, opened, leaves.of_remove below⟩)
  · next missing => exact Or.inr (openStore_cases ordinary (parent.entryAt?_of_removeFile nonempty missing))
  · exact Or.inl ⟨_, rfl⟩

end BranchCatalog.Disk
