import BranchCatalog.Proofs.Disk.Follow
import Mathlib.Data.List.Basic

namespace BranchCatalog

/-- The places of the companions of a store's file. -/
def IsCompanion (place other : Route) : Prop :=
  other = journalOf place ∨ other = logOf place ∨ other = logIndexOf place

theorem IsCompanion.ne {place other : Route} (companion : IsCompanion place other) (below : place ≠ []) :
    other ≠ place := by
  obtain ⟨above, name, rfl⟩ := (List.eq_nil_or_concat' place).resolve_left below
  rcases companion with rfl | rfl | rfl <;>
    simp [journalOf, logOf, logIndexOf, BranchCatalog.companion]

theorem IsCompanion.ne_root {place other : Route} (companion : IsCompanion place other) : other ≠ [] := by
  rcases companion with rfl | rfl | rfl <;>
    simp [journalOf, logOf, logIndexOf, BranchCatalog.companion]

namespace Disk

variable {disk left after : Disk} {place other : Route}

/-- A disk loses nothing but companions of a place, and no directory among them. -/
structure SweptTo (disk : Disk) (place : Route) (left : Disk) : Prop where
  home : left.workingDirectory = disk.workingDirectory
  kept : ∀ other, left.entryAt? other = disk.entryAt? other ∨
    IsCompanion place other ∧ left.entryAt? other = none ∧ disk.entryAt? other ≠ some .directory

namespace SweptTo

theorem refl (disk : Disk) (place : Route) : disk.SweptTo place disk :=
  ⟨rfl, fun _ => Or.inl rfl⟩

/-- What goes away in two steps goes away together. -/
theorem trans (first : disk.SweptTo place left) (second : left.SweptTo place after) :
    disk.SweptTo place after := by
  constructor
  · exact second.home.trans first.home
  · intro other
    rcases second.kept other with same | ⟨companion, gone, noDirectory⟩
    · rw [same]
      exact first.kept other
    · rcases first.kept other with same | ⟨-, -, noDirectory⟩
      · exact Or.inr ⟨companion, gone, same ▸ noDirectory⟩
      · exact Or.inr ⟨companion, gone, noDirectory⟩

theorem entryAt?_eq (swept : disk.SweptTo place left) (below : place ≠ []) :
    left.entryAt? place = disk.entryAt? place := by
  rcases swept.kept place with same | ⟨companion, -⟩
  · exact same
  · exact absurd rfl (companion.ne below)

theorem directory_iff (swept : disk.SweptTo place left) (other : Route) :
    left.entryAt? other = some .directory ↔ disk.entryAt? other = some .directory := by
  rcases swept.kept other with same | ⟨-, gone, noDirectory⟩
  · rw [same]
  · simp [gone, noDirectory]

theorem startOf_eq (swept : disk.SweptTo place left) (path : Path) : left.startOf path = disk.startOf path := by
  rw [startOf, startOf, swept.home]

end SweptTo

/-- Only the companion itself goes away when it is discarded. -/
theorem sweptTo_discard (companion : IsCompanion place other) : disk.SweptTo place (disk.discard other) := by
  unfold discard
  split
  · exact .refl disk place
  · exact .refl disk place
  · next entry noDirectory stands =>
      constructor
      · rfl
      · intro found
        rw [entryAt?_remove _ _ _ companion.ne_root]
        split
        · next same =>
            right
            exact ⟨same ▸ companion, rfl, by rw [same, stands]; simpa using noDirectory⟩
        · exact Or.inl rfl

theorem sweptTo_sweep (companion : IsCompanion place other) : disk.SweptTo place (disk.sweep other) := by
  unfold sweep
  split
  · exact .refl disk place
  · exact sweptTo_discard companion

/-- Letting go of a store takes away at most its companions. -/
theorem sweptTo_release (disk : Disk) (place : Route) (store : Store) (logged : Bool) :
    disk.SweptTo place (disk.release ⟨some place, store, logged⟩) := by
  cases logged with
  | false => exact .refl disk place
  | true =>
      have first : disk.SweptTo place (disk.discard (logOf place)) := sweptTo_discard (Or.inr (Or.inl rfl))
      exact first.trans (sweptTo_discard (Or.inr (Or.inr rfl)))

/-- Playing a journal back takes away at most the journal. -/
theorem sweptTo_of_playJournal (played : disk.playJournal place = .ok left) : disk.SweptTo place left := by
  unfold playJournal at played
  split at played
  · contradiction
  · contradiction
  · next byte content stands =>
      obtain rfl := Except.ok.inj played
      have discarded : disk.discard (journalOf place) = disk.remove (journalOf place) := by
        rw [discard, stands]
      split
      · exact .refl disk place
      · rw [← discarded]
        exact sweptTo_discard (Or.inl rfl)
  · obtain rfl := Except.ok.inj played
    exact .refl disk place

/-- An empty file becomes an empty store, or it stays empty. Only companions go away. -/
theorem openEmpty_cases (disk : Disk) (place : Route) :
    (∃ cause left, disk.openEmpty place = (.error cause, left) ∧ disk.SweptTo place left) ∨
      ∃ swept, disk.SweptTo place swept ∧ disk.openEmpty place =
        (.ok ⟨some place, .empty, false⟩, swept.put place (.file (Archive.write .empty))) := by
  have swept : disk.SweptTo place (disk.sweep (journalOf place)) := sweptTo_sweep (Or.inl rfl)
  have cleared := swept.trans (sweptTo_sweep (Or.inr (Or.inl rfl)))
  unfold openEmpty
  simp only
  split
  · exact Or.inl ⟨_, _, rfl, swept⟩
  · split
    · exact Or.inl ⟨_, _, rfl, cleared⟩
    · exact Or.inr ⟨_, cleared.trans (sweptTo_discard (Or.inl rfl)), rfl⟩

/-- A file that holds tables is opened without a change, or it is refused. Only companions go away. -/
theorem openFilled_cases {content : List UInt8} {tables : Tables} (disk : Disk) (place : Route)
    (readable : Archive.read? content = some tables) :
    (∃ cause left, disk.openFilled place content = (.error cause, left) ∧ disk.SweptTo place left) ∨
      ∃ logged left, disk.SweptTo place left ∧
        disk.openFilled place content = (.ok ⟨some place, .ofTables tables, logged⟩, left) := by
  unfold openFilled
  cases played : disk.playJournal place with
  | error cause => exact Or.inl ⟨cause, disk, rfl, .refl disk place⟩
  | ok left =>
      have swept := sweptTo_of_playJournal played
      simp only [readable]
      cases found : left.findLog place with
      | error cause => exact Or.inl ⟨cause, left, rfl, swept⟩
      | ok logged => exact Or.inr ⟨logged, left, swept, rfl⟩

end Disk

end BranchCatalog
