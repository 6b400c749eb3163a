/-
This file follows paths piece by piece: where a path leads is decided by its text, and a path that has all
but one of its steps behind it can only fail to be found because nothing stands at its end.
-/

import BranchCatalog.Disk.Write
import BranchCatalog.Store.OnDisk

namespace BranchCatalog

namespace Path

/-- The number of pieces that say something. -/
def meaning (pieces : List Text) : Nat :=
  pieces.countP fun piece => !isVoid piece

theorem meaning_cons_of_void {piece : Text} (void : isVoid piece = true) (pieces : List Text) :
    meaning (piece :: pieces) = meaning pieces := by
  simp [meaning, void]

/-- A piece that says something counts once. -/
theorem meaning_cons_of_not_void {piece : Text} (speaks : isVoid piece = false) (pieces : List Text) :
    meaning (piece :: pieces) = meaning pieces + 1 := by
  simp [meaning, speaks]

theorem meaning_le_one_of_cons {piece : Text} {pieces : List Text}
    (rest : meaning pieces = 0) : meaning (piece :: pieces) ≤ 1 := by
  cases speaks : isVoid piece with
  | true => simp [meaning_cons_of_void speaks, rest]
  | false => simp [meaning_cons_of_not_void speaks, rest]

theorem isVoid_of_isEmpty {piece : Text} (empty : piece.isEmpty = true) : isVoid piece = true := by
  simp [isVoid, empty]

end Path

namespace Disk

variable {disk : Disk} {place last : Route} {pieces : List Text}

/-- Where no directory stands is not the root. -/
theorem ne_root (disk : Disk) {place : Route} (other : disk.entryAt? place ≠ some .directory) :
    place ≠ [] := by
  rintro rfl
  exact other disk.entryAt?_root

/-- A piece that says nothing leads nowhere else. -/
theorem step_of_void {piece : Text} (void : Path.isVoid piece = true) (place : Route) :
    step place piece = place := by
  simp [step, void]

/-- The place that the text of a path leads to, whatever stands on the way. -/
def goal (place : Route) (pieces : List Text) : Route :=
  pieces.foldl step place

/-- Pieces that say nothing lead back to where they start. -/
theorem goal_eq_of_meaningless (meaningless : Path.meaning pieces = 0) : goal place pieces = place := by
  induction pieces with
  | nil => rfl
  | cons piece pieces inductionHypothesis =>
      cases speaks : Path.isVoid piece with
      | true =>
          rw [Path.meaning_cons_of_void speaks] at meaningless
          rw [goal, List.foldl_cons, step_of_void speaks]
          exact inductionHypothesis meaningless
      | false =>
          rw [Path.meaning_cons_of_not_void speaks] at meaningless
          contradiction

/-- Where a path can be followed, it leads to where its text leads. -/
theorem eq_goal_of_follow (found : disk.follow place pieces = .ok last) : last = goal place pieces := by
  induction pieces generalizing place with
  | nil => exact (Except.ok.inj found).symm
  | cons piece pieces inductionHypothesis =>
      rw [follow] at found
      split at found
      · contradiction
      · exact inductionHypothesis found
      · contradiction

/-- The place that a store finds by its path is where the text of the path leads. -/
theorem eq_goal_of_storeSteps (found : disk.storeSteps place pieces = some last) :
    last = goal place pieces := by
  induction pieces generalizing place with
  | nil => exact (Option.some.inj found).symm
  | cons piece pieces inductionHypothesis =>
      rw [storeSteps] at found
      exact inductionHypothesis (Option.ite_none_right_eq_some.mp found).2

/-- The second part of a path is followed from where the first part leads. -/
theorem follow_append (disk : Disk) (place : Route) (first second : List Text) :
    disk.follow place (first ++ second) =
      (disk.follow place first).bind fun between => disk.follow between second := by
  induction first generalizing place with
  | nil => rfl
  | cons piece first inductionHypothesis =>
      rw [List.cons_append, follow, follow]
      split
      · rfl
      · exact inductionHypothesis _
      · rfl

/-- From a directory, pieces without meaning lead back to it. -/
theorem follow_of_meaningless (directory : disk.entryAt? place = some .directory)
    (meaningless : Path.meaning pieces = 0) : disk.follow place pieces = .ok place := by
  induction pieces with
  | nil => rfl
  | cons piece pieces inductionHypothesis =>
      cases speaks : Path.isVoid piece with
      | true =>
          rw [Path.meaning_cons_of_void speaks] at meaningless
          rw [follow, directory, step_of_void speaks]
          exact inductionHypothesis meaningless
      | false =>
          rw [Path.meaning_cons_of_not_void speaks] at meaningless
          contradiction

/-- A path with one step left to do fails to be found only when nothing stands where its text leads. -/
theorem entryAt?_goal_of_follow (present : disk.entryAt? place ≠ none)
    (short : Path.meaning pieces ≤ 1) (missing : disk.follow place pieces = .error .notFound) :
    disk.entryAt? (goal place pieces) = none := by
  induction pieces with
  | nil => contradiction
  | cons piece pieces inductionHypothesis =>
      rw [follow] at missing
      split at missing
      · contradiction
      · next directory =>
          cases speaks : Path.isVoid piece with
          | true =>
              rw [Path.meaning_cons_of_void speaks] at short
              rw [step_of_void speaks] at missing
              rw [goal, List.foldl_cons, step_of_void speaks]
              exact inductionHypothesis short missing
          | false =>
              rw [Path.meaning_cons_of_not_void speaks] at short
              have rest : Path.meaning pieces = 0 := by omega
              rw [goal, List.foldl_cons, ← goal, goal_eq_of_meaningless rest]
              by_cases again : disk.entryAt? (step place piece) = some .directory
              · rw [follow_of_meaningless again rest] at missing
                cases missing
              · -- no piece is left where there is no directory to go on from
                cases pieces with
                | nil => cases missing
                | cons second others =>
                    rw [follow] at missing
                    split at missing
                    · assumption
                    · contradiction
                    · cases missing
      · cases missing

/-- Each step of a path that can be followed starts from a directory. -/
theorem follow_cons_eq_ok_iff {piece : Text} :
    disk.follow place (piece :: pieces) = .ok last ↔
      disk.entryAt? place = some .directory ∧ disk.follow (step place piece) pieces = .ok last := by
  rw [follow]
  rcases disk.entryAt? place with _ | _ | _ | _ <;> simp

/-- Only the directories on the way decide where paths lead. -/
theorem follow_eq_ok_iff_of_directories {left : Disk} (same : ∀ place,
      left.entryAt? place = some .directory ↔ disk.entryAt? place = some .directory) :
    left.follow place pieces = .ok last ↔ disk.follow place pieces = .ok last := by
  induction pieces generalizing place with
  | nil => rfl
  | cons piece pieces inductionHypothesis =>
      rw [follow_cons_eq_ok_iff, follow_cons_eq_ok_iff, same, inductionHypothesis]

/-- Paths that can be followed can still be followed when something is put where no directory stood. -/
theorem follow_put {new : Route} {entry : Entry} (other : disk.entryAt? new ≠ some .directory)
    (found : disk.follow place pieces = .ok last) :
    (disk.put new entry).follow place pieces = .ok last := by
  have below : new ≠ [] := disk.ne_root other
  induction pieces generalizing place with
  | nil => exact found
  | cons piece pieces inductionHypothesis =>
      obtain ⟨directory, rest⟩ := follow_cons_eq_ok_iff.mp found
      have apart : place ≠ new := by
        rintro rfl
        exact other directory
      have stays : (disk.put new entry).entryAt? place = some .directory := by
        rw [entryAt?_put _ _ _ _ below, if_neg apart, directory]
      exact follow_cons_eq_ok_iff.mpr ⟨stays, inductionHypothesis rest⟩

end Disk

end BranchCatalog
