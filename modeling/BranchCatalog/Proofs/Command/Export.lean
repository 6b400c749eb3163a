import BranchCatalog.Proofs.Command.Effects
import BranchCatalog.Proofs.Disk.Writing
import BranchCatalog.Proofs.Store.Archive

namespace BranchCatalog

namespace Disk

variable {disk : Disk} {path : Path} {place : Route}

/-- A path has a place of its own when something stands where it leads. -/
theorem canonical?_eq_some_iff :
    disk.canonical? path = some place ↔ disk.locate path = .ok place ∧ (disk.entryAt? place).isSome := by
  unfold canonical?
  cases disk.locate path with
  | error fault => simp
  | ok other =>
      simp only [Except.ok.injEq]
      split
      · next present => exact ⟨fun same => by cases same; exact ⟨rfl, present⟩, fun found => by rw [found.1]⟩
      · next absent => exact ⟨nofun, fun found => absurd (found.1 ▸ found.2) absent⟩

theorem pathExists_of_canonical? (found : disk.canonical? path = some place) :
    disk.pathExists path = true := by
  obtain ⟨located, present⟩ := canonical?_eq_some_iff.mp found
  obtain ⟨entry, stands⟩ := Option.isSome_iff_exists.mp present
  rw [pathExists, lookUp_eq_ok_iff.mpr ⟨place, located, stands⟩]
  rfl

section Swept

variable {left : Disk} {other : Route}

/-- Companions are no directories, so no path leads elsewhere without them. -/
theorem SweptTo.locate_iff (swept : disk.SweptTo place left) :
    left.locate path = .ok other ↔ disk.locate path = .ok other := by
  rw [locate_eq_ok_iff, locate_eq_ok_iff, swept.startOf_eq, follow_eq_ok_iff_of_directories swept.directory_iff]

/-- Companions that go away change no place that can be written to. -/
theorem SweptTo.locateNew_iff (swept : disk.SweptTo place left) :
    left.locateNew path = .ok other ↔ disk.locateNew path = .ok other := by
  simp only [locateNew_eq_ok_iff, swept.startOf_eq, follow_eq_ok_iff_of_directories swept.directory_iff,
    swept.directory_iff]

end Swept

/-- Opening a database that is there sweeps its companions at most. -/
theorem openStore_of_tablesAt? {tables : Tables} (found : disk.canonical? path = some place)
    (holds : disk.tablesAt? place = some tables) :
    (∃ cause left, disk.openStore path = (.error cause, left) ∧ disk.SweptTo place left) ∨
      ∃ opened left, disk.openStore path = (.ok opened, left) ∧ disk.SweptTo place left ∧
        ∀ after : Disk, after.SweptTo place (after.release opened) := by
  obtain ⟨located, -⟩ := canonical?_eq_some_iff.mp found
  unfold openStore
  split
  · exact Or.inr ⟨_, disk, rfl, .refl disk place, fun after => .refl after place⟩
  · split
    · exact Or.inl ⟨_, disk, rfl, .refl disk place⟩
    · next other opened =>
        -- both ways to follow the path lead where its text leads
        obtain rfl : other = place := by
          rw [eq_goal_of_storePlace? opened, eq_goal_of_follow (locate_eq_ok_iff.mp located).2]
        obtain ⟨content, stands, filled, readable⟩ := tablesAt?_eq_some_iff.mp holds
        obtain ⟨byte, bytes, rfl⟩ := List.exists_cons_of_ne_nil (by simpa using filled)
        simp only [stands]
        rcases openFilled_cases disk other readable with ⟨cause, left, failed, swept⟩ | ⟨logged, left, swept, ran⟩
        · rw [failed]
          exact Or.inl ⟨_, left, rfl, swept⟩
        · rw [ran]
          exact Or.inr ⟨_, left, rfl, swept, fun after => sweptTo_release after other _ logged⟩

/-- Of two entries put at one place the later one stays. -/
theorem put_put (disk : Disk) (place : Route) (earlier later : Entry) :
    (disk.put place earlier).put place later = disk.put place later := by
  have same : (disk.put place earlier).entriesWithout place = disk.entriesWithout place := by
    simp [put, entriesWithout]
  simp only [put, Disk.mk.injEq, List.cons.injEq, true_and, and_true]
  exact same

/-- What is written twice to one path is put there once. -/
theorem eq_put_of_write_write {emptied written : Disk} {content : List UInt8}
    (once : disk.write path [] = .ok emptied) (twice : emptied.write path content = .ok written) :
    disk.write path content = .ok written := by
  obtain ⟨place, located, other, noSpecial, rfl⟩ := write_eq_ok_iff.mp once
  obtain ⟨again, relocated, -, -, rfl⟩ := write_eq_ok_iff.mp twice
  rw [locateNew_put located other] at relocated
  obtain rfl := Except.ok.inj relocated
  exact write_eq_ok_iff.mpr ⟨place, located, other, noSpecial, disk.put_put place _ _⟩

/-- Writing changes only the file that its path leads to. -/
theorem changes_of_write {written : Disk} {content : List UInt8} {other : Route}
    (succeeded : disk.write path content = .ok written)
    (changed : written.entryAt? other ≠ disk.entryAt? other) :
    disk.locateNew path = .ok other ∧ written.canonical? path = some other ∧
      written.entryAt? other = some (.file content) := by
  obtain ⟨place, located, noDirectory, -, rfl⟩ := write_eq_ok_iff.mp succeeded
  have below : place ≠ [] := disk.ne_root noDirectory
  obtain rfl : other = place := by
    by_contra elsewhere
    exact changed ((disk.entryAt?_put _ _ _ below).trans (if_neg elsewhere))
  have stands : (disk.put other (.file content)).entryAt? other = some (.file content) := by
    rw [entryAt?_put _ _ _ _ below, if_pos rfl]
  have leads := locate_of_locateNew (locateNew_put located noDirectory content)
  exact ⟨located, canonical?_eq_some_iff.mpr ⟨leads, Option.isSome_of_eq_some stands⟩, stands⟩

/-- What is written between two sweeps is found where its path has led before, unless it is swept away. -/
theorem changes_of_write_between_sweeps {between written after : Disk} {other : Route}
    (first : disk.SweptTo place between)
    (wrote : written = between ∨ ∃ content, between.write path content = .ok written)
    (second : written.SweptTo place after) (changed : after.entryAt? other ≠ disk.entryAt? other) :
    (disk.locateNew path = .ok other ∧ after.canonical? path = some other ∧
        ∃ content, after.entryAt? other = some (.file content)) ∨
      IsCompanion place other ∧ after.entryAt? other = none := by
  rcases second.kept other with same | ⟨companion, gone, -⟩
  · rw [same] at changed ⊢
    by_cases unwritten : written.entryAt? other = between.entryAt? other
    · rw [unwritten] at changed ⊢
      obtain ⟨companion, gone, -⟩ := (first.kept other).resolve_left changed
      exact Or.inr ⟨companion, gone⟩
    · rcases wrote with rfl | ⟨content, wrote⟩
      · exact absurd rfl unwritten
      · obtain ⟨located, leads, stands⟩ := changes_of_write wrote unwritten
        have found := second.locate_iff.mpr (canonical?_eq_some_iff.mp leads).1
        have present : (after.entryAt? other).isSome := by simp [same, stands]
        exact Or.inl ⟨first.locateNew_iff.mp located, canonical?_eq_some_iff.mpr ⟨found, present⟩,
          content, stands⟩
  · exact Or.inr ⟨companion, gone⟩

end Disk

/-- An export of tables writes its output or nothing. -/
theorem write_of_exportRows (disk : Disk) (path : Path) (tables : Tables)
    (document : List ReportRow → Text) :
    (exportRows disk path tables document).2 = disk ∨
      ∃ content, disk.write path content = .ok (exportRows disk path tables document).2 := by
  unfold exportRows
  split
  · exact Or.inl rfl
  · next emptied once =>
      split
      · exact Or.inr ⟨[], once⟩
      · split
        · exact Or.inr ⟨[], once⟩
        · next twice => exact Or.inr ⟨_, Disk.eq_put_of_write_write once twice⟩

/-- An output that a database may be exported to does not lead to the database, also when nothing stands where
it leads. -/
theorem ne_of_checkDistinct {disk : Disk} {database output : Path} {place other : Route}
    (distinct : checkDistinct disk database output = .ok ())
    (found : disk.canonical? database = some place) (located : disk.locateNew output = .ok other) :
    other ≠ place := by
  rintro rfl
  have present := (Disk.canonical?_eq_some_iff.mp found).2
  have same := Disk.canonical?_eq_some_iff.mpr ⟨Disk.locate_of_locateNew located, present⟩
  have equal : disk.samePlace database output = true := by simp [Disk.samePlace, found, same]
  rw [checkDistinct, if_pos equal] at distinct
  cases distinct

/-- Holds for the commands that export the database. -/
def Invocation.isExport (invocation : Invocation) : Bool :=
  match invocation.command with
  | .csv .. | .html .. => true
  | _ => false

/-- The database that an export reads and the output that it writes, under given settings. -/
def Invocation.exportPaths? (invocation : Invocation) (settings : Settings) : Option (Path × Path) :=
  match invocation.command with
  | .csv database output => some (database.getD settings.databasePath, settings.csvOutput output)
  | .html database output _ => some (database.getD settings.databasePath, settings.htmlOutput output)
  | _ => none

/-- An export leaves what carrying it out with its settings leaves. -/
theorem leads_export {invocation : Invocation} {disk : Disk} (exports : invocation.isExport = true) :
    Action.Leads invocation.run disk fun _ left =>
      match Settings.load disk invocation.settings with
      | .error _ => left = disk
      | .ok settings => ∃ database output,
        invocation.exportPaths? (settings.getD .unset) = some (database, output) ∧
          Action.ExportLeaves database output disk left := by
  rcases invocation with ⟨verbose, settingsPath, quiet, command⟩
  cases command with
  | csv database output =>
      refine Action.leads_withSettings ?_ ?_
      · intro cause unloaded
        rw [unloaded]
      · intro settings loaded session same
        rw [loaded]
        exact ⟨_, _, rfl, Action.leads_csv _ database output session same⟩
  | html database output template =>
      refine Action.leads_withSettings ?_ ?_
      · intro cause unloaded
        rw [unloaded]
      · intro settings loaded session same
        rw [loaded]
        exact ⟨_, _, rfl, Action.leads_html _ database output template session same⟩
  | init | scan | stats => cases exports

/-- An export changes the file that its output leads to, which is not the database, and it can take away
companions of the database. -/
theorem Action.ExportLeaves.changes {database output : Path} {disk left : Disk} {place : Route}
    {tables : Tables} (leaves : Action.ExportLeaves database output disk left)
    (found : disk.canonical? database = some place) (holds : disk.tablesAt? place = some tables)
    {other : Route} (changed : left.entryAt? other ≠ disk.entryAt? other) :
    other ≠ place ∧
      ((left.canonical? output = some other ∧ ∃ content, left.entryAt? other = some (.file content)) ∨
        IsCompanion place other ∧ left.entryAt? other = none) := by
  have below : place ≠ [] := by
    obtain ⟨content, stands, -⟩ := Disk.tablesAt?_eq_some_iff.mp holds
    exact disk.ne_root (by simp [stands])
  cases leaves with
  | untouched => exact absurd rfl changed
  | @exported document distinct =>
      have settle {between written : Disk} (first : disk.SweptTo place between)
          (wrote : written = between ∨ ∃ content, between.write output content = .ok written) {after : Disk}
          (second : written.SweptTo place after) (changed : after.entryAt? other ≠ disk.entryAt? other) :
          other ≠ place ∧ ((after.canonical? output = some other ∧
              ∃ content, after.entryAt? other = some (.file content)) ∨
            IsCompanion place other ∧ after.entryAt? other = none) := by
        rcases Disk.changes_of_write_between_sweeps first wrote second changed with
          ⟨located, written⟩ | ⟨companion, gone⟩
        · exact ⟨ne_of_checkDistinct distinct found located, Or.inl written⟩
        · exact ⟨companion.ne below, Or.inr ⟨companion, gone⟩⟩
      rw [withExisting, if_pos (Disk.pathExists_of_canonical? found)] at changed ⊢
      rcases Disk.openStore_of_tablesAt? found holds with
        ⟨cause, after, failed, swept⟩ | ⟨opened, after, ran, swept, released⟩
      · rw [failed] at changed ⊢
        exact settle swept (Or.inl rfl) (.refl after place) changed
      · rw [ran] at changed ⊢
        exact settle swept (write_of_exportRows after output opened.store.tables document) (released _) changed

/-- No companion of a store holds what is left of an interrupted change: a journal or a log that does starts
with bytes of its own. -/
structure Disk.IsSettled (disk : Disk) (place : Route) : Prop where
  journal : ∀ content, disk.entryAt? (journalOf place) = some (.file content) →
    ¬ [0xd9, 0xd5, 0x05, 0xf9, 0x20, 0xa1, 0x63, 0xd7] <+: content
  log : ∀ content last, disk.entryAt? (logOf place) = some (.file content) → last = 0x82 ∨ last = 0x83 →
    ¬ [0x37, 0x7f, 0x06, last] <+: content

end BranchCatalog
