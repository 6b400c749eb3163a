import BranchCatalog.Proofs.Load.Atomicity
import BranchCatalog.Proofs.Store.Integrity

namespace BranchCatalog

namespace Table

variable {Row : Type} {table : Table Row}

/-- The ids of a table are positive. -/
structure Positive (table : Table Row) : Prop where
  lastId : 0 ≤ table.lastId
  ids : ∀ stored ∈ table.rows, 0 < stored.id

/-- What holds of all rows holds of the old ones and of the new one. -/
theorem forall_mem_insert {row : Row} {holds : Stored Row → Prop} :
    (∀ stored ∈ (table.insert row).rows, holds stored) ↔
      (∀ stored ∈ table.rows, holds stored) ∧ holds ⟨table.lastId + 1, row⟩ := by
  simp [insert, or_imp, forall_and]

theorem Positive.empty : Positive (Table.empty : Table Row) :=
  ⟨Int.le_refl 0, fun _ member => absurd member List.not_mem_nil⟩

theorem Positive.insert (positive : table.Positive) (row : Row) : (table.insert row).Positive := by
  have next : 0 < table.lastId + 1 := Int.lt_add_one_of_le positive.lastId
  exact ⟨Int.le_of_lt next, forall_mem_insert.mpr ⟨positive.ids, next⟩⟩

/-- A reference that resolves still does when a row is added. -/
theorem resolves_insert {reference : Option Id} (row : Row)
    (resolved : table.resolves reference = true) : (table.insert row).resolves reference = true := by
  obtain ⟨stored, member, rfl⟩ := exists_of_resolves resolved
  rw [resolves_some, contains_insert, Bool.or_eq_true]
  exact Or.inl (List.any_eq_true.mpr ⟨stored, member, by simp⟩)

end Table

namespace Tables

/-- Tables are consistent when they are sound, ids are positive and file names differ. -/
structure Consistent (tables : Tables) : Prop extends tables.Sound where
  filenames : (tables.files.rows.map (·.row)).Nodup
  filesPositive : tables.files.Positive
  treesPositive : tables.trees.Positive
  branchesPositive : tables.branches.Positive
  notesPositive : ∀ kind, (tables.notes kind).Positive

theorem consistent_empty : Tables.empty.Consistent where
  toSound := sound_empty
  filenames := List.nodup_nil
  filesPositive := Table.Positive.empty
  treesPositive := Table.Positive.empty
  branchesPositive := Table.Positive.empty
  notesPositive kind := by cases kind <;> exact Table.Positive.empty

/-- No stored file has a name that has no id. -/
theorem not_mem_filenames {tables : Tables} {filename : Text}
    (new : tables.fileId? filename = none) : filename ∉ tables.files.rows.map (·.row) := by
  intro member
  obtain ⟨stored, inside, same⟩ := List.mem_map.mp member
  have other := List.find?_eq_none.mp (Option.map_eq_none_iff.mp new) stored inside
  exact other (decide_eq_true same)

namespace Consistent

variable {tables : Tables} (consistent : tables.Consistent)
include consistent

theorem insertFile {filename : Text} (new : tables.fileId? filename = none) :
    Consistent { tables with files := tables.files.insert filename } where
  files := consistent.files.insert filename
  trees := consistent.trees
  branches := consistent.branches
  notes := consistent.notes
  treesResolve stored member := Table.resolves_insert _ (consistent.treesResolve stored member)
  branchesResolve stored member :=
    (consistent.branchesResolve stored member).imp_right (Table.resolves_insert _)
  notesResolve kind stored member :=
    (consistent.notesResolve kind stored member).imp_right (Table.resolves_insert _)
  filenames := by
    have more := consistent.filenames.concat (not_mem_filenames new)
    simpa [Table.insert] using more
  filesPositive := consistent.filesPositive.insert filename
  treesPositive := consistent.treesPositive
  branchesPositive := consistent.branchesPositive
  notesPositive := consistent.notesPositive

/-- A tree may be stored when its file is there. -/
theorem insertTree {row : TreeRow} (file : tables.files.resolves row.file = true) :
    Consistent { tables with trees := tables.trees.insert row } where
  files := consistent.files
  trees := consistent.trees.insert row
  branches := consistent.branches
  notes := consistent.notes
  treesResolve := Table.forall_mem_insert.mpr ⟨consistent.treesResolve, file⟩
  branchesResolve stored member :=
    (consistent.branchesResolve stored member).imp_left (Table.resolves_insert _)
  notesResolve := consistent.notesResolve
  filenames := consistent.filenames
  filesPositive := consistent.filesPositive
  treesPositive := consistent.treesPositive.insert row
  branchesPositive := consistent.branchesPositive
  notesPositive := consistent.notesPositive

/-- A branch may be stored when its tree and its file are there. -/
theorem insertBranch {row : BranchRow} (tree : tables.trees.resolves row.tree = true)
    (file : tables.files.resolves row.file = true) :
    Consistent { tables with branches := tables.branches.insert row } where
  files := consistent.files
  trees := consistent.trees
  branches := consistent.branches.insert row
  notes := consistent.notes
  treesResolve := consistent.treesResolve
  branchesResolve := Table.forall_mem_insert.mpr ⟨consistent.branchesResolve, tree, file⟩
  notesResolve kind stored member :=
    (consistent.notesResolve kind stored member).imp_left (Table.resolves_insert _)
  filenames := consistent.filenames
  filesPositive := consistent.filesPositive
  treesPositive := consistent.treesPositive
  branchesPositive := consistent.branchesPositive.insert row
  notesPositive := consistent.notesPositive

/-- A note may be stored when its branch and its file are there. -/
theorem insertNote (kind : NoteKind) {row : NoteRow}
    (branch : tables.branches.resolves row.branch = true)
    (file : tables.files.resolves row.file = true) :
    Consistent (tables.withNotes kind ((tables.notes kind).insert row)) where
  files := by simpa using consistent.files
  trees := by simpa using consistent.trees
  branches := by simpa using consistent.branches
  notes := notes_withNotes_of_both ((consistent.notes kind).insert row) consistent.notes
  treesResolve := by simpa using consistent.treesResolve
  branchesResolve := by simpa using consistent.branchesResolve
  notesResolve := by
    rw [files_withNotes, branches_withNotes]
    let resolves (table : Table NoteRow) : Prop := ∀ stored ∈ table.rows,
      tables.branches.resolves stored.row.branch = true ∧
        tables.files.resolves stored.row.file = true
    have new : resolves ((tables.notes kind).insert row) :=
      Table.forall_mem_insert.mpr ⟨consistent.notesResolve kind, branch, file⟩
    exact notes_withNotes_of_both new consistent.notesResolve
  filenames := by simpa using consistent.filenames
  filesPositive := by simpa using consistent.filesPositive
  treesPositive := by simpa using consistent.treesPositive
  branchesPositive := by simpa using consistent.branchesPositive
  notesPositive :=
    notes_withNotes_of_both ((consistent.notesPositive kind).insert row) consistent.notesPositive

end Consistent

end Tables

namespace Store

/-- A store is consistent when its tables are, and so are those that its transaction would return to. -/
structure Consistent (store : Store) : Prop where
  tables : store.tables.Consistent
  begun : ∀ tables, store.begun = some tables → tables.Consistent

theorem consistent_ofTables {tables : Tables} (consistent : tables.Consistent) :
    (ofTables tables).Consistent :=
  ⟨consistent, fun _ begun => nomatch begun⟩

theorem consistent_empty : empty.Consistent :=
  consistent_ofTables Tables.consistent_empty

/-- An insertion that keeps the transaction and leaves consistent tables leaves a consistent store. -/
theorem Consistent.of_begun_eq {store after : Store} (consistent : store.Consistent)
    (tables : after.tables.Consistent) (kept : after.begun = store.begun) : after.Consistent :=
  ⟨tables, fun before begun => consistent.begun before (kept ▸ begun)⟩

/-- Insertions refuse the references that would make a store inconsistent. -/
theorem consistent_keptByInsertions : KeptByInsertions Consistent where
  file store filename consistent := by
    refine consistent.of_begun_eq ?_ (store.begun_insertFile filename)
    unfold insertFile
    split
    · exact consistent.tables
    · next new => exact consistent.tables.insertFile new
  tree store tree id after inserted consistent := by
    refine consistent.of_begun_eq ?_ (begun_insertTree inserted)
    unfold insertTree at inserted
    split at inserted
    · next file =>
        cases inserted
        exact consistent.tables.insertTree file
    · contradiction
  branch store branch id after inserted consistent := by
    refine consistent.of_begun_eq ?_ (begun_insertBranch inserted)
    unfold insertBranch at inserted
    split at inserted
    · next both =>
        cases inserted
        obtain ⟨tree, file⟩ := Bool.and_eq_true_iff.mp both
        exact consistent.tables.insertBranch tree file
    · contradiction
  note store kind note id after inserted consistent := by
    refine consistent.of_begun_eq ?_ (begun_insertNote inserted)
    unfold insertNote at inserted
    split at inserted
    · next both =>
        cases inserted
        obtain ⟨branch, file⟩ := Bool.and_eq_true_iff.mp both
        exact consistent.tables.insertNote kind branch file
    · contradiction

namespace Consistent

variable {store after : Store} (consistent : store.Consistent)
include consistent

/-- Opening a transaction keeps the store consistent. -/
theorem begin (begun : store.begin = .ok after) : after.Consistent := by
  unfold Store.begin at begun
  split at begun
  · contradiction
  · cases begun
    refine ⟨consistent.tables, fun tables same => ?_⟩
    cases same
    exact consistent.tables

theorem commit (committed : store.commit = .ok after) : after.Consistent := by
  unfold Store.commit at committed
  split at committed
  · cases committed
    exact consistent_ofTables consistent.tables
  · contradiction

/-- Returning to the tables from before a transaction keeps a store consistent. -/
theorem rollBack (restored : store.rollBack = .ok after) : after.Consistent := by
  unfold Store.rollBack at restored
  split at restored
  · next tables begun =>
      cases restored
      exact consistent_ofTables (consistent.begun tables begun)
  · contradiction

/-- A load leaves a consistent store, whether it succeeds or fails. -/
theorem load (items : List (Except Fault Event)) : (store.load items).2.Consistent := by
  by_cases closed : store.begun = none
  · -- a load begins a transaction, so its first store would return to the tables that it finds
    have start : (Loader.ofStore store).store.Consistent := by
      refine ⟨consistent.tables, fun tables same => ?_⟩
      cases same
      exact consistent.tables
    have kept := Loader.maintains_applyAll consistent_keptByInsertions items _ start
    rw [load_of_closed closed]
    split
    · next applied =>
        rw [applied] at kept
        exact consistent_ofTables kept.tables
    · exact consistent
  · rw [load_of_begun closed]
    exact consistent

end Consistent

end Store

end BranchCatalog
