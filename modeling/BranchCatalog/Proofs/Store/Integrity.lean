import BranchCatalog.Proofs.Store.Append
import BranchCatalog.Store.Integrity

namespace BranchCatalog

namespace Table

variable {Row : Type} {table : Table Row} {reference : Option Id}

theorem resolves_some (table : Table Row) (id : Id) :
    table.resolves (some id) = table.contains id := rfl

/-- A reference that resolves leads to a row. -/
theorem exists_of_resolves (resolved : table.resolves reference = true) :
    ∃ stored ∈ table.rows, reference = some stored.id := by
  cases reference with
  | none => contradiction
  | some id =>
      obtain ⟨stored, member, same⟩ := List.any_eq_true.mp resolved
      exact ⟨stored, member, by rw [of_decide_eq_true same]⟩

/-- References that resolve go on to resolve when rows are appended. -/
theorem resolves_append (resolved : table.resolves reference = true) (rows : List Row) :
    (table.append rows).resolves reference = true := by
  obtain ⟨stored, member, rfl⟩ := exists_of_resolves resolved
  rw [resolves_some]
  exact List.any_eq_true.mpr ⟨stored, List.mem_append_left _ member, by simp⟩

end Table

namespace Tables

section WithNotes

variable (tables : Tables) (kind : NoteKind) (table : Table NoteRow)

@[simp] theorem files_withNotes : (tables.withNotes kind table).files = tables.files := by
  cases kind <;> rfl

@[simp] theorem trees_withNotes : (tables.withNotes kind table).trees = tables.trees := by
  cases kind <;> rfl

@[simp] theorem branches_withNotes : (tables.withNotes kind table).branches = tables.branches := by
  cases kind <;> rfl

/-- What holds of the new table and of the old ones holds of all tables of notes. -/
theorem notes_withNotes_of_both {tables : Tables} {kind : NoteKind} {table : Table NoteRow}
    {holds : Table NoteRow → Prop} (new : holds table) (old : ∀ other, holds (tables.notes other))
    (other : NoteKind) : holds ((tables.withNotes kind table).notes other) := by
  rw [notes_withNotes]
  split
  · exact new
  · exact old other

end WithNotes

/-- All tables hold their rows in the order of their ids. -/
structure Numbered (tables : Tables) : Prop where
  files : tables.files.Numbered
  trees : tables.trees.Numbered
  branches : tables.branches.Numbered
  notes : ∀ kind, (tables.notes kind).Numbered

/-- Tables are sound when they are numbered and every reference of a row resolves. -/
structure Sound (tables : Tables) : Prop extends tables.Numbered where
  treesResolve : ∀ stored ∈ tables.trees.rows, tables.files.resolves stored.row.file = true
  branchesResolve : ∀ stored ∈ tables.branches.rows,
    tables.trees.resolves stored.row.tree = true ∧ tables.files.resolves stored.row.file = true
  notesResolve : ∀ kind, ∀ stored ∈ (tables.notes kind).rows,
    tables.branches.resolves stored.row.branch = true ∧
      tables.files.resolves stored.row.file = true

/-- A reference to a file that does not resolve has no name. -/
theorem filename_of_unresolved {tables : Tables} {file : Option Id}
    (unresolved : tables.files.resolves file = false) : tables.filename file = [] := by
  cases file with
  | none => rfl
  | some id =>
      have absent : tables.files.rows.find? (·.id = id) = none :=
        List.find?_eq_none.mpr (by simpa [Table.resolves, Table.contains] using unresolved)
      rw [filename, Option.bind_some, Table.find?, absent]
      rfl

/-- No row is an orphan exactly when every reference of a row resolves. -/
theorem orphanCount_eq_zero_iff {tables : Tables} :
    tables.orphanCount = 0 ↔
      (∀ stored ∈ tables.trees.rows, tables.files.resolves stored.row.file = true) ∧
      (∀ stored ∈ tables.branches.rows,
        tables.trees.resolves stored.row.tree = true ∧
          tables.files.resolves stored.row.file = true) ∧
      ∀ kind, ∀ stored ∈ (tables.notes kind).rows,
        tables.branches.resolves stored.row.branch = true ∧
          tables.files.resolves stored.row.file = true := by
  have kinds {holds : NoteKind → Prop} :
      (∀ kind, holds kind) ↔ holds .comment ∧ holds .assignment :=
    ⟨fun all => ⟨all .comment, all .assignment⟩, fun both kind => by
      cases kind
      · exact both.1
      · exact both.2⟩
  simp only [orphanCount, isOrphanTree, isOrphanBranch, isOrphanNote, Nat.add_eq_zero_iff,
    List.countP_eq_zero, Bool.not_eq_true', Bool.not_eq_false, Bool.and_eq_true, kinds, and_assoc]
  rfl

/-- Sound tables have no orphans. -/
theorem Sound.orphanCount_eq_zero {tables : Tables} (sound : tables.Sound) :
    tables.orphanCount = 0 :=
  orphanCount_eq_zero_iff.mpr ⟨sound.treesResolve, sound.branchesResolve, sound.notesResolve⟩

/-- Numbered tables without orphans are sound. -/
theorem sound_of_orphanCount_eq_zero {tables : Tables} (numbered : tables.Numbered)
    (none : tables.orphanCount = 0) : tables.Sound := by
  obtain ⟨trees, branches, notes⟩ := orphanCount_eq_zero_iff.mp none
  exact ⟨numbered, trees, branches, notes⟩

theorem sound_empty : Tables.empty.Sound where
  files := Table.Numbered.empty
  trees := Table.Numbered.empty
  branches := Table.Numbered.empty
  notes kind := by cases kind <;> exact Table.Numbered.empty
  treesResolve _ member := absurd member List.not_mem_nil
  branchesResolve _ member := absurd member List.not_mem_nil
  notesResolve kind _ member := by cases kind <;> exact absurd member List.not_mem_nil

end Tables

end BranchCatalog
