import BranchCatalog.Proofs.Report.Traversal
import BranchCatalog.Proofs.Store.Damage
import Mathlib.Data.List.Nodup
import Mathlib.Data.List.Perm.Basic

namespace BranchCatalog

section Join

variable {Left Right : Type} {isMatch : Left → Right → Bool} {left : List Left} {right : List Right}

/-- An item stands in a join with each of its matches. -/
theorem mem_outerJoin_of_match {item : Left} {other : Right} (inside : item ∈ left)
    (present : other ∈ right) (matched : isMatch item other = true) :
    (item, some other) ∈ outerJoin isMatch left right := by
  rw [outerJoin_eq]
  refine List.mem_flatMap.mpr ⟨item, inside, ?_⟩
  have found := List.mem_filter.mpr ⟨present, matched⟩
  cases matches' : right.filter (isMatch item) with
  | nil =>
      rw [matches'] at found
      contradiction
  | cons first others =>
      rw [matches'] at found
      exact List.mem_map_of_mem found

theorem exists_mem_outerJoin {item : Left} (inside : item ∈ left) :
    ∃ other, (item, other) ∈ outerJoin isMatch left right := by
  rw [outerJoin_eq]
  cases matches' : right.filter (isMatch item) with
  | nil => exact ⟨none, List.mem_flatMap.mpr ⟨item, inside, by simp [matches', paired]⟩⟩
  | cons first others =>
      exact ⟨some first, List.mem_flatMap.mpr ⟨item, inside, by simp [matches', paired]⟩⟩

/-- A join of lists without repetition has no repetition. -/
theorem nodup_outerJoin (lefts : left.Nodup) (rights : right.Nodup) :
    (outerJoin isMatch left right).Nodup := by
  apply (pairwise_outerJoin lefts rights).imp
  rintro first second (different | ⟨-, one, other, is, isOther, different⟩) rfl
  · exact different rfl
  · exact different (Option.some.inj (is.symm.trans isOther))

end Join

namespace Tables

variable {tables : Tables}

/-- The joined row that a report row is read from, by the position of the row in the report. -/
def shownAt (tables : Tables) (position : Nat) : Option JoinedRow :=
  (tables.joinedRows.mergeSort JoinedRow.precedes)[position]?

/-- The report row at a position shows a stored branch. -/
def ShowsBranch (tables : Tables) (stored : Stored BranchRow) (position : Nat) : Prop :=
  ∃ joined, tables.shownAt position = some joined ∧ joined.branch = some stored

/-- The report row at a position shows a stored note. -/
def ShowsNote (tables : Tables) (kind : NoteKind) (stored : Stored NoteRow) (position : Nat) : Prop :=
  ∃ joined, tables.shownAt position = some joined ∧ joined.note = some (kind, stored)

/-- A report row has a stored note in the column of its kind, next to its own branch and tree and with the
name of its own file. -/
def IsRowOfNote (tables : Tables) (kind : NoteKind) (stored : Stored NoteRow) (row : ReportRow) :
    Prop :=
  ∃ branch ∈ tables.branches.rows, ∃ tree ∈ tables.trees.rows, ∃ file ∈ tables.files.rows,
    stored.row.branch = some branch.id ∧ branch.row.tree = some tree.id ∧
    stored.row.file = some file.id ∧
    row = tables.shownTree tree (some (tables.shownBranch branch)) row.comment row.assignment ∧
    row.noteOf kind = some ⟨stored.row.text, ⟨file.row, stored.row.line.toNat⟩⟩

/-- Every reference to a file resolves. -/
structure FilesResolve (tables : Tables) : Prop where
  trees : ∀ stored ∈ tables.trees.rows, tables.files.resolves stored.row.file = true
  branches : ∀ stored ∈ tables.branches.rows, tables.files.resolves stored.row.file = true
  notes : ∀ kind, ∀ stored ∈ (tables.notes kind).rows,
    tables.files.resolves stored.row.file = true

theorem mem_allNotes_of_mem_notes {kind : NoteKind} {stored : Stored NoteRow}
    (member : stored ∈ (tables.notes kind).rows) : (kind, stored) ∈ tables.allNotes :=
  List.mem_flatMap.mpr ⟨kind, by cases kind <;> simp, List.mem_map_of_mem member⟩

/-- A branch stands in the join exactly when its reference to a tree resolves. -/
theorem exists_joined_branch_iff {stored : Stored BranchRow}
    (member : stored ∈ tables.branches.rows) :
    (∃ joined ∈ tables.joinedRows, joined.branch = some stored) ↔
      tables.trees.resolves stored.row.tree = true := by
  constructor
  · rintro ⟨joined, inside, is⟩
    obtain ⟨tree, branches, -⟩ := of_mem_joinedRows inside
    rw [(branches stored is).2, Table.resolves_some]
    exact List.any_eq_true.mpr ⟨joined.tree, tree, by simp⟩
  · intro resolved
    obtain ⟨tree, treeIn, same⟩ := Table.exists_of_resolves resolved
    have pair : (tree, some stored) ∈ tables.treesWithBranches :=
      mem_outerJoin_of_match treeIn member (decide_eq_true same)
    obtain ⟨note, whole⟩ := exists_mem_outerJoin pair
    exact ⟨⟨tree, some stored, note⟩, List.mem_map_of_mem whole, rfl⟩

/-- A note stands in the join with a branch and a tree that the references lead to. -/
theorem mem_joinedRows_of_references {tree : Stored TreeRow} (treeIn : tree ∈ tables.trees.rows)
    {branch : Stored BranchRow} (branchIn : branch ∈ tables.branches.rows)
    (toTree : branch.row.tree = some tree.id) {kind : NoteKind} {stored : Stored NoteRow}
    (member : stored ∈ (tables.notes kind).rows) (toBranch : stored.row.branch = some branch.id) :
    ⟨tree, some branch, some (kind, stored)⟩ ∈ tables.joinedRows := by
  have pair : (tree, some branch) ∈ tables.treesWithBranches :=
    mem_outerJoin_of_match treeIn branchIn (decide_eq_true toTree)
  have whole : ((tree, some branch), some (kind, stored)) ∈
      outerJoin hasNote tables.treesWithBranches tables.allNotes :=
    mem_outerJoin_of_match pair (mem_allNotes_of_mem_notes member) (decide_eq_true toBranch)
  exact List.mem_map_of_mem whole

section Numbered

variable (numbered : tables.Numbered)
include numbered

/-- A report shows the joined rows at their positions. -/
theorem shownAt_eq (position : Nat) : tables.shownAt position = tables.joinedRows[position]? := by
  rw [shownAt, List.mergeSort_of_pairwise (pairwise_joinedRows numbered)]

theorem exists_shownAt_iff {holds : JoinedRow → Prop} :
    (∃ position joined, tables.shownAt position = some joined ∧ holds joined) ↔
      ∃ joined ∈ tables.joinedRows, holds joined := by
  simp only [shownAt_eq numbered, List.mem_iff_getElem?]
  exact ⟨fun ⟨position, joined, found, held⟩ => ⟨joined, ⟨position, found⟩, held⟩,
    fun ⟨joined, ⟨position, found⟩, held⟩ => ⟨position, joined, found, held⟩⟩

theorem nodup_allNotes : tables.allNotes.Nodup := by
  apply (pairwise_allNotes numbered).imp
  rintro first second (rank | ⟨-, below⟩) rfl
  · exact Int.lt_irrefl _ rank
  · exact Int.lt_irrefl _ below

/-- No joined row is there twice. -/
theorem nodup_joinedRows : tables.joinedRows.Nodup := by
  have pairs : tables.treesWithBranches.Nodup :=
    nodup_outerJoin numbered.trees.nodup numbered.branches.nodup
  refine (nodup_outerJoin pairs (nodup_allNotes numbered)).map ?_
  rintro ⟨⟨tree, branch⟩, note⟩ ⟨⟨other, otherBranch⟩, otherNote⟩ same
  cases same
  rfl

/-- A note stands in at most one row of the join. -/
theorem eq_of_joined_note_eq {joined other : JoinedRow} (left : joined ∈ tables.joinedRows)
    (right : other ∈ tables.joinedRows) {note : NoteKind × Stored NoteRow}
    (is : joined.note = some note) (same : other.note = some note) : joined = other := by
  -- the note names its branch and this one its tree, and an id belongs to one row only
  obtain ⟨branch, branchIn, hasBranch, toTree, toBranch⟩ := exists_branch_of_joined_note left is
  obtain ⟨second, secondIn, hasSecond, toOther, toSecond⟩ := exists_branch_of_joined_note right same
  obtain rfl : branch = second := by
    apply numbered.branches.eq_of_id_eq branchIn secondIn
    exact Option.some.inj (toBranch.symm.trans toSecond)
  have tree : joined.tree = other.tree := by
    apply numbered.trees.eq_of_id_eq (of_mem_joinedRows left).1 (of_mem_joinedRows right).1
    exact Option.some.inj (toTree.symm.trans toOther)
  obtain ⟨tree, branch, note⟩ := joined
  obtain ⟨otherTree, otherBranch, otherNote⟩ := other
  simp_all

/-- A note is shown by at most one row of a report. -/
theorem eq_of_showsNote {kind : NoteKind} {stored : Stored NoteRow} {position other : Nat}
    (left : tables.ShowsNote kind stored position) (right : tables.ShowsNote kind stored other) :
    position = other := by
  obtain ⟨joined, found, is⟩ := left
  obtain ⟨second, foundSecond, same⟩ := right
  rw [shownAt_eq numbered] at found foundSecond
  have equal := eq_of_joined_note_eq numbered (List.mem_of_getElem? found)
    (List.mem_of_getElem? foundSecond) is same
  subst equal
  obtain ⟨inside, -⟩ := List.getElem?_eq_some_iff.mp found
  exact (List.getElem?_inj inside (nodup_joinedRows numbered)).mp (found.trans foundSecond.symm)

/-- Every reference resolves exactly when those to files do and no branch and no note is left out of a
report. -/
theorem orphanCount_eq_zero_iff_shown :
    tables.orphanCount = 0 ↔ tables.FilesResolve ∧
      (∀ stored ∈ tables.branches.rows, ∃ position, tables.ShowsBranch stored position) ∧
      ∀ kind, ∀ stored ∈ (tables.notes kind).rows, ∃ position,
        tables.ShowsNote kind stored position := by
  simp only [ShowsBranch, ShowsNote, exists_shownAt_iff numbered]
  rw [orphanCount_eq_zero_iff]
  constructor
  · rintro ⟨trees, branches, notes⟩
    refine ⟨⟨trees, fun stored member => (branches stored member).2,
      fun kind stored member => (notes kind stored member).2⟩, ?_, ?_⟩
    · intro stored member
      exact (exists_joined_branch_iff member).mpr (branches stored member).1
    · intro kind stored member
      obtain ⟨branch, branchIn, toBranch⟩ := Table.exists_of_resolves (notes kind stored member).1
      obtain ⟨tree, treeIn, toTree⟩ := Table.exists_of_resolves (branches branch branchIn).1
      exact ⟨_, mem_joinedRows_of_references treeIn branchIn toTree member toBranch, rfl⟩
  · -- what is shown stands in the join, where every reference has been followed
    rintro ⟨files, branches, notes⟩
    refine ⟨files.trees, ?_, ?_⟩
    · intro stored member
      exact ⟨(exists_joined_branch_iff member).mp (branches stored member),
        files.branches stored member⟩
    · intro kind stored member
      obtain ⟨joined, inside, is⟩ := notes kind stored member
      obtain ⟨branch, branchIn, -, -, toBranch⟩ := exists_branch_of_joined_note inside is
      refine ⟨?_, files.notes kind stored member⟩
      rw [toBranch, Table.resolves_some]
      exact List.any_eq_true.mpr ⟨branch, branchIn, by simp⟩

end Numbered

/-- Each kind has all of its notes among the notes of both kinds. -/
theorem countP_allNotes (tables : Tables) (kind : NoteKind) :
    tables.allNotes.countP (fun note => note.1 = kind) = (tables.notes kind).size := by
  cases kind <;>
  simp [allNotes, Table.size, List.countP_map, Function.comp_def]

section Sound

variable (sound : tables.Sound)
include sound

/-- Without orphans a note stands in the join with its own branch and tree. -/
theorem Sound.exists_joined_note {kind : NoteKind} {stored : Stored NoteRow}
    (member : stored ∈ (tables.notes kind).rows) :
    ∃ branch ∈ tables.branches.rows, ∃ tree ∈ tables.trees.rows,
      stored.row.branch = some branch.id ∧ branch.row.tree = some tree.id ∧
      ⟨tree, some branch, some (kind, stored)⟩ ∈ tables.joinedRows := by
  obtain ⟨branch, branchIn, toBranch⟩ :=
    Table.exists_of_resolves (sound.notesResolve kind stored member).1
  obtain ⟨tree, treeIn, toTree⟩ := Table.exists_of_resolves (sound.branchesResolve branch branchIn).1
  exact ⟨branch, branchIn, tree, treeIn, toBranch, toTree,
    mem_joinedRows_of_references treeIn branchIn toTree member toBranch⟩

/-- Without orphans the notes in the join are all notes, each once. -/
theorem Sound.perm_notes : (tables.joinedRows.filterMap (·.note)).Perm tables.allNotes := by
  have distinct : (tables.joinedRows.filterMap (·.note)).Nodup := by
    refine List.pairwise_filterMap.mpr
      ((nodup_joinedRows sound.toNumbered).imp_of_mem ?_)
    rintro joined other left right different note is _ same rfl
    exact different (eq_of_joined_note_eq sound.toNumbered left right is same)
  refine (List.perm_ext_iff_of_nodup distinct (nodup_allNotes sound.toNumbered)).mpr fun note => ?_
  rw [List.mem_filterMap]
  constructor
  · rintro ⟨joined, inside, is⟩
    exact ((of_mem_joinedRows inside).2.2 note is).1
  · intro member
    obtain ⟨branch, -, tree, -, -, -, inside⟩ :=
      sound.exists_joined_note (mem_notes_of_mem_allNotes member)
    exact ⟨_, inside, rfl⟩

/-- Without orphans a report has as many rows with a note of a kind as there are such notes. -/
theorem Sound.countP_noteOf (kind : NoteKind) :
    (tables.joinedRows.map tables.shownRow).countP (fun row => (row.noteOf kind).isSome) =
      (tables.notes kind).size := by
  have each (joined : JoinedRow) : ((tables.shownRow joined).noteOf kind).isSome =
      ((joined.note.map fun note => decide (note.1 = kind)).getD false) := by
    rw [noteOf_shownRow]
    cases joined.note with
    | none => rfl
    | some note => by_cases same : note.1 = kind <;> simp [Option.filter, same]
  rw [← countP_allNotes, ← sound.perm_notes.countP_eq, List.countP_filterMap, List.countP_map]
  exact List.countP_congr fun joined _ => by rw [Function.comp_apply, each]

end Sound

/-- A report shows joined rows at the positions of its own rows. -/
theorem LinesFit.getElem?_reportRows (fit : tables.LinesFit) (numbered : tables.Numbered) :
    ∃ rows, tables.reportRows = .ok rows ∧
      ∀ position, rows[position]? = (tables.shownAt position).map tables.shownRow := by
  refine ⟨_, fit.reportRows_eq_map numbered, fun position => ?_⟩
  rw [List.getElem?_map, shownAt_eq numbered]

/-- Without orphans a note is shown by one row of the report, next to its own branch and tree and with the
name of its own file. -/
theorem Sound.exists_row_of_note (sound : tables.Sound) {kind : NoteKind} {stored : Stored NoteRow}
    (member : stored ∈ (tables.notes kind).rows) :
    ∃ position joined, tables.shownAt position = some joined ∧
      tables.IsRowOfNote kind stored (tables.shownRow joined) ∧
      ∀ other, tables.ShowsNote kind stored other ↔ other = position := by
  obtain ⟨branch, branchIn, tree, treeIn, toBranch, toTree, inside⟩ := sound.exists_joined_note member
  obtain ⟨file, fileIn, toFile⟩ :=
    Table.exists_of_resolves (sound.notesResolve kind stored member).2
  obtain ⟨position, found⟩ := List.mem_iff_getElem?.mp inside
  rw [← shownAt_eq sound.toNumbered] at found
  have shows : tables.ShowsNote kind stored position := ⟨_, found, rfl⟩
  refine ⟨position, _, found, ?_, fun other => ⟨?_, ?_⟩⟩
  · refine ⟨branch, branchIn, tree, treeIn, file, fileIn, toBranch, toTree, toFile, rfl, ?_⟩
    rw [noteOf_shownRow]
    simp [Option.filter, shownNote, shownLocation, toFile, filename_of_stored sound.files fileIn]
  · exact fun also => eq_of_showsNote sound.toNumbered also shows
  · rintro rfl
    exact shows

/-- No row is an orphan exactly when every reference to a file resolves and the report shows every branch and
every note. Then it shows every note in one row, next to its own branch and tree and with the name of its own
file, and has as many rows with a note of a kind as there are such notes. -/
theorem no_orphans_iff_report_complete (tables : Tables) (numbered : tables.Numbered)
    (fit : tables.LinesFit) :
    ∃ rows, tables.reportRows = .ok rows ∧
      (∀ position, rows[position]? = (tables.shownAt position).map tables.shownRow) ∧
      (tables.orphanCount = 0 ↔ tables.FilesResolve ∧
        (∀ stored ∈ tables.branches.rows, ∃ position, tables.ShowsBranch stored position) ∧
        ∀ kind, ∀ stored ∈ (tables.notes kind).rows, ∃ position,
          tables.ShowsNote kind stored position) ∧
      (tables.orphanCount = 0 →
        (∀ kind, ∀ stored ∈ (tables.notes kind).rows, ∃ position row,
          rows[position]? = some row ∧ tables.IsRowOfNote kind stored row ∧
            ∀ other, tables.ShowsNote kind stored other ↔ other = position) ∧
        ∀ kind, rows.countP (fun row => (row.noteOf kind).isSome) = (tables.notes kind).size) := by
  obtain ⟨rows, read, shown⟩ := fit.getElem?_reportRows numbered
  refine ⟨rows, read, shown, orphanCount_eq_zero_iff_shown numbered, fun none => ?_⟩
  have sound := sound_of_orphanCount_eq_zero numbered none
  constructor
  · intro kind stored member
    obtain ⟨position, joined, found, isRow, only⟩ := sound.exists_row_of_note member
    refine ⟨position, _, ?_, isRow, only⟩
    rw [shown, found, Option.map_some]
  · intro kind
    rw [fit.reportRows_eq_map numbered] at read
    rw [← Except.ok.inj read]
    exact sound.countP_noteOf kind

/-- A comment and an assignment are reported once each. When the tree is deleted, a branch has lost its
reference, and though every file is still there the branch or one of its notes is no longer shown. -/
theorem no_orphans_iff_report_complete_of_deleted_tree :
    let store := (Workbench.empty.run [.insertFile ['a'], .insertFile ['b'],
      .insertTree ⟨['t'], [], ['p'], 1, 3⟩, .insertBranch ⟨1, ['x'], [], ['v'], 1, 4⟩,
      .insertNote .comment ⟨['c'], 1, 2, 5⟩, .insertNote .assignment ⟨['d'], 1, 1, 6⟩]).store
    let damaged := store.damaged (.delete .trees 1)
    (∃ rows, store.tables.reportRows = .ok rows ∧
      ∀ kind, rows.countP (fun row => (row.noteOf kind).isSome) = 1) ∧
    damaged.tables.orphanCount = 1 ∧ damaged.tables.FilesResolve ∧
      ¬((∀ stored ∈ damaged.tables.branches.rows, ∃ position,
          damaged.tables.ShowsBranch stored position) ∧
        ∀ kind, ∀ stored ∈ (damaged.tables.notes kind).rows, ∃ position,
          damaged.tables.ShowsNote kind stored position) := by
  intro store damaged
  have numbered : store.tables.Numbered := Store.numbered_of_calls_and_damage _ []
  have stillNumbered : damaged.tables.Numbered := Store.numbered_of_calls_and_damage _ [.delete .trees 1]
  have fit : store.tables.LinesFit := ⟨by decide, by decide, fun kind => by cases kind <;> decide⟩
  have stillFit : damaged.tables.LinesFit :=
    ⟨by decide, by decide, fun kind => by cases kind <;> decide⟩
  have resolve : damaged.tables.FilesResolve :=
    ⟨by decide, by decide, fun kind => by cases kind <;> decide⟩
  obtain ⟨rows, read, -, -, complete⟩ := no_orphans_iff_report_complete store.tables numbered fit
  obtain ⟨-, -, -, iff, -⟩ := no_orphans_iff_report_complete damaged.tables stillNumbered stillFit
  have orphans : damaged.tables.orphanCount = 1 := by decide
  refine ⟨⟨rows, read, fun kind => ?_⟩, orphans, resolve, fun shown => ?_⟩
  · rw [(complete (by decide)).2]
    cases kind <;> rfl
  · rw [iff.mpr ⟨resolve, shown⟩] at orphans
    contradiction

end Tables

end BranchCatalog
