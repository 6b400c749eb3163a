import BranchCatalog.Proofs.Load.Soundness
import BranchCatalog.Proofs.Report.Join

namespace BranchCatalog

/-- How rows move when they are added to tables that hold rows already: ids and references to trees and
branches go on after the last ids given out, and references to files go to the files of the same name. -/
structure Relocation where
  file : Option Id → Option Id
  trees : Id
  branches : Id
  notes : NoteKind → Id

namespace Relocation

def treeRow (move : Relocation) (row : TreeRow) : TreeRow :=
  { row with file := move.file row.file }

def branchRow (move : Relocation) (row : BranchRow) : BranchRow :=
  { row with tree := row.tree.map (move.trees + ·), file := move.file row.file }

def noteRow (move : Relocation) (row : NoteRow) : NoteRow :=
  { row with branch := row.branch.map (move.branches + ·), file := move.file row.file }

def tree (move : Relocation) (stored : Stored TreeRow) : Stored TreeRow :=
  ⟨move.trees + stored.id, move.treeRow stored.row⟩

def branch (move : Relocation) (stored : Stored BranchRow) : Stored BranchRow :=
  ⟨move.branches + stored.id, move.branchRow stored.row⟩

def pair (move : Relocation) (pair : Stored TreeRow × Option (Stored BranchRow)) :
    Stored TreeRow × Option (Stored BranchRow) :=
  (move.tree pair.1, pair.2.map move.branch)

def note (move : Relocation) (note : NoteKind × Stored NoteRow) : NoteKind × Stored NoteRow :=
  (note.1, ⟨move.notes note.1 + note.2.id, move.noteRow note.2.row⟩)

def joined (move : Relocation) (joined : JoinedRow) : JoinedRow :=
  ⟨move.tree joined.tree, joined.branch.map move.branch, joined.note.map move.note⟩

end Relocation

/-- Rows that are appended stand under ids that go on after the last one. -/
theorem rows_append_map {Row : Type} (table : Table Row) (change : Row → Row) (rows : List Row) :
    (table.append (rows.map change)).rows =
      table.rows ++ (Table.empty.append rows).rows.map fun stored =>
        ⟨table.lastId + stored.id, change stored.row⟩ := by
  induction rows using List.reverseRecOn with
  | nil => simp [Table.append_nil, Table.empty]
  | append_singleton rows row inductionHypothesis =>
      have next : (table.append (rows.map change)).lastId + 1 =
          table.lastId + ((Table.empty.append rows).lastId + 1) := by
        simp only [Table.append, Table.empty, List.length_map]
        lia
      rw [List.map_append, List.map_singleton, Table.append_concat, Table.append_concat, Table.insert,
        Table.insert, inductionHypothesis, List.map_append, List.append_assoc, next]
      rfl

/-- Ids go on after the last one that a table has given out. -/
theorem rowId_eq_add {Row : Type} (table : Table Row) (accepted : Event → Bool)
    (events : List Event) :
    rowId table accepted events =
      (table.lastId + ·) ∘ rowId (Table.empty : Table Row) accepted events := by
  funext position
  simp only [Function.comp_apply, rowId, Table.empty]
  lia

namespace Tables

variable {tables : Tables} {events : List Event}

/-- How the rows that events have in empty tables move when the events extend other tables. -/
def relocation (tables : Tables) (events : List Event) : Relocation where
  file file := file.bind fun id =>
    ((Tables.empty.withFilesOf events).files.find? id).bind (tables.withFilesOf events).fileId?
  trees := tables.trees.lastId
  branches := tables.branches.lastId
  notes kind := (tables.notes kind).lastId

theorem numbered_files_empty (events : List Event) :
    (Tables.empty.withFilesOf events).files.Numbered :=
  Table.Numbered.empty.append _

/-- The file of an event moves to the file of the same name. -/
theorem relocation_file (tables : Tables) {event : Event} (member : event ∈ events) :
    (tables.relocation events).file ((Tables.empty.withFilesOf events).fileId? event.filename) =
      (tables.withFilesOf events).fileId? event.filename := by
  obtain ⟨id, found⟩ := Option.isSome_iff_exists.mp
    (isSome_fileId?_withFilesOf Tables.empty (List.mem_map_of_mem member))
  have row := (numbered_files_empty events).find?_eq_some (fileId?_eq_some found)
  simp only [found, relocation, Option.bind_some, row]

/-- The trees that events add are those of the events alone, moved. -/
theorem rows_trees_extended (tables : Tables) (events : List Event) :
    (tables.extended events).trees.rows =
      tables.trees.rows ++
        (Tables.empty.extended events).trees.rows.map (tables.relocation events).tree := by
  have rows : along (fun _ => (tables.withFilesOf events).treeRow?) events =
      (along (fun _ => (Tables.empty.withFilesOf events).treeRow?) events).map
        (tables.relocation events).treeRow := by
    rw [map_along]
    apply along_congr
    intro earlier event later split
    have file := tables.relocation_file (show event ∈ events by simp [split])
    cases event with
    | file | branch | note => rfl
    | tree location finding => simp_all [treeRow?, Relocation.treeRow, Event.filename]
  rw [extended, recording, rows]
  exact rows_append_map tables.trees _ _

/-- The branches that events add are those of the events alone, moved. -/
theorem rows_branches_extended (tables : Tables) (events : List Event) :
    (tables.extended events).branches.rows =
      tables.branches.rows ++
        (Tables.empty.extended events).branches.rows.map (tables.relocation events).branch := by
  have rows : along (tables.withFilesOf events).branchRow? events =
      (along (Tables.empty.withFilesOf events).branchRow? events).map
        (tables.relocation events).branchRow := by
    rw [map_along]
    apply along_congr
    intro earlier event later split
    have file := tables.relocation_file (show event ∈ events by simp [split])
    cases event with
    | file | tree | note => rfl
    | branch location finding =>
        have tree := rowId_eq_add tables.trees Event.isTree earlier
        simp only [branchRow?, Option.map_some, Relocation.branchRow, Option.map_map]
        rw [Option.some.injEq, BranchRow.mk.injEq]
        exact ⟨congrArg (Option.map · _) tree, rfl, rfl, rfl, file.symm, rfl⟩
  rw [extended, recording, rows]
  exact rows_append_map tables.branches _ _

/-- The notes that events add are those of the events alone, moved. -/
theorem rows_notes_extended (tables : Tables) (events : List Event) (kind : NoteKind) :
    ((tables.extended events).notes kind).rows.map (kind, ·) =
      (tables.notes kind).rows.map (kind, ·) ++
        (((Tables.empty.extended events).notes kind).rows.map (kind, ·)).map
          (tables.relocation events).note := by
  have rows : along ((tables.withFilesOf events).noteRow? kind) events =
      (along ((Tables.empty.withFilesOf events).noteRow? kind) events).map
        (tables.relocation events).noteRow := by
    rw [map_along]
    apply along_congr
    intro earlier event later split
    have file := tables.relocation_file (show event ∈ events by simp [split])
    cases event with
    | file | tree | branch => rfl
    | note found location finding =>
        have branch := rowId_eq_add tables.branches Event.isBranch earlier
        by_cases same : found = kind
        · simp only [noteRow?, if_pos same, Option.map_some, Relocation.noteRow, Option.map_map]
          rw [Option.some.injEq, NoteRow.mk.injEq]
          exact ⟨rfl, congrArg (Option.map · _) branch, file.symm, rfl⟩
        · simp only [noteRow?, if_neg same, Option.map_none]
  have appended := rows_append_map (tables.notes kind) (tables.relocation events).noteRow
    (along ((Tables.empty.withFilesOf events).noteRow? kind) events)
  have empty : Tables.empty.notes kind = Table.empty := by cases kind <;> rfl
  rw [notes_extended, notes_extended, rows, appended, empty, List.map_append, List.map_map,
    List.map_map]
  rfl

/-- Rows that are appended to an empty table have positive ids. -/
theorem pos_of_mem_append_empty {Row : Type} {rows : List Row} {stored : Stored Row}
    (member : stored ∈ ((Table.empty : Table Row).append rows).rows) : 0 < stored.id := by
  rcases Table.mem_append_rows.mp member with old | ⟨index, -, same⟩
  · exact absurd old List.not_mem_nil
  · rw [same, Table.empty]
    lia

theorem ne_new_of_resolves {Row : Type} {table : Table Row} (numbered : table.Numbered)
    {reference : Option Id} (resolved : table.resolves reference = true) {id : Id} (new : 0 < id) :
    reference ≠ some (table.lastId + id) := by
  obtain ⟨stored, member, rfl⟩ := Table.exists_of_resolves resolved
  have bound := numbered.within stored member
  intro same
  have equal := Option.some.inj same
  lia

theorem map_ne_old_of_resolves {Row : Type} {rows : List Row} {reference : Option Id}
    (resolved : ((Table.empty : Table Row).append rows).resolves reference = true) {last id : Id}
    (old : id ≤ last) : reference.map (last + ·) ≠ some id := by
  obtain ⟨stored, member, rfl⟩ := Table.exists_of_resolves resolved
  have positive := pos_of_mem_append_empty member
  intro same
  have equal : last + stored.id = id := Option.some.inj same
  lia

/-- References that are moved together stay references to the same row. -/
theorem map_add_eq_some_iff {reference : Option Id} {last id : Id} :
    reference.map (last + ·) = some (last + id) ↔ reference = some id := by
  cases reference with
  | none => simp
  | some other => simp

/-- Which notes of extended tables pass a test that no new note passes. -/
theorem filter_allNotes_of_old {accepted : NoteKind × Stored NoteRow → Bool}
    (refused : ∀ note ∈ (Tables.empty.extended events).allNotes,
      accepted ((tables.relocation events).note note) = false) :
    (tables.extended events).allNotes.filter accepted = tables.allNotes.filter accepted := by
  have dropped (kind : NoteKind) :
      ((((Tables.empty.extended events).notes kind).rows.map (kind, ·)).map
        (tables.relocation events).note).filter accepted = [] := by
    rw [List.filter_eq_nil_iff]
    intro note member
    obtain ⟨origin, inside, rfl⟩ := List.mem_map.mp member
    rw [refused origin (List.mem_flatMap.mpr ⟨kind, by cases kind <;> simp, inside⟩)]
    exact Bool.false_ne_true
  simp only [allNotes, List.flatMap_cons, List.flatMap_nil, rows_notes_extended tables, List.filter_append,
    dropped, List.append_nil]

/-- Which notes of extended tables pass a test that no old note passes. -/
theorem filter_allNotes_of_new {accepted : NoteKind × Stored NoteRow → Bool}
    (refused : ∀ note ∈ tables.allNotes, accepted note = false) :
    (tables.extended events).allNotes.filter accepted =
      ((Tables.empty.extended events).allNotes.map (tables.relocation events).note).filter
        accepted := by
  have dropped (kind : NoteKind) :
      ((tables.notes kind).rows.map (kind, ·)).filter accepted = [] := by
    rw [List.filter_eq_nil_iff]
    intro note member
    rw [refused note (List.mem_flatMap.mpr ⟨kind, by cases kind <;> simp, member⟩)]
    exact Bool.false_ne_true
  simp only [allNotes, List.flatMap_cons, List.flatMap_nil, rows_notes_extended tables, List.filter_append,
    List.map_append, dropped, List.append_nil, List.nil_append]

/-- Trees and branches that are added are joined among themselves. -/
theorem treesWithBranches_extended (sound : tables.Sound)
    (accepted : firstFault? [] (events.map .ok) = none) :
    (tables.extended events).treesWithBranches =
      tables.treesWithBranches ++
        (Tables.empty.extended events).treesWithBranches.map (tables.relocation events).pair := by
  have added := sound_empty.extended accepted
  rw [treesWithBranches, rows_trees_extended, rows_branches_extended]
  apply outerJoin_extend
  · intro tree member
    have bound := sound.trees.within tree member
    rw [List.filter_append, List.append_right_eq_self, List.filter_eq_nil_iff]
    intro branch new
    obtain ⟨origin, inside, rfl⟩ := List.mem_map.mp new
    have resolved := (added.branchesResolve origin inside).1
    intro same
    exact map_ne_old_of_resolves resolved bound (of_decide_eq_true same)
  · intro tree member
    have positive := pos_of_mem_append_empty member
    rw [List.filter_append, List.append_left_eq_self, List.filter_eq_nil_iff]
    intro branch old
    have resolved := (sound.branchesResolve branch old).1
    intro same
    exact ne_new_of_resolves sound.trees resolved positive (of_decide_eq_true same)
  · intro tree _ branch _
    rw [decide_eq_decide]
    exact map_add_eq_some_iff

theorem hasNote_old_new (sound : tables.Sound) (accepted : firstFault? [] (events.map .ok) = none)
    {pair : Stored TreeRow × Option (Stored BranchRow)} (old : pair ∈ tables.treesWithBranches)
    {note : NoteKind × Stored NoteRow} (new : note ∈ (Tables.empty.extended events).allNotes) :
    hasNote pair ((tables.relocation events).note note) = false := by
  obtain ⟨tree, _ | branch⟩ := pair
  · rfl
  · have bound := sound.branches.within branch (mem_branches_of_mem_treesWithBranches old)
    have added := sound_empty.extended accepted
    have resolved := (added.notesResolve note.1 note.2 (mem_notes_of_mem_allNotes new)).1
    exact decide_eq_false (map_ne_old_of_resolves resolved bound)

theorem hasNote_new_old (sound : tables.Sound)
    {pair : Stored TreeRow × Option (Stored BranchRow)}
    (new : pair ∈ (Tables.empty.extended events).treesWithBranches)
    {note : NoteKind × Stored NoteRow} (old : note ∈ tables.allNotes) :
    hasNote ((tables.relocation events).pair pair) note = false := by
  obtain ⟨tree, _ | branch⟩ := pair
  · rfl
  · have positive := pos_of_mem_append_empty (mem_branches_of_mem_treesWithBranches new)
    have resolved := (sound.notesResolve note.1 note.2 (mem_notes_of_mem_allNotes old)).1
    exact decide_eq_false (ne_new_of_resolves sound.branches resolved positive)

/-- Moving a note together with its branch keeps it on the branch. -/
theorem hasNote_new_new (move : Relocation) (pair : Stored TreeRow × Option (Stored BranchRow))
    (note : NoteKind × Stored NoteRow) :
    hasNote (move.pair pair) (move.note note) = hasNote pair note := by
  obtain ⟨tree, _ | branch⟩ := pair
  · rfl
  · exact decide_eq_decide.mpr map_add_eq_some_iff

/-- The joined rows that events add are those of the events alone, moved behind the old ones. -/
theorem joinedRows_extended (sound : tables.Sound)
    (accepted : firstFault? [] (events.map .ok) = none) :
    (tables.extended events).joinedRows =
      tables.joinedRows ++
        (Tables.empty.extended events).joinedRows.map (tables.relocation events).joined := by
  have notes : outerJoin hasNote
      (tables.treesWithBranches ++ (Tables.empty.extended events).treesWithBranches.map
        (tables.relocation events).pair) (tables.extended events).allNotes =
      outerJoin hasNote tables.treesWithBranches tables.allNotes ++
        (outerJoin hasNote (Tables.empty.extended events).treesWithBranches
          (Tables.empty.extended events).allNotes).map fun pair =>
            ((tables.relocation events).pair pair.1, pair.2.map (tables.relocation events).note) := by
    apply outerJoin_extend
    · intro pair old
      exact filter_allNotes_of_old fun note new => hasNote_old_new sound accepted old new
    · intro pair new
      exact filter_allNotes_of_new fun note old => hasNote_new_old sound new old
    · intro pair _ note _
      exact hasNote_new_new (tables.relocation events) pair note
  have pairs := treesWithBranches_extended sound accepted
  rw [joinedRows_eq, pairs, notes, List.map_append, joinedRows_eq, joinedRows_eq, List.map_map, List.map_map]
  rfl

end Tables

end BranchCatalog
