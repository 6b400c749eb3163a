import BranchCatalog.Proofs.Report.Extension
import BranchCatalog.Proofs.Report.Reading

namespace BranchCatalog

namespace Relocation

def stay : Relocation :=
  ⟨id, 0, 0, fun _ => 0⟩

theorem stay_joined (joined : JoinedRow) : stay.joined joined = joined := by
  obtain ⟨first, _ | second, _ | ⟨kind, third⟩⟩ := joined <;>
  simp [stay, Relocation.joined, tree, branch, note, treeRow, branchRow, noteRow]

end Relocation

namespace Tables

section Moved

variable {whole part : Tables} {move : Relocation}

/-- A location depends on the tables only through the file name. -/
theorem location_of_filename_eq {file other : Option Id}
    (same : whole.filename file = part.filename other) (index : Nat) (line : Int) :
    whole.location file index line = part.location other index line := by
  rw [location, location, same]

/-- A moved branch is read as before when its file has the same name. -/
theorem readBranch_branch {stored : Stored BranchRow}
    (same : whole.filename (move.file stored.row.file) = part.filename stored.row.file) :
    whole.readBranch (move.branch stored) = part.readBranch stored := by
  simp only [readBranch, Relocation.branch, Relocation.branchRow, location_of_filename_eq same]

/-- A moved note is read as before when its file has the same name. -/
theorem readNote_note {note : NoteKind × Stored NoteRow}
    (same : whole.filename (move.file note.2.row.file) = part.filename note.2.row.file) :
    whole.readNote (move.note note) = part.readNote note := by
  simp only [readNote, Relocation.note, Relocation.noteRow, location_of_filename_eq same]

/-- Joined rows are read alike when their references to files have the same names. -/
theorem readJoined_joined {joined : JoinedRow}
    (tree : whole.filename (move.file joined.tree.row.file) =
      part.filename joined.tree.row.file)
    (branch : ∀ stored, joined.branch = some stored →
      whole.filename (move.file stored.row.file) = part.filename stored.row.file)
    (note : ∀ note, joined.note = some note →
      whole.filename (move.file note.2.row.file) = part.filename note.2.row.file) :
    whole.readJoined (move.joined joined) = part.readJoined joined := by
  have branches : (joined.branch.map move.branch).mapM whole.readBranch =
      joined.branch.mapM part.readBranch := by
    cases is : joined.branch with
    | none => rfl
    | some stored => simp only [Option.map_some, Option.mapM_some, readBranch_branch (branch stored is)]
  have notes : (joined.note.map move.note).mapM whole.readNote =
      joined.note.mapM part.readNote := by
    cases is : joined.note with
    | none => rfl
    | some found => simp only [Option.map_some, Option.mapM_some, readNote_note (note found is)]
  simp only [readJoined_eq, Relocation.joined, Relocation.tree, Relocation.treeRow, branches, notes,
    location_of_filename_eq tree]

end Moved

variable {tables : Tables} {events : List Event}

/-- A reference to a file that resolves shows the name of the file. -/
theorem exists_of_resolves_file (numbered : tables.files.Numbered) {file : Option Id}
    (resolved : tables.files.resolves file = true) :
    ∃ stored ∈ tables.files.rows, file = some stored.id ∧ tables.filename file = stored.row := by
  obtain ⟨stored, member, rfl⟩ := Table.exists_of_resolves resolved
  exact ⟨stored, member, rfl, filename_of_stored numbered member⟩

/-- Old references to files keep their names. -/
theorem filename_extended (numbered : tables.files.Numbered) (events : List Event)
    {file : Option Id} (resolved : tables.files.resolves file = true) :
    (tables.extended events).filename file = tables.filename file := by
  obtain ⟨stored, member, rfl, name⟩ := exists_of_resolves_file numbered resolved
  have kept : stored ∈ (tables.extended events).files.rows := List.mem_append_left _ member
  have more : (tables.extended events).files.Numbered := numbered.append _
  rw [name, filename_of_stored more kept]

/-- New references to files have the names that they have for the events alone. -/
theorem filename_relocation (numbered : tables.files.Numbered) {file : Option Id}
    (resolved : (Tables.empty.extended events).files.resolves file = true) :
    (tables.extended events).filename ((tables.relocation events).file file) =
      (Tables.empty.extended events).filename file := by
  obtain ⟨stored, member, rfl, name⟩ :=
    exists_of_resolves_file (numbered_files_empty events) resolved
  have used : stored.row ∈ events.map Event.filename := by
    rcases Table.mem_append_rows.mp member with old | ⟨index, found, -⟩
    · exact absurd old List.not_mem_nil
    · exact List.mem_eraseDups.mp (List.mem_of_mem_filter (List.mem_of_getElem? found))
  obtain ⟨event, present, same⟩ := List.mem_map.mp used
  obtain ⟨id, found⟩ := Option.isSome_iff_exists.mp (isSome_fileId?_withFilesOf tables used)
  have moved : (tables.relocation events).file (some stored.id) = some id := by
    have row := (numbered_files_empty events).find?_eq_some member
    simp only [relocation, Option.bind_some, row, found]
  rw [moved]
  refine Eq.trans ?_ name.symm
  exact filename_fileId? (numbered_withFilesOf numbered events) found

/-- The files of the rows that a joined row is made of resolve. -/
theorem Sound.resolves_of_mem_joinedRows (sound : tables.Sound) {joined : JoinedRow}
    (member : joined ∈ tables.joinedRows) :
    tables.files.resolves joined.tree.row.file = true ∧
    (∀ stored, joined.branch = some stored → tables.files.resolves stored.row.file = true) ∧
    ∀ note, joined.note = some note → tables.files.resolves note.2.row.file = true := by
  obtain ⟨tree, branches, notes⟩ := of_mem_joinedRows member
  refine ⟨sound.treesResolve _ tree, ?_, ?_⟩
  · intro stored is
    exact (sound.branchesResolve stored (branches stored is).1).2
  · intro note is
    exact (sound.notesResolve note.1 note.2 (mem_notes_of_mem_allNotes (notes note is).1)).2

/-- A report of extended tables is the old report and then the report of the events alone. -/
theorem reportRows_extended (sound : tables.Sound)
    (accepted : firstFault? [] (events.map .ok) = none) :
    (tables.extended events).reportRows = (do
      let old ← tables.reportRows
      let new ← (Tables.empty.extended events).reportRows
      return old ++ new) := by
  have added := sound_empty.extended accepted
  have whole := sound.extended accepted
  have old : tables.joinedRows.mapM (tables.extended events).readJoined =
      tables.joinedRows.mapM tables.readJoined := by
    apply mapM_congr
    intro joined member
    obtain ⟨tree, branch, note⟩ := sound.resolves_of_mem_joinedRows member
    have files {file : Option Id} (resolved : tables.files.resolves file = true) :=
      filename_extended sound.files events resolved
    have stayed : (tables.extended events).readJoined (Relocation.stay.joined joined) =
        tables.readJoined joined :=
      readJoined_joined (files tree) (fun stored is => files (branch stored is))
        (fun stored is => files (note stored is))
    rwa [Relocation.stay_joined] at stayed
  have new : (((Tables.empty.extended events).joinedRows.map (tables.relocation events).joined).mapM
      (tables.extended events).readJoined) =
      (Tables.empty.extended events).joinedRows.mapM (Tables.empty.extended events).readJoined := by
    rw [List.mapM_map]
    apply mapM_congr
    intro joined member
    obtain ⟨tree, branch, note⟩ := added.resolves_of_mem_joinedRows member
    have files {file : Option Id}
        (resolved : (Tables.empty.extended events).files.resolves file = true) :=
      filename_relocation sound.files resolved
    exact readJoined_joined (files tree) (fun stored is => files (branch stored is))
      (fun stored is => files (note stored is))
  rw [reportRows_eq whole.toNumbered, reportRows_eq sound.toNumbered,
    reportRows_eq added.toNumbered, joinedRows_extended sound accepted, List.mapM_append, old, new]

end Tables

end BranchCatalog
