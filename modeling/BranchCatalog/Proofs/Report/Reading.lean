import BranchCatalog.Proofs.Failure
import BranchCatalog.Proofs.Report.Join

namespace BranchCatalog

/-- A line number fits in 32 bits. -/
def IsLineNumber (line : Int) : Prop :=
  0 ≤ line ∧ line < 4294967296

instance (line : Int) : Decidable (IsLineNumber line) :=
  inferInstanceAs (Decidable (_ ∧ _))

/-- A line can be read when it is a line number. -/
theorem readLine_eq_ok_iff {index : Nat} {line : Int} {number : Nat} :
    readLine index line = .ok number ↔ IsLineNumber line ∧ number = line.toNat := by
  by_cases fits : IsLineNumber line
  · have read : readLine index line = .ok line.toNat := if_pos fits
    rw [read, Except.ok.injEq]
    exact ⟨fun same => ⟨fits, same.symm⟩, fun same => same.2.symm⟩
  · have read : readLine index line = .error (.lineOutOfRange line index) := if_neg fits
    rw [read]
    exact iff_of_false (by simp) fun same => fits same.1

/-- A joined row is readable when the lines of the rows that it is made of are line numbers. -/
structure JoinedRow.IsReadable (joined : JoinedRow) : Prop where
  tree : IsLineNumber joined.tree.row.line
  branch : ∀ stored, joined.branch = some stored → IsLineNumber stored.row.line
  note : ∀ note, joined.note = some note → IsLineNumber note.2.row.line

namespace Tables

/-- The line of a row in the file that the row refers to. -/
def shownLocation (tables : Tables) (file : Option Id) (line : Int) : Location :=
  ⟨tables.filename file, line.toNat⟩

def shownBranch (tables : Tables) (stored : Stored BranchRow) : ReportBranch where
  location := tables.shownLocation stored.row.file stored.row.line
  name := stored.row.name
  leafDefinition := stored.row.leafDefinition
  valueVariable := stored.row.valueVariable

def shownNote (tables : Tables) (stored : Stored NoteRow) : ReportNote where
  text := stored.row.text
  location := tables.shownLocation stored.row.file stored.row.line

/-- What a report shows of a tree, in a row with given other parts. -/
def shownTree (tables : Tables) (stored : Stored TreeRow) (branch : Option ReportBranch)
    (comment assignment : Option ReportNote) : ReportRow where
  treeLocation := tables.shownLocation stored.row.file stored.row.line
  treeName := stored.row.name
  treeTitle := stored.row.title
  treeVariable := stored.row.variableName
  branch
  comment
  assignment

/-- What a report shows of a joined row; a note stands in the column of its kind. -/
def shownRow (tables : Tables) (joined : JoinedRow) : ReportRow :=
  let noteOf (kind : NoteKind) : Option ReportNote :=
    (joined.note.filter fun (found, _) => found = kind).map fun (_, stored) => tables.shownNote stored
  tables.shownTree joined.tree (joined.branch.map tables.shownBranch) (noteOf .comment)
    (noteOf .assignment)

def readBranch (tables : Tables) (stored : Stored BranchRow) : Except StoreFault ReportBranch := do
  let location ← tables.location stored.row.file 6 stored.row.line
  return ReportBranch.mk location stored.row.name stored.row.leafDefinition stored.row.valueVariable

def readNote (tables : Tables) (note : NoteKind × Stored NoteRow) :
    Except StoreFault (NoteKind × ReportNote) := do
  let location ← tables.location note.2.row.file 13 note.2.row.line
  return (note.1, ReportNote.mk note.2.row.text location)

theorem readJoined_eq (tables : Tables) (joined : JoinedRow) :
    tables.readJoined joined = (do
      let branch ← joined.branch.mapM tables.readBranch
      let note ← joined.note.mapM tables.readNote
      let treeLocation ← tables.location joined.tree.row.file 1 joined.tree.row.line
      let noteOf (kind : NoteKind) : Option ReportNote :=
        (note.filter fun (found, _) => found = kind).map (·.2)
      return {
        treeLocation
        treeName := joined.tree.row.name
        treeTitle := joined.tree.row.title
        treeVariable := joined.tree.row.variableName
        branch
        comment := noteOf .comment
        assignment := noteOf .assignment }) := rfl

section Readable

variable {tables : Tables}

/-- A location can be read when its line can. -/
theorem location_eq_ok_iff {file : Option Id} {index : Nat} {line : Int} {location : Location} :
    tables.location file index line = .ok location ↔
      IsLineNumber line ∧ location = tables.shownLocation file line := by
  simp only [Tables.location, bind_eq_ok_iff, pure_eq_ok_iff, readLine_eq_ok_iff, shownLocation,
    and_assoc, exists_and_left, exists_eq_left]

/-- A branch can be shown when its line can be read. -/
theorem readBranch_eq_ok_iff (stored : Stored BranchRow) (branch : ReportBranch) :
    tables.readBranch stored = .ok branch ↔
      IsLineNumber stored.row.line ∧ branch = tables.shownBranch stored := by
  simp only [readBranch, bind_eq_ok_iff, pure_eq_ok_iff, location_eq_ok_iff, shownBranch,
    and_assoc, exists_and_left, exists_eq_left]

/-- A note can be shown when its line can be read. -/
theorem readNote_eq_ok_iff (note : NoteKind × Stored NoteRow) (answer : NoteKind × ReportNote) :
    tables.readNote note = .ok answer ↔
      IsLineNumber note.2.row.line ∧ answer = (note.1, tables.shownNote note.2) := by
  simp only [readNote, bind_eq_ok_iff, pure_eq_ok_iff, location_eq_ok_iff, shownNote,
    and_assoc, exists_and_left, exists_eq_left]

/-- A joined row can be read exactly when its lines are line numbers. -/
theorem readJoined_eq_ok_iff (joined : JoinedRow) (row : ReportRow) :
    tables.readJoined joined = .ok row ↔ joined.IsReadable ∧ row = tables.shownRow joined := by
  have notes (kind : NoteKind) :
      ((joined.note.map fun note => (note.1, tables.shownNote note.2)).filter
        fun note => note.1 = kind).map (·.2) =
      (joined.note.filter fun note => note.1 = kind).map fun note => tables.shownNote note.2 := by
    cases joined.note with
    | none => rfl
    | some note => by_cases same : note.1 = kind <;> simp [Option.filter, same]
  simp only [readJoined_eq, bind_eq_ok_iff, pure_eq_ok_iff,
    mapM_option_eq_ok_iff readBranch_eq_ok_iff, mapM_option_eq_ok_iff readNote_eq_ok_iff,
    location_eq_ok_iff]
  constructor
  · rintro ⟨_, ⟨branch, rfl⟩, _, ⟨note, rfl⟩, _, ⟨tree, rfl⟩, rfl⟩
    refine ⟨⟨tree, branch, note⟩, ?_⟩
    simp only [notes]
    rfl
  · rintro ⟨readable, rfl⟩
    refine ⟨_, ⟨readable.branch, rfl⟩, _, ⟨readable.note, rfl⟩, _, ⟨readable.tree, rfl⟩, ?_⟩
    simp only [notes]
    rfl

/-- A report can be read exactly when all joined rows can be read, and then it shows them in order. -/
theorem reportRows_eq_ok_iff (numbered : tables.Numbered) {rows : List ReportRow} :
    tables.reportRows = .ok rows ↔
      (∀ joined ∈ tables.joinedRows, joined.IsReadable) ∧
        rows = tables.joinedRows.map tables.shownRow := by
  rw [reportRows_eq numbered]
  exact mapM_eq_ok_iff readJoined_eq_ok_iff

end Readable

end Tables

def ReportRow.noteOf (row : ReportRow) : NoteKind → Option ReportNote
  | .comment => row.comment
  | .assignment => row.assignment

/-- A shown row has its note under the kind of the note only. -/
theorem Tables.noteOf_shownRow (tables : Tables) (joined : JoinedRow) (kind : NoteKind) :
    (tables.shownRow joined).noteOf kind =
      (joined.note.filter fun note => note.1 = kind).map fun note => tables.shownNote note.2 := by
  cases kind <;> rfl

end BranchCatalog
