import BranchCatalog.Event
import BranchCatalog.Store.Table

namespace BranchCatalog

/-- A stored tree. A reference may be missing, and a line may be any integer, in damaged tables. -/
structure TreeRow where
  name : Text
  title : Text
  variableName : Text
  file : Option Id
  line : Int
  deriving DecidableEq, Repr

/-- A stored branch, which belongs to a tree and to a file. -/
structure BranchRow where
  tree : Option Id
  name : Text
  leafDefinition : Text
  valueVariable : Text
  file : Option Id
  line : Int
  deriving DecidableEq, Repr

/-- A stored comment or assignment, which belongs to a branch and to a file. -/
structure NoteRow where
  text : Text
  branch : Option Id
  file : Option Id
  line : Int
  deriving DecidableEq, Repr

/-- The tables of the catalog; a row of `files` is a file name. -/
structure Tables where
  files : Table Text
  trees : Table TreeRow
  branches : Table BranchRow
  comments : Table NoteRow
  assignments : Table NoteRow
  deriving DecidableEq, Repr

namespace Tables

def empty : Tables :=
  ⟨.empty, .empty, .empty, .empty, .empty⟩

def notes (tables : Tables) : NoteKind → Table NoteRow
  | .comment => tables.comments
  | .assignment => tables.assignments

def withNotes (tables : Tables) (kind : NoteKind) (table : Table NoteRow) : Tables :=
  match kind with
  | .comment => { tables with comments := table }
  | .assignment => { tables with assignments := table }

/-- The id of the first file with a name. -/
def fileId? (tables : Tables) (filename : Text) : Option Id :=
  (tables.files.rows.find? (·.row = filename)).map (·.id)

/-- The name of a referenced file, which is empty when the reference is missing or dangles. -/
def filename (tables : Tables) (file : Option Id) : Text :=
  (file.bind tables.files.find?).getD []

theorem notes_withNotes (tables : Tables) (kind other : NoteKind) (table : Table NoteRow) :
    (tables.withNotes kind table).notes other = if other = kind then table else tables.notes other := by
  cases kind <;> cases other <;> rfl

end Tables

end BranchCatalog
