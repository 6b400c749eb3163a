import BranchCatalog.Store.Basic

namespace BranchCatalog

inductive TableName where
  | files
  | trees
  | branches
  | notes (kind : NoteKind)
  deriving DecidableEq, Repr

def TableName.written : TableName → Text
  | files => "srcfile".toList
  | trees => "tree".toList
  | branches => "branch".toList
  | notes .comment => "srccomment".toList
  | notes .assignment => "srcassign".toList

/-- The columns that can be overwritten: the references and the lines. -/
inductive Column where
  | treeFile
  | treeLine
  | branchTree
  | branchFile
  | branchLine
  | noteBranch (kind : NoteKind)
  | noteFile (kind : NoteKind)
  | noteLine (kind : NoteKind)
  deriving DecidableEq, Repr

def Column.table : Column → TableName
  | treeFile | treeLine => .trees
  | branchTree | branchFile | branchLine => .branches
  | noteBranch kind | noteFile kind | noteLine kind => .notes kind

/-- A line must have a value. -/
def Column.isLine : Column → Bool
  | treeLine | branchLine | noteLine _ => true
  | _ => false

namespace Tables

def containsRow (tables : Tables) (table : TableName) (id : Id) : Bool :=
  match table with
  | .files => tables.files.contains id
  | .trees => tables.trees.contains id
  | .branches => tables.branches.contains id
  | .notes kind => (tables.notes kind).contains id

def eraseRow (tables : Tables) (table : TableName) (id : Id) : Tables :=
  match table with
  | .files => { tables with files := tables.files.erase id }
  | .trees => { tables with trees := tables.trees.erase id }
  | .branches => { tables with branches := tables.branches.erase id }
  | .notes kind => tables.withNotes kind ((tables.notes kind).erase id)

/-- Overwrites a reference or a line of the row with an id. -/
def overwrite (tables : Tables) (column : Column) (id : Id) (value : Option Int) : Tables :=
  let line := value.getD 0
  let onTrees (change : TreeRow → TreeRow) : Tables :=
    { tables with trees := tables.trees.modify id change }
  let onBranches (change : BranchRow → BranchRow) : Tables :=
    { tables with branches := tables.branches.modify id change }
  let onNotes (kind : NoteKind) (change : NoteRow → NoteRow) : Tables :=
    tables.withNotes kind ((tables.notes kind).modify id change)
  match column with
  | .treeFile => onTrees fun row => { row with file := value }
  | .treeLine => onTrees fun row => { row with line }
  | .branchTree => onBranches fun row => { row with tree := value }
  | .branchFile => onBranches fun row => { row with file := value }
  | .branchLine => onBranches fun row => { row with line }
  | .noteBranch kind => onNotes kind fun row => { row with branch := value }
  | .noteFile kind => onNotes kind fun row => { row with file := value }
  | .noteLine kind => onNotes kind fun row => { row with line }

end Tables

namespace Store

/-- Deletes the row with an id, whatever refers to it, and tells how many rows went. -/
def deleteRow (store : Store) (table : TableName) (id : Id) : Nat × Store :=
  if store.tables.containsRow table id then
    (1, { store with tables := store.tables.eraseRow table id })
  else (0, store)

/-- Overwrites a column of the row with an id and tells how many rows changed; a line cannot be taken
away. -/
def setColumn (store : Store) (column : Column) (id : Id) (value : Option Int) :
    Except StoreFault (Nat × Store) :=
  if store.tables.containsRow column.table id then
    if column.isLine ∧ value = none then
      .error (.missingValue column.table.written "fileline".toList)
    else .ok (1, { store with tables := store.tables.overwrite column id value })
  else .ok (0, store)

end Store

end BranchCatalog
