import BranchCatalog.Store.Tables

namespace BranchCatalog

/-- A reference resolves when it is present and names a row. -/
def Table.resolves {Row : Type} (table : Table Row) (reference : Option Id) : Bool :=
  reference.any table.contains

namespace Tables

def isOrphanTree (tables : Tables) (row : TreeRow) : Bool :=
  !tables.files.resolves row.file

def isOrphanBranch (tables : Tables) (row : BranchRow) : Bool :=
  !(tables.trees.resolves row.tree && tables.files.resolves row.file)

def isOrphanNote (tables : Tables) (row : NoteRow) : Bool :=
  !(tables.branches.resolves row.branch && tables.files.resolves row.file)

/-- The number of rows with a reference that does not resolve; a row counts once. -/
def orphanCount (tables : Tables) : Nat :=
  tables.trees.rows.countP (fun stored => tables.isOrphanTree stored.row) +
    tables.branches.rows.countP (fun stored => tables.isOrphanBranch stored.row) +
    tables.comments.rows.countP (fun stored => tables.isOrphanNote stored.row) +
    tables.assignments.rows.countP (fun stored => tables.isOrphanNote stored.row)

/-- The sizes of the tables and the number of orphan rows. -/
structure Counts where
  sourceFiles : Nat
  trees : Nat
  branches : Nat
  comments : Nat
  assignments : Nat
  orphans : Nat
  deriving DecidableEq, Repr

def counts (tables : Tables) : Counts :=
  { sourceFiles := tables.files.size
    trees := tables.trees.size
    branches := tables.branches.size
    comments := tables.comments.size
    assignments := tables.assignments.size
    orphans := tables.orphanCount }

/-- The counts with their labels in the order in which they are shown. -/
def Counts.labelled (counts : Counts) : List (Text × Text) :=
  [("Source files".toList, Text.decimal counts.sourceFiles),
    ("Trees".toList, Text.decimal counts.trees),
    ("Branches".toList, Text.decimal counts.branches),
    ("Comments".toList, Text.decimal counts.comments),
    ("Assignments".toList, Text.decimal counts.assignments),
    ("Orphan rows".toList, Text.decimal counts.orphans)]

/-- The counts as an indented list under a heading. -/
def Counts.written (counts : Counts) : Text :=
  "Database Statistics:\n".toList ++ counts.labelled.flatMap fun (label, count) =>
    "  ".toList ++ label ++ ": ".toList ++ count ++ ['\n']

end Tables

end BranchCatalog
