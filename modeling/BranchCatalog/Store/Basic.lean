import BranchCatalog.Fault
import BranchCatalog.Store.Tables

namespace BranchCatalog

/-- A tree with valid references. -/
structure Tree where
  name : Text
  title : Text
  variableName : Text
  file : Id
  line : Nat
  deriving DecidableEq, Repr

/-- A branch with valid references. -/
structure Branch where
  tree : Id
  name : Text
  leafDefinition : Text
  valueVariable : Text
  file : Id
  line : Nat
  deriving DecidableEq, Repr

/-- A comment or an assignment with valid references. -/
structure Note where
  text : Text
  branch : Id
  file : Id
  line : Nat
  deriving DecidableEq, Repr

def Tree.toRow (tree : Tree) : TreeRow :=
  ⟨tree.name, tree.title, tree.variableName, some tree.file, tree.line⟩

def Branch.toRow (branch : Branch) : BranchRow :=
  ⟨some branch.tree, branch.name, branch.leafDefinition, branch.valueVariable, some branch.file,
    branch.line⟩

def Note.toRow (note : Note) : NoteRow :=
  ⟨note.text, some note.branch, some note.file, note.line⟩

/-- The store holds the tables as they are now and, while a transaction is open, the tables as they
were when it began. -/
structure Store where
  tables : Tables
  begun : Option Tables
  deriving DecidableEq, Repr

namespace Store

def empty : Store :=
  ⟨.empty, none⟩

/-- A store on the tables, without an open transaction. -/
def ofTables (tables : Tables) : Store :=
  ⟨tables, none⟩

/-- The tables that remain when the store is closed now. -/
def committed (store : Store) : Tables :=
  store.begun.getD store.tables

/-- Gives the id of a file name and stores the name on its first use. -/
def insertFile (store : Store) (filename : Text) : Id × Store :=
  match store.tables.fileId? filename with
  | some id => (id, store)
  | none =>
    let files := store.tables.files.insert filename
    (files.lastId, { store with tables := { store.tables with files } })

/-- Stores a tree whose file exists. -/
def insertTree (store : Store) (tree : Tree) : Except StoreFault (Id × Store) :=
  if store.tables.files.contains tree.file then
    let trees := store.tables.trees.insert tree.toRow
    .ok (trees.lastId, { store with tables := { store.tables with trees } })
  else .error .danglingReference

/-- Stores a branch whose tree and file exist. -/
def insertBranch (store : Store) (branch : Branch) : Except StoreFault (Id × Store) :=
  if store.tables.trees.contains branch.tree && store.tables.files.contains branch.file then
    let branches := store.tables.branches.insert branch.toRow
    .ok (branches.lastId, { store with tables := { store.tables with branches } })
  else .error .danglingReference

/-- Stores a note whose branch and file exist. -/
def insertNote (store : Store) (kind : NoteKind) (note : Note) : Except StoreFault (Id × Store) :=
  if store.tables.branches.contains note.branch && store.tables.files.contains note.file then
    let notes := (store.tables.notes kind).insert note.toRow
    .ok (notes.lastId, { store with tables := store.tables.withNotes kind notes })
  else .error .danglingReference

/-- Opens a transaction; there is never more than one. -/
def begin (store : Store) : Except StoreFault Store :=
  match store.begun with
  | some _ => .error .transactionOpen
  | none => .ok { store with begun := some store.tables }

/-- Closes the transaction and keeps what it wrote. It is assumed that this succeeds whenever a transaction is
open: nobody else reads or locks the store, and there is room for what it wrote. -/
def commit (store : Store) : Except StoreFault Store :=
  match store.begun with
  | some _ => .ok { store with begun := none }
  | none => .error .nothingToCommit

/-- Closes the transaction and returns to the tables and counters from before it. -/
def rollBack (store : Store) : Except StoreFault Store :=
  match store.begun with
  | some tables => .ok ⟨tables, none⟩
  | none => .error .nothingToRollBack

end Store

end BranchCatalog
