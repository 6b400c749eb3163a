/-
This file reads rows back out of the tables. A row whose reference is missing, or whose line is no
line number, cannot be read, and the first such row fails the whole query.
-/

import BranchCatalog.Store.Basic

namespace BranchCatalog

/-- Reads a reference, which must not be missing; the index and the column name its place. -/
def readReference (index : Nat) (column : String) : Option Id → Except StoreFault Id
  | some id => .ok id
  | none => .error (.nullReference index column.toList)

/-- Reads a line number, which fits in 32 bits; the index tells its place. -/
def readLine (index : Nat) (line : Int) : Except StoreFault Nat :=
  if 0 ≤ line ∧ line < 4294967296 then .ok line.toNat else .error (.lineOutOfRange line index)

def TreeRow.read (row : TreeRow) : Except StoreFault Tree := do
  let file ← readReference 4 "fileid" row.file
  let line ← readLine 5 row.line
  return ⟨row.name, row.title, row.variableName, file, line⟩

def BranchRow.read (row : BranchRow) : Except StoreFault Branch := do
  let tree ← readReference 1 "treeid" row.tree
  let file ← readReference 5 "fileid" row.file
  let line ← readLine 6 row.line
  return ⟨tree, row.name, row.leafDefinition, row.valueVariable, file, line⟩

def NoteRow.read (row : NoteRow) : Except StoreFault Note := do
  let branch ← readReference 2 "branchid" row.branch
  let file ← readReference 3 "fileid" row.file
  let line ← readLine 4 row.line
  return ⟨row.text, branch, file, line⟩

/-- Reads rows one after another and keeps their ids. -/
def readRows {Row Entity : Type} (read : Row → Except StoreFault Entity)
    (rows : List (Stored Row)) : Except StoreFault (List (Stored Entity)) :=
  rows.mapM fun stored => do
    let entity ← read stored.row
    return ⟨stored.id, entity⟩

namespace Tables

def sourceFiles (tables : Tables) : List (Stored Text) :=
  tables.files.rows

def tree? (tables : Tables) (id : Id) : Except StoreFault (Option Tree) :=
  (tables.trees.find? id).mapM TreeRow.read

def allTrees (tables : Tables) : Except StoreFault (List (Stored Tree)) :=
  readRows TreeRow.read tables.trees.rows

def branch? (tables : Tables) (id : Id) : Except StoreFault (Option Branch) :=
  (tables.branches.find? id).mapM BranchRow.read

def branchesOf (tables : Tables) (tree : Id) : Except StoreFault (List (Stored Branch)) :=
  readRows BranchRow.read (tables.branches.rows.filter (·.row.tree = some tree))

def notesOf (tables : Tables) (kind : NoteKind) (branch : Id) :
    Except StoreFault (List (Stored Note)) :=
  readRows NoteRow.read ((tables.notes kind).rows.filter (·.row.branch = some branch))

end Tables

end BranchCatalog
