/-
This file joins the tables into the rows of a report: each tree with each of its branches and each of
their notes, where a tree without branches and a branch without notes still take a row.
-/

import BranchCatalog.Store.Query

namespace BranchCatalog

structure ReportBranch where
  location : Location
  name : Text
  leafDefinition : Text
  valueVariable : Text
  deriving DecidableEq, Repr

structure ReportNote where
  text : Text
  location : Location
  deriving DecidableEq, Repr

structure ReportRow where
  treeLocation : Location
  treeName : Text
  treeTitle : Text
  treeVariable : Text
  branch : Option ReportBranch
  comment : Option ReportNote
  assignment : Option ReportNote
  deriving DecidableEq, Repr

/-- Pairs each item with everything that matches it, or with nothing when nothing does. -/
def outerJoin {Left Right : Type} (isMatch : Left → Right → Bool) (left : List Left)
    (right : List Right) : List (Left × Option Right) :=
  left.flatMap fun item =>
    match right.filter (isMatch item) with
    | [] => [(item, none)]
    | found => found.map fun other => (item, some other)

/-- A joined row before it is read: a tree, one of its branches and one of that branch's notes. -/
structure JoinedRow where
  tree : Stored TreeRow
  branch : Option (Stored BranchRow)
  note : Option (NoteKind × Stored NoteRow)

/-- Holds when the first list comes before the second or equals it. The first members that differ
decide, and a list comes before its continuations. -/
def lexicographic {Member : Type} [DecidableEq Member] (below : Member → Member → Bool) :
    List Member → List Member → Bool
  | [], _ => true
  | _ :: _, [] => false
  | left :: lefts, right :: rights =>
    if left = right then lexicographic below lefts rights else below left right

/-- Comments come before assignments. -/
def NoteKind.rank : NoteKind → Int
  | comment => 0
  | assignment => 1

/-- Rows are ordered by tree, then branch, then kind of note, then note. -/
def JoinedRow.key (joined : JoinedRow) : List Int :=
  joined.tree.id ::
    ((joined.branch.map (·.id)).toList ++
      (joined.note.map fun (kind, note) => [kind.rank, note.id]).getD [])

def JoinedRow.precedes (left right : JoinedRow) : Bool :=
  lexicographic (fun left right => decide (left < right)) left.key right.key

namespace Tables

/-- The notes of both kinds. -/
def allNotes (tables : Tables) : List (NoteKind × Stored NoteRow) :=
  [NoteKind.comment, NoteKind.assignment].flatMap fun kind =>
    (tables.notes kind).rows.map fun stored => (kind, stored)

/-- The trees joined with their branches, and these with their notes, in no order in particular. -/
def joinedRows (tables : Tables) : List JoinedRow :=
  let withBranches := outerJoin (fun tree branch => branch.row.tree = some tree.id)
    tables.trees.rows tables.branches.rows
  let withNotes := outerJoin
    (fun pair note => pair.2.any fun branch => note.2.row.branch = some branch.id)
    withBranches tables.allNotes
  withNotes.map fun ((tree, branch), note) => ⟨tree, branch, note⟩

/-- The location of a stored row; the index tells where its line stands in a joined row. -/
def location (tables : Tables) (file : Option Id) (index : Nat) (line : Int) :
    Except StoreFault Location := do
  let line ← readLine index line
  return ⟨tables.filename file, line⟩

/-- Reads a joined row: its branch, then its note, then its tree. -/
def readJoined (tables : Tables) (joined : JoinedRow) : Except StoreFault ReportRow := do
  let branch ← joined.branch.mapM fun stored => do
    let location ← tables.location stored.row.file 6 stored.row.line
    return ReportBranch.mk location stored.row.name stored.row.leafDefinition
      stored.row.valueVariable
  let note ← joined.note.mapM fun (kind, stored) => do
    let location ← tables.location stored.row.file 13 stored.row.line
    return (kind, ReportNote.mk stored.row.text location)
  let treeLocation ← tables.location joined.tree.row.file 1 joined.tree.row.line
  let noteOf (kind : NoteKind) : Option ReportNote :=
    (note.filter fun (found, _) => found = kind).map (·.2)
  return {
    treeLocation
    treeName := joined.tree.row.name
    treeTitle := joined.tree.row.title
    treeVariable := joined.tree.row.variableName
    branch
    comment := noteOf .comment
    assignment := noteOf .assignment }

/-- The rows of a report in the order of their keys. -/
def reportRows (tables : Tables) : Except StoreFault (List ReportRow) :=
  let ordered := tables.joinedRows.mergeSort JoinedRow.precedes
  ordered.mapM tables.readJoined

end Tables

end BranchCatalog
