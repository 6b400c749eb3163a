/-
This file states by positions in a list of events which tree and which branch an event refers to, when
an event is refused, and which tables a list of events extends given tables to. Nothing here looks names
up in a loader.
-/

import BranchCatalog.Load
import BranchCatalog.Proofs.Load.Position
import BranchCatalog.Proofs.Store.Append

namespace BranchCatalog

namespace Event

def isTree : Event → Bool
  | tree .. => true
  | _ => false

def isBranch : Event → Bool
  | branch .. => true
  | _ => false

def isNote (kind : NoteKind) : Event → Bool
  | note found .. => found = kind
  | _ => false

def declaresTree (treeName : Text) : Event → Bool
  | tree _ finding => finding.name = treeName
  | _ => false

/-- Holds for a tree of a name in a file. -/
def declaresTreeOf (treeName filename : Text) (event : Event) : Bool :=
  event.declaresTree treeName && event.filename = filename

/-- Holds for a tree of a name that an earlier tree has already. -/
def redeclaresTree (earlier : List Event) : Event → Bool
  | tree _ finding => earlier.any (declaresTree finding.name)
  | _ => false

end Event

/-- The position of the tree that a tree name means in a file: that of the latest tree of the name in
the file or, if there is none, that of the latest tree of the name in any file. -/
def treeTarget (earlier : List Event) (treeName filename : Text) : Option Nat :=
  (latest? (fun _ => Event.declaresTreeOf treeName filename) earlier).or
    (latest? (fun _ => Event.declaresTree treeName) earlier)

/-- A tree target is the position of a tree of the wanted name. -/
theorem exists_of_treeTarget {events : List Event} {treeName filename : Text} {target : Nat}
    (targeted : treeTarget events treeName filename = some target) :
    ∃ earlier event later, events = earlier ++ event :: later ∧ earlier.length = target ∧
      event.declaresTree treeName = true := by
  rcases Option.or_eq_some_iff.mp targeted with inFile | ⟨-, anywhere⟩
  · obtain ⟨earlier, event, later, split, size, chosen⟩ := exists_of_latest? inFile
    exact ⟨earlier, event, later, split, size, (Bool.and_eq_true_iff.mp chosen).1⟩
  · exact exists_of_latest? anywhere

theorem treeTarget_lt {events : List Event} {treeName filename : Text} {target : Nat}
    (targeted : treeTarget events treeName filename = some target) : target < events.length := by
  obtain ⟨earlier, event, later, rfl, rfl, -⟩ := exists_of_treeTarget targeted
  rw [List.length_append, List.length_cons]
  omega

/-- The target of a tree name is a tree of the name. -/
theorem exists_tree_of_treeTarget {events : List Event} {treeName filename : Text} {target : Nat}
    (targeted : treeTarget events treeName filename = some target) :
    ∃ location finding, events[target]? = some (.tree location finding) ∧
      finding.name = treeName := by
  obtain ⟨earlier, event, later, rfl, rfl, declared⟩ := exists_of_treeTarget targeted
  cases event with
  | tree location finding => exact ⟨location, finding, by simp, of_decide_eq_true declared⟩
  | file | branch | note => contradiction

/-- Holds for a branch of a name and a value variable whose own tree target is at a position. -/
def addsBranchTo (target : Nat) (branchName valueVariable : Text) (before : List Event) :
    Event → Bool
  | .branch location finding =>
    finding.name = branchName && finding.valueVariable = valueVariable &&
      treeTarget before finding.treeName location.filename = some target
  | _ => false

/-- The position of the branch that a tree name, a branch name and a value variable mean in a file: that
of the latest such branch with the same tree target as the tree name in the file. -/
def branchTarget (earlier : List Event) (treeName branchName valueVariable filename : Text) :
    Option Nat :=
  (treeTarget earlier treeName filename).bind fun target =>
    latest? (addsBranchTo target branchName valueVariable) earlier

/-- A branch target is the position of a branch whose own tree target is the wanted one. -/
theorem exists_of_branchTarget {events : List Event}
    {treeName branchName valueVariable filename : Text} {target : Nat}
    (targeted : branchTarget events treeName branchName valueVariable filename = some target) :
    ∃ tree earlier event later, treeTarget events treeName filename = some tree ∧
      events = earlier ++ event :: later ∧ earlier.length = target ∧
      addsBranchTo tree branchName valueVariable earlier event = true := by
  obtain ⟨tree, resolved, found⟩ := Option.bind_eq_some_iff.mp targeted
  obtain ⟨earlier, event, later, split, size, chosen⟩ := exists_of_latest? found
  exact ⟨tree, earlier, event, later, resolved, split, size, chosen⟩

theorem exists_branch_of_branchTarget {events : List Event}
    {treeName branchName valueVariable filename : Text} {target : Nat}
    (targeted : branchTarget events treeName branchName valueVariable filename = some target) :
    ∃ event, events[target]? = some event ∧ event.isBranch = true := by
  obtain ⟨tree, earlier, event, later, -, rfl, rfl, chosen⟩ := exists_of_branchTarget targeted
  refine ⟨event, by simp, ?_⟩
  cases event with
  | branch => rfl
  | file | tree | note => contradiction

/-- Holds when the tree or the branch that an event belongs to is among the earlier events. -/
def Event.hasTarget (earlier : List Event) : Event → Bool
  | file _ => true
  | tree .. => true
  | branch location finding => (treeTarget earlier finding.treeName location.filename).isSome
  | note _ location finding =>
    (branchTarget earlier finding.treeName finding.branchName finding.valueVariable
      location.filename).isSome

/-- The fault that an event without a file name or without a target is refused with. -/
def Event.refusal? (earlier : List Event) (event : Event) : Option Fault :=
  if event.filename = [] then some (.missingFilename event.kindName (event.line?.getD 0))
  else
    match event with
    | file _ => none
    | tree .. => none
    | branch location finding =>
      if event.hasTarget earlier then none else some (.unknownTree location finding.treeName)
    | note _ location finding =>
      if event.hasTarget earlier then none
      else some (.unknownBranch location finding.treeName finding.branchName)

/-- An event is accepted when it has a file name and a target. -/
theorem Event.refusal?_eq_none_iff {earlier : List Event} {event : Event} :
    event.refusal? earlier = none ↔ event.filename ≠ [] ∧ event.hasTarget earlier = true := by
  by_cases unnamed : event.filename = []
  · simp [refusal?, unnamed]
  · cases targeted : event.hasTarget earlier <;> cases event <;>
      simp_all [refusal?, hasTarget]

/-- The first fault of a list of items: a failed scan, or the refusal of an event. -/
def firstFault? (earlier : List Event) : List (Except Fault Event) → Option Fault
  | [] => none
  | .error fault :: _ => some fault
  | .ok event :: items =>
    match event.refusal? earlier with
    | some fault => some fault
    | none => firstFault? (earlier ++ [event]) items

/-- The id of the row of the event at a position, in a table that gets a row for each accepted event. -/
def rowId {Row : Type} (table : Table Row) (accepted : Event → Bool) (events : List Event)
    (position : Nat) : Id :=
  table.lastId + ((events.take (position + 1)).countP accepted : Nat)

namespace Tables

def treeRow? (tables : Tables) : Event → Option TreeRow
  | .tree location finding =>
    some ⟨finding.name, finding.title, finding.variableName, tables.fileId? location.filename,
      location.line⟩
  | _ => none

/-- The row of a branch refers to the row of its tree target. -/
def branchRow? (tables : Tables) (earlier : List Event) : Event → Option BranchRow
  | .branch location finding =>
    some ⟨(treeTarget earlier finding.treeName location.filename).map
        (rowId tables.trees Event.isTree earlier), finding.name, finding.leafDefinition,
      finding.valueVariable, tables.fileId? location.filename, location.line⟩
  | _ => none

/-- The row of a note refers to the row of its branch target. -/
def noteRow? (tables : Tables) (kind : NoteKind) (earlier : List Event) : Event → Option NoteRow
  | .note found location finding =>
    if found = kind then
      some ⟨finding.text, (branchTarget earlier finding.treeName finding.branchName
          finding.valueVariable location.filename).map
          (rowId tables.branches Event.isBranch earlier), tables.fileId? location.filename,
        location.line⟩
    else none
  | _ => none

/-- The tables with a row for each file name of the events that has none yet, in the order of their
first use. -/
def withFilesOf (tables : Tables) (events : List Event) : Tables :=
  { tables with
    files := tables.files.append
      ((events.map Event.filename).eraseDups.filter fun name => (tables.fileId? name).isNone) }

/-- The tables with a row for each tree, branch and note of the events, in the order of the events. -/
def recording (tables : Tables) (events : List Event) : Tables where
  files := tables.files
  trees := tables.trees.append (along (fun _ => tables.treeRow?) events)
  branches := tables.branches.append (along tables.branchRow? events)
  comments := tables.comments.append (along (tables.noteRow? .comment) events)
  assignments := tables.assignments.append (along (tables.noteRow? .assignment) events)

/-- The tables with all that the events say. -/
def extended (tables : Tables) (events : List Event) : Tables :=
  (tables.withFilesOf events).recording events

end Tables

def LoadCounts.ofEvents (events : List Event) : LoadCounts where
  files := (events.map Event.filename).eraseDups.length
  trees := events.countP Event.isTree
  branches := events.countP Event.isBranch
  comments := events.countP (Event.isNote .comment)
  assignments := events.countP (Event.isNote .assignment)
  duplicateTrees :=
    (along (fun earlier event => if event.redeclaresTree earlier then some event else none)
      events).length

end BranchCatalog
