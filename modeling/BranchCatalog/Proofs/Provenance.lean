/-
This file proves that a report tells the truth about the scanned sources: what a row shows stands on the
lines that the row names, and all that one row shows stands in one file.
-/

import BranchCatalog.Proofs.Composition
import BranchCatalog.Proofs.Load.Origin
import BranchCatalog.Proofs.Report.Traversal
import BranchCatalog.Proofs.Scan.Origin

namespace BranchCatalog

open Scan

/-- A report row is true when lines that stand at its locations say what it shows: its tree is created or
stands for an undeclared variable, its branch is added, and its notes mention the variable that the branch is
filled from. All locations lie in the file of the tree. -/
structure ReportRow.IsTrue (stands : Location → Text → Prop) (row : ReportRow) : Prop where
  tree : ∃ line, stands row.treeLocation line ∧
    IsLineOfTree ⟨row.treeName, row.treeTitle, row.treeVariable⟩ line
  branch : ∀ branch, row.branch = some branch →
    branch.location.filename = row.treeLocation.filename ∧
    ∃ line, stands branch.location line ∧
      IsLineOfBranch branch.name branch.leafDefinition branch.valueVariable line
  note : ∀ kind note, row.noteOf kind = some note →
    note.location.filename = row.treeLocation.filename ∧
    ∃ branch, row.branch = some branch ∧
      ∃ line, stands note.location line ∧ IsLineOfNote note.text branch.valueVariable line

namespace Tables

variable {events : List Event}

/-- Rows of events with line numbers have line numbers. -/
theorem linesFit_ofEvents
    (bounded : ∀ event ∈ events, ∀ number, event.line? = some number → number < 4294967296) :
    (ofEvents events).LinesFit := by
  have fits {event : Event} {number : Nat} {earlier later : List Event}
      (split : events = earlier ++ event :: later) (numbered : event.line? = some number) :
      IsLineNumber number := by
    have below := bounded event (by simp [split]) number numbered
    constructor <;> omega
  constructor
  · intro stored member
    obtain ⟨earlier, location, finding, later, split, row⟩ := exists_of_mem_trees member
    rw [row]
    exact fits split rfl
  · intro stored member
    obtain ⟨earlier, location, finding, later, split, row⟩ := exists_of_mem_branches member
    rw [row]
    exact fits split rfl
  · intro kind stored member
    obtain ⟨earlier, location, finding, later, split, row⟩ := exists_of_mem_notes member
    rw [row]
    exact fits split rfl

/-- What a report shows of events is true when every event is true of a line that stands where it says. -/
theorem shownRow_isTrue {stands : Location → Text → Prop} (declared : DeclaredAfter [] events)
    (lined : ∀ event ∈ events, ∀ number, event.line? = some number →
      ∃ line, stands ⟨event.filename, number⟩ line ∧ IsTrueOf line event)
    {joined : JoinedRow} (inside : joined ∈ (ofEvents events).joinedRows) :
    ((ofEvents events).shownRow joined).IsTrue stands := by
  obtain ⟨treeIn, branches, notes⟩ := of_mem_joinedRows inside
  have sameName {branch : Stored BranchRow} (branchIn : branch ∈ (ofEvents events).branches.rows)
      (toTree : branch.row.tree = some joined.tree.id) :
      (ofEvents events).filename branch.row.file = (ofEvents events).filename joined.tree.row.file :=
    congrArg (ofEvents events).filename (file_of_branch declared branchIn treeIn toTree)
  constructor
  · exact lined _ (event_of_mem_trees treeIn) _ rfl
  · intro branch shown
    obtain ⟨stored, found, rfl⟩ := Option.map_eq_some_iff.mp shown
    obtain ⟨branchIn, toTree⟩ := branches stored found
    obtain ⟨treeName, event⟩ := event_of_mem_branches branchIn
    exact ⟨sameName branchIn toTree, lined _ event _ rfl⟩
  · intro kind note shown
    rw [noteOf_shownRow] at shown
    obtain ⟨⟨found, stored⟩, kept, rfl⟩ := Option.map_eq_some_iff.mp shown
    obtain ⟨present, same⟩ := Option.filter_eq_some_iff.mp kept
    obtain ⟨branch, branchIn, joinedBranch, toTree, toBranch⟩ :=
      exists_branch_of_joined_note inside present
    -- the join pairs the note with the stored branch that its event has been resolved to
    have noteIn := mem_notes_of_mem_allNotes (notes _ present).1
    obtain ⟨sameFile, treeName, branchName, event⟩ :=
      event_of_mem_notes declared noteIn branchIn toBranch
    refine ⟨?_, (ofEvents events).shownBranch branch, ?_, lined _ event _ rfl⟩
    · exact (congrArg (ofEvents events).filename sameFile).trans (sameName branchIn toTree)
    · exact congrArg (Option.map (ofEvents events).shownBranch) joinedBranch

end Tables

/-- When sources can be scanned and loaded, the report shows only what stands in them. Scanned sources have lines
at the locations of a row that say its tree, its branch and its note, all under one file name, and the note
is about the variable of the branch. Sources of less than 2 ^ 32 lines have a report. -/
theorem report_of_catalogued_is_true {disk : Disk} {extensions : List Text} {sources : List Source}
    {counts : LoadCounts} {store : Store}
    (loaded : catalogued disk [treeScanner extensions] sources = (.ok counts, store)) :
    ((∀ source ∈ sources, ∀ content, source.read disk = .ok content →
        (Text.lines content).length < 4294967296) →
      ∃ rows, store.tables.reportRows = .ok rows) ∧
    ∀ rows, store.tables.reportRows = .ok rows →
      ∀ row ∈ rows, row.IsTrue (StandsAt disk extensions sources) := by
  cases faulty : faultOf? (scanAll disk [treeScanner extensions] sources) with
  | some fault =>
      rw [catalogued_of_fault faulty] at loaded
      cases loaded
  | none =>
      rw [catalogued_of_accepted faulty] at loaded
      cases loaded
      have numbered := Tables.numbered_ofEvents (scanAll disk [treeScanner extensions] sources).1
      constructor
      · -- a line number is at most the number of lines, so it fits
        intro short
        refine ⟨_, Tables.LinesFit.reportRows_eq_map (Tables.linesFit_ofEvents ?_) numbered⟩
        intro event member number lined
        obtain ⟨line, ⟨source, listed, -, -, content, reading, here⟩, -⟩ :=
          exists_line_of_mem_scanAll member lined
        exact Nat.lt_of_le_of_lt here.le_length (short source listed content reading)
      · intro rows reported row member
        obtain ⟨-, rfl⟩ := (Tables.reportRows_eq_ok_iff numbered).mp reported
        obtain ⟨joined, inside, rfl⟩ := List.mem_map.mp member
        apply Tables.shownRow_isTrue (declaredAfter_scanAll disk extensions sources) _ inside
        intro event member number lined
        exact exists_line_of_mem_scanAll member lined

/-- Two files have a branch for a variable of the same name and a tree of the same name, which one of them does
not declare. The report pairs every branch and every note with the tree of its own file. -/
theorem report_of_catalogued_is_true_of_two_files :
    let disk := (Disk.empty.put [['a', '.', 'c']] (.file (Text.encodeUtf8
        "t = new TTree(\"x\", \"y\");\nt->Branch(\"b\", &v);\nv = 1;\n".toList))).put
      [['b', '.', 'c']] (.file (Text.encodeUtf8 "x->Branch(\"c\", &v);\n\n  f(v); // w\n".toList))
    let sources : List Source := [⟨['a', '.', 'c'], ['a']⟩, ⟨['b', '.', 'c'], ['b']⟩]
    ∃ counts store rows, catalogued disk [treeScanner [['c']]] sources = (.ok counts, store) ∧
      store.tables.reportRows = .ok rows ∧
      (rows.map fun row => (row.treeLocation, row.treeName, row.treeTitle)) =
        [(⟨['a'], 1⟩, ['x'], ['y']), (⟨['b'], 1⟩, ['x'], [])] ∧
      (rows.map fun row => (row.branch.map (·.location), row.comment, row.assignment)) =
        [(some ⟨['a'], 2⟩, none, some ⟨"v = 1;".toList, ⟨['a'], 3⟩⟩),
          (some ⟨['b'], 1⟩, some ⟨"f(v); // w".toList, ⟨['b'], 3⟩⟩, none)] ∧
      ∀ row ∈ rows, row.IsTrue (StandsAt disk [['c']] sources) := by
  intro disk sources
  have accepted : faultOf? (scanAll disk [treeScanner [['c']]] sources) = none := by decide +kernel
  obtain ⟨readable, holds⟩ := report_of_catalogued_is_true (catalogued_of_accepted accepted)
  have lengths : ∀ source ∈ sources,
      (source.read disk).map (fun content => (Text.lines content).length) = .ok 3 := by
    decide +kernel
  have short : ∀ source ∈ sources, ∀ content, source.read disk = .ok content →
      (Text.lines content).length < 4294967296 := by
    intro source member content reading
    have length := lengths source member
    rw [reading, Except.map, Except.ok.injEq] at length
    omega
  obtain ⟨rows, reported⟩ := readable short
  have shown := ((Tables.reportRows_eq_ok_iff (Tables.numbered_ofEvents _)).mp reported).2
  refine ⟨_, _, rows, catalogued_of_accepted accepted, reported, ?_, ?_, holds rows reported⟩
  · rw [shown]
    decide +kernel
  · rw [shown]
    decide +kernel

end BranchCatalog
