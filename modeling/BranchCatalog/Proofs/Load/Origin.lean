import BranchCatalog.Proofs.Load.Independence
import BranchCatalog.Proofs.Load.Soundness
import BranchCatalog.Proofs.Report.Reading

namespace BranchCatalog

/-- A tree name that is declared in its file means a tree of this file. -/
theorem exists_tree_of_declared {events : List Event} {treeName filename : Text} {target : Nat}
    (declared : events.any (Event.declaresTreeOf treeName filename) = true)
    (targeted : treeTarget events treeName filename = some target) :
    ∃ before location finding after, events = before ++ .tree location finding :: after ∧
      before.length = target ∧ location.filename = filename := by
  rw [← isSome_latest?] at declared
  obtain ⟨position, found⟩ := Option.isSome_iff_exists.mp declared
  rw [treeTarget, found, Option.some_or, Option.some.injEq] at targeted
  obtain ⟨before, event, after, split, size, chosen⟩ := exists_of_latest? found
  rw [Event.declaresTreeOf, Bool.and_eq_true_iff] at chosen
  cases event with
  | file | branch | note => cases chosen.1
  | tree location finding =>
      exact ⟨before, location, finding, after, split, size.trans targeted, of_decide_eq_true chosen.2⟩

namespace Tables

variable {events : List Event}

/-- The catalog of events that are loaded from nothing. -/
def ofEvents (events : List Event) : Tables :=
  Tables.empty.extended events

theorem numbered_ofEvents (events : List Event) : (ofEvents events).Numbered :=
  sound_empty.toNumbered.extended events

/-- The id of a file in the catalog of events. -/
def fileOf (events : List Event) (filename : Text) : Option Id :=
  (Tables.empty.withFilesOf events).fileId? filename

/-- The file of an event has the event's file name. -/
theorem shownLocation_fileOf {location : Location}
    (used : location.filename ∈ events.map Event.filename) :
    (ofEvents events).shownLocation (fileOf events location.filename) location.line = location := by
  obtain ⟨id, found⟩ := Option.isSome_iff_exists.mp (isSome_fileId?_withFilesOf Tables.empty used)
  have named : (ofEvents events).filename (some id) = location.filename :=
    filename_fileId? (numbered_ofEvents events).files found
  rw [fileOf, found, shownLocation, named, Int.toNat_natCast]

/-- A row of the catalog is that of an event. -/
theorem exists_of_mem_rows {Row : Type} {judge : List Event → Event → Option Row} {stored : Stored Row}
    (member : stored ∈ ((Table.empty : Table Row).append (along judge events)).rows) :
    ∃ earlier event later, events = earlier ++ event :: later ∧ judge earlier event = some stored.row :=
  (mem_rows_append_along member).resolve_left List.not_mem_nil

/-- Each row of a tree comes from an event that declares it. -/
theorem exists_of_mem_trees {stored : Stored TreeRow} (member : stored ∈ (ofEvents events).trees.rows) :
    ∃ earlier location finding later, events = earlier ++ .tree location finding :: later ∧
      stored.row = ⟨finding.name, finding.title, finding.variableName,
        fileOf events location.filename, location.line⟩ := by
  obtain ⟨earlier, event, later, split, judged⟩ := exists_of_mem_rows member
  cases event with
  | file | branch | note => contradiction
  | tree location finding =>
      exact ⟨earlier, location, finding, later, split, (Option.some.inj judged).symm⟩

/-- Each row of a branch comes from an event that adds it. -/
theorem exists_of_mem_branches {stored : Stored BranchRow}
    (member : stored ∈ (ofEvents events).branches.rows) :
    ∃ earlier location finding later, events = earlier ++ .branch location finding :: later ∧
      stored.row = ⟨(treeTarget earlier finding.treeName location.filename).map
          (rowId (Table.empty : Table TreeRow) Event.isTree earlier), finding.name,
        finding.leafDefinition, finding.valueVariable, fileOf events location.filename,
        location.line⟩ := by
  obtain ⟨earlier, event, later, split, judged⟩ := exists_of_mem_rows member
  cases event with
  | file | tree | note => contradiction
  | branch location finding =>
      exact ⟨earlier, location, finding, later, split, (Option.some.inj judged).symm⟩

/-- Each row of a note comes from an event that reports it. -/
theorem exists_of_mem_notes {kind : NoteKind} {stored : Stored NoteRow}
    (member : stored ∈ ((ofEvents events).notes kind).rows) :
    ∃ earlier location finding later, events = earlier ++ .note kind location finding :: later ∧
      stored.row = ⟨finding.text, (branchTarget earlier finding.treeName finding.branchName
          finding.valueVariable location.filename).map
          (rowId (Table.empty : Table BranchRow) Event.isBranch earlier),
        fileOf events location.filename, location.line⟩ := by
  rw [ofEvents, notes_extended] at member
  have member : stored ∈ ((Table.empty : Table NoteRow).append
      (along ((Tables.empty.withFilesOf events).noteRow? kind) events)).rows := by
    cases kind <;> exact member
  obtain ⟨earlier, event, later, split, judged⟩ := exists_of_mem_rows member
  cases event with
  | file | tree | branch => contradiction
  | note found location finding =>
      rw [noteRow?] at judged
      split at judged
      · next same =>
          subst same
          exact ⟨earlier, location, finding, later, split, (Option.some.inj judged).symm⟩
      · contradiction

theorem mem_filenames_of_split {earlier later : List Event} {event : Event}
    (split : events = earlier ++ event :: later) : event.filename ∈ events.map Event.filename :=
  List.mem_map_of_mem (by simp [split])

/-- What a tree shows is said by an event. -/
theorem event_of_mem_trees {stored : Stored TreeRow} (member : stored ∈ (ofEvents events).trees.rows) :
    .tree ((ofEvents events).shownLocation stored.row.file stored.row.line)
      ⟨stored.row.name, stored.row.title, stored.row.variableName⟩ ∈ events := by
  obtain ⟨earlier, location, finding, later, split, row⟩ := exists_of_mem_trees member
  have used : location.filename ∈ events.map Event.filename := mem_filenames_of_split split
  simp only [row, shownLocation_fileOf used]
  simp [split]

/-- What a branch shows is said by an event. -/
theorem event_of_mem_branches {stored : Stored BranchRow}
    (member : stored ∈ (ofEvents events).branches.rows) :
    ∃ treeName, .branch ((ofEvents events).shownLocation stored.row.file stored.row.line)
      ⟨treeName, stored.row.name, stored.row.leafDefinition, stored.row.valueVariable⟩ ∈ events := by
  obtain ⟨earlier, location, finding, later, split, row⟩ := exists_of_mem_branches member
  have used : location.filename ∈ events.map Event.filename := mem_filenames_of_split split
  refine ⟨finding.treeName, ?_⟩
  simp only [row, shownLocation_fileOf used]
  simp [split]

/-- The row under the id that the position of an event gives is the row of this event. -/
theorem row_of_rowId {Row : Type} {judge : List Event → Event → Option Row} {accepted : Event → Bool}
    (same : ∀ earlier event, (judge earlier event).isSome = accepted event)
    (numbered : ((Table.empty : Table Row).append (along judge events)).Numbered)
    {stored : Stored Row}
    (member : stored ∈ ((Table.empty : Table Row).append (along judge events)).rows)
    {before after later : List Event} {event : Event} {row : Row}
    (split : events = before ++ event :: after ++ later) (judged : judge before event = some row)
    (referred : rowId (Table.empty : Table Row) accepted (before ++ event :: after) before.length =
      stored.id) : stored.row = row := by
  -- the id was given before the later events, and these do not change it
  have there := stored_rowId (Table.empty : Table Row) same
    (split.trans (List.append_assoc _ _ _)) judged
  have sameId : rowId (Table.empty : Table Row) accepted events before.length = stored.id := by
    rw [split, rowId_append _ _ (by simp), referred]
  rw [numbered.eq_of_id_eq member there sameId.symm]

section References

variable (declared : DeclaredAfter [] events)
include declared

theorem file_of_branch {branch : Stored BranchRow} (branchIn : branch ∈ (ofEvents events).branches.rows)
    {tree : Stored TreeRow} (treeIn : tree ∈ (ofEvents events).trees.rows)
    (toTree : branch.row.tree = some tree.id) : branch.row.file = tree.row.file := by
  obtain ⟨earlier, location, finding, later, split, row⟩ := exists_of_mem_branches branchIn
  rw [row] at toTree ⊢
  obtain ⟨target, targeted, referred⟩ := Option.map_eq_some_iff.mp toTree
  have known := declared earlier _ later split
  rw [Event.isDeclared_branch, List.nil_append] at known
  -- the name is declared in the branch's own file, so the tree of another file is no candidate
  obtain ⟨before, place, other, after, rfl, rfl, same⟩ := exists_tree_of_declared known targeted
  have isRow := row_of_rowId (fun _ => (Tables.empty.withFilesOf events).isSome_treeRow?)
    (numbered_ofEvents events).trees treeIn split rfl referred
  rw [isRow, ← same]
  rfl

/-- A branch that the names of a note mean lies in the note's file. -/
theorem filename_of_branchTarget {earlier later before after : List Event} {kind : NoteKind}
    {location place : Location} {finding : NoteFinding} {other : BranchFinding} {tree : Nat}
    (split : events = earlier ++ .note kind location finding :: later)
    (targeted : treeTarget earlier finding.treeName location.filename = some tree)
    (inside : earlier = before ++ .branch place other :: after)
    (own : treeTarget before other.treeName place.filename = some tree) :
    place.filename = location.filename := by
  have known := declared earlier _ later split
  have knownOwn := declared before (.branch place other) (after ++ .note kind location finding :: later)
    (by rw [split, inside, List.append_assoc, List.cons_append])
  rw [Event.isDeclared_note, List.nil_append] at known
  rw [Event.isDeclared_branch, List.nil_append] at knownOwn
  obtain ⟨first, one, tree, rest, treeSplit, size, named⟩ := exists_tree_of_declared known targeted
  obtain ⟨firstOwn, oneOwn, treeOwn, restOwn, treeSplitOwn, sizeOwn, namedOwn⟩ :=
    exists_tree_of_declared knownOwn own
  -- both trees stand at the same position of the earlier events
  have left : earlier[first.length]? = some (.tree one tree) := by simp [treeSplit]
  have right : earlier[firstOwn.length]? = some (.tree oneOwn treeOwn) := by simp [inside, treeSplitOwn]
  rw [size] at left
  rw [sizeOwn, left] at right
  cases right
  exact namedOwn.symm.trans named

/-- What a note shows is said by an event, for the value variable of the note's branch, which lies in the
note's file. -/
theorem event_of_mem_notes {kind : NoteKind} {note : Stored NoteRow}
    (noteIn : note ∈ ((ofEvents events).notes kind).rows) {branch : Stored BranchRow}
    (branchIn : branch ∈ (ofEvents events).branches.rows)
    (toBranch : note.row.branch = some branch.id) :
    note.row.file = branch.row.file ∧ ∃ treeName branchName,
      .note kind ((ofEvents events).shownLocation note.row.file note.row.line)
        ⟨treeName, branchName, branch.row.valueVariable, note.row.text⟩ ∈ events := by
  obtain ⟨earlier, location, finding, later, split, row⟩ := exists_of_mem_notes noteIn
  have used : location.filename ∈ events.map Event.filename := mem_filenames_of_split split
  rw [row] at toBranch ⊢
  obtain ⟨target, targeted, referred⟩ := Option.map_eq_some_iff.mp toBranch
  obtain ⟨tree, before, event, after, resolved, inside, rfl, chosen⟩ := exists_of_branchTarget targeted
  cases event with
  | file | tree | note => contradiction
  | branch place other =>
      rw [addsBranchTo, Bool.and_eq_true_iff, Bool.and_eq_true_iff] at chosen
      obtain ⟨⟨-, filled⟩, own⟩ := chosen
      have sameFile := filename_of_branchTarget declared split resolved inside (of_decide_eq_true own)
      rw [inside] at split referred
      have isRow := row_of_rowId (Tables.empty.withFilesOf events).isSome_branchRow?
        (numbered_ofEvents events).branches branchIn split rfl referred
      refine ⟨?_, finding.treeName, finding.branchName, ?_⟩
      · rw [isRow, ← sameFile]
        rfl
      · have filler : branch.row.valueVariable = finding.valueVariable := by
          rw [isRow]
          exact of_decide_eq_true filled
        simp only [shownLocation_fileOf used, filler]
        simp [split]

end References

end Tables

end BranchCatalog
