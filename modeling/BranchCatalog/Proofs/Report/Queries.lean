import BranchCatalog.Proofs.Report.Traversal
import BranchCatalog.Store.Damage

namespace BranchCatalog

/-- A row as a tree; a missing reference would become zero. -/
def TreeRow.toTree (row : TreeRow) : Tree :=
  ⟨row.name, row.title, row.variableName, row.file.getD 0, row.line.toNat⟩

def BranchRow.toBranch (row : BranchRow) : Branch :=
  ⟨row.tree.getD 0, row.name, row.leafDefinition, row.valueVariable, row.file.getD 0,
    row.line.toNat⟩

def NoteRow.toNote (row : NoteRow) : Note :=
  ⟨row.text, row.branch.getD 0, row.file.getD 0, row.line.toNat⟩

section Read

/-- A reference can be read when it is there. -/
theorem readReference_eq_ok_iff {index : Nat} {column : String} {reference : Option Id} {id : Id} :
    readReference index column reference = .ok id ↔
      reference.isSome = true ∧ id = reference.getD 0 := by
  cases reference <;> simp [readReference, eq_comm]

/-- A tree can be read when it has a file and a line number. -/
theorem TreeRow.read_eq_ok_iff (row : TreeRow) (tree : Tree) :
    row.read = .ok tree ↔ (row.file.isSome = true ∧ IsLineNumber row.line) ∧ tree = row.toTree := by
  simp only [TreeRow.read, bind_eq_ok_iff, pure_eq_ok_iff, readReference_eq_ok_iff,
    readLine_eq_ok_iff, toTree, and_assoc, exists_and_left, exists_eq_left]

/-- A branch can be read when it has a tree, a file and a line number. -/
theorem BranchRow.read_eq_ok_iff (row : BranchRow) (branch : Branch) :
    row.read = .ok branch ↔
      (row.tree.isSome = true ∧ row.file.isSome = true ∧ IsLineNumber row.line) ∧
        branch = row.toBranch := by
  simp only [BranchRow.read, bind_eq_ok_iff, pure_eq_ok_iff, readReference_eq_ok_iff,
    readLine_eq_ok_iff, toBranch, and_assoc, exists_and_left, exists_eq_left]

/-- A note can be read when it has a branch, a file and a line number. -/
theorem NoteRow.read_eq_ok_iff (row : NoteRow) (note : Note) :
    row.read = .ok note ↔
      (row.branch.isSome = true ∧ row.file.isSome = true ∧ IsLineNumber row.line) ∧
        note = row.toNote := by
  simp only [NoteRow.read, bind_eq_ok_iff, pure_eq_ok_iff, readReference_eq_ok_iff,
    readLine_eq_ok_iff, toNote, and_assoc, exists_and_left, exists_eq_left]

/-- A stored row with its row read as an entity. -/
def Stored.as {Row Entity : Type} (entity : Row → Entity) (stored : Stored Row) : Stored Entity :=
  ⟨stored.id, entity stored.row⟩

theorem readRows_of_readable {Row Entity : Type} {read : Row → Except StoreFault Entity}
    {readable : Row → Prop} {entity : Row → Entity}
    (each : ∀ row answer, read row = .ok answer ↔ readable row ∧ answer = entity row)
    {rows : List (Stored Row)} (fit : ∀ stored ∈ rows, readable stored.row) :
    readRows read rows = .ok (rows.map (Stored.as entity)) := by
  have stored (row : Stored Row) (answer : Stored Entity) :
      (read row.row >>= fun entity => pure ⟨row.id, entity⟩) = .ok answer ↔
        readable row.row ∧ answer = row.as entity := by
    simp only [bind_eq_ok_iff, pure_eq_ok_iff, each, and_assoc, exists_and_left, exists_eq_left]
    rfl
  exact (mapM_eq_ok_iff stored).mpr ⟨fit, rfl⟩

end Read

namespace Tables

/-- No reference of a row is missing. -/
structure ReferencesPresent (tables : Tables) : Prop where
  trees : ∀ stored ∈ tables.trees.rows, stored.row.file.isSome = true
  branches : ∀ stored ∈ tables.branches.rows,
    stored.row.tree.isSome = true ∧ stored.row.file.isSome = true
  notes : ∀ kind, ∀ stored ∈ (tables.notes kind).rows,
    stored.row.branch.isSome = true ∧ stored.row.file.isSome = true

/-- A line of the file that is found under an id; its name is empty when there is none. -/
def foundLocation (tables : Tables) (file : Id) (line : Nat) : Location :=
  ⟨(tables.files.find? file).getD [], line⟩

def foundBranch (tables : Tables) (branch : Branch) : ReportBranch where
  location := tables.foundLocation branch.file branch.line
  name := branch.name
  leafDefinition := branch.leafDefinition
  valueVariable := branch.valueVariable

def foundNote (tables : Tables) (note : Note) : ReportNote where
  text := note.text
  location := tables.foundLocation note.file note.line

def foundTree (tables : Tables) (tree : Tree) (branch : Option ReportBranch)
    (comment assignment : Option ReportNote) : ReportRow where
  treeLocation := tables.foundLocation tree.file tree.line
  treeName := tree.name
  treeTitle := tree.title
  treeVariable := tree.variableName
  branch
  comment
  assignment

/-- The rows of a branch of a tree, by the queries for its comments and for its assignments. -/
def queryBranchRows (tables : Tables) (tree : Stored Tree) (branch : Stored Branch) :
    Except StoreFault (List ReportRow) := do
  let comments ← tables.notesOf .comment branch.id
  let assignments ← tables.notesOf .assignment branch.id
  return noteRows (tables.foundTree tree.row (some (tables.foundBranch branch.row)))
    (comments.map fun note => tables.foundNote note.row)
    (assignments.map fun note => tables.foundNote note.row)

def queryTreeRows (tables : Tables) (tree : Stored Tree) : Except StoreFault (List ReportRow) := do
  match ← tables.branchesOf tree.id with
  | [] => return [tables.foundTree tree.row none none none]
  | branches =>
    let rows ← branches.mapM (tables.queryBranchRows tree)
    return rows.flatten

def queryTraversal (tables : Tables) : Except StoreFault (List ReportRow) := do
  let trees ← tables.allTrees
  let rows ← trees.mapM tables.queryTreeRows
  return rows.flatten

section Present

variable {tables : Tables}

theorem foundLocation_eq {file : Option Id} (present : file.isSome = true) (line : Int) :
    tables.foundLocation (file.getD 0) line.toNat = tables.shownLocation file line := by
  obtain ⟨id, rfl⟩ := Option.isSome_iff_exists.mp present
  rfl

theorem foundTree_eq {stored : Stored TreeRow} (present : stored.row.file.isSome = true) :
    tables.foundTree stored.row.toTree = tables.shownTree stored := by
  funext branch comment assignment
  simp only [foundTree, TreeRow.toTree, foundLocation_eq present, shownTree]

theorem foundBranch_eq {stored : Stored BranchRow} (present : stored.row.file.isSome = true) :
    tables.foundBranch stored.row.toBranch = tables.shownBranch stored := by
  simp only [foundBranch, BranchRow.toBranch, foundLocation_eq present, shownBranch]

theorem foundNote_eq {stored : Stored NoteRow} (present : stored.row.file.isSome = true) :
    tables.foundNote stored.row.toNote = tables.shownNote stored := by
  simp only [foundNote, NoteRow.toNote, foundLocation_eq present, shownNote]

variable (fit : tables.LinesFit) (present : tables.ReferencesPresent)
include fit present

theorem allTrees_eq :
    tables.allTrees = .ok (tables.trees.rows.map (Stored.as TreeRow.toTree)) :=
  readRows_of_readable TreeRow.read_eq_ok_iff fun stored member =>
    ⟨present.trees stored member, fit.trees stored member⟩

/-- The query for branches gives the branches under the tree. -/
theorem branchesOf_eq (tree : Id) :
    tables.branchesOf tree = .ok ((tables.branchesUnder tree).map (Stored.as BranchRow.toBranch)) := by
  apply readRows_of_readable BranchRow.read_eq_ok_iff
  intro stored member
  have inside := List.mem_of_mem_filter member
  obtain ⟨tree, file⟩ := present.branches stored inside
  exact ⟨tree, file, fit.branches stored inside⟩

/-- The query for notes gives the notes on the branch. -/
theorem notesOf_eq (kind : NoteKind) (branch : Id) :
    tables.notesOf kind branch =
      .ok ((tables.notesUnder kind branch).map (Stored.as NoteRow.toNote)) := by
  apply readRows_of_readable NoteRow.read_eq_ok_iff
  intro stored member
  have inside := List.mem_of_mem_filter member
  obtain ⟨branch, file⟩ := present.notes kind stored inside
  exact ⟨branch, file, fit.notes kind stored inside⟩

theorem queryBranchRows_eq {tree : Stored TreeRow} (treeIn : tree ∈ tables.trees.rows)
    {branch : Stored BranchRow} (branchIn : branch ∈ tables.branches.rows) :
    tables.queryBranchRows (tree.as TreeRow.toTree) (branch.as BranchRow.toBranch) =
      .ok (tables.branchRows tree branch) := by
  have notes (kind : NoteKind) :
      ((tables.notesUnder kind branch.id).map (Stored.as NoteRow.toNote)).map
          (fun note => tables.foundNote note.row) =
        (tables.notesUnder kind branch.id).map tables.shownNote := by
    rw [List.map_map]
    apply List.map_congr_left
    intro note member
    exact foundNote_eq (present.notes kind note (List.mem_of_mem_filter member)).2
  rw [queryBranchRows, branchRows, ← notes, ← notes]
  simp only [Stored.as, notesOf_eq fit present, foundTree_eq (present.trees tree treeIn),
    foundBranch_eq (present.branches branch branchIn).2]
  rfl

/-- The queries under a tree give the rows of the tree. -/
theorem queryTreeRows_eq {tree : Stored TreeRow} (treeIn : tree ∈ tables.trees.rows) :
    tables.queryTreeRows (tree.as TreeRow.toTree) = .ok (tables.treeRows tree) := by
  have branches : ((tables.branchesUnder tree.id).map (Stored.as BranchRow.toBranch)).mapM
        (tables.queryBranchRows (tree.as TreeRow.toTree)) =
      .ok ((tables.branchesUnder tree.id).map (tables.branchRows tree)) := by
    rw [List.mapM_map]
    apply mapM_eq_ok_map
    intro branch member
    exact queryBranchRows_eq fit present treeIn (List.mem_of_mem_filter member)
  rw [queryTreeRows, treeRows]
  simp only [Stored.as, branchesOf_eq fit present, foundTree_eq (present.trees tree treeIn)]
  cases found : tables.branchesUnder tree.id with
  | nil => rfl
  | cons branch others =>
      rw [found] at branches
      exact congrArg (· >>= fun rows => pure rows.flatten) branches

/-- Without missing references the queries give the rows of the nested loops. -/
theorem queryTraversal_eq : tables.queryTraversal = .ok tables.traversal := by
  have rows : (tables.trees.rows.map (Stored.as TreeRow.toTree)).mapM tables.queryTreeRows =
      .ok (tables.trees.rows.map tables.treeRows) := by
    rw [List.mapM_map]
    exact mapM_eq_ok_map fun tree member => queryTreeRows_eq fit present member
  rw [queryTraversal, allTrees_eq fit present]
  exact congrArg (· >>= fun rows => pure rows.flatten) rows

end Present

/-- A report has the rows of the nested loops over trees, branches and notes in the order of their ids,
also when references are missing or lead nowhere; a tree without branches and a branch without notes have
one row. Rows show the names of stored files, and no name when a reference to a file does not resolve. When
no reference is missing, the queries for trees, branches, notes and files give the same rows. -/
theorem reportRows_eq_traversal (tables : Tables) (numbered : tables.Numbered)
    (fit : tables.LinesFit) :
    tables.reportRows = .ok tables.traversal ∧
    tables.traversal.length = (tables.trees.rows.map tables.treeSize).sum ∧
    (∀ stored ∈ tables.files.rows, tables.filename (some stored.id) = stored.row) ∧
    (∀ file, tables.files.resolves file = false → tables.filename file = []) ∧
    (tables.ReferencesPresent → tables.queryTraversal = .ok tables.traversal) := by
  refine ⟨?_, tables.length_traversal, fun _ member => filename_of_stored numbered.files member,
    fun _ unresolved => filename_of_unresolved unresolved, queryTraversal_eq fit⟩
  rw [fit.reportRows_eq_map numbered, map_shownRow_joinedRows]

/-- In these tables ids have gaps, a tree and a branch refer to rows that are gone, and so does a comment;
after that a branch loses its reference altogether. -/
theorem reportRows_eq_traversal_of_damaged :
    let tables : Tables :=
      { files := ⟨[⟨2, ['a']⟩], 3⟩
        trees := ⟨[⟨1, ⟨['t'], [], ['p'], some 2, 7⟩⟩, ⟨4, ⟨['u'], [], ['q'], some 3, 8⟩⟩], 5⟩
        branches := ⟨[⟨2, ⟨some 4, ['x'], [], ['v'], some 2, 9⟩⟩,
          ⟨3, ⟨some 9, ['y'], [], ['v'], some 2, 10⟩⟩, ⟨6, ⟨some 1, ['z'], [], ['w'], some 2, 11⟩⟩,
          ⟨7, ⟨some 1, ['x'], [], ['v'], some 2, 12⟩⟩], 7⟩
        comments := ⟨[⟨1, ⟨['c'], some 7, some 2, 13⟩⟩, ⟨2, ⟨['d'], some 6, some 2, 14⟩⟩,
          ⟨5, ⟨['e'], some 8, some 2, 15⟩⟩], 5⟩
        assignments := ⟨[⟨1, ⟨['f'], some 6, some 3, 16⟩⟩], 1⟩ }
    let damaged := tables.overwrite .branchTree 6 none
    tables.reportRows = .ok tables.traversal ∧ tables.traversal.length = 4 ∧
      tables.queryTraversal = .ok tables.traversal ∧
      damaged.reportRows = .ok damaged.traversal ∧ damaged.traversal.length = 2 := by
  intro tables damaged
  have numbered : tables.Numbered :=
    ⟨⟨by decide, by decide⟩, ⟨by decide, by decide⟩, ⟨by decide, by decide⟩,
      fun kind => by cases kind <;> exact ⟨by decide, by decide⟩⟩
  have stillNumbered : damaged.Numbered :=
    ⟨⟨by decide, by decide⟩, ⟨by decide, by decide⟩, ⟨by decide, by decide⟩,
      fun kind => by cases kind <;> exact ⟨by decide, by decide⟩⟩
  have fit : tables.LinesFit := ⟨by decide, by decide, fun kind => by cases kind <;> decide⟩
  have stillFit : damaged.LinesFit := ⟨by decide, by decide, fun kind => by cases kind <;> decide⟩
  have present : tables.ReferencesPresent :=
    ⟨by decide, by decide, fun kind => by cases kind <;> decide⟩
  obtain ⟨whole, size, -, -, queries⟩ := reportRows_eq_traversal tables numbered fit
  obtain ⟨rest, less, -, -, -⟩ := reportRows_eq_traversal damaged stillNumbered stillFit
  exact ⟨whole, size.trans (by decide), queries present, rest, less.trans (by decide)⟩

end Tables

end BranchCatalog
