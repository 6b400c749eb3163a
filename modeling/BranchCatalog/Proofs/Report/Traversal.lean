import BranchCatalog.Proofs.Report.Reading
import Mathlib.Algebra.GroupWithZero.Nat

namespace BranchCatalog

/-- The rows of a branch with given comments and assignments: one for each comment, then one for each
assignment, or a single one without a note. -/
def noteRows (shown : Option ReportNote → Option ReportNote → ReportRow) :
    List ReportNote → List ReportNote → List ReportRow
  | [], [] => [shown none none]
  | comments, assignments =>
    comments.map (fun note => shown (some note) none) ++
      assignments.map (fun note => shown none (some note))

/-- A branch takes a row for each of its notes, and at least one. -/
theorem length_noteRows (shown : Option ReportNote → Option ReportNote → ReportRow)
    (comments assignments : List ReportNote) :
    (noteRows shown comments assignments).length =
      max 1 (comments.length + assignments.length) := by
  match comments, assignments with
  | [], [] => rfl
  | [], assignment :: assignments => simp [noteRows]
  | comment :: comments, assignments =>
      simp only [noteRows, List.length_append, List.length_map, List.length_cons]
      omega

namespace Tables

/-- The branches whose reference names a tree, in the order of their ids. -/
def branchesUnder (tables : Tables) (tree : Id) : List (Stored BranchRow) :=
  tables.branches.rows.filter (·.row.tree = some tree)

/-- The notes of a kind whose reference names a branch, in the order of their ids. -/
def notesUnder (tables : Tables) (kind : NoteKind) (branch : Id) : List (Stored NoteRow) :=
  (tables.notes kind).rows.filter (·.row.branch = some branch)

def branchRows (tables : Tables) (tree : Stored TreeRow) (branch : Stored BranchRow) :
    List ReportRow :=
  noteRows (tables.shownTree tree (some (tables.shownBranch branch)))
    ((tables.notesUnder .comment branch.id).map tables.shownNote)
    ((tables.notesUnder .assignment branch.id).map tables.shownNote)

/-- The rows of a tree: those of each of its branches, or a single one without a branch. -/
def treeRows (tables : Tables) (tree : Stored TreeRow) : List ReportRow :=
  match tables.branchesUnder tree.id with
  | [] => [tables.shownTree tree none none none]
  | branches => branches.flatMap (tables.branchRows tree)

def traversal (tables : Tables) : List ReportRow :=
  tables.trees.rows.flatMap tables.treeRows

/-- How many rows a branch has. -/
def branchSize (tables : Tables) (branch : Stored BranchRow) : Nat :=
  max 1 ((tables.notesUnder .comment branch.id).length +
    (tables.notesUnder .assignment branch.id).length)

/-- How many rows a tree has. -/
def treeSize (tables : Tables) (tree : Stored TreeRow) : Nat :=
  max 1 ((tables.branchesUnder tree.id).map tables.branchSize).sum

section Size

variable (tables : Tables)

theorem length_branchRows (tree : Stored TreeRow) (branch : Stored BranchRow) :
    (tables.branchRows tree branch).length = tables.branchSize branch := by
  rw [branchRows, branchSize, length_noteRows, List.length_map, List.length_map]

/-- A tree takes the rows of its branches, and at least one. -/
theorem length_treeRows (tree : Stored TreeRow) :
    (tables.treeRows tree).length = tables.treeSize tree := by
  rw [treeRows, treeSize]
  cases tables.branchesUnder tree.id with
  | nil => rfl
  | cons branch branches =>
      have filled : 1 ≤ tables.branchSize branch := Nat.le_max_left ..
      have sizes : (fun branch => (tables.branchRows tree branch).length) = tables.branchSize :=
        funext (tables.length_branchRows tree)
      rw [List.length_flatMap, sizes, List.map_cons, List.sum_cons, Nat.max_eq_right]
      omega

/-- A traversal has as many rows as its trees take. -/
theorem length_traversal : tables.traversal.length = (tables.trees.rows.map tables.treeSize).sum := by
  have sizes : (fun tree => (tables.treeRows tree).length) = tables.treeSize :=
    funext tables.length_treeRows
  rw [traversal, List.length_flatMap, sizes]

end Size

section Joined

variable (tables : Tables) (tree : Stored TreeRow)

/-- The joined rows of a tree. -/
def joinedUnder (tables : Tables) (tree : Stored TreeRow) : List JoinedRow :=
  (paired tree (tables.branchesUnder tree.id)).flatMap fun pair =>
    (paired pair (tables.allNotes.filter (hasNote pair))).map fun found =>
      ⟨found.1.1, found.1.2, found.2⟩

/-- Rows are joined tree by tree. -/
theorem joinedRows_eq_flatMap : tables.joinedRows = tables.trees.rows.flatMap tables.joinedUnder := by
  rw [joinedRows_eq, outerJoin_eq, treesWithBranches, outerJoin_eq, List.flatMap_assoc,
    List.map_flatMap]
  simp only [List.map_flatMap]
  rfl

/-- The notes on a branch are its comments and then its assignments. -/
theorem filter_hasNote (branch : Stored BranchRow) :
    tables.allNotes.filter (hasNote (tree, some branch)) =
      (tables.notesUnder .comment branch.id).map (NoteKind.comment, ·) ++
        (tables.notesUnder .assignment branch.id).map (NoteKind.assignment, ·) := by
  simp only [allNotes, List.flatMap_cons, List.flatMap_nil, List.append_nil, List.filter_append,
    List.filter_map]
  rfl

/-- What a report shows of the joined rows of a branch are the rows of the branch. -/
theorem map_shownRow_paired (branch : Stored BranchRow) :
    (paired (tree, some branch) (tables.allNotes.filter (hasNote (tree, some branch)))).map
        (fun found => tables.shownRow ⟨found.1.1, found.1.2, found.2⟩) =
      tables.branchRows tree branch := by
  rw [filter_hasNote, branchRows]
  match tables.notesUnder .comment branch.id, tables.notesUnder .assignment branch.id with
  | [], [] => rfl
  | [], assignment :: assignments =>
      simp only [List.map_nil, List.nil_append, List.map_cons, paired, List.map_map, noteRows]
      rfl
  | comment :: comments, assignments =>
      simp only [List.map_cons, List.cons_append, paired, List.map_append, List.map_map, noteRows]
      rfl

/-- What a report shows of the joined rows of a tree are the rows of the tree. -/
theorem map_shownRow_joinedUnder :
    (tables.joinedUnder tree).map tables.shownRow = tables.treeRows tree := by
  rw [joinedUnder, treeRows, List.map_flatMap]
  simp only [List.map_map]
  cases tables.branchesUnder tree.id with
  | nil =>
      have none : tables.allNotes.filter (hasNote (tree, none)) = [] :=
        List.filter_eq_nil_iff.mpr fun _ _ => Bool.false_ne_true
      simp only [paired, List.flatMap_singleton, none]
      rfl
  | cons branch branches =>
      rw [paired, List.flatMap_map]
      · exact List.flatMap_congr fun branch _ => tables.map_shownRow_paired tree branch
      · simp

/-- What a report shows of the joined rows are the rows of the nested loops. -/
theorem map_shownRow_joinedRows : tables.joinedRows.map tables.shownRow = tables.traversal := by
  rw [joinedRows_eq_flatMap, List.map_flatMap, traversal]
  exact List.flatMap_congr fun tree _ => tables.map_shownRow_joinedUnder tree

end Joined

/-- The lines of all rows are line numbers. -/
structure LinesFit (tables : Tables) : Prop where
  trees : ∀ stored ∈ tables.trees.rows, IsLineNumber stored.row.line
  branches : ∀ stored ∈ tables.branches.rows, IsLineNumber stored.row.line
  notes : ∀ kind, ∀ stored ∈ (tables.notes kind).rows, IsLineNumber stored.row.line

section Report

variable {tables : Tables}

/-- All rows can be read when all lines are line numbers. -/
theorem LinesFit.isReadable (fit : tables.LinesFit) {joined : JoinedRow}
    (member : joined ∈ tables.joinedRows) : joined.IsReadable := by
  obtain ⟨tree, branch, note⟩ := of_mem_joinedRows member
  constructor
  · exact fit.trees _ tree
  · intro stored is
    exact fit.branches stored (branch stored is).1
  · intro found is
    exact fit.notes found.1 found.2 (mem_notes_of_mem_allNotes (note found is).1)

/-- Reports of tables with line numbers can be read, and show the joined rows in order. -/
theorem LinesFit.reportRows_eq_map (fit : tables.LinesFit) (numbered : tables.Numbered) :
    tables.reportRows = .ok (tables.joinedRows.map tables.shownRow) :=
  (reportRows_eq_ok_iff numbered).mpr ⟨fun _ member => fit.isReadable member, rfl⟩

end Report

end Tables

end BranchCatalog
