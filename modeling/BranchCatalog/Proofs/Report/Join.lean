/-
This file proves that joined rows stand in the order of a report already when the tables hold their
rows in the order of their ids, so that ordering them changes nothing.
-/

import BranchCatalog.Proofs.Store.Integrity
import BranchCatalog.Report.Row

namespace BranchCatalog

section Join

variable {Left Right : Type} {isMatch : Left → Right → Bool} {left : List Left} {right : List Right}

/-- An item with each of its matches, or with nothing. -/
def paired (item : Left) : List Right → List (Left × Option Right)
  | [] => [(item, none)]
  | found => found.map fun other => (item, some other)

/-- An outer join pairs each row with all rows that match it. -/
theorem outerJoin_eq (isMatch : Left → Right → Bool) (left : List Left) (right : List Right) :
    outerJoin isMatch left right = left.flatMap fun item => paired item (right.filter (isMatch item)) :=
  rfl

theorem fst_of_mem_paired {item : Left} {found : List Right} {pair : Left × Option Right}
    (member : pair ∈ paired item found) : pair.1 = item := by
  cases found with
  | nil => rw [List.mem_singleton.mp member]
  | cons =>
      obtain ⟨other, -, rfl⟩ := List.mem_map.mp member
      rfl

theorem snd_of_mem_paired {item : Left} {found : List Right} {pair : Left × Option Right}
    (member : pair ∈ paired item found) {other : Right} (is : pair.2 = some other) :
    other ∈ found := by
  cases found with
  | nil =>
      rw [List.mem_singleton.mp member] at is
      contradiction
  | cons =>
      obtain ⟨found, inside, rfl⟩ := List.mem_map.mp member
      rwa [← Option.some.inj is]

/-- A pair of a join holds an item and at most one of its matches. -/
theorem of_mem_outerJoin {pair : Left × Option Right} (member : pair ∈ outerJoin isMatch left right) :
    pair.1 ∈ left ∧ ∀ other, pair.2 = some other → other ∈ right ∧ isMatch pair.1 other = true := by
  rw [outerJoin_eq] at member
  obtain ⟨item, inside, here⟩ := List.mem_flatMap.mp member
  rw [fst_of_mem_paired here]
  exact ⟨inside, fun other is => List.mem_filter.mp (snd_of_mem_paired here is)⟩

/-- Joins of ordered lists are ordered by the item and then by its match. -/
theorem pairwise_outerJoin {belowLeft : Left → Left → Prop} {belowRight : Right → Right → Prop}
    (lefts : left.Pairwise belowLeft) (rights : right.Pairwise belowRight) :
    (outerJoin isMatch left right).Pairwise fun first second =>
      belowLeft first.1 second.1 ∨ first.1 = second.1 ∧
        ∃ one other, first.2 = some one ∧ second.2 = some other ∧ belowRight one other := by
  rw [outerJoin_eq, List.pairwise_flatMap]
  constructor
  · intro item _
    have found := rights.filter (isMatch item)
    cases matched : right.filter (isMatch item) with
    | nil => exact List.pairwise_singleton _ _
    | cons head tail =>
        rw [matched] at found
        exact List.pairwise_map.mpr
          (found.imp fun {one other} below => Or.inr ⟨rfl, one, other, rfl, rfl, below⟩)
  · apply lefts.imp
    intro item later below first firstIn second secondIn
    rw [fst_of_mem_paired firstIn, fst_of_mem_paired secondIn]
    exact Or.inl below

/-- More rows on the left are joined behind the others. -/
theorem outerJoin_append (isMatch : Left → Right → Bool) (first second : List Left)
    (right : List Right) :
    outerJoin isMatch (first ++ second) right =
      outerJoin isMatch first right ++ outerJoin isMatch second right := by
  rw [outerJoin, List.flatMap_append]
  rfl

/-- Only matches count in a join. -/
theorem outerJoin_congr {left : List Left} {right other : List Right}
    (same : ∀ item ∈ left, right.filter (isMatch item) = other.filter (isMatch item)) :
    outerJoin isMatch left right = outerJoin isMatch left other := by
  rw [outerJoin_eq, outerJoin_eq]
  apply List.flatMap_congr
  intro item member
  rw [same item member]

/-- Rows may be moved before they are paired or afterwards. -/
theorem map_paired {NewLeft NewRight : Type} (moveLeft : Left → NewLeft) (moveRight : Right → NewRight)
    (item : Left) (found : List Right) :
    paired (moveLeft item) (found.map moveRight) =
      (paired item found).map fun pair => (moveLeft pair.1, pair.2.map moveRight) := by
  cases found with
  | nil => rfl
  | cons head tail => simp [paired]

/-- Items and matches may be moved before or after they are joined. -/
theorem outerJoin_map {NewLeft NewRight : Type} {moved : NewLeft → NewRight → Bool}
    (moveLeft : Left → NewLeft) (moveRight : Right → NewRight) {left : List Left} {right : List Right}
    (same : ∀ item ∈ left, ∀ other ∈ right,
      moved (moveLeft item) (moveRight other) = isMatch item other) :
    outerJoin moved (left.map moveLeft) (right.map moveRight) =
      (outerJoin isMatch left right).map fun pair => (moveLeft pair.1, pair.2.map moveRight) := by
  rw [outerJoin_eq, outerJoin_eq, List.flatMap_map, List.map_flatMap]
  apply List.flatMap_congr
  intro item member
  have matches' : (right.map moveRight).filter (moved (moveLeft item)) =
      (right.filter (isMatch item)).map moveRight := by
    rw [List.filter_map]
    congr 1
    apply List.filter_congr
    intro other present
    exact same item member other present
  rw [matches', map_paired]

/-- A join of more items with more matches goes on after the old one, when no old item matches a new match
and no new item an old one. -/
theorem outerJoin_extend {NewLeft NewRight : Type} {fresh : NewLeft → NewRight → Bool}
    {left : List Left} {right whole : List Right} {more : List NewLeft} {new : List NewRight}
    (moveLeft : NewLeft → Left) (moveRight : NewRight → Right)
    (old : ∀ item ∈ left, whole.filter (isMatch item) = right.filter (isMatch item))
    (only : ∀ item ∈ more, whole.filter (isMatch (moveLeft item)) =
      (new.map moveRight).filter (isMatch (moveLeft item)))
    (same : ∀ item ∈ more, ∀ other ∈ new,
      isMatch (moveLeft item) (moveRight other) = fresh item other) :
    outerJoin isMatch (left ++ more.map moveLeft) whole =
      outerJoin isMatch left right ++
        (outerJoin fresh more new).map fun pair => (moveLeft pair.1, pair.2.map moveRight) := by
  have moved : outerJoin isMatch (more.map moveLeft) whole =
      outerJoin isMatch (more.map moveLeft) (new.map moveRight) := by
    apply outerJoin_congr
    intro item member
    obtain ⟨origin, inside, rfl⟩ := List.mem_map.mp member
    exact only origin inside
  rw [outerJoin_append, outerJoin_congr old, moved, outerJoin_map moveLeft moveRight same]

end Join

/-- A common beginning does not matter to the order of lists. -/
theorem lexicographic_append {Member : Type} [DecidableEq Member] (below : Member → Member → Bool)
    (common lefts rights : List Member) :
    lexicographic below (common ++ lefts) (common ++ rights) = lexicographic below lefts rights := by
  induction common with
  | nil => rfl
  | cons member common inductionHypothesis =>
      rw [List.cons_append, List.cons_append, lexicographic, if_pos rfl, inductionHypothesis]

theorem lexicographic_cons_of_lt {left right : Int} (less : left < right) (lefts rights : List Int) :
    lexicographic (fun left right => decide (left < right)) (left :: lefts) (right :: rights) =
      true := by
  rw [lexicographic, if_neg (Int.ne_of_lt less), decide_eq_true less]

namespace Tables

variable {tables : Tables}

/-- Notes stand by kind, and under each kind by id. -/
theorem pairwise_allNotes (numbered : tables.Numbered) :
    tables.allNotes.Pairwise fun first second =>
      first.1.rank < second.1.rank ∨ first.1 = second.1 ∧ first.2.id < second.2.id := by
  have ordered (kind : NoteKind) := (numbered.notes kind).increasing
  simp only [allNotes, List.flatMap_cons, List.flatMap_nil, List.append_nil]
  rw [List.pairwise_append, List.pairwise_map, List.pairwise_map]
  refine ⟨(ordered .comment).imp fun below => Or.inr ⟨rfl, below⟩,
    (ordered .assignment).imp fun below => Or.inr ⟨rfl, below⟩, ?_⟩
  intro first firstIn second secondIn
  obtain ⟨comment, -, rfl⟩ := List.mem_map.mp firstIn
  obtain ⟨assignment, -, rfl⟩ := List.mem_map.mp secondIn
  exact Or.inl Int.zero_lt_one

/-- The trees of the tables, each with its branches. -/
def treesWithBranches (tables : Tables) : List (Stored TreeRow × Option (Stored BranchRow)) :=
  outerJoin (fun tree branch => branch.row.tree = some tree.id) tables.trees.rows
    tables.branches.rows

/-- Holds for a note on the branch of a pair. -/
def hasNote (pair : Stored TreeRow × Option (Stored BranchRow))
    (note : NoteKind × Stored NoteRow) : Bool :=
  pair.2.any fun branch => note.2.row.branch = some branch.id

/-- Joined rows are trees with branches, joined with the notes. -/
theorem joinedRows_eq (tables : Tables) :
    tables.joinedRows = (outerJoin hasNote tables.treesWithBranches tables.allNotes).map
      fun pair => ⟨pair.1.1, pair.1.2, pair.2⟩ := rfl

theorem mem_branches_of_mem_treesWithBranches {tree : Stored TreeRow} {branch : Stored BranchRow}
    (member : (tree, some branch) ∈ tables.treesWithBranches) : branch ∈ tables.branches.rows :=
  ((of_mem_outerJoin member).2 branch rfl).1

theorem mem_notes_of_mem_allNotes {note : NoteKind × Stored NoteRow}
    (member : note ∈ tables.allNotes) : note.2 ∈ (tables.notes note.1).rows := by
  obtain ⟨kind, -, inside⟩ := List.mem_flatMap.mp member
  obtain ⟨stored, present, rfl⟩ := List.mem_map.mp inside
  exact present

/-- The rows of a join are made of stored rows. -/
theorem of_mem_joinedRows {joined : JoinedRow} (member : joined ∈ tables.joinedRows) :
    joined.tree ∈ tables.trees.rows ∧
    (∀ branch, joined.branch = some branch →
      branch ∈ tables.branches.rows ∧ branch.row.tree = some joined.tree.id) ∧
    ∀ note, joined.note = some note → note ∈ tables.allNotes ∧
      joined.branch.any (fun branch => note.2.row.branch = some branch.id) = true := by
  obtain ⟨⟨⟨tree, branch⟩, note⟩, inside, rfl⟩ := List.mem_map.mp member
  obtain ⟨pair, notes⟩ := of_mem_outerJoin inside
  obtain ⟨trees, branches⟩ := of_mem_outerJoin pair
  refine ⟨trees, fun branch is => ?_, fun note is => notes note is⟩
  obtain ⟨present, matched⟩ := branches branch is
  exact ⟨present, of_decide_eq_true matched⟩

/-- The branch that a note stands with in the join is the one that it refers to. -/
theorem exists_branch_of_joined_note {joined : JoinedRow} (inside : joined ∈ tables.joinedRows)
    {note : NoteKind × Stored NoteRow} (is : joined.note = some note) :
    ∃ branch ∈ tables.branches.rows, joined.branch = some branch ∧
      branch.row.tree = some joined.tree.id ∧ note.2.row.branch = some branch.id := by
  obtain ⟨-, branches, notes⟩ := of_mem_joinedRows inside
  have refers := (notes note is).2
  cases found : joined.branch with
  | none =>
      rw [found] at refers
      contradiction
  | some branch =>
      obtain ⟨branchIn, toTree⟩ := branches branch found
      rw [found] at refers
      exact ⟨branch, branchIn, rfl, toTree, of_decide_eq_true refers⟩

/-- The rows of a join stand in the order of their keys. -/
theorem pairwise_joinedRows (numbered : tables.Numbered) :
    tables.joinedRows.Pairwise fun first second => first.precedes second = true := by
  rw [joinedRows, List.pairwise_map]
  apply (pairwise_outerJoin (pairwise_outerJoin numbered.trees.increasing
    numbered.branches.increasing) (pairwise_allNotes numbered)).imp
  rintro ⟨⟨tree, branch⟩, note⟩ ⟨⟨otherTree, otherBranch⟩, otherNote⟩
    ((below | ⟨same, one, other, rfl, rfl, below⟩) | ⟨same, one, other, rfl, rfl, below⟩)
  · exact lexicographic_cons_of_lt below _ _
  · obtain rfl : tree = otherTree := same
    rw [JoinedRow.precedes, JoinedRow.key, JoinedRow.key, lexicographic, if_pos rfl]
    exact lexicographic_cons_of_lt below _ _
  · obtain ⟨rfl, rfl⟩ := Prod.mk.inj same
    rw [JoinedRow.precedes, JoinedRow.key, JoinedRow.key, ← List.cons_append, ← List.cons_append,
      lexicographic_append]
    rcases below with rank | ⟨kind, below⟩
    · exact lexicographic_cons_of_lt rank _ _
    · simp only [Option.map_some, Option.getD_some, kind]
      rw [lexicographic, if_pos rfl]
      exact lexicographic_cons_of_lt below _ _

/-- A report reads the joined rows in the order in which the join gives them. -/
theorem reportRows_eq (numbered : tables.Numbered) :
    tables.reportRows = tables.joinedRows.mapM tables.readJoined := by
  rw [reportRows, List.mergeSort_of_pairwise (pairwise_joinedRows numbered)]

end Tables

end BranchCatalog
