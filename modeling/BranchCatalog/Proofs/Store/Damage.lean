import BranchCatalog.Proofs.Store.Calls
import BranchCatalog.Store.Damage

namespace BranchCatalog

/-- One piece of damage to a stored row. -/
inductive Damage where
  | delete (table : TableName) (id : Id)
  | overwrite (column : Column) (id : Id) (value : Option Int)
  deriving DecidableEq, Repr

def Store.damaged (store : Store) : Damage → Store
  | .delete table id => (store.deleteRow table id).2
  | .overwrite column id value =>
    match store.setColumn column id value with
    | .ok (_, store) => store
    | .error _ => store

namespace Table.Numbered

variable {Row : Type} {table : Table Row} (numbered : table.Numbered)
include numbered

theorem erase (id : Id) : (table.erase id).Numbered where
  increasing := numbered.increasing.filter _
  within stored member := numbered.within stored (List.mem_of_mem_filter member)

theorem modify (id : Id) (change : Row → Row) : (table.modify id change).Numbered := by
  have sameId (stored : Stored Row) :
      (if stored.id = id then { stored with row := change stored.row } else stored).id = stored.id := by
    split <;> rfl
  constructor
  · refine List.pairwise_map.mpr (numbered.increasing.imp fun below => ?_)
    rwa [sameId, sameId]
  · intro stored member
    obtain ⟨old, inside, rfl⟩ := List.mem_map.mp member
    rw [sameId]
    exact numbered.within old inside

end Table.Numbered

namespace Tables.Numbered

variable {tables : Tables} (numbered : tables.Numbered)
include numbered

theorem withTrees {table : Table TreeRow} (new : table.Numbered) :
    Numbered { tables with trees := table } :=
  { numbered with trees := new }

theorem withBranches {table : Table BranchRow} (new : table.Numbered) :
    Numbered { tables with branches := table } :=
  { numbered with branches := new }

theorem withNotes (kind : NoteKind) {table : Table NoteRow} (new : table.Numbered) :
    (tables.withNotes kind table).Numbered where
  files := by simpa using numbered.files
  trees := by simpa using numbered.trees
  branches := by simpa using numbered.branches
  notes := notes_withNotes_of_both new numbered.notes

/-- Erasing a row of any table keeps the tables numbered. -/
theorem eraseRow (table : TableName) (id : Id) : (tables.eraseRow table id).Numbered := by
  cases table with
  | files => exact { numbered with files := numbered.files.erase id }
  | trees => exact numbered.withTrees (numbered.trees.erase id)
  | branches => exact numbered.withBranches (numbered.branches.erase id)
  | notes kind => exact numbered.withNotes kind ((numbered.notes kind).erase id)

/-- Overwriting a column keeps the tables numbered. -/
theorem overwrite (column : Column) (id : Id) (value : Option Int) :
    (tables.overwrite column id value).Numbered := by
  cases column with
  | treeFile | treeLine => exact numbered.withTrees (numbered.trees.modify id _)
  | branchTree | branchFile | branchLine =>
      exact numbered.withBranches (numbered.branches.modify id _)
  | noteBranch kind | noteFile kind | noteLine kind =>
      exact numbered.withNotes kind ((numbered.notes kind).modify id _)

end Tables.Numbered

namespace Store

variable {store : Store}

/-- No damage changes the order of the rows. -/
theorem numbered_damaged (numbered : store.tables.Numbered) (damage : Damage) :
    (store.damaged damage).tables.Numbered := by
  cases damage with
  | delete table id =>
      simp only [damaged, deleteRow]
      split
      · exact numbered.eraseRow table id
      · exact numbered
  | overwrite column id value =>
      simp only [damaged, setColumn]
      split
      · next same =>
          split at same
          · split at same
            · contradiction
            · cases same
              exact numbered.overwrite column id value
          · cases same
            exact numbered
      · exact numbered

/-- Rows of a damaged store stand in the order of their ids. -/
theorem numbered_foldl_damaged (numbered : store.tables.Numbered) (damages : List Damage) :
    (damages.foldl damaged store).tables.Numbered := by
  induction damages generalizing store with
  | nil => exact numbered
  | cons damage damages inductionHypothesis =>
      exact inductionHypothesis (numbered_damaged numbered damage)

/-- The rows of a store that calls have built and that has been damaged after that stand in the
order of their ids. -/
theorem numbered_of_calls_and_damage (calls : List Call) (damages : List Damage) :
    (damages.foldl damaged (Workbench.empty.run calls).store).tables.Numbered :=
  numbered_foldl_damaged (Workbench.consistent_run consistent_empty calls).tables.toNumbered damages

end Store

end BranchCatalog
