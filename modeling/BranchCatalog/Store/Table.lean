namespace BranchCatalog

/-- An id names a row of a table; a table gives out one, two, three and so on. -/
abbrev Id : Type := Int

/-- A row together with its id. -/
structure Stored (Row : Type) where
  id : Id
  row : Row
  deriving DecidableEq, Repr

/-- A table holds its rows in the order of their ids, and the last id that it gave out. -/
structure Table (Row : Type) where
  rows : List (Stored Row)
  lastId : Id
  deriving DecidableEq, Repr

namespace Table

variable {Row : Type}

def empty : Table Row :=
  ⟨[], 0⟩

/-- A new row takes the next id and stands last. -/
def insert (table : Table Row) (row : Row) : Table Row :=
  ⟨table.rows ++ [⟨table.lastId + 1, row⟩], table.lastId + 1⟩

def find? (table : Table Row) (id : Id) : Option Row :=
  (table.rows.find? (·.id = id)).map (·.row)

def contains (table : Table Row) (id : Id) : Bool :=
  table.rows.any (·.id = id)

def size (table : Table Row) : Nat :=
  table.rows.length

/-- Removes the row with an id; the id is never given out again. -/
def erase (table : Table Row) (id : Id) : Table Row :=
  { table with rows := table.rows.filter (·.id ≠ id) }

def modify (table : Table Row) (id : Id) (change : Row → Row) : Table Row :=
  { table with
    rows := table.rows.map fun stored =>
      if stored.id = id then { stored with row := change stored.row } else stored }

/-- A table contains its old ids and the new one. -/
theorem contains_insert (table : Table Row) (row : Row) (id : Id) :
    (table.insert row).contains id = (table.contains id || decide (table.lastId + 1 = id)) := by
  simp [insert, contains]

end Table

end BranchCatalog
