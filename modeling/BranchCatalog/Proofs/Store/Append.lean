import BranchCatalog.Store.Basic
import Mathlib.Data.List.Nodup

namespace BranchCatalog

namespace Table

variable {Row : Type}

/-- The table with more rows at its end, under the ids that come next. -/
def append (table : Table Row) (rows : List Row) : Table Row where
  rows := table.rows ++ rows.mapIdx fun index row => ⟨table.lastId + 1 + index, row⟩
  lastId := table.lastId + rows.length

/-- Ids increase with the order of the rows, and none is larger than the last id given out. -/
structure Numbered (table : Table Row) : Prop where
  increasing : table.rows.Pairwise fun earlier later => earlier.id < later.id
  within : ∀ stored ∈ table.rows, stored.id ≤ table.lastId

theorem append_nil (table : Table Row) : table.append [] = table := by
  simp [append]

theorem append_concat (table : Table Row) (rows : List Row) (row : Row) :
    table.append (rows ++ [row]) = (table.append rows).insert row := by
  have next : table.lastId + (rows.length + 1 : Nat) = table.lastId + rows.length + 1 := by lia
  have last : table.lastId + 1 + rows.length = table.lastId + rows.length + 1 := by lia
  simp only [append, insert, List.mapIdx_concat, List.length_append, List.length_singleton,
    List.append_assoc, next, last]

theorem append_append (table : Table Row) (first second : List Row) :
    table.append (first ++ second) = (table.append first).append second := by
  have next (index : Nat) : table.lastId + 1 + (index + first.length : Nat) =
      table.lastId + first.length + 1 + index := by lia
  have total : table.lastId + (first.length + second.length : Nat) =
      table.lastId + first.length + second.length := by lia
  simp only [append, List.mapIdx_append, List.length_append, List.append_assoc, next, total]

/-- Appended rows get the ids behind the last one, in their order. -/
theorem mem_append_rows {table : Table Row} {rows : List Row} {stored : Stored Row} :
    stored ∈ (table.append rows).rows ↔ stored ∈ table.rows ∨
      ∃ index : Nat, rows[index]? = some stored.row ∧ stored.id = table.lastId + 1 + index := by
  simp only [append, List.mem_append, List.mem_mapIdx]
  constructor
  · rintro (old | ⟨index, inside, rfl⟩)
    · exact Or.inl old
    · exact Or.inr ⟨index, List.getElem?_eq_getElem inside, rfl⟩
  · rintro (old | ⟨index, found, same⟩)
    · exact Or.inl old
    · obtain ⟨inside, row⟩ := List.getElem?_eq_some_iff.mp found
      refine Or.inr ⟨index, inside, ?_⟩
      rw [row, ← same]

namespace Numbered

variable {table : Table Row}

theorem empty : Numbered (Table.empty : Table Row) :=
  ⟨List.Pairwise.nil, fun _ member => absurd member List.not_mem_nil⟩

/-- A numbered table stays numbered when it takes a row in. -/
theorem insert (numbered : table.Numbered) (row : Row) : (table.insert row).Numbered := by
  constructor
  · rw [Table.insert, List.pairwise_append]
    refine ⟨numbered.increasing, List.pairwise_singleton _ _, ?_⟩
    intro earlier old later new
    have bound := numbered.within earlier old
    rw [List.mem_singleton.mp new]
    show earlier.id < table.lastId + 1
    lia
  · intro stored member
    rcases List.mem_append.mp member with old | new
    · have bound := numbered.within stored old
      show stored.id ≤ table.lastId + 1
      lia
    · rw [List.mem_singleton.mp new]
      exact Int.le_refl _

/-- A numbered table stays numbered when rows are appended. -/
theorem append (numbered : table.Numbered) (rows : List Row) : (table.append rows).Numbered := by
  induction rows generalizing table with
  | nil => rwa [append_nil]
  | cons row rows inductionHypothesis =>
      rw [← List.singleton_append, append_append]
      apply inductionHypothesis
      rw [← List.nil_append [row], append_concat, append_nil]
      exact numbered.insert row

theorem nodup (numbered : table.Numbered) : table.rows.Nodup :=
  numbered.increasing.imp fun below same => Int.ne_of_lt below (congrArg Stored.id same)

theorem eq_of_id_eq (numbered : table.Numbered) {first second : Stored Row}
    (left : first ∈ table.rows) (right : second ∈ table.rows) (same : first.id = second.id) :
    first = second := by
  have distinct : (table.rows.map Stored.id).Nodup :=
    List.pairwise_map.mpr (numbered.increasing.imp fun below => Int.ne_of_lt below)
  exact List.inj_on_of_nodup_map distinct left right same

theorem find?_eq_some (numbered : table.Numbered) {stored : Stored Row}
    (member : stored ∈ table.rows) : table.find? stored.id = some stored.row := by
  cases found : table.rows.find? (·.id = stored.id) with
  | none => simpa using List.find?_eq_none.mp found stored member
  | some other =>
      have same : other.id = stored.id := by simpa using List.find?_some found
      have equal := numbered.eq_of_id_eq (List.mem_of_find?_eq_some found) member same
      rw [Table.find?, found, equal, Option.map_some]

end Numbered

end Table

namespace Tables

/-- The id of a file name is that of a row with the name. -/
theorem fileId?_eq_some {tables : Tables} {filename : Text} {id : Id}
    (found : tables.fileId? filename = some id) : ⟨id, filename⟩ ∈ tables.files.rows := by
  obtain ⟨stored, chosen, rfl⟩ := Option.map_eq_some_iff.mp found
  have named : stored.row = filename := by simpa using List.find?_some chosen
  rw [← named]
  exact List.mem_of_find?_eq_some chosen

theorem contains_of_fileId? {tables : Tables} {filename : Text} {id : Id}
    (found : tables.fileId? filename = some id) : tables.files.contains id = true :=
  List.any_eq_true.mpr ⟨_, fileId?_eq_some found, by simp⟩

/-- Two names with one id are the same name. -/
theorem eq_of_fileId?_eq {tables : Tables} (numbered : tables.files.Numbered) {first second : Text}
    {id : Id} (left : tables.fileId? first = some id) (right : tables.fileId? second = some id) :
    first = second :=
  congrArg Stored.row
    (numbered.eq_of_id_eq (fileId?_eq_some left) (fileId?_eq_some right) rfl)

/-- The name of a stored file is found under its id. -/
theorem filename_of_stored {tables : Tables} (numbered : tables.files.Numbered) {stored : Stored Text}
    (member : stored ∈ tables.files.rows) : tables.filename (some stored.id) = stored.row := by
  rw [Tables.filename, Option.bind_some, numbered.find?_eq_some member, Option.getD_some]

/-- The file under the id of a name has that name. -/
theorem filename_fileId? {tables : Tables} (numbered : tables.files.Numbered) {filename : Text}
    {id : Id} (found : tables.fileId? filename = some id) : tables.filename (some id) = filename :=
  filename_of_stored numbered (fileId?_eq_some found)

end Tables

end BranchCatalog
