import BranchCatalog.Disk.Basic
import BranchCatalog.Proofs.Text.Utf8
import BranchCatalog.Store.Archive

namespace BranchCatalog

namespace Text

/-- The text of an integer spells the integer. -/
theorem readSigned?_signed (number : Int) : readSigned? (signed number) = some number := by
  cases number with
  | ofNat number =>
      have digits : ∀ digit ∈ decimal number, digit.isDigit = true :=
        fun _ member => Nat.isDigit_of_mem_toDigits (by decide) (by decide) member
      have spelled := readDecimal?_decimal number
      rw [signed]
      cases text : decimal number with
      | nil => exact absurd text Nat.toDigits_ne_nil
      | cons digit rest =>
          have unsigned : digit ≠ '-' := by
            rintro rfl
            exact absurd (digits '-' (by simp [text])) (by decide)
          rw [text] at spelled
          rw [readSigned?, spelled, Option.map_some]
          simpa using unsigned
  | negSucc number =>
      simp only [signed, readSigned?, readDecimal?_decimal]
      rfl

end Text

namespace Archive

open Text

/-- A value is read back, whatever follows it. -/
theorem readValue?_writeValue (value rest : Text) :
    readValue? (writeValue value ++ rest) = some (value, rest) := by
  have digits : ∀ digit ∈ decimal value.length, digit.isDigit = true :=
    fun _ member => Nat.isDigit_of_mem_toDigits (by decide) (by decide) member
  have whole : writeValue value ++ rest = decimal value.length ++ ':' :: (value ++ ',' :: rest) := by
    simp [writeValue]
  have start : (decimal value.length ++ ':' :: (value ++ ',' :: rest)).takeWhile Char.isDigit =
      decimal value.length := by
    rw [List.takeWhile_append_of_pos digits, List.takeWhile_cons_of_neg (by decide), List.append_nil]
  simp [readValue?, whole, start, readDecimal?_decimal]

/-- Values are read back when the fuel is enough for their number. -/
theorem readValues?_flatMap {fuel : Nat} {values : List Text} (enough : values.length ≤ fuel) :
    readValues? fuel (values.flatMap writeValue) = some values := by
  induction values generalizing fuel with
  | nil => rw [List.flatMap_nil, readValues?]
  | cons value values inductionHypothesis =>
      cases fuel with
      | zero => cases enough
      | succ fuel =>
          have rest := inductionHypothesis (Nat.le_of_succ_le_succ enough)
          rw [List.flatMap_cons, readValues?, readValue?_writeValue]
          · simp [rest]
          · simp [writeValue]

theorem length_le_flatMap_writeValue (values : List Text) :
    values.length ≤ (values.flatMap writeValue).length := by
  induction values with
  | nil => exact Nat.le_refl 0
  | cons value values inductionHypothesis =>
      rw [List.flatMap_cons, List.length_append, List.length_cons]
      have filled : 0 < (writeValue value).length := by simp [writeValue]
      omega

/-- A reference is read back, be it missing or not. -/
theorem readReference?_referenceText (reference : Option Id) :
    readReference? (referenceText reference) = some reference := by
  cases reference with
  | none => rfl
  | some id =>
      have spelled := readSigned?_signed id
      have filled : (signed id).isEmpty = false := by
        cases text : signed id with
        | nil =>
            rw [text] at spelled
            cases spelled
        | cons => rfl
      rw [referenceText, Option.map_some, Option.getD_some, readReference?, filled, spelled]
      rfl

section Rows

variable {Row : Type} {rowValues : Row → List Text} {readRow : RowReader Row}

/-- A reader of rows undoes a writer when it gives back each row and leaves the values after it. -/
def Undoes (readRow : RowReader Row) (rowValues : Row → List Text) : Prop :=
  ∀ row values, readRow (rowValues row ++ values) = some (row, values)

theorem undoes_readFileRow : Undoes readFileRow fun filename => [filename] :=
  fun _ _ => rfl

theorem undoes_readTreeRow : Undoes readTreeRow treeValues := by
  intro row values
  simp [readTreeRow, treeValues, readReference?_referenceText, readSigned?_signed]

theorem undoes_readBranchRow : Undoes readBranchRow branchValues := by
  intro row values
  simp [readBranchRow, branchValues, readReference?_referenceText, readSigned?_signed]

theorem undoes_readNoteRow : Undoes readNoteRow noteValues := by
  intro row values
  simp [readNoteRow, noteValues, readReference?_referenceText, readSigned?_signed]

/-- Rows are read back with their ids, one after another. -/
theorem readStored?_flatMap (undoes : Undoes readRow rowValues) (rows : List (Stored Row))
    (values : List Text) :
    readStored? readRow rows.length
        (rows.flatMap (fun stored => signed stored.id :: rowValues stored.row) ++ values) =
      some (rows, values) := by
  induction rows with
  | nil => rfl
  | cons stored rows inductionHypothesis =>
      simp [readStored?, readSigned?_signed, undoes stored.row, inductionHypothesis]

/-- A table is read back when its rows are. -/
theorem undoes_readTable? (undoes : Undoes readRow rowValues) :
    Undoes (readTable? readRow) (tableValues rowValues) := by
  intro table values
  simp [readTable?, tableValues, Table.size, readSigned?_signed, readDecimal?_decimal,
    readStored?_flatMap undoes]

end Rows

/-- The values of an archive: those of its tables. -/
def valuesOf (tables : Tables) : List Text :=
  tableValues (fun filename => [filename]) tables.files ++ tableValues treeValues tables.trees ++
    tableValues branchValues tables.branches ++ tableValues noteValues tables.comments ++
    tableValues noteValues tables.assignments

theorem write_eq (tables : Tables) :
    write tables = encodeUtf8 (heading ++ (valuesOf tables).flatMap writeValue) :=
  rfl

/-- An archive is never empty: it starts with its heading. -/
theorem isEmpty_write (tables : Tables) : (write tables).isEmpty = false := by
  have filled : encodeUtf8 heading ≠ [] := by decide
  rw [List.isEmpty_eq_false_iff, write_eq, encodeUtf8, List.flatMap_append]
  exact List.append_ne_nil_of_left_ne_nil filled _

/-- The tables of an archive are those that were written. -/
theorem read?_write (tables : Tables) : read? (write tables) = some tables := by
  have files := undoes_readTable? undoes_readFileRow tables.files
  have trees := undoes_readTable? undoes_readTreeRow tables.trees
  have branches := undoes_readTable? undoes_readBranchRow tables.branches
  have comments := undoes_readTable? undoes_readNoteRow tables.comments
  have assignments := undoes_readTable? undoes_readNoteRow tables.assignments []
  have values := readValues?_flatMap (length_le_flatMap_writeValue (valuesOf tables))
  rw [List.append_nil] at assignments
  rw [read?, isEmpty_write, write_eq, decodeUtf8?_encodeUtf8]
  simp only [Bool.false_eq_true, if_false, bind, Option.bind, dropStart?_append, values]
  simp only [valuesOf, List.append_assoc, files, trees, branches, comments, assignments, List.isEmpty_nil,
    if_true]

end Archive

/-- The tables of the database in the file at a place; an empty file is no database. -/
def Disk.tablesAt? (disk : Disk) (place : Route) : Option Tables :=
  match disk.entryAt? place with
  | some (.file content) => if content.isEmpty then none else Archive.read? content
  | _ => none

/-- A place has tables when a file with an archive of them stands there. -/
theorem Disk.tablesAt?_eq_some_iff {disk : Disk} {place : Route} {tables : Tables} :
    disk.tablesAt? place = some tables ↔ ∃ content, disk.entryAt? place = some (.file content) ∧
      content.isEmpty = false ∧ Archive.read? content = some tables := by
  unfold tablesAt?
  rcases disk.entryAt? place with _ | content | _ | _
  · simp
  · cases content with
    | nil => simp
    | cons => simp
  · simp
  · simp

/-- An archive that has been put on a disk holds its tables. -/
theorem Disk.tablesAt?_put_write (disk : Disk) {place : Route} (below : place ≠ []) (tables : Tables) :
    (disk.put place (.file (Archive.write tables))).tablesAt? place = some tables := by
  refine tablesAt?_eq_some_iff.mpr ⟨_, ?_, Archive.isEmpty_write tables, Archive.read?_write tables⟩
  rw [entryAt?_put _ _ _ _ below, if_pos rfl]

end BranchCatalog
