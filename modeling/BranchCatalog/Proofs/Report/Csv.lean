import BranchCatalog.Report.Csv
import Mathlib.Data.List.Basic
import Mathlib.Data.Option.Basic

namespace BranchCatalog.Csv

/-- Where a reader is: before a record, before a field of a record, in a field without quotes, between
quotes, or behind a quote that may end its field. -/
inductive Spot where
  | recordStart
  | fieldStart
  | plain
  | quoted
  | afterQuote
  deriving DecidableEq, Repr

/-- A reader holds the characters of the field that it is in, the fields before it in its record, and the
records before this one. -/
structure Reader where
  spot : Spot
  field : Text
  fields : List Text
  records : List (List Text)
  deriving DecidableEq, Repr

/-- A record ends at a line feed or a carriage return. -/
def endsRecord (char : Char) : Bool :=
  char == '\n' || char == '\r'

namespace Reader

def start : Reader :=
  ⟨.recordStart, [], [], []⟩

def take (reader : Reader) (spot : Spot) (char : Char) : Reader :=
  { reader with spot, field := reader.field ++ [char] }

def endField (reader : Reader) : Reader :=
  ⟨.fieldStart, [], reader.fields ++ [reader.field], reader.records⟩

def endRecord (reader : Reader) : Reader :=
  ⟨.recordStart, [], [], reader.records ++ [reader.fields ++ [reader.field]]⟩

/-- Reads a character that does not stand between quotes. -/
def readPlain (reader : Reader) (char : Char) : Reader :=
  if char = ',' then reader.endField
  else if endsRecord char then reader.endRecord
  else reader.take .plain char

/-- Reads a character. A field may start with a quote; then it reaches to a quote that is not doubled. An
empty line holds no record, so a carriage return and a line feed end one record together. -/
def read (reader : Reader) (char : Char) : Reader :=
  match reader.spot with
  | .recordStart =>
    if endsRecord char then reader
    else if char = '"' then { reader with spot := .quoted }
    else reader.readPlain char
  | .fieldStart => if char = '"' then { reader with spot := .quoted } else reader.readPlain char
  | .plain => reader.readPlain char
  | .quoted => if char = '"' then { reader with spot := .afterQuote } else reader.take .quoted char
  | .afterQuote => if char = '"' then reader.take .quoted char else reader.readPlain char

/-- The records at the end of a text, which also ends a record that has begun. -/
def finish (reader : Reader) : List (List Text) :=
  if reader.spot = .recordStart then reader.records else reader.endRecord.records

end Reader

/-- The records of a text. -/
def readRecords (text : Text) : List (List Text) :=
  (text.foldl Reader.read .start).finish

/-- Records in sequence; a record with more or fewer fields than the first one is refused. -/
def writeRecords? : List (List Text) → Option Text
  | [] => some []
  | first :: records =>
    if records.all (·.length = first.length) then some ((first :: records).flatMap writeRecord)
    else none

section Field

variable (fields : List Text) (records : List (List Text))

/-- Between quotes a reader takes doubled quotes as single ones and everything else as it is. -/
theorem foldl_read_doubled (before field : Text) :
    (field.flatMap fun char => if char = '"' then ['"', '"'] else [char]).foldl Reader.read
        ⟨.quoted, before, fields, records⟩ =
      ⟨.quoted, before ++ field, fields, records⟩ := by
  induction field generalizing before with
  | nil => simp
  | cons char field inductionHypothesis =>
      rw [List.flatMap_cons, List.foldl_append]
      have first : (if char = '"' then ['"', '"'] else [char]).foldl Reader.read
          ⟨.quoted, before, fields, records⟩ = ⟨.quoted, before ++ [char], fields, records⟩ := by
        by_cases quote : char = '"'
        · simp [quote, Reader.read, Reader.take]
        · simp [quote, Reader.read, Reader.take]
      rw [first, inductionHypothesis, List.append_assoc, List.singleton_append]

theorem foldl_read_quoted (field : Text) :
    (quoted field).foldl Reader.read ⟨.fieldStart, [], fields, records⟩ =
      ⟨.afterQuote, field, fields, records⟩ := by
  have opened : Reader.read ⟨.fieldStart, [], fields, records⟩ '"' =
      ⟨.quoted, [], fields, records⟩ := rfl
  rw [quoted, List.cons_append, List.foldl_cons, opened, List.foldl_append, foldl_read_doubled]
  rfl

/-- A reader that is not between quotes takes a character that needs no quotes as it is. -/
theorem read_of_not_needsQuotes {spot : Spot} (outside : spot = .fieldStart ∨ spot = .plain)
    (before : Text) {char : Char} (harmless : needsQuotes [char] = false) :
    Reader.read ⟨spot, before, fields, records⟩ char =
      ⟨.plain, before ++ [char], fields, records⟩ := by
  simp only [needsQuotes, List.any_cons, List.any_nil, Bool.or_false, Bool.or_eq_false_iff,
    beq_eq_false_iff_ne] at harmless
  rcases outside with rfl | rfl <;>
    simp [Reader.read, Reader.readPlain, Reader.take, endsRecord, harmless]

/-- A field that needs no quotes is read as it is. -/
theorem foldl_read_of_not_needsQuotes {spot : Spot} (outside : spot = .fieldStart ∨ spot = .plain)
    (before : Text) {field : Text} (harmless : needsQuotes field = false) :
    ∃ behind, (behind = .fieldStart ∨ behind = .plain) ∧
      field.foldl Reader.read ⟨spot, before, fields, records⟩ =
        ⟨behind, before ++ field, fields, records⟩ := by
  induction field generalizing spot before with
  | nil => exact ⟨spot, outside, by simp⟩
  | cons char field inductionHypothesis =>
      rw [needsQuotes, List.any_cons, Bool.or_eq_false_iff] at harmless
      have first : needsQuotes [char] = false := by simpa [needsQuotes] using harmless.1
      obtain ⟨behind, still, rest⟩ :=
        inductionHypothesis (Or.inr rfl) (before ++ [char]) harmless.2
      refine ⟨behind, still, ?_⟩
      rw [List.foldl_cons, read_of_not_needsQuotes fields records outside before first, rest,
        List.append_assoc, List.singleton_append]

/-- A reader that has read a written field holds the field, at a spot where the field can end. -/
theorem foldl_read_writeField (field : Text) :
    ∃ behind, behind ≠ .recordStart ∧ behind ≠ .quoted ∧
      (writeField field).foldl Reader.read ⟨.fieldStart, [], fields, records⟩ =
        ⟨behind, field, fields, records⟩ := by
  cases needed : needsQuotes field with
  | true =>
      refine ⟨.afterQuote, by decide, by decide, ?_⟩
      rw [writeField, if_pos needed, foldl_read_quoted]
  | false =>
      obtain ⟨behind, still, rest⟩ :=
        foldl_read_of_not_needsQuotes fields records (Or.inl rfl) [] needed
      rw [writeField, if_neg (by simp [needed])]
      rcases still with rfl | rfl
      · exact ⟨.fieldStart, by decide, by decide, rest⟩
      · exact ⟨.plain, by decide, by decide, rest⟩

theorem read_comma {spot : Spot} (outside : spot ≠ .quoted) (field : Text) :
    Reader.read ⟨spot, field, fields, records⟩ ',' =
      ⟨.fieldStart, [], fields ++ [field], records⟩ := by
  cases spot with
  | quoted => contradiction
  | recordStart | fieldStart | plain | afterQuote => rfl

/-- A line feed ends a record outside quotes. -/
theorem read_lineEnd {spot : Spot} (begun : spot ≠ .recordStart) (outside : spot ≠ .quoted)
    (field : Text) :
    Reader.read ⟨spot, field, fields, records⟩ '\n' =
      ⟨.recordStart, [], [], records ++ [fields ++ [field]]⟩ := by
  cases spot with
  | recordStart | quoted => contradiction
  | fieldStart | plain | afterQuote => rfl

end Field

section Record

variable (records : List (List Text))

theorem writeRecord_singleton (field : Text) : writeRecord [field] = writeField field ++ ['\n'] := by
  simp [writeRecord, Text.join]

theorem writeRecord_cons_cons (field second : Text) (rest : List Text) :
    writeRecord (field :: second :: rest) = writeField field ++ ',' :: writeRecord (second :: rest) := by
  simp [writeRecord, Text.join_cons_cons]

/-- The fields of a written record follow those that have been read of it. -/
theorem foldl_read_fields (fields : List Text) {record : List Text} (nonempty : record ≠ []) :
    (writeRecord record).foldl Reader.read ⟨.fieldStart, [], fields, records⟩ =
      ⟨.recordStart, [], [], records ++ [fields ++ record]⟩ := by
  induction record generalizing fields with
  | nil => contradiction
  | cons field rest inductionHypothesis =>
      obtain ⟨behind, begun, outside, held⟩ := foldl_read_writeField fields records field
      cases rest with
      | nil =>
          rw [writeRecord_singleton, List.foldl_append, held, List.foldl_cons, List.foldl_nil,
            read_lineEnd fields records begun outside]
      | cons second rest =>
          rw [writeRecord_cons_cons, List.foldl_append, held, List.foldl_cons,
            read_comma fields records outside, inductionHypothesis _ (List.cons_ne_nil _ _),
            List.append_assoc, List.singleton_append]

/-- A record of several fields does not look like an empty line. -/
theorem exists_first_of_writeRecord {record : List Text} (several : 1 < record.length) :
    ∃ char rest, writeRecord record = char :: rest ∧ endsRecord char = false := by
  match record, several with
  | field :: second :: fields, _ =>
      rw [writeRecord_cons_cons]
      cases needed : needsQuotes field with
      | true =>
          rw [writeField, if_pos needed, quoted]
          exact ⟨'"', _, rfl, rfl⟩
      | false =>
          rw [writeField, if_neg (by simp [needed])]
          cases field with
          | nil => exact ⟨',', _, rfl, rfl⟩
          | cons char field =>
              refine ⟨char, _, rfl, ?_⟩
              simp only [needsQuotes, List.any_cons, Bool.or_eq_false_iff] at needed
              simp [endsRecord, needed]

/-- A reader before a record reads the record and is before the next one. -/
theorem foldl_read_record {record : List Text} (several : 1 < record.length) :
    (writeRecord record).foldl Reader.read ⟨.recordStart, [], [], records⟩ =
      ⟨.recordStart, [], [], records ++ [record]⟩ := by
  obtain ⟨char, rest, split, begun⟩ := exists_first_of_writeRecord several
  have whole := foldl_read_fields records [] (List.ne_nil_of_length_pos (Nat.lt_of_succ_lt several))
  have same : Reader.read ⟨.recordStart, [], [], records⟩ char =
      Reader.read ⟨.fieldStart, [], [], records⟩ char := by
    simp [Reader.read, begun, Reader.readPlain, Reader.endField, Reader.take]
  rw [split, List.foldl_cons] at whole ⊢
  rw [same, whole, List.nil_append]

/-- Records of several fields that are written one after another are read back. -/
theorem readRecords_flatMap_writeRecord {records : List (List Text)}
    (several : ∀ record ∈ records, 1 < record.length) :
    readRecords (records.flatMap writeRecord) = records := by
  have read (before : List (List Text)) :
      (records.flatMap writeRecord).foldl Reader.read ⟨.recordStart, [], [], before⟩ =
        ⟨.recordStart, [], [], before ++ records⟩ := by
    induction records generalizing before with
    | nil => simp
    | cons record records inductionHypothesis =>
        rw [List.flatMap_cons, List.foldl_append,
          foldl_read_record before (several record List.mem_cons_self),
          inductionHypothesis fun other member => several other (List.mem_cons_of_mem record member),
          List.append_assoc, List.singleton_append]
  rw [readRecords, Reader.start, read []]
  rfl

/-- Records may end with a line feed, a carriage return or both, and the last one without any. -/
example : readRecords "a,\"b\"\"c\"\r\n\"d\n,\",\re,f".toList =
    [[['a'], ['b', '"', 'c']], [['d', '\n', ','], []], [['e'], ['f']]] := by decide

end Record

section Report

def readNote (text filename line : Text) : Option ReportNote :=
  (Text.readDecimal? line).map fun number => ⟨text, ⟨filename, number⟩⟩

def readBranch (filename line name leafDefinition valueVariable : Text) : Option ReportBranch :=
  (Text.readDecimal? line).map fun number =>
    ⟨⟨filename, number⟩, name, leafDefinition, valueVariable⟩

/-- Reads a report row from the sixteen fields of a record. -/
def readRow? : List Text → Option ReportRow
  | [treeFile, treeLine, treeName, treeTitle, treeVariable, branchFile, branchLine, branchName,
      leafDefinition, valueVariable, comment, commentFile, commentLine, assignment, assignmentFile,
      assignmentLine] =>
    (Text.readDecimal? treeLine).map fun line =>
      { treeLocation := ⟨treeFile, line⟩
        treeName, treeTitle, treeVariable
        branch := readBranch branchFile branchLine branchName leafDefinition valueVariable
        comment := readNote comment commentFile commentLine
        assignment := readNote assignment assignmentFile assignmentLine }
  | _ => none

/-- The fields of a note give the note back. -/
theorem exists_noteFields (note : Option ReportNote) :
    ∃ text filename line, noteFields note = [text, filename, line] ∧
      readNote text filename line = note := by
  cases note with
  | none => exact ⟨[], [], [], rfl, rfl⟩
  | some note => exact ⟨_, _, _, rfl, by rw [readNote, Text.readDecimal?_decimal]; rfl⟩

/-- The fields of a branch give the branch back. -/
theorem exists_branchFields (branch : Option ReportBranch) :
    ∃ filename line name leafDefinition valueVariable,
      branchFields branch = [filename, line, name, leafDefinition, valueVariable] ∧
      readBranch filename line name leafDefinition valueVariable = branch := by
  cases branch with
  | none => exact ⟨[], [], [], [], [], rfl, rfl⟩
  | some branch => exact ⟨_, _, _, _, _, rfl, by rw [readBranch, Text.readDecimal?_decimal]; rfl⟩

/-- The fields of a report row make up the row again. What is absent has no line number, and what is present
has one, whatever its texts are. -/
theorem readRow?_fields (row : ReportRow) : readRow? (fields row) = some row := by
  obtain ⟨_, _, _, _, _, branchFields, branchRead⟩ := exists_branchFields row.branch
  obtain ⟨_, _, _, commentFields, commentRead⟩ := exists_noteFields row.comment
  obtain ⟨_, _, _, assignmentFields, assignmentRead⟩ := exists_noteFields row.assignment
  rw [fields, branchFields, commentFields, assignmentFields]
  simp only [List.cons_append, List.nil_append, readRow?, Text.readDecimal?_decimal, Option.map_some,
    branchRead, commentRead, assignmentRead]

/-- The records of a document are its header and then the fields of each row. -/
theorem readRecords_document (rows : List ReportRow) :
    readRecords (document rows) = header :: rows.map fields := by
  have whole : document rows = (header :: rows.map fields).flatMap writeRecord := by
    rw [document, List.flatMap_cons, List.flatMap_map]
  rw [whole]
  apply readRecords_flatMap_writeRecord
  intro record member
  rcases List.mem_cons.mp member with rfl | data
  · decide
  · obtain ⟨row, -, rfl⟩ := List.mem_map.mp data
    rw [fields_length]
    decide

/-- All records of a document have as many fields as its header. -/
theorem writeRecords?_document (rows : List ReportRow) :
    writeRecords? (header :: rows.map fields) = some (document rows) := by
  have equal : (rows.map fields).all (·.length = header.length) = true := by
    simp [fields_length]
  rw [writeRecords?, if_pos equal, document, List.flatMap_cons, List.flatMap_map]

/-- The rows are read back behind the header. -/
theorem readRows_document (rows : List ReportRow) :
    (readRecords (document rows)).tail.map readRow? = rows.map some := by
  rw [readRecords_document, List.tail_cons, List.map_map]
  exact List.map_congr_left fun row _ => readRow?_fields row

/-- Different reports have different documents. -/
theorem document_injective : Function.Injective document := by
  intro rows others same
  have read := congrArg (fun text => (readRecords text).tail.map readRow?) same
  simp only [readRows_document] at read
  exact List.map_injective_iff.mpr (Option.some_injective _) read

end Report

end BranchCatalog.Csv
