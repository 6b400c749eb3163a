import BranchCatalog.Report.Row

namespace BranchCatalog.Csv

def header : List Text := [
  "tree_file".toList, "tree_line".toList, "tree_name".toList, "tree_title".toList,
  "tree_variable".toList, "branch_file".toList, "branch_line".toList, "branch_name".toList,
  "leaf_def".toList, "branch_value_variable".toList, "comment_text".toList,
  "comment_file".toList, "comment_line".toList, "assign_text".toList, "assign_file".toList,
  "assign_line".toList]

/-- A field needs quotes when it holds a comma, a quote or a line end. -/
def needsQuotes (field : Text) : Bool :=
  field.any fun char => char == ',' || char == '"' || char == '\r' || char == '\n'

/-- A quoted field stands between quotes, and its own quotes are doubled. -/
def quoted (field : Text) : Text :=
  '"' :: (field.flatMap fun char => if char = '"' then ['"', '"'] else [char]) ++ ['"']

def writeField (field : Text) : Text :=
  if needsQuotes field then quoted field else field

/-- A record is its fields with commas between them and a line feed at the end. -/
def writeRecord (fields : List Text) : Text :=
  Text.join [','] (fields.map writeField) ++ ['\n']

/-- The fields of a note, which are empty when there is none. -/
def noteFields : Option ReportNote → List Text
  | some note => [note.text, note.location.filename, Text.decimal note.location.line]
  | none => List.replicate 3 []

def branchFields : Option ReportBranch → List Text
  | some branch =>
    [branch.location.filename, Text.decimal branch.location.line, branch.name,
      branch.leafDefinition, branch.valueVariable]
  | none => List.replicate 5 []

def fields (row : ReportRow) : List Text :=
  [row.treeLocation.filename, Text.decimal row.treeLocation.line, row.treeName, row.treeTitle,
    row.treeVariable] ++
    branchFields row.branch ++ noteFields row.comment ++ noteFields row.assignment

/-- The header and then a record for each row. -/
def document (rows : List ReportRow) : Text :=
  writeRecord header ++ rows.flatMap fun row => writeRecord (fields row)

/-- Each row has as many fields as the header. -/
theorem fields_length (row : ReportRow) : (fields row).length = header.length := by
  obtain ⟨_, _, _, _, branch, comment, assignment⟩ := row
  cases branch <;> cases comment <;> cases assignment <;> rfl

end BranchCatalog.Csv
