import BranchCatalog.Report.LinkTemplate
import BranchCatalog.Report.Row

namespace BranchCatalog.Html

/-- Escapes the characters that would end or open markup inside an element. -/
def escapeChar (char : Char) : Text :=
  if char = '&' then "&amp;".toList
  else if char = '<' then "&lt;".toList
  else if char = '>' then "&gt;".toList
  else [char]

def escape (text : Text) : Text :=
  text.flatMap escapeChar

/-- An attribute in double quotes escapes these as well. -/
def escapeAttributeChar (char : Char) : Text :=
  if char = '"' then "&quot;".toList else escapeChar char

def escapeAttribute (text : Text) : Text :=
  text.flatMap escapeAttributeChar

/-- The anchor for a location; a location without a file name has none. -/
def sourceLink (template : LinkTemplate) (location : Location) : Text :=
  if location.filename.isEmpty then []
  else
    "<a href=\"".toList ++ escapeAttribute (template.render location) ++ "\">".toList ++
      escape location.written ++ "</a>".toList

/-- The cell of a note is its link and its text; without a note it is empty. -/
def noteCell (template : LinkTemplate) : Option ReportNote → Text
  | some note => sourceLink template note.location ++ ' ' :: escape note.text
  | none => []

def branchCells (template : LinkTemplate) : Option ReportBranch → List Text
  | some branch =>
    [sourceLink template branch.location, escape branch.name, escape branch.leafDefinition,
      escape branch.valueVariable]
  | none => List.replicate 4 []

def cells (template : LinkTemplate) (row : ReportRow) : List Text :=
  [sourceLink template row.treeLocation, escape row.treeName, escape row.treeTitle,
    escape row.treeVariable] ++
    branchCells template row.branch ++ [noteCell template row.comment,
      noteCell template row.assignment]

def header : List Text := [
  "Tree Location".toList, "Tree Name".toList, "Tree Title".toList, "Tree Variable".toList,
  "Branch Location".toList, "Branch Name".toList, "Leaf Def.".toList,
  "Branch Value Variable".toList, "Source File Comment".toList, "Source File Assignment".toList]

/-- What stands before the table's rows. -/
def opening : Text :=
  "<style>\ntable, th, td \x7b\n  border-collapse: collapse;\n  white-space: pre-line;\n".toList ++
    "  border: 1px solid;\n\x7d\n</style>\n<table>\n".toList

def closing : Text :=
  "</table>\n".toList

def headerRow : Text :=
  "<tr><th>".toList ++ Text.join "</th>\n<th>".toList header ++ "</th></tr>\n".toList

def dataRow (cells : List Text) : Text :=
  "<tr><td>".toList ++ Text.join "</td>\n<td>".toList cells ++ "</td></tr>\n".toList

/-- The style, the header row, a row for each report row and the end of the table. -/
def document (template : LinkTemplate) (rows : List ReportRow) : Text :=
  opening ++ headerRow ++ (rows.flatMap fun row => dataRow (cells template row)) ++ closing

/-- Each row has as many cells as the header. -/
theorem cells_length (template : LinkTemplate) (row : ReportRow) :
    (cells template row).length = header.length := by
  obtain ⟨_, _, _, _, branch, _, _⟩ := row
  cases branch <;> rfl

end BranchCatalog.Html
