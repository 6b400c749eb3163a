import BranchCatalog.Disk.Write
import BranchCatalog.Report.Csv
import BranchCatalog.Report.Html
import BranchCatalog.Store.Integrity
import BranchCatalog.Text.Utf8

namespace BranchCatalog

/-- Writes a document on the report rows to a file and counts the rows. The file is made empty before
the rows are read, and stays so when they cannot be read. -/
def exportRows (disk : Disk) (path : Path) (tables : Tables)
    (document : List ReportRow → Text) : Except Fault Nat × Disk :=
  match disk.write path [] with
  | .error cause => (.error (.unwritable path cause), disk)
  | .ok emptied =>
    match tables.reportRows with
    | .error cause => (.error (.storage cause), emptied)
    | .ok rows =>
      match emptied.write path (Text.encodeUtf8 (document rows)) with
      | .error cause => (.error (.unwritable path cause), emptied)
      | .ok written => (.ok rows.length, written)

def exportCsv (disk : Disk) (path : Path) (tables : Tables) : Except Fault Nat × Disk :=
  exportRows disk path tables Csv.document

def exportHtml (disk : Disk) (path : Path) (tables : Tables) (template : LinkTemplate) :
    Except Fault Nat × Disk :=
  exportRows disk path tables (Html.document template)

namespace Statistics

/-- The counts with their keys in the document. -/
def members (counts : Tables.Counts) : List (Text × Nat) :=
  [("source_files".toList, counts.sourceFiles), ("trees".toList, counts.trees),
    ("branches".toList, counts.branches), ("comments".toList, counts.comments),
    ("assigns".toList, counts.assignments), ("orphans".toList, counts.orphans)]

def memberLine (key : Text) (count : Nat) : Text :=
  "  \"".toList ++ key ++ "\": ".toList ++ Text.decimal count

/-- The document, without a line feed at its end. -/
def document (counts : Tables.Counts) : Text :=
  "\x7b\n".toList ++
    Text.join ",\n".toList ((members counts).map fun (key, count) => memberLine key count) ++
    "\n\x7d".toList

end Statistics

end BranchCatalog
