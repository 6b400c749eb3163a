/-
This file turns the tables into the content of a file and reads them back from it. Each value is
written as its length, a colon, its characters and a comma.
-/

import BranchCatalog.Store.Tables
import BranchCatalog.Text.Utf8

namespace BranchCatalog.Archive

/-- The first line of every archive. -/
def heading : Text :=
  "branch catalog 1\n".toList

def writeValue (value : Text) : Text :=
  Text.decimal value.length ++ ':' :: value ++ [',']

/-- The text of a reference, which is empty when the reference is missing. -/
def referenceText (reference : Option Id) : Text :=
  (reference.map Text.signed).getD []

def treeValues (row : TreeRow) : List Text :=
  [row.name, row.title, row.variableName, referenceText row.file, Text.signed row.line]

def branchValues (row : BranchRow) : List Text :=
  [referenceText row.tree, row.name, row.leafDefinition, row.valueVariable,
    referenceText row.file, Text.signed row.line]

def noteValues (row : NoteRow) : List Text :=
  [row.text, referenceText row.branch, referenceText row.file, Text.signed row.line]

/-- The values of a table: its last id, its size, and then the id and the values of each row. -/
def tableValues {Row : Type} (rowValues : Row → List Text) (table : Table Row) : List Text :=
  Text.signed table.lastId :: Text.decimal table.size ::
    table.rows.flatMap fun stored => Text.signed stored.id :: rowValues stored.row

/-- The content of the file that holds the tables. -/
def write (tables : Tables) : List UInt8 :=
  let values := tableValues (fun filename => [filename]) tables.files ++
    tableValues treeValues tables.trees ++ tableValues branchValues tables.branches ++
    tableValues noteValues tables.comments ++ tableValues noteValues tables.assignments
  Text.encodeUtf8 (heading ++ values.flatMap writeValue)

/-- Reads a value and gives the text after it. -/
def readValue? (text : Text) : Option (Text × Text) := do
  let digits := text.takeWhile Char.isDigit
  let length ← Text.readDecimal? digits
  match text.drop digits.length with
  | ':' :: rest =>
    match rest.drop length with
    | ',' :: after => if length ≤ rest.length then some (rest.take length, after) else none
    | _ => none
  | _ => none

/-- Reads values up to the end of the text; the fuel bounds their number. -/
def readValues? : Nat → Text → Option (List Text)
  | _, [] => some []
  | 0, _ :: _ => none
  | fuel + 1, text => do
    let (value, rest) ← readValue? text
    let values ← readValues? fuel rest
    return value :: values

def readReference? (text : Text) : Option (Option Id) :=
  if text.isEmpty then some none else (Text.readSigned? text).map some

/-- Reads the values of a row and gives those after them. -/
abbrev RowReader (Row : Type) : Type := List Text → Option (Row × List Text)

def readFileRow : RowReader Text
  | filename :: values => some (filename, values)
  | _ => none

def readTreeRow : RowReader TreeRow
  | name :: title :: variableName :: file :: line :: values => do
    return (⟨name, title, variableName, ← readReference? file, ← Text.readSigned? line⟩, values)
  | _ => none

def readBranchRow : RowReader BranchRow
  | tree :: name :: leafDefinition :: valueVariable :: file :: line :: values => do
    return (⟨← readReference? tree, name, leafDefinition, valueVariable, ← readReference? file,
      ← Text.readSigned? line⟩, values)
  | _ => none

def readNoteRow : RowReader NoteRow
  | text :: branch :: file :: line :: values => do
    return (⟨text, ← readReference? branch, ← readReference? file, ← Text.readSigned? line⟩, values)
  | _ => none

/-- Reads a number of rows with their ids. -/
def readStored? {Row : Type} (readRow : RowReader Row) :
    Nat → List Text → Option (List (Stored Row) × List Text)
  | 0, values => some ([], values)
  | count + 1, id :: values => do
    let id ← Text.readSigned? id
    let (row, values) ← readRow values
    let (rows, values) ← readStored? readRow count values
    return (⟨id, row⟩ :: rows, values)
  | _ + 1, [] => none

def readTable? {Row : Type} (readRow : RowReader Row) : RowReader (Table Row)
  | lastId :: size :: values => do
    let lastId ← Text.readSigned? lastId
    let size ← Text.readDecimal? size
    let (rows, values) ← readStored? readRow size values
    return (⟨rows, lastId⟩, values)
  | _ => none

/-- The tables that the content of a file holds. An empty file holds empty tables. -/
def read? (content : List UInt8) : Option Tables :=
  if content.isEmpty then some .empty
  else do
    let text ← Text.decodeUtf8? content
    let text ← Text.dropStart? heading text
    let values ← readValues? text.length text
    let (files, values) ← readTable? readFileRow values
    let (trees, values) ← readTable? readTreeRow values
    let (branches, values) ← readTable? readBranchRow values
    let (comments, values) ← readTable? readNoteRow values
    let (assignments, values) ← readTable? readNoteRow values
    if values.isEmpty then some ⟨files, trees, branches, comments, assignments⟩ else none

/-- Holds when a content starts like an archive. -/
def isArchive (content : List UInt8) : Bool :=
  (Text.encodeUtf8 heading).isPrefixOf content

end BranchCatalog.Archive
