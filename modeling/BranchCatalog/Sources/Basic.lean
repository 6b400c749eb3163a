import BranchCatalog.Disk.Basic
import BranchCatalog.Text.Utf8

namespace BranchCatalog

/-- A file to scan: the path that it is read from and the name that is recorded for it. -/
structure Source where
  path : Path
  filename : Text
  deriving DecidableEq, Repr

namespace Source

/-- A source that is recorded under its path. -/
def ofPath (path : Path) : Source :=
  ⟨path, path.shown⟩

/-- The content of a source; what is not UTF-8 in it is replaced. -/
def read (disk : Disk) (source : Source) : Except Fault Text :=
  match disk.read source.path with
  | .ok content => .ok (Text.decodeLossy content)
  | .error cause => .error (.unreadable source.path cause)

/-- A line of a list is a path unless it is blank or starts with a number sign. -/
def listed? (line : Text) : Option Source :=
  let path := Text.trim line
  if path.isEmpty ∨ path.head? = some '#' then none else some (ofPath path)

end Source

/-- Reads a list of sources, which has one path on each line. -/
def readSourceList (disk : Disk) (list : Path) : Except Fault (List Source) :=
  match disk.read list with
  | .error cause => .error (.unreadable list cause)
  | .ok content =>
    match Text.decodeUtf8? content with
    | none => .error (.unreadable list .notText)
    | some text => .ok ((Text.lines text).filterMap Source.listed?)

end BranchCatalog
