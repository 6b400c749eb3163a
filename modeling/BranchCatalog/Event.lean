import BranchCatalog.Text.Basic

namespace BranchCatalog

/-- A line of a file, counted from one. -/
structure Location where
  filename : Text
  line : Nat
  deriving DecidableEq, Repr

/-- A location is written as the file name, a colon and the line. -/
def Location.written (location : Location) : Text :=
  location.filename ++ ':' :: Text.decimal location.line

/-- A note on a branch's value is a comment on it or an assignment to it. -/
inductive NoteKind where
  | comment
  | assignment
  deriving DecidableEq, Repr

/-- A tree that is created under a name and held in a variable. -/
structure TreeFinding where
  name : Text
  title : Text
  variableName : Text
  deriving DecidableEq, Repr

/-- A branch of a named tree, its leaf definition and the variable that it is filled from. -/
structure BranchFinding where
  treeName : Text
  name : Text
  leafDefinition : Text
  valueVariable : Text
  deriving DecidableEq, Repr

/-- A line that mentions the value variable of a branch. -/
structure NoteFinding where
  treeName : Text
  branchName : Text
  valueVariable : Text
  text : Text
  deriving DecidableEq, Repr

/-- One occurrence in a source file; it names the tree and branch that it belongs to. -/
inductive Event where
  | file (filename : Text)
  | tree (location : Location) (finding : TreeFinding)
  | branch (location : Location) (finding : BranchFinding)
  | note (kind : NoteKind) (location : Location) (finding : NoteFinding)
  deriving DecidableEq, Repr

namespace Event

def filename : Event → Text
  | file filename => filename
  | tree location _ | branch location _ | note _ location _ => location.filename

/-- The line of an occurrence; the file as a whole has none. -/
def line? : Event → Option Nat
  | file _ => none
  | tree location _ | branch location _ | note _ location _ => some location.line

def kindName : Event → Text
  | file _ => "file".toList
  | tree .. => "tree".toList
  | branch .. => "branch".toList
  | note .comment .. => "comment".toList
  | note .assignment .. => "assignment".toList

end Event

end BranchCatalog
