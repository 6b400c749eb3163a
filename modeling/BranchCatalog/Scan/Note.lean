import BranchCatalog.Event
import BranchCatalog.Scan.Token
import BranchCatalog.Text.Utf8

namespace BranchCatalog.Scan

/-- What follows each occurrence of the wanted text, from the leftmost occurrence on. -/
def afterOccurrences (wanted : Text) : Text → List Text
  | [] => (Text.dropStart? wanted []).toList
  | char :: rest => (Text.dropStart? wanted (char :: rest)).toList ++ afterOccurrences wanted rest

/-- Holds when a comment starts somewhere in the text. -/
def hasCommentMark (text : Text) : Bool :=
  Text.occursIn ['/', '/'] text || Text.occursIn ['/', '*'] text

/-- Holds when the first equals sign of the text is followed by another character than an equals
sign. -/
def assignsNext (text : Text) : Bool :=
  match text.dropWhile (· != '=') with
  | _ :: next :: _ => next != '='
  | _ => false

/-- A line is a note of a kind on a variable when the variable occurs on it with a comment mark, or
with an assignment, somewhere behind. -/
def isNoteOn (kind : NoteKind) (variableName : Text) (line : Text) : Bool :=
  (afterOccurrences variableName line).any fun rest =>
    match kind with
    | .comment => hasCommentMark rest
    | .assignment => assignsNext rest

/-- The bytes of memory that the larger one of the two patterns for the notes on a variable takes: 32 for each
state of its automaton, which has one state for each byte of the variable and 66 more. -/
def patternSize (variableName : Text) : Nat :=
  32 * ((Text.encodeUtf8 variableName).length + 66) + 104

/-- Patterns that take more than ten megabytes are refused. -/
def hasPatterns (variableName : Text) : Bool :=
  patternSize variableName ≤ 10 * 1024 * 1024

/-- The branches of a file that are filled from a variable, as pairs of a tree and a branch name in
the order of their first declaration, each once. -/
def branchesFilledFrom (branches : List BranchFinding) (variableName : Text) :
    List (Text × Text) :=
  ((branches.filter (·.valueVariable = variableName)).map fun branch =>
    (branch.treeName, branch.name)).eraseDups

/-- The notes on a trimmed line: for each token that is a value variable and each branch filled from
it, a comment and then an assignment, as far as the line is one. -/
def lineNotes (branches : List BranchFinding) (line : Text) : List (NoteKind × NoteFinding) :=
  if line.head? = some '#' then []
  else
    (lineTokens line).flatMap fun variableName =>
      (branchesFilledFrom branches variableName).flatMap fun branch =>
        ([NoteKind.comment, NoteKind.assignment].filter
          fun kind => isNoteOn kind variableName line).map fun kind =>
            (kind, ⟨branch.1, branch.2, variableName, line⟩)

end BranchCatalog.Scan
