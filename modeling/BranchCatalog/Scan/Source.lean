/-
This file scans a whole source: first its tree declarations, then its branches, then the notes on
the branches' value variables, so that each event comes after the one that it refers to. At its end
stand the scanners for sources of any kind.
-/

import BranchCatalog.Fault
import BranchCatalog.Path
import BranchCatalog.Scan.BranchCall
import BranchCatalog.Scan.Declaration
import BranchCatalog.Scan.Note

namespace BranchCatalog.Scan

/-- The trees that the lines create, with the number of each line. -/
def declaredTrees (lines : List (Text × Nat)) : List (TreeFinding × Nat) :=
  lines.filterMap fun (line, number) => (declaredTree? line).map fun tree => (tree, number)

/-- The names of the trees held in variables, latest first. -/
abbrev TreeNames : Type := List (Text × Text)

/-- A tree that a file uses without declaring it; it has no title and is known by its variable. -/
def undeclaredTree (variableName : Text) : TreeFinding :=
  { name := variableName, title := [], variableName := variableName }

/-- The events of the branch calls on the lines. A call on a variable that holds no known tree adds
such a tree just before its branch. -/
def branchEvents (filename : Text) : TreeNames → List (Text × Nat) → Except Fault (List Event)
  | _, [] => .ok []
  | names, (line, number) :: lines =>
    match branchCall? line with
    | none => branchEvents filename names lines
    | some call =>
      match call.arguments? with
      | none => .error (.unrecognizedBranch ⟨filename, number⟩ (Text.trim line))
      | some arguments =>
        let branchOf (treeName : Text) : Event :=
          .branch ⟨filename, number⟩
            { treeName, name := call.name, leafDefinition := arguments.leafDefinition,
              valueVariable := arguments.valueVariable }
        match names.lookup call.treeVariable with
        | some treeName => (branchEvents filename names lines).map fun events =>
            branchOf treeName :: events
        | none =>
          (branchEvents filename ((call.treeVariable, call.treeVariable) :: names) lines).map
            fun events =>
              .tree ⟨filename, number⟩ (undeclaredTree call.treeVariable) ::
                branchOf call.treeVariable :: events

def branchOf? : Event → Option BranchFinding
  | .branch _ finding => some finding
  | _ => none

/-- Builds the patterns for the notes on the variables that fill branches, in the order of the branches. -/
def buildPatterns (branches : List BranchFinding) : Except Fault Unit :=
  match branches.find? fun branch => !hasPatterns branch.valueVariable with
  | some branch => .error (.patternTooBig branch.valueVariable)
  | none => .ok ()

/-- The events of the notes on the lines. -/
def noteEvents (filename : Text) (branches : List BranchFinding) (lines : List (Text × Nat)) :
    List Event :=
  lines.flatMap fun (line, number) =>
    (lineNotes branches (Text.trim line)).map fun (kind, finding) =>
      .note kind ⟨filename, number⟩ finding

/-- The events of a source in the order in which they can be stored. -/
def scanSource (filename content : Text) : Except Fault (List Event) := do
  let lines := Text.numberedLines content
  let trees := declaredTrees lines
  let names : TreeNames := (trees.map fun (tree, _) => (tree.variableName, tree.name)).reverse
  let branches ← branchEvents filename names lines
  let found := branches.filterMap branchOf?
  buildPatterns found
  let declarations := trees.map fun (tree, number) => Event.tree ⟨filename, number⟩ tree
  let notes := noteEvents filename found lines
  return .file filename :: declarations ++ branches ++ notes

end BranchCatalog.Scan

namespace BranchCatalog

/-- A scanner tells which paths it accepts and turns the content of a file, known under a recorded
name, into events. -/
structure Scanner where
  name : Text
  accepts : Path → Bool
  scan : Text → Text → Except Fault (List Event)

/-- The extensions of the sources in which trees are expected. -/
def defaultExtensions : List Text :=
  [['c', 'c'], ['c', 'x', 'x'], ['c', 'p', 'p'], ['c'], ['h'], ['h', 'h'], ['h', 'p', 'p'],
    ['h', 'x', 'x'], ['C']]

/-- The scanner for trees and branches accepts the paths with one of the extensions. -/
def treeScanner (extensions : List Text) : Scanner where
  name := "ttree".toList
  accepts path := (Path.extension? path).any extensions.contains
  scan := Scan.scanSource

/-- The registered scanners, the first to be asked first. -/
abbrev Registry : Type := List Scanner

/-- The first scanner that accepts a path. -/
def Registry.find? (registry : Registry) (path : Path) : Option Scanner :=
  List.find? (fun scanner => scanner.accepts path) registry

end BranchCatalog
