import BranchCatalog.Ignore.GlobText
import BranchCatalog.Path

namespace BranchCatalog

/-- What rules say about a path: nothing, that it is ignored, or that it is kept. -/
inductive Verdict where
  | undecided
  | ignored
  | kept
  deriving DecidableEq, Repr

/-- The first verdict that decides. -/
def Verdict.orElse (first second : Verdict) : Verdict :=
  match first with
  | undecided => second
  | decided => decided

def Verdict.firstOf (verdicts : List Verdict) : Verdict :=
  verdicts.foldr orElse undecided

/-- A rule ignores or keeps the paths that its glob accepts, or only the directories among them. -/
structure IgnoreRule where
  glob : Glob
  keeps : Bool
  onlyDirectories : Bool

namespace IgnoreRule

/-- Blanks at the end of a line say nothing, unless the last of them is an escaped space. -/
def trimLine (line : Text) : Text :=
  if [' ', '\\'].isPrefixOf line.reverse then line else Text.trimEnd line

/-- A slash at the end says that only directories are meant; a backslash before it goes with it. -/
def dropDirectoryMark (pattern : Text) : Text × Bool :=
  match pattern.reverse with
  | '/' :: '\\' :: reversed => (reversed.reverse, true)
  | '/' :: reversed => (reversed.reverse, true)
  | _ => (pattern, false)

/-- A pattern without a slash matches in every directory, and one that ends with two stars matches
what stands below a directory but not the directory. -/
def globText (anchored : Bool) (pattern : Text) : Text :=
  let starts := ['*', '*', '/'].isPrefixOf pattern || pattern == ['*', '*']
  let pattern :=
    if !anchored && !pattern.contains '/' && !starts then '*' :: '*' :: '/' :: pattern else pattern
  if ['*', '*', '/'].isPrefixOf pattern.reverse then pattern ++ ['/', '*'] else pattern

/-- The rule on a line. Blank lines, lines that start with a number sign and patterns that cannot be
read are none. An exclamation mark makes a rule that keeps, and a slash at the start ties the pattern
to the directory of the list. -/
def ofLine? (line : Text) : Option IgnoreRule :=
  let line := trimLine line
  if line.head? = some '#' ∨ line.isEmpty then none
  else
    let (keeps, anchored, pattern) : Bool × Bool × Text := match line with
      | '\\' :: '!' :: rest => (false, false, '!' :: rest)
      | '\\' :: '#' :: rest => (false, false, '#' :: rest)
      | '!' :: '/' :: rest => (true, true, rest)
      | '!' :: rest => (true, false, rest)
      | '/' :: rest => (false, true, rest)
      | rest => (false, false, rest)
    let (pattern, onlyDirectories) := dropDirectoryMark pattern
    (Glob.ofText? (globText anchored pattern)).map fun glob => ⟨glob, keeps, onlyDirectories⟩

/-- Holds when a rule is about a path; the path is given by its bytes. -/
def concerns (rule : IgnoreRule) (path : List UInt8) (isDirectory : Bool) : Bool :=
  (!rule.onlyDirectories || isDirectory) && rule.glob.accepts path

end IgnoreRule

/-- The rules of one directory, later ones before earlier ones in force. -/
structure IgnoreList where
  root : Path
  rules : List IgnoreRule

namespace IgnoreList

/-- A path without one leading dot and slash. -/
def withoutHere (path : Path) : Path :=
  (Text.dropStart? ['.', '/'] path).getD path

/-- The rules on some lines, for paths from a root. All globs are compiled together, so when one of them
does not compile there are no rules at all. -/
def ofLines (root : Path) (lines : List Text) : IgnoreList :=
  let rules := lines.filterMap IgnoreRule.ofLine?
  ⟨withoutHere root, if rules.all fun rule => rule.glob.compiles then rules else []⟩

/-- A path as the rules see it: without a leading dot and slash, and without the root when the path
starts with it and is more than a file name. -/
def relative (list : IgnoreList) (path : Path) : Path :=
  let path := withoutHere path
  if Path.sameParts list.root ['.'] || !path.contains '/' then path
  else
    match Text.dropStart? list.root path with
    | none => path
    | some ('/' :: rest) => rest
    | some rest => rest

/-- The last rule that concerns a path decides. -/
def lastVerdict (list : IgnoreList) (path : Path) (isDirectory : Bool) : Verdict :=
  let bytes := Path.bytes path
  match list.rules.reverse.find? fun rule => rule.concerns bytes isDirectory with
  | none => .undecided
  | some rule => if rule.keeps then .kept else .ignored

def verdict (list : IgnoreList) (path : Path) (isDirectory : Bool) : Verdict :=
  list.lastVerdict (list.relative path) isDirectory

/-- What the rules say about a path or, when they say nothing, about the nearest directory above it
that they decide on. -/
def verdictUpwards (list : IgnoreList) (path : Path) (isDirectory : Bool) : Verdict :=
  let path := list.relative path
  (list.lastVerdict path isDirectory).orElse
    (Verdict.firstOf ((Path.ancestors path).map fun above => list.lastVerdict above true))

end IgnoreList

end BranchCatalog
