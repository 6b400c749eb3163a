import BranchCatalog.Scan.Pattern

namespace BranchCatalog.Scan

/-- A call that adds a branch: the variable of its tree, the branch name, and the text after it. -/
structure BranchCall where
  treeVariable : Text
  name : Text
  rest : Text

/-- A call of `Branch` on a variable, with the branch's quoted name first. -/
def branchCallHere? (text : Text) : Option BranchCall := do
  let (treeVariable, text) ← word? text
  let text ← symbol? ['-', '>'] text
  let text ← symbol? ['B', 'r', 'a', 'n', 'c', 'h'] text
  let text ← symbol? ['('] text
  let (name, text) ← quotedWord? text
  return ⟨treeVariable, name, skipSpaces text⟩

/-- The leftmost call on a line that adds a branch. -/
def branchCall? (line : Text) : Option BranchCall :=
  leftmost? branchCallHere? line

/-- The variable that fills a branch, and the branch's leaf definition. -/
structure BranchArguments where
  valueVariable : Text
  leafDefinition : Text
  deriving DecidableEq, Repr

/-- Reads any spaces and at most one ampersand. -/
def skipReference (text : Text) : Text :=
  match skipSpaces text with
  | '&' :: rest => rest
  | rest => rest

/-- Reads any spaces and then the comma or the parenthesis that ends an argument. -/
def endsArgument (text : Text) : Bool :=
  match skipSpaces text with
  | ',' :: _ => true
  | ')' :: _ => true
  | _ => false

/-- Reads the type at the end of a leaf definition: a slash and a single word character, of which
either may be missing. -/
def leafType (text : Text) : Text × Text :=
  let (slash, text) : Text × Text := match text with
    | '/' :: rest => (['/'], rest)
    | _ => ([], text)
  match text with
  | char :: rest => if Text.isWord char then (slash ++ [char], rest) else (slash, text)
  | [] => (slash, [])

/-- A single value: a variable or its address, then a quoted leaf name and type. -/
def singleValue? (rest : Text) : Option BranchArguments := do
  let rest ← Text.dropStart? [','] rest
  let (valueVariable, rest) ← chain? (skipReference rest)
  let rest ← symbol? [','] rest
  let rest ← symbol? ['"'] rest
  let (leafName, rest) ← word? rest
  let (typeText, rest) := leafType rest
  let rest ← Text.dropStart? ['"'] rest
  if endsArgument rest then some ⟨valueVariable, leafName ++ typeText⟩ else none

/-- An array: a variable, then a quoted leaf name with its length in square brackets and a type. -/
def arrayValue? (rest : Text) : Option BranchArguments := do
  let rest ← Text.dropStart? [','] rest
  let (valueVariable, rest) ← chain? (skipSpaces rest)
  let rest ← symbol? [','] rest
  let rest ← symbol? ['"'] rest
  let (leafName, rest) ← word? rest
  let rest ← Text.dropStart? ['['] rest
  let (length, rest) ← word? rest
  let rest ← Text.dropStart? [']'] rest
  let (typeText, rest) := leafType rest
  let rest ← Text.dropStart? ['"'] rest
  if endsArgument rest then
    some ⟨valueVariable, leafName ++ '[' :: length ++ ']' :: typeText⟩
  else none

/-- A class value: a quoted class name, then a variable or its address. The leaf definition is the
branch name with the quoted class name in parentheses. -/
def classValue? (branchName : Text) (rest : Text) : Option BranchArguments := do
  let rest ← Text.dropStart? [','] rest
  let rest ← symbol? ['"'] rest
  let (className, rest) ← run? (· != '"') rest
  let rest ← Text.dropStart? ['"'] rest
  let rest ← symbol? [','] rest
  let (valueVariable, rest) ← chain? (skipReference rest)
  if endsArgument rest then
    some ⟨valueVariable, branchName ++ " (\"".toList ++ className ++ "\")".toList⟩
  else none

/-- An object: a variable or its address alone. -/
def objectValue? (branchName : Text) (rest : Text) : Option BranchArguments := do
  let rest ← Text.dropStart? [','] rest
  let (valueVariable, rest) ← chain? (skipReference rest)
  if endsArgument rest then some ⟨valueVariable, branchName ++ " (object)".toList⟩ else none

/-- The arguments of a branch call; the first form that fits decides. -/
def BranchCall.arguments? (call : BranchCall) : Option BranchArguments :=
  (singleValue? call.rest).orElse fun _ =>
    (arrayValue? call.rest).orElse fun _ =>
      (classValue? call.name call.rest).orElse fun _ => objectValue? call.name call.rest

end BranchCatalog.Scan
