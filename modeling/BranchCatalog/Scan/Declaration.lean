import BranchCatalog.Event
import BranchCatalog.Scan.Pattern

namespace BranchCatalog.Scan

/-- The name of a created tree, the variable that holds it, and the text after its name. -/
structure CreatedTree where
  variableName : Text
  name : Text
  rest : Text

/-- A tree made by a service: a variable, an equals sign, and a call of `make` on some object with
the tree type between angle brackets and the tree's quoted name first. -/
def madeTree? (text : Text) : Option CreatedTree := do
  let (variableName, text) ← word? text
  let text ← symbol? ['='] text
  let (_, text) ← word? (skipSpaces text)
  let text ← symbol? ['-', '>'] text
  let text ← symbol? ['m', 'a', 'k', 'e'] text
  let text ← symbol? ['<'] text
  let text ← symbol? ['T', 'T', 'r', 'e', 'e'] text
  let text ← symbol? ['>'] text
  let text ← symbol? ['('] text
  let (name, text) ← quotedWord? text
  return ⟨variableName, name, skipSpaces text⟩

/-- A tree made by `new`: a variable, an equals sign, and the tree's constructor with its quoted
name first. -/
def newTree? (text : Text) : Option CreatedTree := do
  let (variableName, text) ← word? text
  let text ← symbol? ['='] text
  let text ← symbol? ['n', 'e', 'w'] text
  let text ← symbol? ['T', 'T', 'r', 'e', 'e'] text
  let text ← symbol? ['('] text
  let (name, text) ← quotedWord? text
  return ⟨variableName, name, skipSpaces text⟩

/-- The text up to the last double quote that only spaces keep from a closing parenthesis. -/
def beforeLastClose? : Text → Option Text
  | [] => none
  | char :: rest =>
    match beforeLastClose? rest with
    | some title => some (char :: title)
    | none => if char = '"' ∧ (symbol? [')'] rest).isSome then some [] else none

/-- The title is the second quoted argument; it reaches to the last quote that ends an argument
list on the line. -/
def title? (rest : Text) : Option Text := do
  let rest ← Text.dropStart? [','] rest
  let rest ← symbol? ['"'] rest
  beforeLastClose? rest

/-- The tree that a line creates, if any; without a title of its own it takes the line as title. -/
def declaredTree? (line : Text) : Option TreeFinding :=
  ((leftmost? madeTree? line).or (leftmost? newTree? line)).map fun tree =>
    { name := tree.name
      title := (title? tree.rest).getD (Text.trim line)
      variableName := tree.variableName }

end BranchCatalog.Scan
