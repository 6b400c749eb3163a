import BranchCatalog.Toml.Quoted
import BranchCatalog.Toml.Scalar
import BranchCatalog.Toml.Table

namespace BranchCatalog.Toml

def skipLayout (text : Text) : Text :=
  text.dropWhile isLayout

/-- Skips a comment that starts here; it reaches up to the line end. -/
def skipComment : Text → Text
  | '#' :: rest => rest.dropWhile isPlain
  | text => text

def lineEnd? : Text → Option Text
  | '\n' :: rest => some rest
  | '\r' :: '\n' :: rest => some rest
  | _ => none

/-- Reads what may stand behind an expression: layout, a comment, and a line end or the end of the
document. -/
def expressionEnd? (text : Text) : Option Text :=
  match skipComment (skipLayout text) with
  | [] => some []
  | rest => lineEnd? rest

/-- Skips layout, comments and line ends; the fuel bounds the number of lines. -/
def skipLines : Nat → Text → Text
  | 0, text => text
  | fuel + 1, text =>
    let rest := skipComment (skipLayout text)
    match lineEnd? rest with
    | some after => skipLines fuel after
    | none => rest

/-- Skips layout, comments and line ends. -/
def skipAllLines (text : Text) : Text :=
  skipLines (text.length + 1) text

def isKeyChar (char : Char) : Bool :=
  char.isAlphanum || char == '_' || char == '-'

/-- Reads a key without dots: bare, or quoted on a single line. -/
def readSimpleKey : Text → Option (Text × Text)
  | '"' :: rest => readBasic rest
  | '\'' :: rest => readLiteral rest
  | text =>
    let key := text.takeWhile isKeyChar
    if key.isEmpty then none else some (key, text.drop key.length)

/-- Reads a key with dots as the list of its parts; the fuel bounds their number. -/
def readKeyParts : Nat → Text → Option (List Text × Text)
  | 0, _ => none
  | fuel + 1, text => do
    let (part, rest) ← readSimpleKey (skipLayout text)
    let rest := skipLayout rest
    match rest with
    | '.' :: rest =>
      let (parts, rest) ← readKeyParts fuel rest
      return (part :: parts, rest)
    | _ => return ([part], rest)

/-- Reads a key and the layout around it. -/
def readKey (text : Text) : Option (List Text × Text) :=
  readKeyParts (text.length + 1) text

/-- Reads the values of a list and its closing bracket; the fuel bounds their number. -/
def readItems (readValue : Text → Option (Value × Text)) :
    Nat → Text → Option (List Value × Text)
  | 0, _ => none
  | fuel + 1, text =>
    match skipAllLines text with
    | ']' :: rest => some ([], rest)
    | text => do
      let (value, rest) ← readValue text
      match skipAllLines rest with
      | ',' :: rest =>
        let (values, rest) ← readItems readValue fuel rest
        return (value :: values, rest)
      | ']' :: rest => return ([value], rest)
      | _ => none

/-- Reads the pairs of an inline table and its closing brace; the fuel bounds their number. -/
def readPairs (readValue : Text → Option (Value × Text)) :
    Nat → Entries → Text → Option (Entries × Text)
  | 0, _, _ => none
  | fuel + 1, entries, text => do
    let (path, rest) ← readKey text
    let rest ← Text.dropStart? ['='] rest
    let (value, rest) ← readValue (skipLayout rest)
    let entries ← entries.bindPath path value
    match skipLayout rest with
    | ',' :: rest => readPairs readValue fuel entries rest
    | '\x7d' :: rest => return (entries, rest)
    | _ => none

/-- Reads a value; lists and inline tables nest no deeper than the given depth. -/
def readValue : Nat → Text → Option (Value × Text)
  | depth, text =>
    match text with
    | '"' :: _ | '\'' :: _ => (readQuoted text).map fun (text, rest) => (.text text, rest)
    | '[' :: rest =>
      match depth with
      | 0 => none
      | depth + 1 =>
        (readItems (readValue depth) (rest.length + 1) rest).map fun (values, rest) =>
          (.list values, rest)
    | '\x7b' :: rest =>
      match depth with
      | 0 => none
      | depth + 1 =>
        match skipLayout rest with
        | '\x7d' :: rest => some (.other, rest)
        | rest =>
          (readPairs (readValue depth) (rest.length + 1) [] rest).map fun (_, rest) =>
            (.other, rest)
    | _ =>
      let word := text.takeWhile isScalarChar
      if word = "true".toList then some (.boolean true, text.drop word.length)
      else if word = "false".toList then some (.boolean false, text.drop word.length)
      else (readScalar? text).map fun (_, rest) => (.other, rest)

/-- How deep lists and inline tables may nest. -/
def deepest : Nat :=
  79

/-- A partly read document: all its entries, and the keys of the header that is in force. -/
structure Reading where
  entries : Entries
  header : List Text

/-- Reads one header, or one key with its value, to its end. -/
def readExpression (reading : Reading) (text : Text) : Option (Reading × Text) :=
  match text with
  | '[' :: '[' :: rest => do
    let (path, rest) ← readKey rest
    let rest ← Text.dropStart? [']', ']'] rest
    let entries ← reading.entries.appendTable path
    let rest ← expressionEnd? rest
    return (⟨entries, path⟩, rest)
  | '[' :: rest => do
    let (path, rest) ← readKey rest
    let rest ← Text.dropStart? [']'] rest
    let entries ← reading.entries.openTable path
    let rest ← expressionEnd? rest
    return (⟨entries, path⟩, rest)
  | _ => do
    let (path, rest) ← readKey text
    let rest ← Text.dropStart? ['='] rest
    let (value, rest) ← readValue deepest (skipLayout rest)
    let entries ← Entries.change false (fun _ inner => inner.bindPath path value)
      reading.header .opened reading.entries
    let rest ← expressionEnd? rest
    return ({ reading with entries }, rest)

/-- Reads expressions up to the end of the document; the fuel bounds their number. -/
def readExpressions : Nat → Reading → Text → Option Entries
  | 0, _, _ => none
  | fuel + 1, reading, text =>
    match skipAllLines text with
    | [] => some reading.entries
    | text => do
      let (reading, rest) ← readExpression reading text
      readExpressions fuel reading rest

/-- Reads a document; a mark of the byte order at its start is skipped. -/
def readDocument (text : Text) : Option Entries :=
  let text := (Text.dropStart? ['\uFEFF'] text).getD text
  readExpressions (text.length + 1) ⟨[], []⟩ text

end BranchCatalog.Toml
