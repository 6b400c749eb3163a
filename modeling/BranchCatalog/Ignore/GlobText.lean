import BranchCatalog.Ignore.Glob

namespace BranchCatalog.Glob

/-- How the text of a class ends: at its closing bracket, never, or with a range whose bounds are in
the wrong order. -/
inductive ClassEnd where
  | closed (ranges : List (Char × Char)) (rest : Text)
  | unclosed
  | reversed

/-- Reads the ranges of a class. A bracket or a dash that comes first stands for itself, and so does
a dash that comes last. -/
def readClass (first inRange : Bool) (ranges : List (Char × Char)) : Text → ClassEnd
  | [] => .unclosed
  | char :: text =>
    if char = ']' ∧ first = false then
      .closed (if inRange then ('-', '-') :: ranges else ranges) text
    else if char = '-' ∧ first = false ∧ inRange = false then readClass false true ranges text
    else
      match inRange, ranges with
      | true, (lowest, _) :: others =>
        if char < lowest then .reversed
        else readClass false false ((lowest, char) :: others) text
      | _, _ => readClass false false ((char, char) :: ranges) text

/-- The bytes of a range of characters. Between characters of several bytes only the last byte of the
first and the first byte of the last span a range. -/
def rangeBytes (range : Char × Char) : List (UInt8 × UInt8) :=
  let single (byte : UInt8) : UInt8 × UInt8 := (byte, byte)
  let lowest := String.utf8EncodeChar range.1
  let highest := String.utf8EncodeChar range.2
  if range.1 = range.2 then lowest.map single
  else
    match lowest.getLast?, highest with
    | some last, next :: others => lowest.dropLast.map single ++ (last, next) :: others.map single
    | _, _ => []

/-- An open brace: the globs before it, and its finished choices. Lists of globs hold the last one
first. -/
structure OpenBrace where
  before : List Glob
  choices : List (List Glob)

/-- A partly read glob: the globs of the choice being read, the open braces around it, whether
brackets still open classes, and the character read last. -/
structure Reading where
  globs : List Glob
  braces : List OpenBrace
  classes : Bool
  previous : Option Char

namespace Reading

def start : Reading :=
  ⟨[], [], true, none⟩

/-- The reading after a character that stands for a glob. -/
def push (reading : Reading) (char : Char) (glob : Glob) : Reading :=
  { reading with globs := glob :: reading.globs, previous := some char }

def pushLiteral (reading : Reading) (char : Char) : Reading :=
  reading.push char (.literal (String.utf8EncodeChar char))

/-- Two stars that stand for no directories are as good as one. -/
def pushStars (reading : Reading) : Reading :=
  (reading.push '*' .anyName).push '*' .anyName

/-- Two stars after a slash take that slash along, unless directories stand there already. -/
def pushDirectories (reading : Reading) (char : Char) (glob : Glob) : Reading :=
  match reading.globs with
  | .leadingDirectories :: _ => { reading with previous := some char }
  | .everythingBelow :: _ => { reading with previous := some char }
  | globs => { reading with globs := glob :: globs.drop 1, previous := some char }

/-- Closes the innermost brace; choices that match nothing in particular are left out. -/
def closeBrace (reading : Reading) : Option Reading :=
  match reading.braces with
  | [] => none
  | brace :: braces =>
    let choices := (reading.globs :: brace.choices).reverse.map fun globs =>
      globs.reverse.filter (· ≠ .empty)
    let choices := (choices.filter fun globs => !globs.isEmpty).map Glob.inSequence
    some { reading with
      globs := Glob.inBraces choices :: brace.before
      braces
      previous := some '\x7d' }

/-- The whole glob, when no brace is open any more. Two stars alone match every path. -/
def finish? (reading : Reading) : Option Glob :=
  if reading.braces.isEmpty then
    match reading.globs with
    | [.leadingDirectories] => some (.sequence .leadingDirectories .anyName)
    | globs => some (.inSequence globs.reverse)
  else none

end Reading

/-- Reads on from a partly read glob. -/
def readFrom (reading : Reading) : Text → Option Glob
  | [] => reading.finish?
  | '?' :: text => readFrom (reading.push '?' .anyByte) text
  | '*' :: '*' :: text =>
    if reading.globs.isEmpty then
      match text with
      | [] => readFrom (reading.push '*' .leadingDirectories) []
      | '/' :: rest => readFrom (reading.push '/' .leadingDirectories) rest
      | char :: rest => readFrom reading.pushStars (char :: rest)
    else if reading.previous ≠ some '/' then readFrom reading.pushStars text
    else
      match text with
      | [] => readFrom (reading.pushDirectories '*' .everythingBelow) []
      | '/' :: rest => readFrom (reading.pushDirectories '/' .innerDirectories) rest
      | char :: rest =>
        if (char = ',' ∨ char = '\x7d') ∧ reading.braces.isEmpty = false then
          readFrom (reading.pushDirectories '*' .everythingBelow) (char :: rest)
        else readFrom reading.pushStars (char :: rest)
  | '*' :: text => readFrom (reading.push '*' .anyName) text
  | '[' :: text =>
    if reading.classes then
      let (negated, inside) : Bool × Text := match text with
        | '!' :: rest => (true, rest)
        | '^' :: rest => (true, rest)
        | _ => (false, text)
      match readClass true false [] inside with
      | .reversed => none
      | .unclosed => readFrom { reading.pushLiteral '[' with classes := false } text
      | .closed ranges rest =>
        if rest.length < text.length then
          readFrom (reading.push ']' (.oneOf negated (ranges.reverse.flatMap rangeBytes))) rest
        else none
    else readFrom (reading.pushLiteral '[') text
  | '\x7b' :: text =>
    readFrom { reading with
      globs := [], braces := ⟨reading.globs, []⟩ :: reading.braces, previous := some '\x7b' } text
  | '\x7d' :: text =>
    match reading.closeBrace with
    | none => none
    | some reading => readFrom reading text
  | ',' :: text =>
    match reading.braces with
    | [] => readFrom (reading.pushLiteral ',') text
    | brace :: braces =>
      readFrom { reading with
        globs := []
        braces := { brace with choices := reading.globs :: brace.choices } :: braces
        previous := some ',' } text
  | '\\' :: text =>
    match text with
    | [] => none
    | char :: rest => readFrom (reading.pushLiteral char) rest
  | char :: text => readFrom (reading.pushLiteral char) text
termination_by text => text.length
decreasing_by all_goals (simp only [List.length_cons]; omega)

/-- Reads a glob; a text with a brace that is not matched, a reversed range or a backslash at its end
is none. -/
def ofText? (text : Text) : Option Glob :=
  readFrom .start text

end BranchCatalog.Glob
