import BranchCatalog.Text.Utf8

namespace BranchCatalog

/-- A path as it was written; two spellings of one place are different paths. A path may hold bytes that belong
to no character: the last 128 characters stand for such bytes. -/
abbrev Path : Type := Text

namespace Path

/-- The byte that a character stands for in a path, unless it is an ordinary character. -/
def loneByte? (char : Char) : Option UInt8 :=
  if 0x10ff80 ≤ char.toNat then some (UInt8.ofNat (char.toNat - 0x10ff00)) else none

/-- The character that stands for a byte which belongs to no character. -/
def ofLoneByte (byte : UInt8) : Char :=
  Char.ofNat (0x10ff00 + byte.toNat)

def charBytes (char : Char) : List UInt8 :=
  match loneByte? char with
  | some byte => [byte]
  | none => String.utf8EncodeChar char

/-- The bytes by which the system knows a path. -/
def bytes (path : Path) : List UInt8 :=
  path.flatMap charBytes

/-- The path with the given bytes. -/
def ofBytes : List UInt8 → Path
  | [] => []
  | byte :: bytes =>
    let behind := (Text.readChar byte bytes).2
    let read := (byte :: bytes).take (bytes.length + 1 - behind.length)
    match (Text.readChar byte bytes).1.filter fun char => (loneByte? char).isNone with
    | some char => char :: ofBytes behind
    | none => read.map ofLoneByte ++ ofBytes behind
termination_by bytes => bytes.length
decreasing_by all_goals exact Nat.lt_succ_of_le (Text.readChar_length_le byte bytes)

/-- A path as it is shown and recorded: what is not UTF-8 in it is replaced. -/
def shown (path : Path) : Text :=
  Text.decodeLossy (bytes path)

/-- A part of a path: the root, the starting directory, the directory above or a name. -/
inductive Part where
  | root
  | here
  | above
  | name (text : Text)
  deriving DecidableEq

def Part.text : Part → Text
  | root => ['/']
  | here => ['.']
  | above => ['.', '.']
  | name text => text

/-- A piece between slashes that says nothing: an empty one, or a single dot. -/
def isVoid (piece : Text) : Bool :=
  piece.isEmpty || piece == ['.']

/-- The part that a piece between slashes stands for, if it says anything. -/
def partOf? (piece : Text) : Option Part :=
  if isVoid piece then none
  else if piece = ['.', '.'] then some .above
  else some (.name piece)

def isAbsolute (path : Path) : Bool :=
  path.head? == some '/'

/-- The parts of a path. Repeated slashes, a slash at the end and dots that are not the first piece
of a relative path add nothing. -/
def parts (path : Path) : List Part :=
  let pieces := Text.split '/' path
  let start :=
    if isAbsolute path then [Part.root] else if pieces.head? = some ['.'] then [Part.here] else []
  start ++ pieces.filterMap partOf?

/-- Holds when two paths have the same parts. -/
def sameParts (left right : Path) : Bool :=
  parts left == parts right

/-- The parts of a path behind those of another path; all of its parts when it does not start with them. -/
def partsBehind (start path : Path) : List Part :=
  if (parts start).isPrefixOf (parts path) then (parts path).drop (parts start).length else parts path

/-- The last part of a path, when it is a name. -/
def fileName? (path : Path) : Option Text :=
  match (parts path).getLast? with
  | some (.name text) => some text
  | _ => none

/-- What stands after the last dot of the file name; a name whose only dot is its first character
has no extension. -/
def extension? (path : Path) : Option Text :=
  (fileName? path).bind fun name =>
    let pieces := Text.split '.' name
    if pieces.length < 2 ∨ pieces.dropLast = [[]] then none else pieces.getLast?

/-- The starts of a list of pieces that end with a piece that says something, shortest first. -/
def meaningfulStarts (before : List Text) : List Text → List (List Text)
  | [] => []
  | piece :: pieces =>
    let start := before ++ [piece]
    if isVoid piece then meaningfulStarts start pieces else start :: meaningfulStarts start pieces

/-- The paths above a path, nearest first: each leaves out one more part, down to the root or the
empty path. -/
def ancestors (path : Path) : List Path :=
  let starts :=
    if isAbsolute path then meaningfulStarts [] (Text.split '/' (path.drop 1))
    else if path.isEmpty then []
    else
      let pieces := Text.split '/' path
      pieces.take 1 :: meaningfulStarts (pieces.take 1) (pieces.drop 1)
  let written (pieces : List Text) : Path :=
    if isAbsolute path then '/' :: Text.join ['/'] pieces else Text.join ['/'] pieces
  ([] :: starts).dropLast.reverse.map written

/-- The path without its last part; the root and the empty path have none above them. -/
def parent? (path : Path) : Option Path :=
  (ancestors path).head?

/-- The second path as seen from the first; an absolute path stays itself. -/
def joined (base path : Path) : Path :=
  if isAbsolute path then path
  else if base.isEmpty ∨ base.getLast? = some '/' then base ++ path
  else base ++ '/' :: path

end Path

end BranchCatalog
