import BranchCatalog.Text.Utf8

namespace BranchCatalog

/-- A glob is built from wildcards, literal bytes, classes, sequences, choices and groups. -/
inductive Glob where
  /-- Matches nothing but the empty path. -/
  | empty
  /-- Matches these bytes. -/
  | literal (bytes : List UInt8)
  /-- Matches one byte that is no slash. -/
  | anyByte
  /-- Matches any bytes up to a slash. -/
  | anyName
  /-- Matches nothing, or any directories with the slash after them. -/
  | leadingDirectories
  /-- Matches a slash, or any directories with the slashes around them. -/
  | innerDirectories
  /-- Matches a slash and everything behind it. -/
  | everythingBelow
  /-- Matches one byte inside, or when negated outside, all of the ranges. -/
  | oneOf (negated : Bool) (ranges : List (UInt8 × UInt8))
  | sequence (first second : Glob)
  | either (first second : Glob)
  /-- Matches what the choices in a pair of braces match. -/
  | group (choices : Glob)
  deriving DecidableEq, Repr

namespace Glob

def slash : UInt8 :=
  47

/-- What may be left after leaving out any number of bytes. -/
def tails : List UInt8 → List (List UInt8)
  | [] => [[]]
  | byte :: bytes => (byte :: bytes) :: tails bytes

/-- What may be left after leaving out bytes that are no slashes. -/
def nameTails : List UInt8 → List (List UInt8)
  | [] => [[]]
  | byte :: bytes => (byte :: bytes) :: if byte = slash then [] else nameTails bytes

/-- What may be left after leaving out bytes up to some slash. -/
def tailsAfterSlash : List UInt8 → List (List UInt8)
  | [] => []
  | byte :: bytes => if byte = slash then bytes :: tailsAfterSlash bytes else tailsAfterSlash bytes

/-- What may be left of a path after a glob has matched its start. -/
def rests : Glob → List UInt8 → List (List UInt8)
  | empty, bytes => [bytes]
  | literal expected, bytes =>
    if expected.isPrefixOf bytes then [bytes.drop expected.length] else []
  | anyByte, byte :: bytes => if byte = slash then [] else [bytes]
  | anyByte, [] => []
  | anyName, bytes => nameTails bytes
  | leadingDirectories, bytes => bytes :: tailsAfterSlash bytes
  | innerDirectories, byte :: bytes =>
    if byte = slash then bytes :: tailsAfterSlash bytes else []
  | innerDirectories, [] => []
  | everythingBelow, byte :: bytes => if byte = slash then tails bytes else []
  | everythingBelow, [] => []
  | oneOf negated ranges, byte :: bytes =>
    if (ranges.any fun range => range.1 ≤ byte && byte ≤ range.2) = negated then [] else [bytes]
  | oneOf _ _, [] => []
  | sequence first second, bytes => ((rests first bytes).flatMap (rests second)).eraseDups
  | either first second, bytes => rests first bytes ++ rests second bytes
  | group choices, bytes => rests choices bytes

/-- A glob matches a path when it can take the whole path. -/
def accepts (glob : Glob) (path : List UInt8) : Bool :=
  (glob.rests path).any List.isEmpty

def inSequence (globs : List Glob) : Glob :=
  globs.foldr sequence empty

/-- Any of the globs; without any it matches nothing but the empty path. -/
def anyOf : List Glob → Glob
  | [] => empty
  | [glob] => glob
  | glob :: globs => either glob (anyOf globs)

/-- The glob for the choices in a pair of braces. -/
def inBraces : List Glob → Glob
  | [] => empty
  | choices => group (anyOf choices)

/-- The number of parts that stand side by side in the regular expression of a glob. -/
def width : Glob → Nat
  | empty => 0
  | literal bytes => bytes.length
  | everythingBelow => 2
  | sequence first second => width first + width second
  | _ => 1

/-- How deep the parts of the regular expression of a glob stand in one another, without the level of
the whole; several parts side by side in a choice are a level, and so are several choices in a group. -/
def depth : Glob → Nat
  | empty => 0
  | literal _ => 0
  | anyByte => 1
  | anyName => 2
  | leadingDirectories => 4
  | innerDirectories => 4
  | everythingBelow => 1
  | oneOf _ ranges => if ranges.length < 2 then 1 else 2
  | sequence first second => max (depth first) (depth second)
  | either first second =>
    max (depth first + if width first < 2 then 0 else 1) (depth second + if width second < 2 then 0 else 1)
  | group (either first second) => depth (either first second) + 2
  | group choice => depth choice + if width choice < 2 then 1 else 2

/-- How deep a regular expression may nest. -/
def deepest : Nat :=
  250

/-- Holds when the regular expression of a glob does not nest too deep to be compiled. Patterns of
so many characters that what they compile to fills megabytes are left out of account. -/
def compiles (glob : Glob) : Bool :=
  depth glob + 1 ≤ deepest

end Glob

end BranchCatalog
