import BranchCatalog.Disk.Basic
import BranchCatalog.Ignore.Rule
import BranchCatalog.Sources.Basic

namespace BranchCatalog

/-- Built files and the data of version control never create trees. -/
def builtInExcludes : List Text := [
  "target/".toList, "build/".toList, "out/".toList, ".git/".toList, ".svn/".toList,
  "*.root".toList, "*.db".toList, "*.o".toList, "*.so".toList, "*.a".toList, "*.pyc".toList]

/-- The rules of a filter: the built-in excludes and then the given ones. -/
def excludeFilter (root : Path) (excludes : List Text) : IgnoreList :=
  .ofLines root (builtInExcludes ++ excludes)

/-- Holds when the filter leaves a path out, be it for itself or for a directory above it. -/
def IgnoreList.excludes (filter : IgnoreList) (path : Path) (isDirectory : Bool) : Bool :=
  filter.verdictUpwards path isDirectory = .ignored

/-- The ignore files that a directory may hold, the strongest first. -/
def ignoreFiles : List Route :=
  [[".ignore".toList], [".gitignore".toList], [".git".toList, "info".toList, "exclude".toList]]

/-- The pieces of a content between its line feeds. -/
def splitBytes : List UInt8 → List (List UInt8)
  | [] => [[]]
  | byte :: bytes =>
    if byte = 10 then [] :: splitBytes bytes
    else
      match splitBytes bytes with
      | [] => [[byte]]
      | piece :: pieces => (byte :: piece) :: pieces

/-- The lines of an ignore file up to the first that is not UTF-8, without a mark of the byte order at
the start. -/
def ignoreLines (content : List UInt8) : List Text :=
  let pieces := splitBytes content
  let decoded := ((pieces.map Text.decodeUtf8?).takeWhile Option.isSome).filterMap id
  let lines :=
    if decoded.length = pieces.length then Text.linesOfPieces decoded
    else decoded.map Text.dropReturn
  match lines with
  | [] => []
  | first :: others => first.dropWhile (· == '\uFEFF') :: others

/-- The rules in the ignore file at a place, for paths from a directory. -/
def rulesAt (disk : Disk) (place : Route) (directory : Path) : IgnoreList :=
  .ofLines directory <| match disk.entryAt? place with
    | some (.file content) => ignoreLines content
    | _ => []

/-- The rules in a directory, a list for each ignore file; the path is the one that the directory is
known under. -/
def directoryRules (disk : Disk) (place : Route) (path : Path) : List IgnoreList :=
  ignoreFiles.map fun route => rulesAt disk (place ++ route) path

/-- The text of an absolute path. -/
def absolutePath (place : Route) : Path :=
  '/' :: Text.join ['/'] place

/-- The starts of a route that are shorter than it, the longest first. -/
def properStarts (route : Route) : List Route :=
  (List.range route.length).reverse.map route.take

/-- A walk from a root: its place, the rules of the directories in it under their routes from the root,
the rules of the directories above it, nearest first, and the rules of the user. -/
structure Walk where
  root : Path
  place : Route
  rulesBelow : List (Route × List IgnoreList)
  rulesAbove : List (List IgnoreList)
  userRules : IgnoreList

namespace Walk

/-- The path under which a walk reaches a route from its root. -/
def pathOf (root : Path) (route : Route) : Path :=
  if route.isEmpty then root else Path.joined root (Text.join ['/'] route)

/-- The name from a root that is recorded for a path. -/
def nameOf (root path : Path) : Text :=
  Text.join ['/'] ((Path.partsBehind root path).map fun part => Path.shown part.text)

/-- Prepares a walk by reading the ignore files of all directories in question. -/
def start (disk : Disk) (root : Path) (place : Route) : Walk :=
  let directories := (disk.listing place).filterMap fun (route, entry) =>
    if entry = .directory then some route else none
  { root
    place
    rulesBelow := ([] :: directories).map fun route =>
      (route, directoryRules disk (place ++ route) (pathOf root route))
    rulesAbove := (properStarts place).map fun above =>
      directoryRules disk above (absolutePath above)
    userRules := (disk.userIgnore.map fun place => rulesAt disk place []).getD (.ofLines [] []) }

/-- What one kind of ignore file, given by its index, says about a route: the nearest directory that
decides does so. -/
def verdictOf (walk : Walk) (kind : Nat) (route : Route) (isDirectory : Bool) : Verdict :=
  let path := IgnoreList.withoutHere (pathOf walk.root route)
  let below := (properStarts route).filterMap fun above => List.lookup above walk.rulesBelow
  let decideIn (path : Path) (rules : List IgnoreList) : Verdict :=
    (rules[kind]?.map fun list => list.verdict path isDirectory).getD .undecided
  .firstOf (below.map (decideIn path) ++
    walk.rulesAbove.map (decideIn (absolutePath (walk.place ++ route))))

/-- What the ignore files say about a route; a stronger kind of file decides first, and the file of the user
last. -/
def verdict (walk : Walk) (route : Route) (isDirectory : Bool) : Verdict :=
  .firstOf ((List.range ignoreFiles.length).map (fun kind => walk.verdictOf kind route isDirectory) ++
    [walk.userRules.verdict (IgnoreList.withoutHere (pathOf walk.root route)) isDirectory])

/-- A name that starts with a dot is hidden. -/
def isHidden (route : Route) : Bool :=
  (route.getLast?.bind List.head?) = some '.'

/-- A walk passes over what is ignored, and over what is hidden unless it is kept. -/
def passesOver (walk : Walk) (route : Route) (isDirectory : Bool) : Bool :=
  match walk.verdict route isDirectory with
  | .ignored => true
  | .kept => false
  | .undecided => isHidden route

/-- A file is reached when neither it nor any directory on the way to it is passed over. -/
def reaches (walk : Walk) (route : Route) : Bool :=
  !walk.passesOver route false &&
    (properStarts route).all fun above => above.isEmpty || !walk.passesOver above true

end Walk

/-- The name under which a walk takes in standard input. -/
def standardInput : Path :=
  "<stdin>".toList

/-- The accepted sources below a root in the order of their routes, recorded under their names from
the root. A root that is a file is the only source, recorded under its path, and one that is neither a file nor
a directory is found under the empty name. A root of a single dash is standard input, unless it is a file. -/
def walk (disk : Disk) (root : Path) (excludes : List Text) (accepts : Path → Bool) :
    Except Fault (List Source) :=
  let filter := excludeFilter root excludes
  let source? (path : Path) : Option Source :=
    if filter.excludes path false = false ∧ accepts path then some ⟨path, Walk.nameOf root path⟩ else none
  if disk.isFile root then .ok (if accepts root then [.ofPath root] else [])
  else if Path.sameParts root ['-'] then .ok (source? standardInput).toList
  else
    match disk.locate root, disk.lookUp root with
    | .error cause, _ | _, .error cause => .error (.disk (.cannotWalk root cause))
    | .ok place, .ok .directory =>
      let prepared := Walk.start disk root place
      .ok <| (disk.listing place).filterMap fun (route, entry) =>
        if entry ≠ .directory ∧ prepared.reaches route then source? (Walk.pathOf root route) else none
    | _, _ => .ok (source? root).toList

end BranchCatalog
