import BranchCatalog.Disk.Basic

namespace BranchCatalog.Disk

/-- The place that a path for a new file leads to. A path that ends with a slash names a directory,
so no file can be written there. -/
def locateNew (disk : Disk) (path : Path) : Except DiskFault Route := do
  if path.isEmpty then throw .notFound
  let pieces := Text.split '/' path
  let meant := (pieces.reverse.dropWhile List.isEmpty).reverse
  let above ← disk.follow (disk.startOf path) meant.dropLast
  match disk.entryAt? above, meant.getLast? with
  | none, _ => throw .notFound
  | some .directory, none => throw .isADirectory
  | some .directory, some last =>
    if meant.length < pieces.length then throw .isADirectory
    return step above last
  | some _, _ => throw .notADirectory

/-- Writes a whole file; its directory must exist. -/
def write (disk : Disk) (path : Path) (content : List UInt8) : Except DiskFault Disk := do
  let place ← disk.locateNew path
  match disk.entryAt? place with
  | some .directory => throw .isADirectory
  | some .special => throw .noSuchDevice
  | _ => return disk.put place (.file content)

/-- Removes what a path leads to, unless it is a directory. -/
def removeFile (disk : Disk) (path : Path) : Except DiskFault Disk := do
  let place ← disk.locate path
  match disk.entryAt? place with
  | none => throw .notFound
  | some .directory => throw .isADirectory
  | some _ => return disk.remove place

/-- Makes one directory in a directory that exists. -/
def makeDirectory (disk : Disk) (path : Path) : Except DiskFault Disk := do
  if path.isEmpty then throw .notFound
  let meant := ((Text.split '/' path).reverse.dropWhile List.isEmpty).reverse
  let above ← disk.follow (disk.startOf path) meant.dropLast
  match disk.entryAt? above with
  | none => throw .notFound
  | some .directory =>
    let place := (meant.getLast?.map (step above)).getD above
    if (disk.entryAt? place).isSome then throw .alreadyExists
    return disk.put place .directory
  | some _ => throw .notADirectory

/-- A directory that could not be made may be there already. -/
def madeUnless (disk : Disk) (path : Path) (fault : DiskFault) : Except DiskFault Unit :=
  if disk.isDirectory path then .ok () else .error fault

/-- Makes the directory of the first path; when the one above it is missing, that one is made first
from the paths that follow. What has been made stays when a later directory cannot be made. -/
def makeChain (disk : Disk) : List Path → Except DiskFault Unit × Disk
  | [] => (.error .notFound, disk)
  | path :: above =>
    if path.isEmpty then (.ok (), disk)
    else
      match disk.makeDirectory path with
      | .ok made => (.ok (), made)
      | .error .notFound =>
        match disk.makeChain above with
        | (.error fault, disk) => (.error fault, disk)
        | (.ok (), disk) =>
          match disk.makeDirectory path with
          | .ok made => (.ok (), made)
          | .error fault => (disk.madeUnless path fault, disk)
      | .error fault => (disk.madeUnless path fault, disk)

/-- Makes a directory and all directories above it that are missing. -/
def makeDirectories (disk : Disk) (path : Path) : Except DiskFault Unit × Disk :=
  disk.makeChain (path :: Path.ancestors path)

/-- Makes the directory that the file of a path will stand in. -/
def makeParent (disk : Disk) (path : Path) : Except DiskFault Unit × Disk :=
  match Path.parent? path with
  | some above =>
    if above.isEmpty ∨ disk.pathExists above then (.ok (), disk) else disk.makeDirectories above
  | none => (.ok (), disk)

/-- Holds when two paths name one place: when both lead to something their places are compared, and
otherwise their parts. -/
def samePlace (disk : Disk) (left right : Path) : Bool :=
  match disk.canonical? left, disk.canonical? right with
  | some leftPlace, some rightPlace => leftPlace == rightPlace
  | _, _ => Path.sameParts left right

end BranchCatalog.Disk
