import BranchCatalog.Disk.Write
import BranchCatalog.Store.Archive
import BranchCatalog.Store.Basic

namespace BranchCatalog

/-- A store together with the place of its file; a store without a place is lost when it closes. A store may
have found a log beside its file, which it removes when it closes. -/
structure OpenStore where
  place : Option Route
  store : Store
  logged : Bool

/-- The paths that name no file: their stores live only as long as they are open. -/
def isTransient (path : Path) : Bool :=
  path.isEmpty || path == ":memory:".toList

/-- The place of a companion of a store's file: the name of the file with an ending. -/
def companion (place : Route) (ending : Text) : Route :=
  place.dropLast ++ [place.getLast?.getD [] ++ ending]

def journalOf (place : Route) : Route :=
  companion place "-journal".toList

def logOf (place : Route) : Route :=
  companion place "-wal".toList

def logIndexOf (place : Route) : Route :=
  companion place "-shm".toList

/-- The number of bytes of the absolute path of a place, which has a slash before each name. -/
def pathLength (place : Route) : Nat :=
  (place.flatMap Path.bytes).length + place.length

namespace Disk

/-- Follows the steps of a store's path by their text alone, so a step back undoes the step before
it, whether or not that one leads to a directory. Only a step beyond something else than a directory fails, or
one from a place whose path is too long. -/
def storeSteps (disk : Disk) (place : Route) : List Text → Option Route
  | [] => some place
  | piece :: pieces =>
    let next := step place piece
    let leadsOn : Bool := match disk.entryAt? place with
      | none | some .directory => true
      | some _ => next.length ≤ place.length
    if leadsOn ∧ pathLength place < 512 then disk.storeSteps next pieces else none

/-- The place of a store's file. Its directory exists, it is a file if it is there, and its path leaves room for
the endings of its companions. -/
def storePlace? (disk : Disk) (path : Path) : Option Route := do
  let place ← disk.storeSteps (disk.startOf path) (Text.split '/' path)
  if place.isEmpty ∨ 504 < pathLength place then none
  else
    match disk.entryAt? place.dropLast, disk.entryAt? place with
    | some .directory, none | some .directory, some (.file _) => some place
    | _, _ => none

/-- Takes away what stands at a place, unless it is a directory. -/
def discard (disk : Disk) (place : Route) : Disk :=
  match disk.entryAt? place with
  | none | some .directory => disk
  | some _ => disk.remove place

/-- Takes away what stands at a place, unless it is a directory or an empty file. -/
def sweep (disk : Disk) (place : Route) : Disk :=
  if disk.entryAt? place = some (.file []) then disk else disk.discard place

/-- A journal beside a filled file is taken for that of an interrupted change, unless it starts with a zero. It is
played back and goes away. -/
def playJournal (disk : Disk) (place : Route) : Except StoreFault Disk :=
  match disk.entryAt? (journalOf place) with
  | some .directory => .error .cannotReadJournal
  | some .special => .error .cannotOpenCompanion
  | some (.file (byte :: _)) => .ok (if byte = 0 then disk else disk.remove (journalOf place))
  | _ => .ok disk

/-- Tells whether a filled file has a log beside it that its store works with. -/
def findLog (disk : Disk) (place : Route) : Except StoreFault Bool :=
  match disk.entryAt? (logOf place) with
  | none | some (.file []) => .ok false
  | some .directory | some .special => .error .cannotOpenCompanion
  | some (.file _) =>
    match disk.entryAt? (logIndexOf place) with
    | some .directory => .error .cannotLock
    | some .special => .error .cannotOpenCompanion
    | _ => .ok true

/-- Lets go of a store without writing it; its log goes away together with the index of the log. -/
def release (disk : Disk) (opened : OpenStore) : Disk :=
  match opened.place with
  | some place => if opened.logged then (disk.discard (logOf place)).discard (logIndexOf place) else disk
  | none => disk

/-- Opens the store in a file that holds something. -/
def openFilled (disk : Disk) (place : Route) (content : List UInt8) : Except StoreFault OpenStore × Disk :=
  match disk.playJournal place with
  | .error cause => (.error cause, disk)
  | .ok disk =>
    match disk.findLog place, Archive.read? content with
    | .error cause, _ => (.error cause, disk)
    | .ok logged, some tables => (.ok ⟨some place, .ofTables tables, logged⟩, disk)
    | .ok logged, none => (.error .notADatabase, disk.release ⟨some place, .empty, logged⟩)

/-- Makes an empty file a store. What is left over beside it goes away first. -/
def openEmpty (disk : Disk) (place : Route) : Except StoreFault OpenStore × Disk :=
  let swept := disk.sweep (journalOf place)
  if swept.entryAt? (logOf place) = some .directory then (.error .cannotRemoveLog, swept)
  else
    let cleared := swept.sweep (logOf place)
    if cleared.entryAt? (journalOf place) = some .directory then (.error .cannotOpenCompanion, cleared)
    else
      (.ok ⟨some place, .empty, false⟩,
        (cleared.discard (journalOf place)).put place (.file (Archive.write .empty)))

/-- Opens the store in the file of a path; a missing or empty file becomes an empty store. A missing file is
there before anything else is tried. -/
def openStore (disk : Disk) (path : Path) : Except Fault OpenStore × Disk :=
  if isTransient path then (.ok ⟨none, .empty, false⟩, disk)
  else
    match disk.storePlace? path with
    | none => (.error (.storage (.cannotOpen path)), disk)
    | some place =>
      let (outcome, disk) := match disk.entryAt? place with
        | some (.file (byte :: bytes)) => disk.openFilled place (byte :: bytes)
        | _ => (disk.put place (.file [])).openEmpty place
      (outcome.mapError .storage, disk)

/-- Removes the file of a path, if there is one, and opens an empty store there. The file stays removed
when the store cannot be opened. -/
def createStore (disk : Disk) (path : Path) : Except Fault OpenStore × Disk :=
  match disk.removeFile path with
  | .ok disk => disk.openStore path
  | .error .notFound => disk.openStore path
  | .error cause => (.error (.disk cause), disk)

/-- Closes a store: its file then holds the tables without those changes that an open transaction has
not committed. -/
def closeStore (disk : Disk) (opened : OpenStore) : Disk :=
  match opened.place with
  | some place => (disk.put place (.file (Archive.write opened.store.committed))).release opened
  | none => disk

end Disk

end BranchCatalog
