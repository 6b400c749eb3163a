import BranchCatalog.Command.Fault
import BranchCatalog.Load
import BranchCatalog.Report.Export
import BranchCatalog.Scan.Stream
import BranchCatalog.Sources.Walk
import BranchCatalog.Store.Integrity
import BranchCatalog.Store.OnDisk

namespace BranchCatalog

def Settings.registry (settings : Settings) : Registry :=
  [treeScanner settings.scannedExtensions]

/-- The sources of a scan: those that a list names, and then those below each of the paths. -/
def collectSources (disk : Disk) (settings : Settings) (paths : List Path) (list : Option Path) :
    Except CommandFault (List Source) := do
  let listed ← match list with
    | none => pure []
    | some list => (readSourceList disk list).mapError .other
  let found ← paths.mapM fun path =>
    (walk disk path settings.excludes fun source =>
      (settings.registry.find? source).isSome).mapError (.walking path)
  return listed ++ found.flatten

/-- What a new database holds: what its load has counted, and how many of its rows are orphans. -/
structure Rebuilt where
  counts : LoadCounts
  orphans : Nat
  deriving DecidableEq, Repr

/-- Replaces the database by a new one and loads all that is found in the sources. -/
def rebuild (disk : Disk) (registry : Registry) (sources : List Source) (database : Path) :
    Except CommandFault Rebuilt × Disk :=
  match disk.makeParent database with
  | (.error cause, disk) => (.error (.noDirectory cause), disk)
  | (.ok (), disk) =>
    match disk.createStore database with
    | (.error cause, disk) => (.error (.creating database cause), disk)
    | (.ok opened, disk) =>
      let (outcome, store) :=
        opened.store.load ((EventStream.start registry sources).takeAll disk)
      let rebuilt := match outcome with
        | .error cause => .error (.scanAborted cause)
        | .ok counts => .ok ⟨counts, store.tables.orphanCount⟩
      (rebuilt, disk.closeStore { opened with store })

/-- An export may not be written over the database. -/
def checkDistinct (disk : Disk) (database output : Path) : Except CommandFault Unit :=
  if disk.samePlace database output then .error (.outputIsDatabase output) else .ok ()

/-- Works with the tables of a database that exists; opening makes an empty file a database. -/
def withExisting {Value : Type} (disk : Disk) (database : Path)
    (work : Disk → Tables → Except Fault Value × Disk) : Except CommandFault Value × Disk :=
  if disk.pathExists database then
    match disk.openStore database with
    | (.error cause, disk) => (.error (.opening database cause), disk)
    | (.ok opened, disk) =>
      let (outcome, disk) := work disk opened.store.tables
      (outcome.mapError .other, disk.release opened)
  else (.error (.databaseMissing database), disk)

end BranchCatalog
