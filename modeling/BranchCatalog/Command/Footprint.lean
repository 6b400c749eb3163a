import BranchCatalog.Command.Run

namespace BranchCatalog

/-- Parts of a disk: the files and directories of some paths, and all that is below other paths. -/
structure Footprint where
  places : List Path
  trees : List Path
  deriving DecidableEq, Repr

namespace Invocation

/-- The sources that a list names, as far as the list is known. -/
def listedSources (disk : Disk) (list : Option Path) : List Path :=
  match list.map (readSourceList disk) with
  | some (.ok sources) => sources.map (·.path)
  | _ => []

/-- The part of a disk that an invocation looks at when the settings are the given ones. -/
def footprintWith (invocation : Invocation) (disk : Disk) (settings : Settings) : Footprint :=
  match invocation.command with
  | .init _ => ⟨[], []⟩
  | .scan paths list database =>
    ⟨database.getD settings.databasePath :: list.toList ++ listedSources disk list, paths⟩
  | .csv database output =>
    ⟨[database.getD settings.databasePath, settings.csvOutput output], []⟩
  | .html database output _ =>
    ⟨[database.getD settings.databasePath, settings.htmlOutput output], []⟩
  | .stats database _ => ⟨[database.getD settings.databasePath], []⟩

/-- The settings as far as they are known. -/
def knownSettings (invocation : Invocation) (disk : Disk) : Settings :=
  match Settings.load disk invocation.settings with
  | .ok (some settings) => settings
  | _ => .unset

/-- The part of a disk that an invocation looks at, as far as the known part tells. Once the settings
and then the list of sources are known, nothing more is needed. -/
def footprint (invocation : Invocation) (disk : Disk) : Footprint :=
  let rest := invocation.footprintWith disk (invocation.knownSettings disk)
  { rest with places := invocation.settings :: rest.places }

/-- Holds for the files whose content an invocation may read: sources and ignore files. -/
def readsContent (invocation : Invocation) (disk : Disk) (route : Route) : Bool :=
  let registry := (invocation.knownSettings disk).registry
  (registry.find? (Text.join ['/'] route)).isSome || ignoreFiles.any (·.isSuffixOf route)

end Invocation

/-- The places that the steps of a path lead through, from the start of the path on, and those of the companions
that a store at its end may have. -/
def Disk.placesOn (disk : Disk) (path : Path) : List Route :=
  let pieces := Text.split '/' path
  let places := (List.range (pieces.length + 1)).map fun count =>
    (pieces.take count).foldl Disk.step (disk.startOf path)
  let last := pieces.foldl Disk.step (disk.startOf path)
  places ++ [journalOf last, logOf last, logIndexOf last]

/-- The places of the ignore files that a walk from a place obeys from above it. -/
def ignorePlacesAbove (place : Route) : List Route :=
  (properStarts place).flatMap fun above => ignoreFiles.map (above ++ ·)

/-- The files that one disk holds otherwise than another one, and those that it has lost. -/
def Disk.changes (before after : Disk) : List (Route × Option Entry) :=
  let written := after.entries.filterMap fun (place, entry) =>
    if before.entryAt? place = some entry then none else some (place, some entry)
  let lost := before.entries.filterMap fun (place, _) =>
    if (after.entryAt? place).isNone then some (place, none) else none
  written.mergeSort (fun left right => routePrecedes left.1 right.1) ++ lost

end BranchCatalog
