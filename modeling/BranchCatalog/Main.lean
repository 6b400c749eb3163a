/-
This file is the program: it loads the part of the disk that a command looks at, runs the command,
stores what has changed, and prints what there is to print.
-/

import BranchCatalog.Command.Footprint
import BranchCatalog.Text.Duration

namespace BranchCatalog.Program

def systemName (place : Route) : String :=
  String.ofList (absolutePath place)

def placeOf (name : String) : Route :=
  (Text.split '/' name.toList).foldl Disk.step []

/-- Loads what stands at a place; a file whose content is not read counts as empty. -/
def loadPlace (readsContent : Bool) (disk : Disk) (place : Route) : IO Disk := do
  if (disk.entryAt? place).isSome then return disk
  let .ok real ← (IO.FS.realPath (systemName place)).toBaseIO | return disk
  let .ok found ← real.metadata.toBaseIO | return disk
  match found.type with
  | .dir => return disk.put place .directory
  | .file =>
    if !readsContent then return disk.put place (.file [])
    let content ← IO.FS.readBinFile real
    return disk.put place (.file content.toList)
  | _ => return disk.put place .special

/-- Loads all that is below a place without following links from one directory to another. -/
partial def loadTree (reads : Route → Bool) (disk : Disk) (place : Route) : IO Disk := do
  let .ok real ← (IO.FS.realPath (systemName place)).toBaseIO | return disk
  if !(← real.isDir) then return disk
  let mut disk := disk
  for entry in ← real.readDir do
    let inner := place ++ [entry.fileName.toList]
    disk ← loadPlace (reads inner) disk inner
    let .ok target ← (IO.FS.realPath entry.path).toBaseIO | continue
    if disk.entryAt? inner = some .directory && target == entry.path then
      disk ← loadTree reads disk inner
  return disk

/-- Loads a footprint: its places with all that leads to them, and its trees with the ignore files
that are above them. -/
def loadFootprint (reads : Route → Bool) (footprint : Footprint) (disk : Disk) : IO Disk := do
  let mut disk := disk
  for path in footprint.places ++ footprint.trees do
    for place in disk.placesOn path do
      disk ← loadPlace true disk place
  if let some place := disk.userIgnore then
    disk ← loadPlace true disk place
  for path in footprint.trees do
    if let .ok place := disk.locate path then
      for ignored in ignorePlacesAbove place do
        disk ← loadPlace true disk ignored
      disk ← loadTree reads disk place
  return disk

/-- Loads what an invocation looks at: first its settings, then what they and the options name, and
then the sources on its list. -/
def loadFor (invocation : Invocation) (disk : Disk) : IO Disk := do
  let disk ← loadFootprint (fun _ => true) ⟨[invocation.settings], []⟩ disk
  let reads := invocation.readsContent disk
  let disk ← loadFootprint reads (invocation.footprint disk) disk
  loadFootprint reads ⟨(invocation.footprint disk).places, []⟩ disk

/-- Stores a change of the disk. -/
def storeChange : Route × Option Entry → IO Unit
  | (place, none) => IO.FS.removeFile (systemName place)
  | (place, some .directory) => IO.FS.createDirAll (systemName place)
  | (place, some (.file content)) => IO.FS.writeBinFile (systemName place) ⟨content.toArray⟩
  | (_, some .special) => pure ()

def environment? (name : String) : IO (Option Text) := do
  return (← IO.getEnv name).map String.toList

def userIgnore? : IO (Option Route) := do
  let configured := (← environment? "XDG_CONFIG_HOME").filter (!·.isEmpty)
  let base := configured.or ((← environment? "HOME").map (· ++ "/.config".toList))
  return base.map fun path => placeOf (String.ofList (path ++ "/git/ignore".toList))

def theme : IO Theme := do
  let wishes : ColorWishes :=
    { terminal := ← environment? "TERM"
      unwanted := ← environment? "NO_COLOR"
      switch := ← environment? "CLICOLOR"
      forced := ← environment? "CLICOLOR_FORCE" }
  return .ofTerminal (← (← IO.getStdout).isTty) wishes

end BranchCatalog.Program

open BranchCatalog in
def main (arguments : List String) : IO UInt32 := do
  let arguments := arguments.map String.toList
  let place := Program.placeOf (← IO.currentDir).toString
  let rooted : Disk := { Disk.empty with workingDirectory := place, userIgnore := ← Program.userIgnore? }
  let disk ← match Arguments.read arguments with
    | .ok invocation => Program.loadFor invocation rooted
    | .error _ => pure rooted
  let session := Session.start disk (← Program.theme) (← Program.environment? "TREEINFO_QUIET")
  let started ← IO.monoMsNow
  let outcome := runProgram arguments session
  for change in disk.changes outcome.session.disk do
    Program.storeChange change
  let elapsed := Duration.written ((← IO.monoMsNow) - started)
  let output := outcome.session.output.flatMap (Printed.render elapsed)
  (← IO.getStdout).putStr (String.ofList output)
  (← IO.getStderr).putStr (String.ofList outcome.session.errors)
  return outcome.code.toUInt32
