/-
This file runs commands. A command that fails ends with the code 2 and tells why among the errors.
-/

import BranchCatalog.Command.Arguments
import BranchCatalog.Command.Console
import BranchCatalog.Command.Database
import BranchCatalog.Display.BoxTable

namespace BranchCatalog

namespace Action

/-- The settings at a path, or all defaults when there are none. -/
def loadSettings (path : Path) : Action Settings :=
  ask fun disk =>
    match Settings.load disk path with
    | .error cause => .error (.settings cause)
    | .ok settings => .ok (settings.getD .unset)

/-- Stores the settings that a new settings file starts with. -/
def init (path : Path) (force : Bool) : Action Unit := do
  onDisk fun disk =>
    match Settings.starter.store disk path force with
    | .error cause => (.error (.settings cause), disk)
    | .ok disk => (.ok (), disk)
  success ("Wrote ".toList ++ path.shown)

def tellCounts (counts : LoadCounts) : Action Unit := do
  tell fun theme =>
    [.text (theme.set .success "✅".toList ++ ' ' :: theme.opening .success ++ "Complete in ".toList),
      .elapsed, .text theme.closing]
  let counted (theme : Theme) (icon : Text) (count : Nat) : Text :=
    "  ".toList ++ theme.set .count icon ++ ' ' :: Text.decimal count
  tell fun theme =>
    [.text (counted theme "📄".toList counts.files ++ counted theme "🌳".toList counts.trees ++
      counted theme "🍃".toList counts.branches)]

/-- Builds the database anew from the sources of the list and of the paths. -/
def scan (settings : Settings) (paths : List Path) (list database : Option Path) : Action Unit := do
  let database := database.getD settings.databasePath
  if paths.isEmpty && list.isNone then throw .nothingToScan
  let sources ← ask fun disk => collectSources disk settings paths list
  header "Scanning ROOT TTree sources".toList
  status "📄".toList "Files".toList (Text.decimal sources.length)
  status "🗄️".toList "Database".toList database.shown
  let rebuilt ← onDisk fun disk => rebuild disk settings.registry sources database
  tellCounts rebuilt.counts
  sectionTitle "Summary".toList
  summaryLine "Comments:".toList (Text.decimal rebuilt.counts.comments)
  summaryLine "Assignments:".toList (Text.decimal rebuilt.counts.assignments)
  if rebuilt.counts.duplicateTrees ≠ 0 then
    warn (Text.decimal rebuilt.counts.duplicateTrees ++
      " tree names were declared more than once; see log for locations".toList)
  if rebuilt.orphans ≠ 0 then throw (.orphans rebuilt.orphans)
  success ("Database saved to ".toList ++ database.shown)

def tellRows (rows : Nat) (output : Path) : Action Unit :=
  success ("Wrote ".toList ++ Text.decimal rows ++ " rows to ".toList ++ output.shown)

def csv (settings : Settings) (database output : Option Path) : Action Unit := do
  let database := database.getD settings.databasePath
  let output := settings.csvOutput output
  ask fun disk => checkDistinct disk database output
  let rows ← onDisk fun disk =>
    withExisting disk database fun disk tables => exportCsv disk output tables
  tellRows rows output

/-- The link template of an export: the one given, that of the settings, or the default. -/
def linkTemplate (settings : Settings) (template : Option Text) : Except CommandFault LinkTemplate :=
  match template.or settings.urlTemplate with
  | none => .ok .default
  | some text => (LinkTemplate.ofText text).mapError .other

/-- Exports the database as an HTML table. -/
def html (settings : Settings) (database output : Option Path) (template : Option Text) :
    Action Unit := do
  let database := database.getD settings.databasePath
  let output := settings.htmlOutput output
  ask fun disk => checkDistinct disk database output
  let template ← ask fun _ => linkTemplate settings template
  status "🔗".toList "Links".toList template.text
  let rows ← onDisk fun disk =>
    withExisting disk database fun disk tables => exportHtml disk output tables template
  tellRows rows output

def stats (settings : Settings) (database : Option Path) (format : Option Text) : Action Unit := do
  let database := database.getD settings.databasePath
  let tables ← onDisk fun disk => withExisting disk database fun disk tables => (.ok tables, disk)
  let counts := tables.counts
  if format = some "json".toList then printResult (Statistics.document counts)
  else
    header ("treeinfo statistics (".toList ++ database.shown ++ [')'])
    printResult (BoxTable.draw counts.labelled)
    if counts.orphans ≠ 0 then warn (CommandFault.orphanWarning counts.orphans)

end Action

/-- The path of the settings that an invocation uses. -/
def Invocation.settings (invocation : Invocation) : Path :=
  invocation.settingsPath.getD Settings.defaultPath

/-- Loads the settings for a piece of work; they too can ask for quiet. -/
def Invocation.withSettings (invocation : Invocation) (work : Settings → Action Unit) : Action Unit := do
  let settings ← Action.loadSettings invocation.settings
  Action.hush (invocation.quiet || settings.isQuiet)
  work settings

/-- Runs the command of an invocation. All commands but `init` load the settings first. -/
def Invocation.run (invocation : Invocation) : Action Unit :=
  match invocation.command with
  | .init force => do
    Action.hush invocation.quiet
    Action.init invocation.settings force
  | .scan paths list database =>
    invocation.withSettings fun settings => Action.scan settings paths list database
  | .csv database output =>
    invocation.withSettings fun settings => Action.csv settings database output
  | .html database output template =>
    invocation.withSettings fun settings => Action.html settings database output template
  | .stats database format =>
    invocation.withSettings fun settings => Action.stats settings database format

/-- What a run leaves behind: its code and the session at its end. -/
structure Outcome where
  code : Nat
  session : Session

def Action.outcome (action : Action Unit) (session : Session) : Outcome :=
  match action.run.run session with
  | (.ok (), session) => ⟨0, session⟩
  | (.error fault, session) =>
    ⟨2, ((Action.complain "❌".toList .error fault.message).run session).2⟩

def versionLine : Text :=
  "treeinfo 0.0.1".toList

/-- How the program is called. -/
def usage : List Text :=
  ["Usage: treeinfo [-v] [-q] [-c <config>] <command>".toList, [], "Commands:".toList,
    "  init   [-f]".toList,
    "  scan   [-f <list>] [-d <database>] [<path>...]".toList,
    "  csv    [-d <database>] [-o <output>]".toList,
    "  html   [-d <database>] [-o <output>] [-u <url-template>]".toList,
    "  stats  [-d <database>] [--format text|json]".toList]

/-- Runs the program on its arguments. -/
def runProgram (arguments : List Text) (session : Session) : Outcome :=
  match Arguments.read arguments with
  | .ok invocation => invocation.run.outcome session
  | .error .version => (Action.printResult versionLine).outcome session
  | .error .help => (usage.forM Action.printResult).outcome session
  | .error .misuse =>
    ⟨2, { session with errors := session.errors ++ usage.flatMap (· ++ ['\n']) }⟩

/-- A variable of the environment can only make the console quiet: `1` and `true` do. -/
def isQuietWord (value : Text) : Bool :=
  value = ['1'] || Text.lowerCase value = "true".toList

/-- The session at the start of the program. -/
def Session.start (disk : Disk) (theme : Theme) (quietVariable : Option Text) : Session where
  disk
  theme
  quiet := quietVariable.any isQuietWord
  output := []
  errors := []

end BranchCatalog
