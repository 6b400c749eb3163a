import BranchCatalog.Disk.Write
import BranchCatalog.Report.LinkTemplate
import BranchCatalog.Scan.Source
import BranchCatalog.Text.Utf8
import BranchCatalog.Toml.Document

namespace BranchCatalog

/-- The settings, each of which may be left to its default. -/
structure Settings where
  database : Option Path
  urlTemplate : Option Text
  csv : Option Path
  html : Option Path
  extensions : Option (List Text)
  exclude : Option (List Text)
  quiet : Option Bool
  deriving DecidableEq, Repr

/-- The ways in which settings cannot be loaded or stored. -/
inductive SettingsFault where
  | malformed
  | disk (cause : DiskFault)
  | alreadyThere (path : Path)
  deriving DecidableEq, Repr

namespace Settings

def unset : Settings :=
  ⟨none, none, none, none, none, none, none⟩

def defaultPath : Path :=
  "treeinfo.toml".toList

def defaultDatabase : Path :=
  "treeinfo.db".toList

def defaultCsv : Path :=
  "treeinfo.csv".toList

def defaultHtml : Path :=
  "treeinfo.html".toList

def starter : Settings where
  database := some defaultDatabase
  urlTemplate := some LinkTemplate.default.text
  csv := some defaultCsv
  html := some defaultHtml
  extensions := some defaultExtensions
  exclude := some []
  quiet := some false

def databasePath (settings : Settings) : Path :=
  settings.database.getD defaultDatabase

def scannedExtensions (settings : Settings) : List Text :=
  settings.extensions.getD defaultExtensions

def excludes (settings : Settings) : List Text :=
  settings.exclude.getD []

def isQuiet (settings : Settings) : Bool :=
  settings.quiet.getD false

/-- The file that a CSV export writes: the given one, or else that of the settings. -/
def csvOutput (settings : Settings) (output : Option Path) : Path :=
  (output.or settings.csv).getD defaultCsv

def htmlOutput (settings : Settings) (output : Option Path) : Path :=
  (output.or settings.html).getD defaultHtml

def textOf? : Toml.Item → Option Text
  | .value (.text text) => some text
  | _ => none

def textsOf? : Toml.Item → Option (List Text)
  | .value (.list values) => values.mapM fun value => textOf? (.value value)
  | _ => none

def booleanOf? : Toml.Item → Option Bool
  | .value (.boolean value) => some value
  | _ => none

/-- Reads the item of a key. A missing key leaves the setting unset, and an item of the wrong type
cannot be read. -/
def setting? {Value : Type} (entries : Toml.Entries) (read : Toml.Item → Option Value)
    (key : String) : Option (Option Value) :=
  (List.lookup key.toList entries).mapM read

/-- The settings in a document; other keys and tables are passed over. -/
def ofEntries? (entries : Toml.Entries) : Option Settings := do
  let database ← setting? entries textOf? "database"
  let urlTemplate ← setting? entries textOf? "url_template"
  let csv ← setting? entries textOf? "csv"
  let html ← setting? entries textOf? "html"
  let extensions ← setting? entries textsOf? "extensions"
  let exclude ← setting? entries textsOf? "exclude"
  let quiet ← setting? entries booleanOf? "quiet"
  return { database, urlTemplate, csv, html, extensions, exclude, quiet }

/-- Loads the settings from a path; without anything there, no settings are loaded. -/
def load (disk : Disk) (path : Path) : Except SettingsFault (Option Settings) :=
  if disk.pathExists path then
    match disk.read path with
    | .error cause => .error (.disk cause)
    | .ok content =>
      match Text.decodeUtf8? content with
      | none => .error (.disk .notText)
      | some text =>
        match (Toml.readDocument text).bind ofEntries? with
        | none => .error .malformed
        | some settings => .ok (some settings)
  else .ok none

/-- A list of at most one text stands on the line of its key, and a longer one takes a line for each
text. -/
def writeTexts (texts : List Text) : Text :=
  match texts with
  | [] => ['[', ']']
  | [text] => '[' :: Toml.writeQuoted text ++ [']']
  | texts =>
    '[' :: '\n' ::
      (texts.flatMap fun text => "    ".toList ++ Toml.writeQuoted text ++ [',', '\n']) ++ [']']

def writeBoolean (value : Bool) : Text :=
  if value then "true".toList else "false".toList

/-- The line of a setting, or nothing when it is unset. -/
def writeSetting {Value : Type} (key : String) (write : Value → Text) : Option Value → Text
  | some value => key.toList ++ " = ".toList ++ write value ++ ['\n']
  | none => []

/-- The document of the settings. -/
def written (settings : Settings) : Text :=
  writeSetting "database" Toml.writeQuoted settings.database ++
    writeSetting "url_template" Toml.writeQuoted settings.urlTemplate ++
    writeSetting "csv" Toml.writeQuoted settings.csv ++
    writeSetting "html" Toml.writeQuoted settings.html ++
    writeSetting "extensions" writeTexts settings.extensions ++
    writeSetting "exclude" writeTexts settings.exclude ++
    writeSetting "quiet" writeBoolean settings.quiet

/-- Stores the settings at a path; what is there already is only replaced by force. -/
def store (settings : Settings) (disk : Disk) (path : Path) (force : Bool) :
    Except SettingsFault Disk :=
  if disk.pathExists path && !force then .error (.alreadyThere path)
  else
    match disk.write path (Text.encodeUtf8 settings.written) with
    | .error cause => .error (.disk cause)
    | .ok disk => .ok disk

end Settings

/-- The wording of a fault; what exactly is malformed in a document is not told. -/
def SettingsFault.message : SettingsFault → Text
  | malformed => "TOML parse error".toList
  | disk cause => cause.message
  | alreadyThere path =>
    "config already exists at ".toList ++ path.shown ++ " (use --force to overwrite)".toList

end BranchCatalog
