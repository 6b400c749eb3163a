import BranchCatalog.Path

namespace BranchCatalog

/-- The commands; an option that is not given is left to the settings. -/
inductive Command where
  | init (force : Bool)
  | scan (paths : List Path) (list database : Option Path)
  | csv (database output : Option Path)
  | html (database output : Option Path) (template : Option Text)
  | stats (database : Option Path) (format : Option Text)
  deriving DecidableEq, Repr

/-- A command together with the options that all commands share. -/
structure Invocation where
  verbose : Bool
  settingsPath : Option Path
  quiet : Bool
  command : Command
  deriving DecidableEq, Repr

/-- The reasons why arguments give no invocation: they ask for help or for the version, or they are
not understood. -/
inductive Refusal where
  | help
  | version
  | misuse
  deriving DecidableEq, Repr

inductive OptionName where
  | verbose
  | settings
  | quiet
  | help
  | version
  | force
  | list
  | database
  | output
  | template
  | format
  deriving DecidableEq, Repr

/-- What an option takes: nothing, a path, which cannot be empty, or any text. -/
inductive OptionValue where
  | nothing
  | path
  | text
  deriving DecidableEq, Repr

/-- How an option is written: two dashes and its long name, or one dash and its letter. -/
structure OptionForm where
  name : OptionName
  long : Text
  letter : Option Char
  takes : OptionValue
  deriving DecidableEq, Repr

namespace OptionForm

/-- The options that stand before or after the name of any command. -/
def shared : List OptionForm := [
  ⟨.verbose, "verbose".toList, some 'v', .nothing⟩,
  ⟨.settings, "config".toList, some 'c', .path⟩,
  ⟨.quiet, "quiet".toList, some 'q', .nothing⟩,
  ⟨.help, "help".toList, some 'h', .nothing⟩]

/-- The options before the name of the command. -/
def leading : List OptionForm :=
  shared ++ [⟨.version, "version".toList, some 'V', .nothing⟩]

def database : OptionForm :=
  ⟨.database, "database".toList, some 'd', .path⟩

def output : OptionForm :=
  ⟨.output, "output".toList, some 'o', .path⟩

end OptionForm

inductive CommandName where
  | init
  | scan
  | csv
  | html
  | stats
  deriving DecidableEq, Repr

namespace CommandName

def ofText? (name : Text) : Option CommandName :=
  List.lookup name [("init".toList, init), ("scan".toList, scan), ("csv".toList, csv),
    ("html".toList, html), ("stats".toList, stats)]

/-- The options of a command besides those that all commands share. -/
def ownOptions : CommandName → List OptionForm
  | init => [⟨.force, "force".toList, some 'f', .nothing⟩]
  | scan => [⟨.list, "files".toList, some 'f', .path⟩, .database]
  | csv => [.database, .output]
  | html => [.database, .output, ⟨.template, "url-template".toList, some 'u', .text⟩]
  | stats => [.database, ⟨.format, "format".toList, none, .text⟩]

/-- The options after the name of a command. -/
def options (name : CommandName) : List OptionForm :=
  name.ownOptions ++ OptionForm.shared

/-- Only scans take paths without the name of an option before them. -/
def takesPaths (name : CommandName) : Bool :=
  name = scan

end CommandName

structure Given where
  options : List (OptionName × Text)
  paths : List Path
  deriving DecidableEq, Repr

namespace Given

def nothing : Given :=
  ⟨[], []⟩

/-- The value that an option was given; it is empty for options that take nothing. -/
def value? (given : Given) (name : OptionName) : Option Text :=
  given.options.lookup name

def has (given : Given) (name : OptionName) : Bool :=
  (given.value? name).isSome

/-- Takes an option with its value. Requests for help or the version are answered at once, and no
option may be given twice. -/
def takeOption (given : Given) (form : OptionForm) (value : Text) : Except Refusal Given :=
  match form.name with
  | .help => .error .help
  | .version => .error .version
  | name =>
    if given.has name || (form.takes = .path && value.isEmpty) then .error .misuse
    else .ok { given with options := (name, value) :: given.options }

def takePath (given : Given) (path : Path) : Except Refusal Given :=
  if path.isEmpty then .error .misuse else .ok { given with paths := given.paths ++ [path] }

end Given

def CommandName.command (name : CommandName) (given : Given) : Command :=
  match name with
  | init => .init (given.has .force)
  | scan => .scan given.paths (given.value? .list) (given.value? .database)
  | csv => .csv (given.value? .database) (given.value? .output)
  | html => .html (given.value? .database) (given.value? .output) (given.value? .template)
  | stats => .stats (given.value? .database) (given.value? .format)

end BranchCatalog
