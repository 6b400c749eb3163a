import BranchCatalog.Event
import BranchCatalog.Path

namespace BranchCatalog

inductive DiskFault where
  | notFound
  | alreadyExists
  | notADirectory
  | isADirectory
  | noSuchDevice
  | notText
  | cannotWalk (root : Path) (cause : DiskFault)
  deriving DecidableEq, Repr

/-- The wording of a disk fault, as the system words it. -/
def DiskFault.message : DiskFault → Text
  | notFound => "No such file or directory (os error 2)".toList
  | alreadyExists => "File exists (os error 17)".toList
  | notADirectory => "Not a directory (os error 20)".toList
  | isADirectory => "Is a directory (os error 21)".toList
  | noSuchDevice => "No such device or address (os error 6)".toList
  | notText => "stream did not contain valid UTF-8".toList
  | cannotWalk root cause =>
    root.shown ++ ": IO error for operation on ".toList ++ root.shown ++ ": ".toList ++ cause.message

/-- The ways in which the store refuses an operation or a stored row cannot be read. -/
inductive StoreFault where
  | danglingReference
  | missingValue (table column : Text)
  | transactionOpen
  | nothingToCommit
  | nothingToRollBack
  | nullReference (index : Nat) (column : Text)
  | lineOutOfRange (value : Int) (index : Nat)
  | notADatabase
  | cannotOpen (path : Path)
  | cannotOpenCompanion
  | cannotReadJournal
  | cannotRemoveLog
  | cannotLock
  deriving DecidableEq, Repr

def StoreFault.message : StoreFault → Text
  | danglingReference => "FOREIGN KEY constraint failed".toList
  | missingValue table column =>
    "NOT NULL constraint failed: ".toList ++ table ++ '.' :: column
  | transactionOpen => "cannot start a transaction within a transaction".toList
  | nothingToCommit => "cannot commit - no transaction is active".toList
  | nothingToRollBack => "cannot rollback - no transaction is active".toList
  | nullReference index column =>
    "Invalid column type Null at index: ".toList ++ Text.decimal index ++ ", name: ".toList ++ column
  | lineOutOfRange value index =>
    "Integer ".toList ++ Text.signed value ++ " out of range at index ".toList ++ Text.decimal index
  | notADatabase => "file is not a database".toList
  | cannotOpen path => "unable to open database file: ".toList ++ path.shown
  | cannotOpenCompanion => "unable to open database file".toList
  | cannotReadJournal | cannotRemoveLog => "disk I/O error".toList
  | cannotLock => "locking protocol".toList

inductive Fault where
  | storage (cause : StoreFault)
  | disk (cause : DiskFault)
  | unreadable (path : Path) (cause : DiskFault)
  | unwritable (path : Path) (cause : DiskFault)
  | unknownTree (location : Location) (tree : Text)
  | unknownBranch (location : Location) (tree branch : Text)
  | missingFilename (entity : Text) (line : Nat)
  | unrecognizedBranch (location : Location) (text : Text)
  | patternTooBig (variableName : Text)
  | invalidTemplate (template : Text)
  deriving DecidableEq, Repr

/-- A character as a pattern that only the character matches. -/
def escapedChar (char : Char) : Text :=
  if "\\.+*?()|[]\x7b\x7d^$#&-~".toList.contains char then ['\\', char] else [char]

def Fault.message : Fault → Text
  | storage cause => "Storage error: ".toList ++ cause.message
  | disk cause => "IO error: ".toList ++ cause.message
  | unreadable path cause => "Failed to read ".toList ++ path.shown ++ ": ".toList ++ cause.message
  | unwritable path cause => "Failed to write ".toList ++ path.shown ++ ": ".toList ++ cause.message
  | unknownTree location tree =>
    location.written ++ ": branch refers to unknown tree '".toList ++ tree ++ ['\'']
  | unknownBranch location tree branch =>
    location.written ++ ": unknown branch '".toList ++ branch ++ "' of tree '".toList ++ tree ++ ['\'']
  | missingFilename entity line =>
    entity ++ " event at line ".toList ++ Text.decimal line ++ " has no source filename".toList
  | unrecognizedBranch location text =>
    location.written ++ ": unrecognized Branch syntax: ".toList ++ text
  | patternTooBig variableName =>
    "Configuration error: bad pattern for ".toList ++ variableName.flatMap escapedChar ++
      ": Compiled regex exceeds size limit of 10485760 bytes.".toList
  | invalidTemplate template =>
    "Invalid URL template: '".toList ++ template ++ "' has no \x7bfile\x7d placeholder".toList

end BranchCatalog
