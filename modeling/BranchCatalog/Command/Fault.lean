import BranchCatalog.Settings

namespace BranchCatalog

/-- The number and the wording of the class of refusals that a refusal of the store belongs to. Rows
that cannot be read have none. -/
def StoreFault.class? : StoreFault → Option (Nat × Text)
  | transactionOpen | nothingToCommit | nothingToRollBack =>
    some (1, "SQL error or missing database".toList)
  | cannotOpen _ | cannotOpenCompanion => some (14, "Unable to open the database file".toList)
  | cannotLock => some (15, "Database lock protocol error".toList)
  | notADatabase => some (26, "File opened that is not a database file".toList)
  | cannotReadJournal => some (266, "Error reading from disk".toList)
  | danglingReference => some (787, "A foreign key constraint failed".toList)
  | missingValue .. => some (1299, "A NOT NULL constraint failed".toList)
  | cannotRemoveLog => some (2570, "I/O error within xDelete of a VFS object".toList)
  | nullReference .. | lineOutOfRange .. => none

/-- What the store tells about a refusal. -/
def StoreFault.chain (fault : StoreFault) : List Text :=
  fault.message :: (fault.class?.map fun (number, wording) =>
    "Error code ".toList ++ Text.decimal number ++ ": ".toList ++ wording).toList

/-- The wording of a fault followed by those of the faults that caused it. -/
def Fault.chain (fault : Fault) : List Text :=
  fault.message :: match fault with
    | storage cause => cause.chain
    | disk cause | unreadable _ cause | unwritable _ cause => [cause.message]
    | _ => []

inductive CommandFault where
  | settings (cause : SettingsFault)
  | outputIsDatabase (output : Path)
  | databaseMissing (database : Path)
  | opening (database : Path) (cause : Fault)
  | nothingToScan
  | walking (root : Path) (cause : Fault)
  | noDirectory (cause : DiskFault)
  | creating (database : Path) (cause : Fault)
  | scanAborted (cause : Fault)
  | orphans (count : Nat)
  | other (cause : Fault)
  deriving DecidableEq, Repr

namespace CommandFault

/-- The number of rows that refer to rows which are not there. -/
def orphanWarning (count : Nat) : Text :=
  Text.decimal count ++ " rows have dangling references".toList

def chain : CommandFault → List Text
  | settings cause => [cause.message]
  | outputIsDatabase output => ["output ".toList ++ output.shown ++ " would overwrite the database".toList]
  | databaseMissing database =>
    ["database ".toList ++ database.shown ++ " not found (run `treeinfo scan` first)".toList]
  | opening database cause => ("opening ".toList ++ database.shown) :: cause.chain
  | nothingToScan => ["nothing to scan: pass source paths or --files <list>".toList]
  | walking root cause => ("walking ".toList ++ root.shown) :: cause.chain
  | noDirectory cause => [cause.message]
  | creating database cause => ("creating ".toList ++ database.shown) :: cause.chain
  | scanAborted cause => "scan aborted, database left empty".toList :: cause.chain
  | orphans count => [orphanWarning count]
  | other cause => cause.chain

def message (fault : CommandFault) : Text :=
  Text.join ": ".toList fault.chain

end CommandFault

end BranchCatalog
