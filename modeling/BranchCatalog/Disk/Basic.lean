/-
This file defines a disk as a value: the files and directories below a root, and how the text of a
path leads to one of them.
-/

import BranchCatalog.Fault

namespace BranchCatalog

/-- The names that lead from the root to a place. -/
abbrev Route : Type := List Text

/-- What stands at a place. What is neither a file nor a directory, such as a socket, can be removed but neither
read nor written. -/
inductive Entry where
  | file (content : List UInt8)
  | directory
  | special
  deriving DecidableEq, Repr

/-- A disk holds one entry at each of its places. Paths start at its working directory, and the user may keep
an ignore file for all walks on it. -/
structure Disk where
  entries : List (Route × Entry)
  distinct : (entries.map (·.1)).Nodup
  workingDirectory : Route
  userIgnore : Option Route

namespace Disk

def empty : Disk :=
  ⟨[], List.nodup_nil, [], none⟩

/-- What stands at a place; at the root there is always a directory. -/
def entryAt? (disk : Disk) (place : Route) : Option Entry :=
  if place = [] then some .directory else disk.entries.lookup place

/-- The entries without the one at a place. -/
def entriesWithout (disk : Disk) (place : Route) : List (Route × Entry) :=
  disk.entries.filter fun entry => entry.1 ≠ place

theorem distinct_entriesWithout (disk : Disk) (place : Route) :
    ((disk.entriesWithout place).map (·.1)).Nodup :=
  (List.filter_sublist.map _).nodup disk.distinct

/-- Puts an entry at a place, instead of what stood there. -/
def put (disk : Disk) (place : Route) (entry : Entry) : Disk where
  entries := (place, entry) :: disk.entriesWithout place
  distinct := by
    rw [List.map_cons, List.nodup_cons]
    refine ⟨?_, disk.distinct_entriesWithout place⟩
    simp [entriesWithout]
  workingDirectory := disk.workingDirectory
  userIgnore := disk.userIgnore

def remove (disk : Disk) (place : Route) : Disk where
  entries := disk.entriesWithout place
  distinct := disk.distinct_entriesWithout place
  workingDirectory := disk.workingDirectory
  userIgnore := disk.userIgnore

/-- An entry at another place does not matter to a lookup. -/
theorem lookup_cons_of_ne {place other : Route} (entry : Entry) (entries : List (Route × Entry))
    (different : other ≠ place) :
    ((place, entry) :: entries).lookup other = entries.lookup other := by
  have unequal : (other == place) = false := beq_false_of_ne different
  simp only [List.lookup_cons, unequal]

theorem lookup_entriesWithout (disk : Disk) {place other : Route} (different : other ≠ place) :
    (disk.entriesWithout place).lookup other = disk.entries.lookup other := by
  unfold entriesWithout
  induction disk.entries with
  | nil => rfl
  | cons entry entries inductionHypothesis =>
      obtain ⟨found, content⟩ := entry
      by_cases kept : found = place
      · subst kept
        rw [lookup_cons_of_ne content entries different,
          List.filter_cons_of_neg (by simp), inductionHypothesis]
      · rw [List.filter_cons_of_pos (by simpa using kept)]
        by_cases same : other = found
        · subst same
          simp only [List.lookup_cons, BEq.rfl]
        · rw [lookup_cons_of_ne content _ same, lookup_cons_of_ne content _ same,
            inductionHypothesis]

theorem lookup_entriesWithout_self (disk : Disk) (place : Route) :
    (disk.entriesWithout place).lookup place = none := by
  rw [List.lookup_eq_none_iff]
  intro entry member
  have different := (List.mem_filter.mp member).2
  simp only [ne_eq, decide_not, Bool.not_eq_true', decide_eq_false_iff_not] at different
  exact bne_iff_ne.mpr (Ne.symm different)

theorem entryAt?_root (disk : Disk) : disk.entryAt? [] = some .directory := by
  simp [entryAt?]

/-- Only the place itself changes when an entry is put there. -/
theorem entryAt?_put (disk : Disk) (place other : Route) (entry : Entry) (below : place ≠ []) :
    (disk.put place entry).entryAt? other =
      if other = place then some entry else disk.entryAt? other := by
  by_cases same : other = place
  · subst same
    simp only [entryAt?, put, below, if_false, if_true, List.lookup_cons, BEq.rfl]
  · simp only [entryAt?, put, same, if_false, lookup_cons_of_ne _ _ same,
      lookup_entriesWithout disk same]

/-- Only the place itself changes when its entry is taken away. -/
theorem entryAt?_remove (disk : Disk) (place other : Route) (below : place ≠ []) :
    (disk.remove place).entryAt? other =
      if other = place then none else disk.entryAt? other := by
  by_cases same : other = place
  · subst same
    simp [entryAt?, remove, below, lookup_entriesWithout_self]
  · simp [entryAt?, remove, same, lookup_entriesWithout disk same]

/-- Where one step of a path leads from a directory. -/
def step (place : Route) (piece : Text) : Route :=
  if Path.isVoid piece then place
  else if piece = ['.', '.'] then place.dropLast
  else place ++ [piece]

/-- Follows the steps of a path. Each step starts from a directory, and the last one may lead to a
place where nothing stands yet. -/
def follow (disk : Disk) (place : Route) : List Text → Except DiskFault Route
  | [] => .ok place
  | piece :: pieces =>
    match disk.entryAt? place with
    | none => .error .notFound
    | some .directory => disk.follow (step place piece) pieces
    | some _ => .error .notADirectory

def startOf (disk : Disk) (path : Path) : Route :=
  if Path.isAbsolute path then [] else disk.workingDirectory

/-- The place that a path leads to; the empty path leads nowhere. -/
def locate (disk : Disk) (path : Path) : Except DiskFault Route :=
  if path.isEmpty then .error .notFound
  else disk.follow (disk.startOf path) (Text.split '/' path)

def lookUp (disk : Disk) (path : Path) : Except DiskFault Entry := do
  let place ← disk.locate path
  match disk.entryAt? place with
  | some entry => return entry
  | none => throw .notFound

def pathExists (disk : Disk) (path : Path) : Bool :=
  (disk.lookUp path).toBool

def isDirectory (disk : Disk) (path : Path) : Bool :=
  match disk.lookUp path with
  | .ok .directory => true
  | _ => false

def isFile (disk : Disk) (path : Path) : Bool :=
  match disk.lookUp path with
  | .ok (.file _) => true
  | _ => false

/-- The one place of a path that leads to something. -/
def canonical? (disk : Disk) (path : Path) : Option Route :=
  match disk.locate path with
  | .ok place => if (disk.entryAt? place).isSome then some place else none
  | .error _ => none

/-- The content of the file that a path leads to. -/
def read (disk : Disk) (path : Path) : Except DiskFault (List UInt8) := do
  match ← disk.lookUp path with
  | .file content => return content
  | .directory => throw .isADirectory
  | .special => throw .noSuchDevice

/-- The rest of a route that starts with the given one and goes on below it. -/
def below? (place : Route) (route : Route) : Option Route :=
  if place.isPrefixOf route && place.length < route.length then some (route.drop place.length)
  else none

/-- Routes in the order of the bytes of their names; a directory comes before what is below it. -/
def routePrecedes (left right : Route) : Bool :=
  left.map Path.bytes ≤ right.map Path.bytes

/-- The entries below a place under their routes from there, each directory before its content and
neighbours in the order of the bytes of their names. -/
def listing (disk : Disk) (place : Route) : List (Route × Entry) :=
  let found := disk.entries.filterMap fun (route, entry) =>
    (below? place route).map fun rest => (rest, entry)
  found.mergeSort fun left right => routePrecedes left.1 right.1

end Disk

end BranchCatalog
