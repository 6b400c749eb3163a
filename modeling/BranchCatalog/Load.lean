/-
This file loads events into a store. Each event names its tree and branch; the loader finds their
ids, and takes a tree of the same file before the latest tree of any file.
-/

import BranchCatalog.Store.Basic

namespace BranchCatalog

/-- How much a load has written; a tree is a duplicate when its name was declared before. -/
structure LoadCounts where
  files : Nat
  trees : Nat
  branches : Nat
  comments : Nat
  assignments : Nat
  duplicateTrees : Nat
  deriving DecidableEq, Repr

namespace LoadCounts

def zero : LoadCounts :=
  ⟨0, 0, 0, 0, 0, 0⟩

def addNote (counts : LoadCounts) : NoteKind → LoadCounts
  | .comment => { counts with comments := counts.comments + 1 }
  | .assignment => { counts with assignments := counts.assignments + 1 }

/-- The counts in words; duplicate trees are named only when there are any. -/
def written (counts : LoadCounts) : Text :=
  Text.decimal counts.files ++ " files, ".toList ++ Text.decimal counts.trees ++
    " trees, ".toList ++ Text.decimal counts.branches ++ " branches, ".toList ++
    Text.decimal counts.comments ++ " comments, ".toList ++ Text.decimal counts.assignments ++
    " assignments".toList ++
    (if counts.duplicateTrees = 0 then []
      else " (".toList ++ Text.decimal counts.duplicateTrees ++ " duplicate tree names)".toList)

end LoadCounts

/-- A branch is known by its tree, its name and the variable that it is filled from. -/
structure BranchKey where
  tree : Id
  name : Text
  valueVariable : Text
  deriving DecidableEq, Repr

/-- The loader holds the store and the names it has met, each list with the latest entry first. -/
structure Loader where
  store : Store
  files : List (Text × Id)
  treesInFile : List ((Text × Id) × Id)
  latestTrees : List (Text × Id)
  branches : List (BranchKey × Id)
  counts : LoadCounts

/-- A step of a load keeps what the loader has learnt even when it fails. -/
abbrev Loading : Type → Type := ExceptT Fault (StateM Loader)

namespace Loader

def start (store : Store) : Loader :=
  ⟨store, [], [], [], [], .zero⟩

/-- Finds the id of an event's file and stores the file on its first use. -/
def fileId (event : Event) : Loading Id := do
  if event.filename.isEmpty then
    throw (.missingFilename event.kindName (event.line?.getD 0))
  let loader ← get
  match loader.files.lookup event.filename with
  | some id => return id
  | none =>
    let (id, store) := loader.store.insertFile event.filename
    set { loader with
      store
      files := (event.filename, id) :: loader.files
      counts := { loader.counts with files := loader.counts.files + 1 } }
    return id

/-- The latest tree of a name in the file, or else the latest one in any file. -/
def resolveTree (loader : Loader) (treeName : Text) (file : Id) : Option Id :=
  (loader.treesInFile.lookup (treeName, file)).or (loader.latestTrees.lookup treeName)

/-- The latest branch with a name and value variable of the tree that the tree name resolves to. -/
def resolveBranch (loader : Loader) (treeName branchName valueVariable : Text) (file : Id) :
    Option Id :=
  (loader.resolveTree treeName file).bind fun tree =>
    loader.branches.lookup ⟨tree, branchName, valueVariable⟩

def insert (insertion : Store → Except StoreFault (Id × Store)) : Loading Id := do
  let loader ← get
  match insertion loader.store with
  | .error cause => throw (.storage cause)
  | .ok (id, store) =>
    set { loader with store }
    return id

/-- Stores a tree, which later references to its name find. -/
def applyTree (location : Location) (finding : TreeFinding) (file : Id) : Loading Unit := do
  let known := ((← get).latestTrees.lookup finding.name).isSome
  modify fun loader =>
    { loader with
      counts := { loader.counts with
        duplicateTrees := loader.counts.duplicateTrees + if known then 1 else 0 } }
  let id ← insert (·.insertTree
    ⟨finding.name, finding.title, finding.variableName, file, location.line⟩)
  modify fun loader =>
    { loader with
      treesInFile := ((finding.name, file), id) :: loader.treesInFile
      latestTrees := (finding.name, id) :: loader.latestTrees
      counts := { loader.counts with trees := loader.counts.trees + 1 } }

/-- Stores a branch under the tree that its tree name resolves to. -/
def applyBranch (location : Location) (finding : BranchFinding) (file : Id) : Loading Unit := do
  match (← get).resolveTree finding.treeName file with
  | none => throw (.unknownTree location finding.treeName)
  | some tree =>
    let id ← insert (·.insertBranch
      ⟨tree, finding.name, finding.leafDefinition, finding.valueVariable, file, location.line⟩)
    modify fun loader =>
      { loader with
        branches := (⟨tree, finding.name, finding.valueVariable⟩, id) :: loader.branches
        counts := { loader.counts with branches := loader.counts.branches + 1 } }

/-- Stores a note under the branch that its names resolve to. -/
def applyNote (kind : NoteKind) (location : Location) (finding : NoteFinding) (file : Id) :
    Loading Unit := do
  match (← get).resolveBranch finding.treeName finding.branchName finding.valueVariable file with
  | none => throw (.unknownBranch location finding.treeName finding.branchName)
  | some branch =>
    let _ ← insert (·.insertNote kind ⟨finding.text, branch, file, location.line⟩)
    modify fun loader => { loader with counts := loader.counts.addNote kind }

/-- Applies one event: first its file, then its references, then the row itself. -/
def apply (event : Event) : Loading Unit := do
  let file ← fileId event
  match event with
  | .file _ => return ()
  | .tree location finding => applyTree location finding file
  | .branch location finding => applyBranch location finding file
  | .note kind location finding => applyNote kind location finding file

/-- Applies items in order up to the first failure, be it of a scan or of an event. -/
def applyAll : List (Except Fault Event) → Loading Unit
  | [] => return ()
  | .error fault :: _ => throw fault
  | .ok event :: items => do
    apply event
    applyAll items

end Loader

namespace Store

/-- Loads all items in one transaction; after a failure the store is as it was before. -/
def load (store : Store) (items : List (Except Fault Event)) : Except Fault LoadCounts × Store :=
  match store.begin with
  | .error cause => (.error (.storage cause), store)
  | .ok begun =>
    let (outcome, loader) := (Loader.applyAll items).run.run (Loader.start begun)
    match outcome with
    | .error fault =>
      match loader.store.rollBack with
      | .error cause => (.error (.storage cause), loader.store)
      | .ok restored => (.error fault, restored)
    | .ok () =>
      match loader.store.commit with
      | .error cause => (.error (.storage cause), loader.store)
      | .ok kept => (.ok loader.counts, kept)

end Store

end BranchCatalog
